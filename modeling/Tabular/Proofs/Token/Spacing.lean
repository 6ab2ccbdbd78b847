import Tabular.Proofs.Token.Cut

/-!
# Spacing

The tokens of a text cover all of it but for the blanks around them, each of them the stretch that
begins at its place. Any blanks may stand in the place of those: the lexemes stay as they are while
two of them in a row do not touch.
-/

namespace Tabular

namespace Text

/-- Texts with nothing to read. -/
def AllBlank (t : Text) : Prop := ∀ c ∈ t, isBlank c

theorem allBlank_nil : AllBlank [] := nofun

theorem allBlank_cons {c : Char} {t : Text} : AllBlank (c :: t) ↔ isBlank c ∧ AllBlank t :=
  List.forall_mem_cons

/-- No blank is a digit in any script. -/
theorem not_isDigitMark_of_isBlank {c : Char} (h : isBlank c) : isDigitMark c = false := by
  have hapart : ∀ r ∈ blanks, ∀ s ∈ decades ++ otherDigitMarks, r.2 < s.1 ∨ s.2 < r.1 := by
    decide +kernel
  have hboth : isDigitMark c = (decades ++ otherDigitMarks).any
      fun s => s.1 ≤ c.toNat && c.toNat ≤ s.2 := by
    rw [List.any_append]
    rfl
  rw [hboth, List.any_eq_false]
  intro s hs
  obtain ⟨r, hr, hc⟩ := List.any_eq_true.1 h
  have hrs := hapart r hr s hs
  simp only [Bool.and_eq_true, decide_eq_true_eq] at hc ⊢
  omega

end Text

namespace Lexeme

theorem divides_of_isBlank {c : Char} (h : Text.isBlank c) : Divides c where
  word := by
    by_contra hword
    rw [Text.not_isBlank_of_isWordChar (by simpa using hword)] at h
    cases h
  digit := Text.not_isDigitMark_of_isBlank h
  point := by rintro rfl; exact absurd h (by decide)
  equals := by rintro rfl; exact absurd h (by decide)

/-! ## The stretch that a lexeme covers -/

/-- The stretch shows the text of the lexeme, a keyword in any letter case. -/
def SpelledAs : Lexeme → Text → Prop
  | keyword k, piece => Text.SameLetters piece k.text
  | l, piece => piece = l.text

/-- What is read begins with `c` and goes on for as long as it says. -/
abbrev ReadsSpelled (c : Char) (rest : Text) (x : Except CommandFault (Lexeme × Nat)) : Prop :=
  x.Gives (fun r => r.1.SpelledAs (c :: rest.take r.2)) fun _ => True

theorem take_length_takeWhile (p : Char → Bool) (t : Text) :
    t.take (t.takeWhile p).length = t.takeWhile p :=
  (List.prefix_iff_eq_take.1 (List.takeWhile_prefix p)).symm

theorem take_length_fraction (t : Text) : t.take (fraction t).length = fraction t := by
  unfold fraction
  split
  · dsimp only
    split
    · rfl
    · rw [List.length_cons, List.take_succ_cons, take_length_takeWhile]
  · rfl

section Spelled

variable (position : Nat) (c : Char) (rest : Text)

/-- A number is the run of characters that it begins with, and its fraction. -/
theorem run_spelled (p : Char → Bool) :
    ReadsSpelled c rest
      ((readNumber position (c :: rest.takeWhile p) (rest.drop (rest.takeWhile p).length)).map
        fun (l, n) => (l, (rest.takeWhile p).length + n)) := by
  refine Except.gives_map.2 ?_
  unfold readNumber
  dsimp only
  split
  · trivial
  · change c :: rest.take _ = c :: rest.takeWhile p ++ _
    rw [List.take_add, take_length_takeWhile, take_length_fraction]
    rfl

/-- Text that is not taken to its end goes on with what ended it. -/
theorem take_quoted (h : (rest.takeWhile (· != '\'')).length ≠ rest.length) :
    rest.take ((rest.takeWhile (· != '\'')).length + 1) = rest.takeWhile (· != '\'') ++ ['\''] := by
  have hsplit := List.takeWhile_append_dropWhile (p := (· != '\'')) (l := rest)
  have hstop := List.head?_dropWhile_not (· != '\'') rest
  cases hafter : rest.dropWhile (· != '\'') with
  | nil =>
    rw [hafter, List.append_nil] at hsplit
    exact absurd (congrArg List.length hsplit) h
  | cons d after =>
    rw [hafter] at hsplit hstop
    have hd : d = '\'' := by simpa using hstop
    rw [hd] at hsplit
    have hprefix : rest.takeWhile (· != '\'') ++ ['\''] <+: rest := ⟨after, by simpa using hsplit⟩
    have htake := List.prefix_iff_eq_take.1 hprefix
    rw [List.length_append] at htake
    exact htake.symm

theorem readQuoted_spelled : ReadsSpelled '\'' rest (readQuoted position rest) := by
  unfold readQuoted
  dsimp only
  split
  · trivial
  · next hne => exact congrArg ('\'' :: ·) (take_quoted rest hne)

theorem readSigned_spelled : ReadsSpelled c rest (readSigned position c rest) := by
  unfold readSigned
  dsimp only
  split
  · exact run_spelled position c rest _
  · trivial

theorem wordLexeme_spelled {word : Text} (h : ∀ d ∈ word, Text.isWordChar d) :
    (wordLexeme word).SpelledAs word := by
  unfold wordLexeme
  split
  · next k hk =>
    change Text.SameLetters word k.text
    rw [Keyword.text_of_ofWord? hk]
    exact Text.sameLetters_upper h
  · rfl

theorem readWord_spelled (hc : Text.isWordChar c) :
    ReadsSpelled c rest (readWord position c rest) := by
  unfold readWord
  dsimp only
  split
  · exact run_spelled position c rest _
  · change (wordLexeme _).SpelledAs (c :: rest.take _)
    rw [take_length_takeWhile]
    exact wordLexeme_spelled (List.forall_mem_cons.2 ⟨hc, List.all_eq_true.1 List.all_takeWhile⟩)

theorem readSign_spelled : ReadsSpelled c rest (readSign position c rest) := by
  unfold readSign
  dsimp only
  cases rest with
  | nil => split <;> trivial
  | cons d rest =>
    by_cases hd : d = '='
    · subst hd
      split <;> trivial
    · have hequals : ((d :: rest).head? == some '=') = false := by simpa using hd
      rw [hequals]
      split <;> trivial

/-- What is read is spelled by the characters that it takes. -/
theorem read_spelled : ReadsSpelled c rest (read position c rest) := by
  unfold read
  split
  · next hc =>
    rw [hc]
    exact readQuoted_spelled position rest
  split
  · exact readSigned_spelled position c rest
  split
  · next hc => exact readWord_spelled position c rest hc
  · exact readSign_spelled position c rest

end Spelled

end Lexeme

namespace Token

/-! ## Tiles -/

/-- A stretch of a text that a lexeme covers, and the blanks behind it. -/
structure Tile where
  piece : Text
  gap : Text

/-- A text of tiles behind the blanks in front. -/
def laid (front : Text) (tiles : List Tile) : Text :=
  front ++ tiles.flatMap fun i => i.piece ++ i.gap

/-- Nothing but blanks stands between the pieces. -/
structure Spaced (front : Text) (tiles : List Tile) : Prop where
  front : front.AllBlank
  gaps : ∀ i ∈ tiles, i.gap.AllBlank

/-- A piece that is a lexeme by itself, spelled as the lexeme is. -/
structure CutAs (l : Lexeme) (piece : Text) : Prop where
  spelled : l.SpelledAs piece
  alone : lexemes? piece = some [l]

/-- A text that begins at the position is its tokens, each at its place, and blanks. -/
structure Tiling (position : Nat) (t : Text) (ts : List Token) (front : Text) (tiles : List Tile) :
    Prop where
  whole : t = laid front tiles
  spaced : Spaced front tiles
  cut : List.Forall₂ (fun k piece => CutAs k.lexeme piece) ts (tiles.map Tile.piece)
  placed : ∀ n k, ts[n]? = some k → k.position = position + (laid front (tiles.take n)).length

section Tiles

variable {position : Nat} {front rest : Text} {i : Tile} {tiles : List Tile} {ts : List Token}

@[simp] theorem laid_nil (front : Text) : laid front [] = front := List.append_nil _

theorem laid_cons (front : Text) (i : Tile) (tiles : List Tile) :
    laid front (i :: tiles) = front ++ i.piece ++ laid i.gap tiles := by
  simp [laid]

theorem laid_blank (c : Char) (front : Text) (tiles : List Tile) :
    laid (c :: front) tiles = c :: laid front tiles := rfl

/-- A blank in front moves everything on by one place. -/
theorem Tiling.blank {c : Char} {t : Text} (hc : Text.isBlank c)
    (h : Tiling (position + 1) t ts front tiles) :
    Tiling position (c :: t) ts (c :: front) tiles where
  whole := congrArg (c :: ·) h.whole
  spaced := ⟨Text.allBlank_cons.2 ⟨hc, h.spaced.front⟩, h.spaced.gaps⟩
  cut := h.cut
  placed := by
    intro n k hk
    rw [h.placed n k hk, laid_blank, List.length_cons]
    omega

/-- A token that begins the text takes the piece up to the rest of it. -/
theorem Tiling.cons {l : Lexeme} {piece : Text} (hl : CutAs l piece)
    (h : Tiling (position + piece.length) rest ts front tiles) :
    Tiling position (piece ++ rest) (⟨l, position⟩ :: ts) [] (⟨piece, front⟩ :: tiles) where
  whole := by rw [h.whole, laid_cons, List.nil_append]
  spaced := ⟨Text.allBlank_nil, List.forall_mem_cons.2 ⟨h.spaced.front, h.spaced.gaps⟩⟩
  cut := .cons hl h.cut
  placed := by
    rintro (_ | n) k hk
    · cases hk
      rfl
    · rw [h.placed n k hk, List.take_succ_cons, laid_cons, List.nil_append, List.length_append,
        Nat.add_assoc]

/-- What is read is the same lexeme where the text ends behind it. -/
theorem cutAs_of_read {c : Char} {n : Nat} {l : Lexeme} (hc : Text.isBlank c = false)
    (h : Lexeme.read position c rest = .ok (l, n)) : CutAs l (c :: rest.take n) where
  spelled := (Lexeme.read_spelled position c rest).of_ok h
  alone := by
    have hdrop : (rest.take n).drop n = [] := List.drop_of_length_le (List.length_take_le n rest)
    rw [lexemes?_cons hc position, Lexeme.read_take h (Nat.le_refl n)]
    change (lexemes? ((rest.take n).drop n)).map _ = _
    rw [hdrop, lexemes?_nil]
    rfl

/-- The tokens of a text tile it. -/
theorem exists_tiling {t : Text} (h : scanFrom position t = .ok ts) :
    ∃ front tiles, Tiling position t ts front tiles := by
  induction hn : t.length using Nat.strongRecOn generalizing position t ts with
  | ind n ih =>
    subst hn
    cases t with
    | nil =>
      rw [scanFrom_nil] at h
      cases h
      exact ⟨[], [], rfl, ⟨Text.allBlank_nil, nofun⟩, .nil, nofun⟩
    | cons c rest =>
      by_cases hc : Text.isBlank c
      · rw [scanFrom_blank hc] at h
        obtain ⟨front, tiles, htiling⟩ := ih rest.length (by simp) h rfl
        exact ⟨c :: front, tiles, htiling.blank hc⟩
      · rw [scanFrom, if_neg hc] at h
        cases hr : Lexeme.read position c rest with
        | error e => rw [hr] at h; cases h
        | ok r =>
          obtain ⟨l, n⟩ := r
          rw [hr] at h
          obtain ⟨us, hus, rfl⟩ := Except.map_eq_ok_iff.1 h
          have hn : n ≤ rest.length := (Lexeme.read_endsIn rest).of_ok hr
          have hlength : (c :: rest.take n).length = 1 + n := by
            rw [List.length_cons, List.length_take, Nat.min_eq_left hn, Nat.add_comm]
          have hlt : (rest.drop n).length < (c :: rest).length := by
            rw [List.length_drop, List.length_cons]
            omega
          have hcut := cutAs_of_read (by simpa using hc) hr
          obtain ⟨front, tiles, htiling⟩ := ih _ hlt hus rfl
          have hwhole : Tiling position (c :: rest.take n ++ rest.drop n) _ _ _ :=
            Tiling.cons hcut (by rwa [hlength, ← Nat.add_assoc])
          rw [List.cons_append, List.take_append_drop] at hwhole
          exact ⟨[], _, hwhole⟩

/-! ## Other blanks -/

theorem lexemes?_allBlank (h : front.AllBlank) (t : Text) : lexemes? (front ++ t) = lexemes? t := by
  induction front with
  | nil => rfl
  | cons c front ih =>
    obtain ⟨hc, hfront⟩ := Text.allBlank_cons.1 h
    rw [List.cons_append, lexemes?_blank hc, ih hfront]

/-- A piece is the same lexeme before blanks, and it is where the text ends behind it. -/
theorem lexemes?_piece {l : Lexeme} (hl : lexemes? i.piece = some [l]) (hgap : i.gap.AllBlank)
    (t : Text) (h : i.gap = [] → t = []) :
    lexemes? (i.piece ++ (i.gap ++ t)) = (lexemes? t).map (l :: ·) := by
  cases hg : i.gap with
  | nil =>
    rw [h hg, List.append_nil, List.append_nil, hl, lexemes?_nil]
    rfl
  | cons c gap =>
    rw [hg] at hgap
    have hc := (Text.allBlank_cons.1 hgap).1
    rw [List.cons_append, lexemes?_divided (Lexeme.divides_of_isBlank hc) hl, ← List.cons_append,
      lexemes?_allBlank hgap]
    rfl

/-- Pieces with blanks between any two of them have the lexemes that they have by themselves. -/
theorem lexemes?_laid (h : List.Forall₂ (fun k i => CutAs k.lexeme i.piece) ts tiles)
    (hs : Spaced front tiles) (hgaps : ∀ i ∈ tiles.dropLast, i.gap ≠ []) :
    lexemes? (laid front tiles) = some (ts.map lexeme) := by
  induction h generalizing front with
  | nil =>
    have hblank := lexemes?_allBlank hs.front []
    rwa [List.append_nil, lexemes?_nil, ← laid_nil front] at hblank
  | @cons k i ts tiles hk _ ih =>
    obtain ⟨hgap, hrest⟩ := List.forall_mem_cons.1 hs.gaps
    have hlaid : laid front (i :: tiles) = front ++ (i.piece ++ (i.gap ++ laid [] tiles)) := by
      simp [laid]
    have htouch : i.gap = [] → laid [] tiles = [] := by
      intro hnil
      cases tiles with
      | nil => rfl
      | cons j tiles => exact absurd hnil (hgaps i (by simp))
    have hlast : ∀ j ∈ tiles.dropLast, j.gap ≠ [] := by
      intro j hj
      cases tiles with
      | nil => cases hj
      | cons k tiles => exact hgaps j (List.mem_cons_of_mem _ hj)
    rw [hlaid, lexemes?_allBlank hs.front, lexemes?_piece hk.alone hgap _ htouch,
      ih ⟨Text.allBlank_nil, hrest⟩ hlast]
    rfl

end Tiles

/-- The tokens of a text tile it up to its end. In the place of the blanks between them any others
may stand, at least one between any two tokens: the lexemes stay as they are. -/
theorem tiling_of_scan {t : Text} {ts : List Token} (h : scan t = .ok ts) :
    ∃ front tiles, Tiling 1 t ts front tiles ∧ endPosition t = 1 + (laid front tiles).length ∧
      ∀ front' tiles', Spaced front' tiles' → tiles'.map Tile.piece = tiles.map Tile.piece →
        (∀ i ∈ tiles'.dropLast, i.gap ≠ []) →
        ∃ ts', scan (laid front' tiles') = .ok ts' ∧ ts'.map lexeme = ts.map lexeme := by
  obtain ⟨front, tiles, htiling⟩ := exists_tiling h
  refine ⟨front, tiles, htiling, ?_, fun front' tiles' hspaced hpieces hgaps => ?_⟩
  · rw [endPosition, ← htiling.whole, Nat.add_comm]
  · have hcut := htiling.cut
    rw [← hpieces] at hcut
    exact lexemes?_eq_some_iff.1
      (lexemes?_laid (List.forall₂_map_right_iff.1 hcut) hspaced hgaps)

/-- Tokens that touch: behind a keyword in mixed case, an operator, two numbers and two quoted texts
with nothing between them. -/
theorem tiling_of_scan_of_touching :
    let t := "Where a>=1.5+2'x''y'".toList
    let ts : List Token := [⟨.keyword .WHERE, 1⟩, ⟨.identifier ['a'], 7⟩, ⟨.operator .ge, 8⟩,
      ⟨.number "1.5".toList, 10⟩, ⟨.number "+2".toList, 13⟩, ⟨.string ['x'], 15⟩,
      ⟨.string ['y'], 18⟩]
    scan t = .ok ts ∧ ∃ front tiles, Tiling 1 t ts front tiles ∧ endPosition t = 21 ∧
      ∀ front' tiles', Spaced front' tiles' → tiles'.map Tile.piece = tiles.map Tile.piece →
        (∀ i ∈ tiles'.dropLast, i.gap ≠ []) →
        ∃ ts', scan (laid front' tiles') = .ok ts' ∧ ts'.map lexeme = ts.map lexeme := by
  intro t ts
  have hscan : scan t = .ok ts := by decide +kernel
  obtain ⟨front, tiles, htiling, -, hspaced⟩ := tiling_of_scan hscan
  exact ⟨hscan, front, tiles, htiling, rfl, hspaced⟩

end Token

end Tabular
