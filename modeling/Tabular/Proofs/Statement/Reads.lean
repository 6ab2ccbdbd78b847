import Tabular.Proofs.Statement.Form
import Tabular.Proofs.Token.Scanned
import Tabular.Statement.Reader

/-!
# What readers take

A reader is told by the lexemes that it takes off the front of scanned tokens, what it makes of
them, and what may stand behind them. Names, single lexemes and lists are told in this way, and so
is what is read one after the other.
-/

namespace Tabular.Statement.Reader

/-! ## Readers in general -/

section Reads

variable {α β : Type} {G G' : List Lexeme → α → List Lexeme → Prop}
  {H K : List Lexeme → β → List Lexeme → Prop} {m : Reader α}

/-- On scanned tokens the reader takes lexemes off the front and makes something of them exactly if
they are related to it and to the lexemes that are left; it turns tokens down for their form. -/
structure Reads (G : List Lexeme → α → List Lexeme → Prop) (m : Reader α) : Prop where
  run_eq_ok : ∀ {ts a rest}, (∀ t ∈ ts, t.lexeme.IsScanned) → (m.run ts = .ok (a, rest) ↔
    ∃ us, ts = us ++ rest ∧ G (us.map Token.lexeme) a (rest.map Token.lexeme))
  run_eq_error : ∀ {ts e}, m.run ts = .error e → e.OfForm

theorem Reads.congr (h : Reads G m)
    (hG : ∀ {ls a after}, (∀ l ∈ ls, l.IsScanned) → (G ls a after ↔ G' ls a after)) :
    Reads G' m where
  run_eq_ok := by
    intro ts a rest hts
    rw [h.run_eq_ok hts]
    refine exists_congr fun us => and_congr_right fun hus => hG ?_
    rw [List.forall_mem_map]
    exact fun t ht => hts t (by simp [hus, ht])
  run_eq_error := h.run_eq_error

/-- A reader that takes all tokens. -/
theorem Reads.run_eq_ok_nil (h : Reads G m) {ts : List Token} {a : α}
    (hts : ∀ t ∈ ts, t.lexeme.IsScanned) :
    m.run ts = .ok (a, []) ↔ G (ts.map Token.lexeme) a [] := by
  rw [h.run_eq_ok hts]
  simp

theorem reads_pure (a : α) : Reads (fun ls b _ => ls = [] ∧ b = a) (pure a : Reader α) where
  run_eq_ok := by
    intro ts b rest _
    change Except.ok (a, ts) = .ok (b, rest) ↔ _
    constructor
    · rintro ⟨⟩
      exact ⟨[], rfl, rfl, rfl⟩
    · rintro ⟨us, rfl, hus, rfl⟩
      rw [List.map_eq_nil_iff.1 hus]
      rfl
  run_eq_error h := by cases h

theorem reads_refuse (fault : Found → CommandFault) :
    Reads (fun _ _ _ => False) (refuse fault : Reader α) where
  run_eq_ok := by
    intro ts b rest _
    change Except.error _ = Except.ok _ ↔ _
    simp
  run_eq_error h := by cases h; trivial

theorem reads_bind {f : α → Reader β} {H : α → List Lexeme → β → List Lexeme → Prop}
    (hm : Reads G m) (hf : ∀ a, Reads (H a) (f a)) :
    Reads (fun ls b after => ∃ ks ms a, ls = ks ++ ms ∧ G ks a (ms ++ after) ∧ H a ms b after)
      (m >>= f) where
  run_eq_ok := by
    intro ts b rest hts
    rw [StateT.run_bind, Except.bind_eq_ok_iff]
    constructor
    · rintro ⟨⟨a, us⟩, ha, hb⟩
      obtain ⟨ks, rfl, hG⟩ := (hm.run_eq_ok hts).1 ha
      obtain ⟨ms, rfl, hH⟩ := ((hf a).run_eq_ok fun t ht => hts t (by simp [ht])).1 hb
      exact ⟨ks ++ ms, by simp, _, _, a, List.map_append, by simpa using hG, hH⟩
    · rintro ⟨us, rfl, ks, ms, a, hus, hG, hH⟩
      obtain ⟨ks, ms, rfl, rfl, rfl⟩ := List.map_eq_append_iff.1 hus
      refine ⟨(a, ms ++ rest), (hm.run_eq_ok hts).2 ⟨ks, by simp, by simpa using hG⟩, ?_⟩
      exact ((hf a).run_eq_ok fun t ht => hts t (by simp_all)).2 ⟨ms, rfl, hH⟩
  run_eq_error := by
    intro ts e h
    rw [StateT.run_bind] at h
    cases hr : m.run ts with
    | error e' =>
      rw [hr] at h
      cases h
      exact hm.run_eq_error hr
    | ok r =>
      rw [hr] at h
      exact (hf r.1).run_eq_error h

/-- What is made of what is read. -/
theorem reads_map {g : α → β} (hm : Reads G m) :
    Reads (fun ls b after => ∃ a, G ls a after ∧ b = g a) (m >>= fun a => pure (g a)) := by
  refine (reads_bind hm fun a => reads_pure (g a)).congr fun {ls b after} _ => ?_
  constructor
  · rintro ⟨ks, _, a, rfl, ha, rfl, rfl⟩
    exact ⟨a, by simpa using ha, rfl⟩
  · rintro ⟨a, ha, rfl⟩
    exact ⟨ls, [], a, by simp, ha, rfl, rfl⟩

/-- One lexeme, and what is read behind it. -/
theorem reads_one {p : Lexeme → α → Prop} {f : α → Reader β}
    {H : α → List Lexeme → β → List Lexeme → Prop}
    (hm : Reads (fun ls a _ => ∃ l, ls = [l] ∧ p l a) m) (hf : ∀ a, Reads (H a) (f a)) :
    Reads (fun ls b after => ∃ l ms a, ls = l :: ms ∧ p l a ∧ H a ms b after) (m >>= f) := by
  refine (reads_bind hm hf).congr fun {ls b after} _ => ?_
  constructor
  · rintro ⟨_, ms, a, rfl, ⟨l, rfl, hl⟩, hb⟩
    exact ⟨l, ms, a, rfl, hl, hb⟩
  · rintro ⟨l, ms, a, rfl, hl, hb⟩
    exact ⟨[l], ms, a, rfl, ⟨l, rfl, hl⟩, hb⟩

/-- A lexeme that has to stand at the front, and what is read behind it. -/
theorem reads_behind {l : Lexeme} {m : Reader Unit} {f : Unit → Reader β}
    (hm : Reads (fun ls _ _ => ls = [l]) m) (hf : Reads H (f ())) :
    Reads (fun ls b after => ∃ ms, ls = l :: ms ∧ H ms b after) (m >>= f) := by
  refine (reads_bind hm fun _ => hf).congr fun {ls b after} _ => ?_
  constructor
  · rintro ⟨_, ms, -, rfl, rfl, hb⟩
    exact ⟨ms, rfl, hb⟩
  · rintro ⟨ms, rfl, hb⟩
    exact ⟨[l], ms, (), rfl, rfl, hb⟩

theorem reads_take (f : Lexeme → Option α) (fault : Found → CommandFault) :
    Reads (fun ls a _ => ∃ l, ls = [l] ∧ f l = some a) (take f fault) where
  run_eq_ok := by
    intro ts a rest _
    cases ts with
    | nil =>
      change Except.error _ = Except.ok _ ↔ _
      simp only [reduceCtorEq, false_iff]
      rintro ⟨us, hus, l, hl, -⟩
      cases (List.append_eq_nil_iff.1 hus.symm).1
      cases hl
    | cons t ts =>
      constructor
      · intro h
        cases hb : f t.lexeme with
        | none => rw [run_take_of_none hb] at h; cases h
        | some b =>
          rw [run_take_of_some hb] at h
          cases h
          exact ⟨[t], rfl, t.lexeme, rfl, hb⟩
      · rintro ⟨us, hus, l, hl, hf⟩
        obtain ⟨u, rfl, rfl⟩ := List.map_eq_singleton_iff.1 hl
        cases hus
        exact run_take_of_some hf rest
  run_eq_error := by
    intro ts e h
    cases ts with
    | nil => cases h; trivial
    | cons t ts =>
      cases ha : f t.lexeme with
      | none => rw [run_take_of_none ha] at h; cases h; trivial
      | some a => rw [run_take_of_some ha] at h; cases h

/-- A lexeme that may stand at the front decides how to go on. -/
theorem reads_accept {l : Lexeme} {f : Bool → Reader β} (ht : Reads H (f true))
    (hf : Reads K (f false)) :
    Reads (fun ls b after => (∃ ms, ls = l :: ms ∧ H ms b after) ∨
      (ls ++ after).head? ≠ some l ∧ K ls b after) (accept l >>= f) where
  run_eq_ok := by
    intro ts b rest hts
    rw [StateT.run_bind]
    cases ts with
    | nil =>
      change (f false).run [] = _ ↔ _
      rw [hf.run_eq_ok hts]
      constructor
      · rintro ⟨us, hus, hK⟩
        obtain ⟨rfl, rfl⟩ := List.append_eq_nil_iff.1 hus.symm
        exact ⟨[], rfl, .inr ⟨by simp, hK⟩⟩
      · rintro ⟨us, hus, h⟩
        obtain ⟨rfl, rfl⟩ := List.append_eq_nil_iff.1 hus.symm
        obtain ⟨ms, hms, -⟩ | ⟨-, hK⟩ := h
        · cases hms
        · exact ⟨[], rfl, hK⟩
    | cons t ts =>
      have hts' : ∀ t ∈ ts, t.lexeme.IsScanned := fun u hu => hts u (by simp [hu])
      by_cases hl : t.lexeme = l
      · have hr : (accept l).run (t :: ts) = .ok (true, ts) := if_pos hl
        rw [hr]
        change (f true).run ts = _ ↔ _
        rw [ht.run_eq_ok hts']
        constructor
        · rintro ⟨us, rfl, hH⟩
          exact ⟨t :: us, rfl, .inl ⟨_, by rw [List.map_cons, hl], hH⟩⟩
        · rintro ⟨us, hus, ⟨ms, hms, hH⟩ | ⟨hne, -⟩⟩
          · obtain ⟨u, us, rfl, -, rfl⟩ := List.map_eq_cons_iff.1 hms
            cases hus
            exact ⟨us, rfl, hH⟩
          · rw [← List.map_append, ← hus] at hne
            exact absurd (by simp [hl]) hne
      · have hr : (accept l).run (t :: ts) = .ok (false, t :: ts) := if_neg hl
        rw [hr]
        change (f false).run (t :: ts) = _ ↔ _
        rw [hf.run_eq_ok hts]
        refine exists_congr fun us => and_congr_right fun hus => ?_
        have hhead : (us.map Token.lexeme ++ rest.map Token.lexeme).head? = some t.lexeme := by
          rw [← List.map_append, ← hus]
          rfl
        constructor
        · exact fun hK => .inr ⟨by simpa [hhead] using hl, hK⟩
        · rintro (⟨ms, hms, -⟩ | ⟨-, hK⟩)
          · rw [hms] at hhead
            exact absurd (Option.some.inj hhead).symm hl
          · exact hK
  run_eq_error := by
    intro ts e h
    rw [StateT.run_bind] at h
    cases ts with
    | nil => exact hf.run_eq_error h
    | cons t ts =>
      by_cases hl : t.lexeme = l
      · have hr : (accept l).run (t :: ts) = .ok (true, ts) := if_pos hl
        rw [hr] at h
        exact ht.run_eq_error h
      · have hr : (accept l).run (t :: ts) = .ok (false, t :: ts) := if_neg hl
        rw [hr] at h
        exact hf.run_eq_error h

theorem reads_lift {x : Except Rejection α} (hx : ∀ e, x = .error e → e.OfForm) :
    Reads (fun ls a _ => ls = [] ∧ x = .ok a) (liftM x : Reader α) := by
  cases x with
  | error e =>
    have he : (liftM (Except.error e : Except Rejection α) : Reader α) = fun _ => .error e := rfl
    rw [he]
    refine ⟨fun {ts a rest} _ => ?_, fun h => by cases h; exact hx _ rfl⟩
    change Except.error e = Except.ok _ ↔ _
    simp
  | ok a => exact (reads_pure a).congr fun _ => by simp [eq_comm]

end Reads

/-! ## Names -/

section Names

variable {l : Lexeme} {n t : Text}

theorem validate_eq_error {kind : String} {e : Rejection} (h : Name.validate kind n = .error e) :
    e.OfForm := by
  unfold Name.validate at h
  split at h
  · cases h; trivial
  · split at h <;> cases h
    trivial

/-- A scanned lexeme stands for a name exactly if its text is a valid one. -/
theorem name?_eq_some_iff (hl : l.IsScanned) :
    l.name? = some n ↔ nameText? l = some n ∧ Name.isPlain n ∧ Name.isKeyword n = false := by
  cases l with
  | keyword k =>
    simp only [Lexeme.name?, nameText?, reduceCtorEq, Option.some.injEq, false_iff]
    rintro ⟨rfl, -, hk⟩
    rw [Name.isKeyword, Keyword.ofWord?_text] at hk
    cases hk
  | identifier t =>
    simp only [Lexeme.name?, nameText?, Option.some.injEq, iff_self_and]
    rintro rfl
    exact hl
  | number t =>
    simp only [Lexeme.name?, nameText?, Option.some.injEq, Option.ite_none_right_eq_some]
    constructor
    · rintro ⟨hd, rfl⟩
      exact ⟨rfl, Name.isPlain_of_digits hl.1 (by simpa using hd)⟩
    · rintro ⟨rfl, hp, -⟩
      exact ⟨by simpa using hl.2 hp, rfl⟩
  | string t | operator o | mark m => simp [Lexeme.name?, nameText?]

theorem reads_name (kind : String) : Reads (fun ls n _ => IsColumn ls n) (name kind) := by
  refine (reads_one (reads_take nameText? _) fun t =>
    reads_lift fun _ => validate_eq_error).congr fun {ls n after} hls => ?_
  constructor
  · rintro ⟨l, _, t, rfl, hl, rfl, hv⟩
    obtain ⟨rfl, hn⟩ := Name.validate_eq_ok_iff.1 hv
    exact ⟨l, rfl, (name?_eq_some_iff (hls l (by simp))).2 ⟨hl, hn⟩⟩
  · rintro ⟨l, rfl, hl⟩
    obtain ⟨ht, hn⟩ := (name?_eq_some_iff (hls l (by simp))).1 hl
    exact ⟨l, [], n, rfl, ht, rfl, Name.validate_eq_ok_iff.2 ⟨rfl, hn⟩⟩

/-- The name of a database or table is put into small letters. -/
theorem reads_lowered (kind : String) :
    Reads (fun ls n _ => ∃ l, ls = [l] ∧ ∃ t, l.name? = some t ∧ n = Text.lower t)
      (do let n ← name kind; (Name.validate kind n).map Text.lower) := by
  refine (reads_one (reads_name kind) fun t => reads_lift fun e he => ?_).congr
    fun {ls n after} hls => ?_
  · cases hv : Name.validate kind t with
    | error e' =>
      rw [hv] at he
      cases he
      exact validate_eq_error hv
    | ok n => rw [hv] at he; cases he
  · constructor
    · rintro ⟨l, _, t, rfl, hl, rfl, hv⟩
      obtain ⟨_, hv', rfl⟩ := Except.map_eq_ok_iff.1 hv
      obtain ⟨rfl, -⟩ := Name.validate_eq_ok_iff.1 hv'
      exact ⟨l, rfl, _, hl, rfl⟩
    · rintro ⟨l, rfl, t, hl, rfl⟩
      have hn := ((name?_eq_some_iff (hls l (by simp))).1 hl).2
      exact ⟨l, [], t, rfl, hl, rfl,
        Except.map_eq_ok_iff.2 ⟨t, Name.validate_eq_ok_iff.2 ⟨rfl, hn⟩, rfl⟩⟩

theorem reads_database :
    Reads (fun ls n _ => ∃ l, ls = [l] ∧ ∃ t, l.name? = some t ∧ n = Text.lower t) database :=
  reads_lowered "database"

theorem reads_table :
    Reads (fun ls n _ => ∃ l, ls = [l] ∧ ∃ t, l.name? = some t ∧ n = Text.lower t) table :=
  reads_lowered "table"

theorem reads_column : Reads (fun ls n _ => IsColumn ls n) column := reads_name "column"

end Names

theorem reads_keyword (k : Keyword) : Reads (fun ls _ _ => ls = [.keyword k]) (keyword k) :=
  (reads_take _ _).congr fun _ => by simp

theorem reads_mark (m : Mark) : Reads (fun ls _ _ => ls = [.mark m]) (mark m) :=
  (reads_take _ _).congr fun _ => by simp

theorem reads_literal : Reads (fun ls v _ => IsLiteral ls v) literal := reads_take _ _

/-! ## Lists -/

section Lists

variable {α : Type} {item : List Lexeme → α → Prop} {m : Reader α}

/-- Of a longer list the first `n + 1` items are read. -/
theorem reads_listWithin (hm : Reads (fun ls a _ => item ls a) m) (n : Nat) :
    Reads (fun ls as after => Series item ls as ∧ as.length ≤ n + 1 ∧
      (as.length ≤ n → after.head? ≠ some (.mark .comma))) (listWithin m n) := by
  induction n with
  | zero =>
    refine (reads_map hm).congr fun {ls as after} _ => ?_
    constructor
    · rintro ⟨a, ha, rfl⟩
      exact ⟨.one ha, by simp, by simp⟩
    · rintro ⟨hs, hn, -⟩
      cases hs with
      | one first => exact ⟨_, first, rfl⟩
      | more first rest => cases rest <;> simp at hn
  | succ n ih =>
    refine (reads_bind hm fun a => reads_accept (reads_map ih) (reads_pure [a])).congr
      fun {ls as after} _ => ?_
    constructor
    · rintro ⟨ks, ms, a, rfl, ha, ⟨ls, rfl, as, ⟨hs, hn, hafter⟩, rfl⟩ | ⟨hafter, rfl, rfl⟩⟩
      · refine ⟨.more ha hs, by simpa using hn, fun h => ?_⟩
        exact hafter (by simpa using h)
      · exact ⟨by simpa using .one ha, by simp, fun _ => by simpa using hafter⟩
    · rintro ⟨hs, hn, hafter⟩
      cases hs with
      | one first =>
        exact ⟨ls, [], _, by simp, first, .inr ⟨by simpa using hafter, rfl, rfl⟩⟩
      | @more ks ms a as first rest =>
        refine ⟨ks, _, a, rfl, first, .inl ⟨ms, rfl, as, ⟨rest, ?_, ?_⟩, rfl⟩⟩
        · simpa using hn
        · simpa using hafter

theorem reads_list (hitem : ∀ ls a, item ls a → ls ≠ []) (hm : Reads (fun ls a _ => item ls a) m) :
    Reads (fun ls as after => Series item ls as ∧ after.head? ≠ some (.mark .comma)) (list m) where
  run_eq_ok := by
    intro ts as rest hts
    change (listWithin m ts.length).run ts = _ ↔ _
    rw [(reads_listWithin hm _).run_eq_ok hts]
    refine exists_congr fun us => and_congr_right fun hus => and_congr_right fun hs => ?_
    -- No item is made of no lexemes.
    have hlength : as.length ≤ ts.length := by
      have := hs.length_le hitem
      rw [List.length_map] at this
      rw [hus, List.length_append]
      omega
    exact ⟨fun h => h.2 hlength, fun h => ⟨by omega, fun _ => h⟩⟩
  run_eq_error := by
    intro ts e h
    exact (reads_listWithin hm ts.length).run_eq_error h

end Lists

end Tabular.Statement.Reader
