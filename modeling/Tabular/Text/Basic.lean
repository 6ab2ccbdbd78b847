/-!
# Text

Text is a list of characters. Messages are lists of phrases: fixed words between texts that are
put in as they are, so that what a message can contain is read off its phrases.
-/

namespace Tabular

/-- Text is taken apart one character at a time. -/
abbrev Text := List Char

namespace Text

/-- Does `needle` stand somewhere in the text? -/
def includes : (t needle : Text) → Bool
  | [], needle => needle.isEmpty
  | c :: rest, needle => needle.isPrefixOf (c :: rest) || includes rest needle

/-- Remove the characters of a class from both ends. -/
def trimBy (drop : Char → Bool) (t : Text) : Text :=
  ((t.dropWhile drop).reverse.dropWhile drop).reverse

/-- Does the text end with `tail`? -/
def endsWith (t tail : Text) : Bool := tail.reverse.isPrefixOf t.reverse

/-- The pieces between occurrences of a separator; an empty text is one empty piece. -/
def pieces (separator : Char) (t : Text) : List Text := t.splitOn separator

/-- The pieces written with a separator between neighbours. -/
def join (separator : Text) (ts : List Text) : Text := separator.intercalate ts

/-- Does `s` stand before `t`, or equal it, in the order of code points? -/
def precedes : (s t : Text) → Bool
  | [], _ => true
  | _ :: _, [] => false
  | c :: s, d :: t => c.toNat < d.toNat || (c == d && precedes s t)

/-- A text put into a sorted list. -/
def place (t : Text) : List Text → List Text
  | [] => [t]
  | u :: us => if precedes t u then t :: u :: us else u :: place t us

/-- Texts in the order of code points. -/
def sorted (ts : List Text) : List Text := ts.foldr place []

theorem mem_trimBy {drop : Char → Bool} {t : Text} {c : Char} (h : c ∈ trimBy drop t) : c ∈ t := by
  have h₁ := (List.dropWhile_suffix drop).subset (List.mem_reverse.1 h)
  exact (List.dropWhile_suffix drop).subset (List.mem_reverse.1 h₁)

theorem place_perm (t : Text) (us : List Text) : (place t us).Perm (t :: us) := by
  induction us with
  | nil => exact .refl _
  | cons u us ih =>
    unfold place
    split
    · exact .refl _
    · exact (ih.cons u).trans (.swap t u us)

theorem sorted_perm (ts : List Text) : (sorted ts).Perm ts := by
  induction ts with
  | nil => exact .refl _
  | cons t ts ih => exact (place_perm t (sorted ts)).trans (ih.cons t)

@[simp] theorem mem_sorted {t : Text} {ts : List Text} : t ∈ sorted ts ↔ t ∈ ts :=
  (sorted_perm ts).mem_iff

end Text

/-- A part of a message: fixed words, or a text put in as it is. -/
inductive Phrase where
  | words (s : String)
  | data (t : Text)
  deriving DecidableEq, Repr

namespace Phrase

instance : Coe String Phrase := ⟨words⟩
instance : Coe Text Phrase := ⟨data⟩

def text : Phrase → Text
  | words s => s.toList
  | data t => t

end Phrase

/-- What is said about a failure or a success. -/
abbrev Message := List Phrase

/-- A message spelled out. -/
def Message.text (m : Message) : Text := m.flatMap Phrase.text

@[simp] theorem Message.text_nil : Message.text [] = [] := rfl
@[simp] theorem Message.text_cons (p : Phrase) (m : Message) :
    Message.text (p :: m) = p.text ++ Message.text m := rfl
@[simp] theorem Message.text_append (m n : Message) :
    Message.text (m ++ n) = Message.text m ++ Message.text n := List.flatMap_append

end Tabular
