import Tabular.Condition
import Tabular.Proofs.Except

/-!
# Conditions in another letter case

Conditions that differ in the letter case of their columns are bound to the same test of the rows,
or both to none. What two computations come to is compared up to the failure, which shows a column
as it is written.
-/

namespace Except

variable {ε δ α β α' β' : Type}

/-- Results that are related, or two failures. -/
inductive Agrees (S : α → α' → Prop) : Except ε α → Except ε α' → Prop
  | ok {a : α} {a' : α'} (h : S a a') : Agrees S (.ok a) (.ok a')
  | error (e e' : ε) : Agrees S (.error e) (.error e')

variable {S : α → α' → Prop} {T : β → β' → Prop} {x : Except ε α} {x' : Except ε α'}

theorem agrees_self {S : α → α → Prop} (hS : ∀ a, S a a) (x : Except ε α) : x.Agrees S x := by
  cases x with
  | error e => exact .error e e
  | ok a => exact .ok (hS a)

theorem agrees_refl (x : Except ε α) : x.Agrees Eq x := agrees_self (fun _ => rfl) x

theorem Agrees.bind {f : α → Except ε β} {f' : α' → Except ε β'} (hx : x.Agrees S x')
    (hf : ∀ a a', S a a' → (f a).Agrees T (f' a')) : (x >>= f).Agrees T (x' >>= f') := by
  cases hx with
  | error e e' => exact .error e e'
  | ok h => exact hf _ _ h

/-- The results are the same, so that one continuation is to be looked at. -/
theorem Agrees.then {x' : Except ε α} {f : α → Except ε β} {f' : α → Except ε β'}
    (hx : x.Agrees Eq x') (hf : ∀ a, (f a).Agrees T (f' a)) : (x >>= f).Agrees T (x' >>= f') :=
  hx.bind fun a _ h => h ▸ hf a

theorem Agrees.mapError (hx : x.Agrees S x') (f : ε → δ) :
    (x.mapError f).Agrees S (x'.mapError f) := by
  cases hx with
  | error e e' => exact .error (f e) (f e')
  | ok h => exact .ok h

end Except

namespace Tabular

/-- Names that refer to the same, whatever their letter case. -/
def Name.Alike (n n' : Text) : Prop := Text.lower n = Text.lower n'

namespace Name

variable {n n' : Text}

theorem Alike.isId (h : Alike n n') : isId n = isId n' := by rw [Name.isId, Name.isId, h]

theorem Alike.find? (h : Alike n n') (columns : List Text) :
    Name.find? columns n = Name.find? columns n' := by
  rw [Name.find?, Name.find?, h]

theorem Alike.resolve (h : Alike n n') (columns : List Text) (table : Text) :
    (Name.resolve columns n table).Agrees Eq (Name.resolve columns n' table) := by
  rw [Name.resolve, Name.resolve, h.find?]
  cases Name.find? columns n' with
  | none => exact .error _ _
  | some i => exact .ok rfl

end Name

namespace Condition

/-- Conditions that differ in the letter case of their columns. -/
inductive Alike : Condition → Condition → Prop
  | compare {n n' : Text} (h : Name.Alike n n') (op : Comparator) (literal : Value) :
    Alike (.compare n op literal) (.compare n' op literal)
  | group (op : Connective) {cs cs' : List Condition} (hl : cs.length = cs'.length)
    (h : ∀ c c', (c, c') ∈ cs.zip cs' → Alike c c') : Alike (.group op cs) (.group op cs')

theorem alike_group {op : Connective} {cs cs' : List Condition} (h : List.Forall₂ Alike cs cs') :
    Alike (.group op cs) (.group op cs') :=
  .group op h.length_eq fun _ _ => List.forall₂_zip h

theorem alike_grouped (op : Connective) {cs cs' : List Condition} (h : List.Forall₂ Alike cs cs') :
    Alike (grouped op cs) (grouped op cs') := by
  cases h with
  | nil => exact alike_group .nil
  | cons hc hcs =>
    cases hcs with
    | nil => exact hc
    | cons hd hds => exact alike_group (.cons hc (.cons hd hds))

variable {columns : List Text} {c c' : Condition}

theorem agrees_bindAll {cs cs' : List Condition}
    (h : List.Forall₂ (fun c c' => (bind columns c).Agrees Eq (bind columns c')) cs cs') :
    (bindAll columns cs).Agrees Eq (bindAll columns cs') := by
  induction h with
  | nil => exact .ok rfl
  | cons hc _ ih => exact hc.then fun _ => ih.then fun _ => .ok rfl

/-- Conditions that are alike are bound to one test. -/
theorem Alike.bind (h : Alike c c') (columns : List Text) :
    (bind columns c).Agrees Eq (bind columns c') := by
  induction h with
  | compare h op literal =>
    exact ((h.resolve columns []).mapError _).then fun _ =>
      (Except.agrees_refl _).then fun _ => .ok rfl
  | group op hl _ ih =>
    have hall := agrees_bindAll (List.forall₂_iff_zip.2 ⟨hl, fun {c c'} hcc => ih c c' hcc⟩)
    exact hall.then fun _ => .ok rfl

theorem agrees_bindOptional {c c' : Option Condition} (h : Option.Rel Alike c c')
    (columns : List Text) : (bindOptional columns c).Agrees Eq (bindOptional columns c') := by
  cases h with
  | none => exact .ok rfl
  | some h => exact h.bind columns

end Condition

end Tabular
