import Mathlib.Data.List.Forall2

/-!
# Results of computations that may fail

When a computation made of several ones succeeds.
-/

namespace Except

variable {ε δ α β : Type}

@[simp] theorem bind_eq_ok_iff {x : Except ε α} {f : α → Except ε β} {b : β} :
    x >>= f = .ok b ↔ ∃ a, x = .ok a ∧ f a = .ok b := by
  cases x with
  | error e => simp [bind, Except.bind]
  | ok a => simp [bind, Except.bind]

@[simp] theorem map_eq_ok_iff {x : Except ε α} {f : α → β} {b : β} :
    x.map f = .ok b ↔ ∃ a, x = .ok a ∧ f a = b := by
  cases x <;> simp [Except.map]

@[simp] theorem mapError_eq_ok_iff {x : Except ε α} {f : ε → δ} {a : α} :
    x.mapError f = .ok a ↔ x = .ok a := by
  cases x <;> simp [Except.mapError]

theorem mapError_bind {x : Except ε α} {f : α → Except ε β} {g : ε → δ} :
    (x >>= f).mapError g = x.mapError g >>= fun a => (f a).mapError g := by
  cases x <;> rfl

theorem toOption_eq_some_iff {x : Except ε α} {a : α} : x.toOption = some a ↔ x = .ok a := by
  cases x <;> simp [Except.toOption]

@[simp] theorem pure_eq_ok_iff {a b : α} : (pure a : Except ε α) = .ok b ↔ a = b := by
  simp [pure, Except.pure]

section Gives

variable {P : α → Prop} {Q : β → Prop} {E : ε → Prop} {x : Except ε α}

/-- What a computation gives: a result with one property or a failure with another. -/
def Gives (P : α → Prop) (E : ε → Prop) : Except ε α → Prop
  | .ok a => P a
  | .error e => E e

theorem Gives.of_ok {a : α} (h : x.Gives P E) (hx : x = .ok a) : P a := by
  rw [hx] at h
  exact h

theorem Gives.of_error {e : ε} (h : x.Gives P E) (hx : x = .error e) : E e := by
  rw [hx] at h
  exact h

/-- Of a result other properties may be known. -/
theorem Gives.of_eq_ok {P' : α → Prop} (hx : x.Gives P E) (h : ∀ a, x = .ok a → P' a) :
    x.Gives P' E := by
  cases x with
  | error e => exact hx
  | ok a => exact h a rfl

/-- What is given under a proviso has its properties under it. -/
theorem gives_given {p : Prop} (h : p → x.Gives P E) :
    x.Gives (fun a => p → P a) fun e => p → E e := by
  cases x with
  | error e => exact h
  | ok a => exact h

theorem Gives.bind {f : α → Except ε β} (hx : x.Gives P E) (hf : ∀ a, P a → (f a).Gives Q E) :
    (x >>= f).Gives Q E := by
  cases x with
  | error e => exact hx
  | ok a => exact hf a hx

theorem gives_map {f : α → β} : (x.map f).Gives Q E ↔ x.Gives (fun a => Q (f a)) E := by
  cases x <;> exact Iff.rfl

theorem gives_mapError {F : δ → Prop} {f : ε → δ} :
    (x.mapError f).Gives P F ↔ x.Gives P fun e => F (f e) := by
  cases x <;> exact Iff.rfl

/-- Of a failure nothing may need to be known. -/
theorem gives_result (h : ∀ a, x = .ok a → P a) : x.Gives P fun _ => True := by
  cases x with
  | error e => trivial
  | ok a => exact h a rfl

theorem Gives.mono {P' : α → Prop} {E' : ε → Prop} (hx : x.Gives P E) (hP : ∀ a, P a → P' a)
    (hE : ∀ e, E e → E' e) : x.Gives P' E' := by
  cases x with
  | error e => exact hE e hx
  | ok a => exact hP a hx

end Gives

/-- Computations one after the other succeed if each of them does. -/
theorem mapM_eq_ok_iff {f : α → Except ε β} {as : List α} {bs : List β} :
    as.mapM f = .ok bs ↔ List.Forall₂ (fun a b => f a = .ok b) as bs := by
  induction as generalizing bs with
  | nil => cases bs <;> simp [pure, Except.pure]
  | cons a as ih =>
    rw [List.mapM_cons, bind_eq_ok_iff]
    constructor
    · rintro ⟨b, hb, h⟩
      obtain ⟨bs', hbs, h⟩ := bind_eq_ok_iff.1 h
      cases pure_eq_ok_iff.1 h
      exact .cons hb (ih.1 hbs)
    · rintro (_ | ⟨hb, h⟩)
      exact ⟨_, hb, bind_eq_ok_iff.2 ⟨_, ih.2 h, rfl⟩⟩

theorem exists_mapM_eq_ok {f : α → Except ε β} {as : List α} (h : ∀ a ∈ as, ∃ b, f a = .ok b) :
    ∃ bs, as.mapM f = .ok bs := by
  induction as with
  | nil => exact ⟨[], rfl⟩
  | cons a as ih =>
    obtain ⟨b, hb⟩ := h a (by simp)
    obtain ⟨bs, hbs⟩ := ih fun a ha => h a (by simp [ha])
    exact ⟨b :: bs, mapM_eq_ok_iff.2 (.cons hb (mapM_eq_ok_iff.1 hbs))⟩

theorem mapM_congr {f g : α → Except ε β} {as : List α} (h : ∀ a ∈ as, f a = g a) :
    as.mapM f = as.mapM g := by
  induction as with
  | nil => rfl
  | cons a as ih =>
    rw [List.mapM_cons, List.mapM_cons, h a (by simp), ih fun a ha => h a (by simp [ha])]

end Except
