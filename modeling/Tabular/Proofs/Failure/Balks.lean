import Tabular.Failure
import Tabular.Proofs.Except

/-!
# Computations that balk at numbers

The failures of number conversion among all failures: which computation comes to one, if it is made
of others or goes through a list.
-/

namespace Tabular

variable {α β : Type}

/-- Some member is bad, and every one before it is good. -/
def FirstBad (good bad : α → Prop) (as : List α) : Prop :=
  ∃ front a back, as = front ++ a :: back ∧ (∀ b ∈ front, good b) ∧ bad a

section FirstBad

variable {good good' bad bad' : α → Prop} {a : α} {as : List α}

@[simp] theorem not_firstBad_nil : ¬ FirstBad good bad ([] : List α) := by
  rintro ⟨front, a, back, h, -⟩
  simp at h

theorem firstBad_cons : FirstBad good bad (a :: as) ↔ bad a ∨ good a ∧ FirstBad good bad as := by
  constructor
  · rintro ⟨front, b, back, h, hg, hb⟩
    cases front with
    | nil =>
      cases h
      exact .inl hb
    | cons c front =>
      cases h
      exact .inr ⟨hg a (by simp), front, b, back, rfl, fun d hd => hg d (by simp [hd]), hb⟩
  · rintro (hb | ⟨hg, front, b, back, rfl, hfront, hb⟩)
    · exact ⟨[], a, as, rfl, by simp, hb⟩
    · refine ⟨a :: front, b, back, rfl, fun d hd => ?_, hb⟩
      obtain rfl | hd := List.mem_cons.1 hd
      · exact hg
      · exact hfront d hd

theorem firstBad_congr (hg : ∀ a ∈ as, good a ↔ good' a) (hb : ∀ a ∈ as, bad a ↔ bad' a) :
    FirstBad good bad as ↔ FirstBad good' bad' as := by
  induction as with
  | nil => simp
  | cons a as ih =>
    rw [firstBad_cons, firstBad_cons, hg a (by simp), hb a (by simp),
      ih (fun b h => hg b (by simp [h])) fun b h => hb b (by simp [h])]

/-- Where every member is good or bad, any bad one will do. -/
theorem firstBad_iff_exists (h : ∀ a ∈ as, good a ∨ bad a) :
    FirstBad good bad as ↔ ∃ a ∈ as, bad a := by
  induction as with
  | nil => simp
  | cons a as ih =>
    rw [firstBad_cons, ih fun b hb => h b (by simp [hb]), List.exists_mem_cons_iff]
    constructor
    · rintro (hb | ⟨-, hb⟩)
      · exact .inl hb
      · exact .inr hb
    · rintro (hb | hb)
      · exact .inl hb
      · exact (h a (by simp)).symm.imp id fun hg => ⟨hg, hb⟩

end FirstBad

/-- The computation balks at a number: a text is not taken for one, or one is not written. -/
def Balks (x : Except Failure α) : Prop := ∃ fault, x = .error (.number fault)

section Balks

variable {x : Except Failure α}

@[simp] theorem not_balks_ok (a : α) : ¬ Balks (.ok a) := fun ⟨_, h⟩ => nomatch h

@[simp] theorem not_balks_rejected (cause : Rejection) :
    ¬ Balks (.error (.rejected cause) : Except Failure α) := fun ⟨_, h⟩ => nomatch h

@[simp] theorem not_balks_pure (a : α) : ¬ Balks (pure a : Except Failure α) := not_balks_ok a

@[simp] theorem not_balks_mapError_rejected (x : Except Rejection α) :
    ¬ Balks (x.mapError Failure.rejected) := by
  cases x <;> simp [Except.mapError]

theorem balks_mapError_number {x : Except NumberFault α} :
    Balks (x.mapError Failure.number) ↔ ∃ fault, x = .error fault := by
  cases x <;> simp [Balks, Except.mapError]

theorem balks_bind {f : α → Except Failure β} :
    Balks (x >>= f) ↔ Balks x ∨ ∃ a, x = .ok a ∧ Balks (f a) := by
  cases x with
  | error e => simp [Balks, bind, Except.bind]
  | ok a => simp [Balks, bind, Except.bind]

@[simp] theorem balks_map {f : α → β} : Balks (x.map f) ↔ Balks x := by
  cases x <;> simp [Balks, Except.map]

/-- What is done with a result that never balks does not matter. -/
theorem balks_bind_of_not {f : α → Except Failure β} (h : ∀ a, ¬ Balks (f a)) :
    Balks (x >>= f) ↔ Balks x := by
  rw [balks_bind]
  constructor
  · rintro (hx | ⟨a, -, ha⟩)
    · exact hx
    · exact absurd ha (h a)
  · exact .inl

theorem ok_or_balks_mapError_number (x : Except NumberFault α) :
    (∃ a, x.mapError Failure.number = .ok a) ∨ Balks (x.mapError Failure.number) := by
  cases x with
  | error fault => exact .inr ⟨fault, rfl⟩
  | ok a => exact .inl ⟨a, rfl⟩

section Through

variable {γ : Type} {f : α → Except Failure β} (loop : List α → Except Failure γ)
  {g : α → β → γ → γ} {c : γ} (hnil : loop [] = .ok c)
  (hcons : ∀ a as, loop (a :: as) = f a >>= fun b => loop as >>= fun c => pure (g a b c))

include hnil hcons

/-- Going through a list balks at the first member that has no result, if that balks. -/
theorem balks_through (as : List α) :
    Balks (loop as) ↔ FirstBad (fun a => ∃ b, f a = .ok b) (fun a => Balks (f a)) as := by
  induction as with
  | nil => simp [hnil]
  | cons a as ih =>
    rw [hcons, firstBad_cons, balks_bind, ← ih]
    constructor
    · rintro (h | ⟨b, hb, h⟩)
      · exact .inl h
      · exact .inr ⟨⟨b, hb⟩, (balks_bind_of_not fun _ => not_balks_pure _).1 h⟩
    · rintro (h | ⟨⟨b, hb⟩, h⟩)
      · exact .inl h
      · exact .inr ⟨b, hb, (balks_bind_of_not fun _ => not_balks_pure _).2 h⟩

/-- Where the members come to nothing but results and balking, so does going through them. -/
theorem ok_or_balks_through {as : List α} (h : ∀ a ∈ as, (∃ b, f a = .ok b) ∨ Balks (f a)) :
    (∃ c, loop as = .ok c) ∨ Balks (loop as) := by
  induction as with
  | nil => exact .inl ⟨c, hnil⟩
  | cons a as ih =>
    rw [hcons]
    obtain ⟨b, hb⟩ | hb := h a (by simp)
    · rw [hb]
      obtain ⟨d, hd⟩ | hd := ih fun a ha => h a (by simp [ha])
      · exact .inl ⟨_, Except.bind_eq_ok_iff.2 ⟨b, rfl, Except.bind_eq_ok_iff.2 ⟨d, hd, rfl⟩⟩⟩
      · exact .inr (balks_bind.2 (.inr ⟨b, rfl, balks_bind.2 (.inl hd)⟩))
    · exact .inr (balks_bind.2 (.inl hb))

end Through

theorem balks_mapM {f : α → Except Failure β} {as : List α} :
    Balks (as.mapM f) ↔ FirstBad (fun a => ∃ b, f a = .ok b) (fun a => Balks (f a)) as :=
  balks_through (List.mapM f) List.mapM_nil (fun _ _ => List.mapM_cons) as

end Balks

end Tabular
