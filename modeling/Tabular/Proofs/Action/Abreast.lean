import Tabular.Proofs.Action

/-!
# Actions that go abreast

Two states match if they look the same as far as a piece of work can see. Started on states that
match, work that sees no more comes to the same, and the states that it leaves match again.
-/

namespace Except

variable {ε δ α : Type}

/-- Results that match, or one and the same failure. -/
inductive Matches (S : α → α → Prop) : Except ε α → Except ε α → Prop
  | ok {a a' : α} (h : S a a') : Matches S (.ok a) (.ok a')
  | error (e : ε) : Matches S (.error e) (.error e)

variable {S : α → α → Prop} {x x' : Except ε α}

/-- A computation that needs no state gives what it gives. -/
theorem matches_self (h : ∀ a, x = .ok a → S a a) : x.Matches S x := by
  cases x with
  | error e => exact .error e
  | ok a => exact .ok (h a rfl)

theorem Matches.eq (h : x.Matches S x') (hS : ∀ a a', S a a' → a' = a) : x' = x := by
  cases h with
  | error e => rfl
  | ok h => rw [hS _ _ h]

theorem Matches.mapError (h : x.Matches S x') (f : ε → δ) :
    (x.mapError f).Matches S (x'.mapError f) := by
  cases h with
  | error e => exact .error (f e)
  | ok h => exact .ok h

end Except

namespace Tabular

/-- One and the same value, which has the property. -/
def Shared {α : Type} (P : α → Prop) (a a' : α) : Prop := a' = a ∧ P a

namespace Action

variable {σ τ ε δ α β : Type}

/-- From states that match, two actions come to results that match, or to the same failure, and
leave states that match. -/
def Abreast (R : σ → σ → Prop) (S : α → α → Prop) (m m' : Action σ ε α) : Prop :=
  ∀ s s', R s s' → (m.run s).1.Matches S (m'.run s').1 ∧ R (m.run s).2 (m'.run s').2

variable {R : σ → σ → Prop} {S : α → α → Prop} {T : β → β → Prop} {m m' : Action σ ε α}
  {f f' : α → Action σ ε β}

theorem abreast_pure {a a' : α} (h : S a a') :
    Abreast R S (pure a : Action σ ε α) (pure a') := fun _ _ hs => ⟨.ok h, hs⟩

theorem abreast_fail (e : ε) : Abreast R S (fail e : Action σ ε α) (fail e) :=
  fun _ _ hs => ⟨.error e, hs⟩

theorem abreast_give {x x' : Except ε α} (h : x.Matches S x') :
    Abreast R S (give x : Action σ ε α) (give x') := fun _ _ hs => ⟨h, hs⟩

theorem abreast_look {g : σ → α} (h : ∀ s s', R s s' → S (g s) (g s')) :
    Abreast R S (look g : Action σ ε α) (look g) := fun s s' hs => ⟨.ok (h s s' hs), hs⟩

theorem abreast_change {g : σ → σ} (h : ∀ s s', R s s' → R (g s) (g s')) :
    Abreast R (Shared fun _ => True) (change g : Action σ ε Unit) (change g) :=
  fun s s' hs => ⟨.ok ⟨rfl, trivial⟩, h s s' hs⟩

theorem abreast_bind (hm : Abreast R S m m') (hf : ∀ a a', S a a' → Abreast R T (f a) (f' a')) :
    Abreast R T (m >>= f) (m' >>= f') := by
  intro s s' hs
  obtain ⟨hr, ht⟩ := hm s s' hs
  rw [run_bind, run_bind]
  generalize m.run s = r at hr ht
  generalize m'.run s' = r' at hr ht
  obtain ⟨_, t⟩ := r
  obtain ⟨_, t'⟩ := r'
  cases hr with
  | error e => exact ⟨.error e, ht⟩
  | ok ha => exact hf _ _ ha t t' ht

/-- What both actions come to is one value, so that one continuation is to be looked at. -/
theorem abreast_then {P : α → Prop} (hm : Abreast R (Shared P) m m')
    (hf : ∀ a, P a → Abreast R T (f a) (f' a)) : Abreast R T (m >>= f) (m' >>= f') := by
  refine abreast_bind hm ?_
  rintro a _ ⟨rfl, ha⟩
  exact hf _ ha

theorem abreast_orElse {g g' : ε → Action σ ε α} (hm : Abreast R S m m')
    (hg : ∀ e, Abreast R S (g e) (g' e)) : Abreast R S (m.orElse g) (m'.orElse g') := by
  intro s s' hs
  obtain ⟨hr, ht⟩ := hm s s' hs
  rw [run_orElse, run_orElse]
  generalize m.run s = r at hr ht
  generalize m'.run s' = r' at hr ht
  obtain ⟨_, t⟩ := r
  obtain ⟨_, t'⟩ := r'
  cases hr with
  | error e => exact hg e t t' ht
  | ok ha => exact ⟨.ok ha, ht⟩

theorem abreast_mapFailure (hm : Abreast R S m m') (g : ε → δ) :
    Abreast R S (m.mapFailure g) (m'.mapFailure g) :=
  fun s s' hs => ⟨(hm s s' hs).1.mapError g, (hm s s' hs).2⟩

theorem abreast_attempt (hm : Abreast R S m m') :
    Abreast R (Except.Matches S) (m.attempt : Action σ δ (Except ε α)) m'.attempt :=
  fun s s' hs => ⟨.ok (hm s s' hs).1, (hm s s' hs).2⟩

theorem abreast_within {R' : τ → τ → Prop} {get : τ → σ} {set : σ → τ → τ}
    (hm : Abreast R S m m') (hget : ∀ t t', R' t t' → R (get t) (get t'))
    (hset : ∀ s s' t t', R s s' → R' t t' → R' (set s t) (set s' t')) :
    Abreast R' S (m.within get set) (m'.within get set) := by
  intro t t' ht
  obtain ⟨hr, hs⟩ := hm _ _ (hget t t' ht)
  exact ⟨hr, hset _ _ _ _ hs ht⟩

theorem abreast_forEach {P : α → Prop} {g : β → Action σ ε α} {bs : List β}
    (h : ∀ b ∈ bs, Abreast R (Shared P) (g b) (g b)) :
    Abreast R (Shared fun as => ∀ a ∈ as, P a) (forEach g bs) (forEach g bs) := by
  induction bs with
  | nil => exact abreast_pure ⟨rfl, nofun⟩
  | cons b bs ih =>
    obtain ⟨hb, hbs⟩ := List.forall_mem_cons.1 h
    refine abreast_then hb fun a ha => abreast_then (ih hbs) fun as has => abreast_pure ⟨rfl, ?_⟩
    exact List.forall_mem_cons.2 ⟨ha, has⟩

end Action

end Tabular
