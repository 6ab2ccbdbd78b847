import Tabular.Proofs.Action

/-!
# Actions that may be refused

An action on a state that may refuse some of what is asked of it, for reasons that nothing else in
the state explains. Without those reasons the state is calm. An action that is not deterred does the
same on the calm state whenever it succeeds at all, so that what is known about calm states tells
what its success comes to.
-/

namespace Tabular.Action

variable {σ τ ε δ α β : Type}

/-! ## Runs that end in one way or the other -/

theorem run_bind_eq_ok {m : Action σ ε α} {f : α → Action σ ε β} {s t : σ} {b : β}
    (h : (m >>= f).run s = (.ok b, t)) :
    ∃ a u, m.run s = (.ok a, u) ∧ (f a).run u = (.ok b, t) := by
  rw [run_bind] at h
  cases hm : m.run s with
  | mk r u =>
    rw [hm] at h
    cases r with
    | ok a => exact ⟨a, u, rfl, h⟩
    | error e => cases h

/-- A sequence fails in its first part or in its second one. -/
theorem run_bind_eq_error {m : Action σ ε α} {f : α → Action σ ε β} {s t : σ} {e : ε}
    (h : (m >>= f).run s = (.error e, t)) :
    m.run s = (.error e, t) ∨ ∃ a u, m.run s = (.ok a, u) ∧ (f a).run u = (.error e, t) := by
  rw [run_bind] at h
  cases hm : m.run s with
  | mk r u =>
    rw [hm] at h
    cases r with
    | ok a => exact .inr ⟨a, u, rfl, h⟩
    | error e' =>
      cases h
      exact .inl rfl

theorem run_mapFailure_eq_ok {f : ε → δ} {m : Action σ ε α} {s t : σ} {a : α}
    (h : (m.mapFailure f).run s = (.ok a, t)) : m.run s = (.ok a, t) := by
  rw [run_mapFailure] at h
  cases hm : m.run s with
  | mk r u =>
    rw [hm] at h
    cases r with
    | ok b =>
      cases h
      rfl
    | error e => cases h

/-! ## Actions that are not deterred -/

/-- What is good about a state stays, and a success on it is the same success on the calm state. -/
structure Undeterred (good : σ → Prop) (calm : σ → σ) (m : Action σ ε α) : Prop where
  good_run : ∀ {s}, good s → good (m.run s).2
  ok_run : ∀ {s t a}, good s → m.run s = (.ok a, t) → m.run (calm s) = (.ok a, calm t)

section Undeterred

variable {good : σ → Prop} {calm : σ → σ} {m : Action σ ε α} {f : α → Action σ ε β}

theorem Undeterred.good_of_run (hm : Undeterred good calm m) {s t : σ} {r : Except ε α}
    (hs : good s) (h : m.run s = (r, t)) : good t := by
  have := hm.good_run hs
  rwa [h] at this

theorem undeterred_pure (a : α) : Undeterred good calm (pure a : Action σ ε α) :=
  ⟨id, fun _ h => by cases h; rfl⟩

theorem undeterred_fail (e : ε) : Undeterred good calm (fail e : Action σ ε α) :=
  ⟨id, fun _ h => by cases h⟩

theorem undeterred_give (x : Except ε α) : Undeterred good calm (give x : Action σ ε α) :=
  ⟨id, fun _ h => by cases h; rfl⟩

theorem undeterred_change {g : σ → σ} (hg : ∀ s, good s → good (g s))
    (hc : ∀ s, g (calm s) = calm (g s)) : Undeterred good calm (change g : Action σ ε Unit) :=
  ⟨hg _, fun {s _ _} _ h => by cases h; rw [run_change, hc s]⟩

theorem undeterred_bind (hm : Undeterred good calm m) (hf : ∀ a, Undeterred good calm (f a)) :
    Undeterred good calm (m >>= f) where
  good_run := by
    intro s hs
    rw [run_bind]
    cases hr : m.run s with
    | mk r u =>
      have hu := hm.good_of_run hs hr
      cases r with
      | ok a => exact (hf a).good_run hu
      | error e => exact hu
  ok_run := by
    intro s t b hs h
    obtain ⟨a, u, ha, hb⟩ := run_bind_eq_ok h
    rw [run_bind_ok (hm.ok_run hs ha)]
    exact (hf a).ok_run (hm.good_of_run hs ha) hb

/-- What is looked at may differ where what is done with it does not. -/
theorem undeterred_look {γ : Type} {g : σ → γ} {k : γ → Action σ ε β}
    (hk : ∀ c, Undeterred good calm (k c)) (hg : ∀ s, k (g (calm s)) = k (g s)) :
    Undeterred good calm (look g >>= k) where
  good_run := fun {s} hs => (hk (g s)).good_run hs
  ok_run := by
    intro s t b hs h
    rw [run_bind_ok (run_look _ _)] at h ⊢
    rw [hg s]
    exact (hk _).ok_run hs h

/-- An alternative is not deterred if the failures that it mends are those of the calm state. -/
theorem undeterred_orElse {g : ε → Action σ ε α} (hm : Undeterred good calm m)
    (hg : ∀ e, Undeterred good calm (g e))
    (he : ∀ {s t u e a}, good s → m.run s = (.error e, t) → (g e).run t = (.ok a, u) →
      m.run (calm s) = (.error e, calm t)) : Undeterred good calm (m.orElse g) where
  good_run := by
    intro s hs
    rw [run_orElse]
    cases hr : m.run s with
    | mk r u =>
      have hu := hm.good_of_run hs hr
      cases r with
      | ok a => exact hu
      | error e => exact (hg e).good_run hu
  ok_run := by
    intro s t a hs h
    rw [run_orElse] at h ⊢
    cases hr : m.run s with
    | mk r u =>
      rw [hr] at h
      cases r with
      | ok b =>
        cases h
        rw [hm.ok_run hs hr]
      | error e =>
        rw [he hs hr h]
        exact (hg e).ok_run (hm.good_of_run hs hr) h

/-- A failure that is looked at must not be turned into a success. -/
theorem undeterred_attempt {k : Except ε α → Action σ δ β} (hm : Undeterred good calm m)
    (hk : ∀ r, Undeterred good calm (k r))
    (hfail : ∀ e s t b, (k (.error e)).run s ≠ (.ok b, t)) :
    Undeterred good calm (m.attempt >>= k) where
  good_run := fun {s} hs => (hk _).good_run (hm.good_run hs)
  ok_run := by
    intro s t b hs h
    rw [run_bind_ok (run_attempt _ _)] at h ⊢
    cases hr : m.run s with
    | mk r u =>
      rw [hr] at h
      cases r with
      | ok a =>
        rw [hm.ok_run hs hr]
        exact (hk _).ok_run (hm.good_of_run hs hr) h
      | error e => exact absurd h (hfail e _ _ _)

theorem undeterred_mapFailure (g : ε → δ) (hm : Undeterred good calm m) :
    Undeterred good calm (m.mapFailure g) where
  good_run := hm.good_run
  ok_run := by
    intro s t a hs h
    rw [run_mapFailure, hm.ok_run hs (run_mapFailure_eq_ok h)]
    rfl

/-- An action on a part of a state is not deterred by what deters only the other parts. -/
theorem undeterred_within {get : τ → σ} {set : σ → τ → τ} {good' : τ → Prop} {calm' : τ → τ}
    (hm : Undeterred good calm m) (hg : ∀ t, good' t → good (get t))
    (hs : ∀ s t, good s → good' (set s t)) (hget : ∀ t, get (calm' t) = calm (get t))
    (hset : ∀ s t, set (calm s) (calm' t) = calm' (set s t)) :
    Undeterred good' calm' (m.within get set) where
  good_run := fun {t} ht => hs _ t (hm.good_run (hg t ht))
  ok_run := by
    intro t u a ht h
    rw [run_within] at h ⊢
    obtain ⟨hr, rfl⟩ := Prod.mk.inj h
    rw [hget, hm.ok_run (hg t ht) (Prod.ext hr rfl), hset]

theorem undeterred_forEach {f : β → Action σ ε α} (hf : ∀ b, Undeterred good calm (f b))
    (bs : List β) : Undeterred good calm (forEach f bs) := by
  induction bs with
  | nil => exact undeterred_pure []
  | cons b bs ih =>
    rw [run_forEach_cons]
    exact undeterred_bind (hf b) fun a => undeterred_bind ih fun as => undeterred_pure (a :: as)

end Undeterred

/-! ## Actions that keep to a relation -/

/-- Whatever comes of the action, the state afterwards is related to the one before. -/
def Keeps (R : σ → σ → Prop) (m : Action σ ε α) : Prop := ∀ s, R s (m.run s).2

section Keeps

variable {R : σ → σ → Prop} {m : Action σ ε α} {f : α → Action σ ε β}

theorem Keeps.of_run (hm : Keeps R m) {s t : σ} {r : Except ε α} (h : m.run s = (r, t)) : R s t := by
  have := hm s
  rwa [h] at this

theorem keeps_pure (hr : ∀ s, R s s) (a : α) : Keeps R (pure a : Action σ ε α) := fun s => hr s

theorem keeps_fail (hr : ∀ s, R s s) (e : ε) : Keeps R (fail e : Action σ ε α) := fun s => hr s

theorem keeps_give (hr : ∀ s, R s s) (x : Except ε α) : Keeps R (give x : Action σ ε α) :=
  fun s => hr s

theorem keeps_look {γ : Type} (hr : ∀ s, R s s) (g : σ → γ) : Keeps R (look g : Action σ ε γ) :=
  fun s => hr s

theorem keeps_bind (ht : ∀ {s t u}, R s t → R t u → R s u) (hm : Keeps R m)
    (hf : ∀ a, Keeps R (f a)) : Keeps R (m >>= f) := by
  intro s
  rw [run_bind]
  cases hr : m.run s with
  | mk r u =>
    cases r with
    | ok a => exact ht (hm.of_run hr) (hf a u)
    | error e => exact hm.of_run hr

theorem keeps_orElse (ht : ∀ {s t u}, R s t → R t u → R s u) {g : ε → Action σ ε α}
    (hm : Keeps R m) (hg : ∀ e, Keeps R (g e)) : Keeps R (m.orElse g) := by
  intro s
  rw [run_orElse]
  cases hr : m.run s with
  | mk r u =>
    cases r with
    | ok a => exact hm.of_run hr
    | error e => exact ht (hm.of_run hr) (hg e u)

theorem keeps_forEach (hr : ∀ s, R s s) (ht : ∀ {s t u}, R s t → R t u → R s u)
    {f : β → Action σ ε α} (hf : ∀ b, Keeps R (f b)) (bs : List β) : Keeps R (forEach f bs) := by
  induction bs with
  | nil => exact keeps_pure hr []
  | cons b bs ih =>
    rw [run_forEach_cons]
    exact keeps_bind ht (hf b) fun a => keeps_bind ht ih fun as => keeps_pure hr (a :: as)

end Keeps

/-- What an action keeps is one more good thing about the states. -/
theorem Undeterred.and_keeps {good P : σ → Prop} {calm : σ → σ} {R : σ → σ → Prop}
    {m : Action σ ε α} (hm : Undeterred good calm m) (hk : Keeps R m)
    (hR : ∀ {s t}, R s t → P s → P t) : Undeterred (fun s => good s ∧ P s) calm m :=
  ⟨fun h => ⟨hm.good_run h.1, hR (hk _) h.2⟩, fun h => hm.ok_run h.1⟩

end Tabular.Action
