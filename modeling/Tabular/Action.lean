/-!
# Actions

An action works on a state and may fail; what it changed before it failed stays changed.
-/

namespace Tabular

def Action (σ ε α : Type) : Type := σ → Except ε α × σ

namespace Action

variable {σ τ ε δ α β : Type}

/-- Carry an action out on a state. -/
def run (m : Action σ ε α) (s : σ) : Except ε α × σ := m s

/-- Go on with the result of an action unless it fails. -/
def andThen (m : Action σ ε α) (f : α → Action σ ε β) : Action σ ε β := fun s =>
  match m s with
  | (.ok a, t) => f a t
  | (.error e, t) => (.error e, t)

instance : Monad (Action σ ε) where
  pure a s := (.ok a, s)
  bind := andThen

/-- Give up and leave the state as it is. -/
def fail (e : ε) : Action σ ε α := fun s => (.error e, s)

/-- Look at the state. -/
def look (f : σ → α) : Action σ ε α := fun s => (.ok (f s), s)

/-- Change the state. -/
def change (f : σ → σ) : Action σ ε Unit := fun s => (.ok (), f s)

/-- A result that does not depend on the state. -/
def give (x : Except ε α) : Action σ ε α := fun s => (x, s)

/-- See a failure as another one. -/
def mapFailure (f : ε → δ) (m : Action σ ε α) : Action σ δ α := fun s =>
  ((m s).1.mapError f, (m s).2)

/-- Go on after a failure. -/
def orElse (m : Action σ ε α) (f : ε → Action σ ε α) : Action σ ε α := fun s =>
  match m s with
  | (.ok a, t) => (.ok a, t)
  | (.error e, t) => f e t

/-- The outcome of an action, whether it failed or not. -/
def attempt (m : Action σ ε α) : Action σ δ (Except ε α) := fun s =>
  (.ok (m s).1, (m s).2)

/-- Carry an action out on a part of a larger state. -/
def within (get : τ → σ) (set : σ → τ → τ) (m : Action σ ε α) : Action τ ε α := fun t =>
  ((m (get t)).1, set (m (get t)).2 t)

/-- Carry out one action for each member of a list, from left to right. -/
def forEach (f : β → Action σ ε α) : List β → Action σ ε (List α)
  | [] => pure []
  | b :: bs => do
    let a ← f b
    let as ← forEach f bs
    return a :: as

theorem run_pure (a : α) (s : σ) : (pure a : Action σ ε α).run s = (.ok a, s) := rfl

theorem run_bind (m : Action σ ε α) (f : α → Action σ ε β) (s : σ) :
    (m >>= f).run s =
      match m.run s with
      | (.ok a, t) => (f a).run t
      | (.error e, t) => (.error e, t) := rfl

@[simp] theorem run_fail (e : ε) (s : σ) : (fail e : Action σ ε α).run s = (.error e, s) := rfl
@[simp] theorem run_look (f : σ → α) (s : σ) :
    (look f : Action σ ε α).run s = (.ok (f s), s) := rfl
@[simp] theorem run_change (f : σ → σ) (s : σ) :
    (change f : Action σ ε Unit).run s = (.ok (), f s) := rfl
@[simp] theorem run_give (x : Except ε α) (s : σ) : (give x : Action σ ε α).run s = (x, s) := rfl
@[simp] theorem run_mapFailure (f : ε → δ) (m : Action σ ε α) (s : σ) :
    (m.mapFailure f).run s = ((m.run s).1.mapError f, (m.run s).2) := rfl
@[simp] theorem run_attempt (m : Action σ ε α) (s : σ) :
    (m.attempt : Action σ δ (Except ε α)).run s = (.ok (m.run s).1, (m.run s).2) := rfl
@[simp] theorem run_within (get : τ → σ) (set : σ → τ → τ) (m : Action σ ε α) (t : τ) :
    (m.within get set).run t = ((m.run (get t)).1, set (m.run (get t)).2 t) := rfl

theorem run_bind_ok {m : Action σ ε α} {f : α → Action σ ε β} {s t : σ} {a : α}
    (h : m.run s = (.ok a, t)) : (m >>= f).run s = (f a).run t := by
  rw [run_bind, h]

theorem run_bind_error {m : Action σ ε α} {f : α → Action σ ε β} {s t : σ} {e : ε}
    (h : m.run s = (.error e, t)) : (m >>= f).run s = (.error e, t) := by
  rw [run_bind, h]

end Action

end Tabular
