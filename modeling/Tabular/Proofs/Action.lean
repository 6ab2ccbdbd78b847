import Tabular.Action

/-!
# Runs of actions

How the run of an action that is made of others follows from their runs.
-/

namespace Tabular.Action

variable {σ ε α β : Type}

theorem run_map (f : α → β) (m : Action σ ε α) (s : σ) :
    (f <$> m).run s =
      match m.run s with
      | (.ok a, t) => (.ok (f a), t)
      | (.error e, t) => (.error e, t) := rfl

theorem run_orElse (m : Action σ ε α) (f : ε → Action σ ε α) (s : σ) :
    (m.orElse f).run s =
      match m.run s with
      | (.ok a, t) => (.ok a, t)
      | (.error e, t) => (f e).run t := rfl

theorem run_forEach_cons (f : β → Action σ ε α) (b : β) (bs : List β) :
    forEach f (b :: bs) = (f b >>= fun a => forEach f bs >>= fun as => pure (a :: as)) := rfl

theorem run_forEach_cons_ok {f : β → Action σ ε α} {b : β} {bs : List β} {s t : σ} {a : α}
    (h : (f b).run s = (.ok a, t)) : (forEach f (b :: bs)).run s =
      (((forEach f bs).run t).1.map (a :: ·), ((forEach f bs).run t).2) := by
  rw [run_forEach_cons, run_bind_ok h, run_bind]
  cases (forEach f bs).run t with
  | mk y u => cases y <;> rfl

theorem run_forEach_cons_error {f : β → Action σ ε α} {b : β} {bs : List β} {s t : σ} {e : ε}
    (h : (f b).run s = (.error e, t)) :
    (forEach f (b :: bs)).run s = (.error e, t) := by
  rw [run_forEach_cons, run_bind_error h]

end Tabular.Action
