import Tabular.Action
import Tabular.Number.Natural
import Tabular.OrderedMap
import Tabular.Text.Quoted

/-!
# Registries

A registry knows under each key a component that was given to it, or a factory that makes one from
the components of other keys. A factory runs when its component is first asked for; what it made
is kept until another registration of its key. When a factory finds that a component it needs is
not registered, the components made so far are kept all the same.
-/

namespace Tabular

/-- A component given as a text, or made by the `number`th factory that finished. -/
inductive Component where
  | given (text : Text)
  | made (key : Text) (number : Nat) (parts : List Component)

namespace Component

mutual

/-- A made component shows its key, its number and its parts. -/
def text : Component → Text
  | given t => t
  | made key number parts =>
    key ++ ['#'] ++ Text.ofNat number ++ ['('] ++ Text.join [','] (texts parts) ++ [')']

def texts : List Component → List Text
  | [] => []
  | c :: cs => text c :: texts cs

end

@[simp] theorem texts_eq_map (cs : List Component) : texts cs = cs.map text := by
  induction cs with
  | nil => rfl
  | cons c cs ih => simp [texts, ih]

end Component

/-- `needs` tells which keys the factory of a key asks for, in order; `finished` counts the
factories that have finished. -/
structure Registry where
  given : OrderedMap Text Component
  needs : OrderedMap Text (List Text)
  components : OrderedMap Text Component
  finished : Nat

namespace Registry

/-- Why there is no component: nothing is registered under a key, or a key needs itself. -/
inductive Fault where
  | missing (key : Text)
  | circular (key : Text)
  deriving DecidableEq, Repr

def Fault.message : Fault → Message
  | .missing key => ["No registration found for ", key]
  | .circular _ => ["maximum recursion depth exceeded"]

def empty : Registry := ⟨.empty, .empty, .empty, 0⟩

/-- Register a component. -/
def register (r : Registry) (key : Text) (c : Component) : Registry :=
  { r with given := r.given.put key c, components := r.components.put key c }

/-- Register a factory; what is there for the key is no longer used. -/
def registerFactory (r : Registry) (key : Text) (needs : List Text) : Registry :=
  { r with needs := r.needs.put key needs, components := r.components.erase key }

/-- Is anything registered under the key? -/
def has (r : Registry) (key : Text) : Bool := r.given.has key || r.needs.has key

/-- Forget everything but how many factories have finished. -/
def clear (r : Registry) : Registry := { empty with finished := r.finished }

abbrev Work (α : Type) := Action Registry Fault α

/-- A factory finishes: its component is numbered and kept. -/
def finish (key : Text) (parts : List Component) : Work Component := fun r =>
  let c := .made key (r.finished + 1) parts
  (.ok c, { r with components := r.components.put key c, finished := r.finished + 1 })

/-- The component of a key, with no more than `depth` factories waiting for one another. -/
def resolveWithin : (depth : Nat) → Text → Work Component
  | depth, key => do
    match ← Action.look (·.components.get? key), ← Action.look (·.needs.get? key) with
    | some c, _ => return c
    | none, none => Action.fail (.missing key)
    | none, some needs =>
      match depth with
      | 0 => Action.fail (.circular key)
      | depth + 1 => do finish key (← Action.forEach (resolveWithin depth) needs)

/-- The component of a key. Unless a key needs itself, there are never more factories waiting than
are registered. -/
def resolve (key : Text) : Work Component := fun r => resolveWithin r.needs.size key r

@[simp] theorem run_finish (key : Text) (parts : List Component) (r : Registry) :
    (finish key parts).run r =
      (.ok (.made key (r.finished + 1) parts),
        { r with
          components := r.components.put key (.made key (r.finished + 1) parts)
          finished := r.finished + 1 }) := rfl

/-- A component that is there is returned and changes nothing. -/
theorem run_resolve_of_get? {r : Registry} {key : Text} {c : Component}
    (h : r.components.get? key = some c) : (resolve key).run r = (.ok c, r) := by
  unfold resolve resolveWithin
  simp [Action.run, bind, Action.andThen, Action.look, h, pure]

end Registry

end Tabular
