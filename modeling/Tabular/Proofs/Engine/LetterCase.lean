import Tabular.Engine
import Tabular.Proofs.Statement.LetterCase

/-!
# Letter case

The letter case of keywords and of the names that a command refers to does not matter: two commands
that differ in nothing else succeed or fail alike, leave the same engine behind, and are answered
alike if they succeed. The words of a failure show names as they were written.
-/

namespace Tabular

namespace Action

variable {σ ε α α' β β' : Type} {S : α → α' → Prop} {T : β → β' → Prop} {m : Action σ ε α}
  {m' : Action σ ε α'}

/-- From each state, two actions both fail or come to results that are related, and they leave the
same state. -/
def Unison (S : α → α' → Prop) (m : Action σ ε α) (m' : Action σ ε α') : Prop :=
  ∀ s, (m.run s).1.Agrees S (m'.run s).1 ∧ (m'.run s).2 = (m.run s).2

theorem unison_self {S : α → α → Prop} (hS : ∀ a, S a a) (m : Action σ ε α) : Unison S m m :=
  fun _ => ⟨Except.agrees_self hS _, rfl⟩

theorem unison_refl (m : Action σ ε α) : Unison Eq m m := unison_self (fun _ => rfl) m

theorem unison_pure {a : α} {a' : α'} (h : S a a') :
    Unison S (pure a : Action σ ε α) (pure a') := fun _ => ⟨.ok h, rfl⟩

theorem unison_give {x : Except ε α} {x' : Except ε α'} (h : x.Agrees S x') :
    Unison S (give x : Action σ ε α) (give x') := fun _ => ⟨h, rfl⟩

theorem unison_bind {f : α → Action σ ε β} {f' : α' → Action σ ε β'} (hm : Unison S m m')
    (hf : ∀ a a', S a a' → Unison T (f a) (f' a')) : Unison T (m >>= f) (m' >>= f') := by
  intro s
  obtain ⟨hr, ht⟩ := hm s
  rw [run_bind, run_bind]
  generalize m.run s = r at hr ht
  generalize m'.run s = r' at hr ht
  obtain ⟨_, t⟩ := r
  obtain ⟨_, t'⟩ := r'
  cases ht
  cases hr with
  | error e e' => exact ⟨.error e e', rfl⟩
  | ok ha => exact hf _ _ ha t

/-- The results are the same, so that one continuation is to be looked at. -/
theorem unison_then {m' : Action σ ε α} {f : α → Action σ ε β} {f' : α → Action σ ε β'}
    (hm : Unison Eq m m') (hf : ∀ a, Unison T (f a) (f' a)) : Unison T (m >>= f) (m' >>= f') :=
  unison_bind hm fun a _ h => h ▸ hf a

end Action

/-- Results that show the same header and rows. -/
def Result.Alike (r r' : Result) : Prop := r'.header = r.header ∧ r'.rows = r.rows

theorem Result.Alike.refl (r : Result) : Alike r r := ⟨rfl, rfl⟩

namespace Engine

open Tabular.Action

variable {s s' : Statement} {c c' : Text} {ls ls' : List Lexeme}

theorem unison_perform (id : Text) (h : s.Alike s') :
    Unison Result.Alike (perform id s) (perform id s') := by
  cases h with
  | same s => exact unison_self .refl _
  | dropColumn t hc =>
    refine unison_then (unison_refl _) fun (d, old) => ?_
    refine unison_then (unison_give (old.agrees_dropColumn hc)) fun new => ?_
    exact unison_then (unison_refl _) fun _ => unison_pure ⟨rfl, rfl⟩
  | select t hc hw =>
    refine unison_then (unison_refl _) fun (_, table) => ?_
    refine unison_then (unison_give (table.agrees_select hw)) fun rows => ?_
    refine unison_then (unison_give (table.agrees_project rows hc)) fun (header, rows) => ?_
    exact unison_pure ⟨rfl, rfl⟩
  | update t ha hw =>
    refine unison_then (unison_refl _) fun (d, old) => ?_
    refine unison_then (unison_give (old.agrees_update ha hw)) fun (n, new) => ?_
    exact unison_self .refl _
  | delete t hw =>
    refine unison_then (unison_refl _) fun (d, old) => ?_
    refine unison_then (unison_give (old.agrees_delete hw)) fun (n, new) => ?_
    exact unison_self .refl _
  | join left right hl hr =>
    refine unison_then (unison_refl _) fun d => ?_
    refine unison_then (unison_refl _) fun l => ?_
    refine unison_then (unison_refl _) fun r => ?_
    refine unison_then (unison_give (Join.agrees_join l r hl hr)) fun (header, rows) => ?_
    exact unison_pure ⟨rfl, rfl⟩

theorem unison_complete (id : Text) (h : s.Alike s') :
    Unison Result.Alike (complete id s) (complete id s') :=
  unison_bind (unison_perform id h) fun _ _ hr => unison_then (unison_refl _) fun _ =>
    unison_pure hr

/-- Results that show the same are answered alike under one label. -/
theorem answers_alike (label : Label) {x x' : Except Failure Result}
    (h : x.Agrees Result.Alike x') :
    (Outcome.mk label x').success = (Outcome.mk label x).success ∧
      ((Outcome.mk label x).success →
        (Outcome.mk label x').response = (Outcome.mk label x).response) := by
  cases h with
  | error e e' => exact ⟨rfl, nofun⟩
  | ok hr =>
    refine ⟨rfl, fun _ => ?_⟩
    simp only [Outcome.response, Result.rowTexts, hr.1, hr.2]

/-- Commands that differ in nothing but the letter case of keywords, databases, tables and columns
that they refer to have the same success, leave the same engine, and have the same answer if they
succeed. -/
theorem letter_case_irrelevant (e : Engine) (id : Option Text) {c c' : Text} {ls ls' : List Lexeme}
    (hc : Statement.lexemes? c = some ls) (hc' : Statement.lexemes? c' = some ls')
    (h : Statement.Recasing ls ls') :
    (e.execute c' id).1.success = (e.execute c id).1.success ∧
      (e.execute c' id).2 = (e.execute c id).2 ∧
      ((e.execute c id).1.success → (e.execute c' id).1.response = (e.execute c id).1.response) := by
  have hagree := Statement.agrees_ofCommand hc hc' h
  unfold execute
  cases e.session id with
  | error cause => exact ⟨rfl, rfl, nofun⟩
  | ok session =>
    generalize Statement.ofCommand c = x at hagree
    generalize Statement.ofCommand c' = x' at hagree
    cases hagree with
    | error cause cause' => exact ⟨rfl, rfl, nofun⟩
    | @ok s s' hs =>
      obtain ⟨hr, he⟩ := unison_complete (id.getD defaultId) hs e
      obtain ⟨hsuccess, hresponse⟩ := answers_alike s.label hr
      dsimp only
      rw [hs.label_eq]
      refine ⟨hsuccess, ?_, hresponse⟩
      rw [hsuccess, he]

/-- Two ways to ask for the rows of a table that was made in a third. -/
theorem letter_case_irrelevant_of_select :
    let e := (["CREATE DATABASE d;", "USE D;", "CREATE TABLE t (Name);",
      "INSERT INTO T VALUES ('x');"].map String.toList).foldl (fun e c => (e.execute c none).2)
      (start ⟨['.', 't', 'a', 'b'], false, .whole, ['1']⟩ (Disk.empty ['r']))
    let select := "SELECT nAME FROM T WHERE NAME LIKE x;".toList
    let select' := "select name from t where name like x;".toList
    ∃ ls ls', Statement.lexemes? select = some ls ∧ Statement.lexemes? select' = some ls' ∧
      Statement.Recasing ls ls' ∧ (e.execute select none).1.success ∧
      (e.execute select' none).1.response = (e.execute select none).1.response := by
  intro e select select'
  let request (column column' table : Text) : List Lexeme := [.keyword .SELECT, .identifier column,
    .keyword .FROM, .identifier table, .keyword .WHERE, .identifier column', .keyword .LIKE,
    .identifier ['x']]
  have hc : Statement.lexemes? select =
      some (request ['n', 'A', 'M', 'E'] ['N', 'A', 'M', 'E'] ['T']) := by decide +kernel
  have hc' : Statement.lexemes? select' =
      some (request ['n', 'a', 'm', 'e'] ['n', 'a', 'm', 'e'] ['t']) := by decide +kernel
  have h : Statement.Recasing (request ['n', 'A', 'M', 'E'] ['N', 'A', 'M', 'E'] ['T'])
      (request ['n', 'a', 'm', 'e'] ['n', 'a', 'm', 'e'] ['t']) :=
    .same (.reference rfl (.same (.reference rfl (.same (.reference rfl (.same (.same .nil)))))))
  have hsuccess : (e.execute select none).1.success := by decide +kernel
  obtain ⟨-, -, hresponse⟩ := letter_case_irrelevant e none hc hc' h
  exact ⟨_, _, hc, hc', h, hsuccess, hresponse hsuccess⟩

end Engine

end Tabular
