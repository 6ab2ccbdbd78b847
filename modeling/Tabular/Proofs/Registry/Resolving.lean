import Mathlib.Data.Finset.Card
import Mathlib.Logic.Relation
import Tabular.Proofs.Action.Refused
import Tabular.Proofs.Except
import Tabular.Proofs.OrderedMap
import Tabular.Registry

/-!
# Resolving

What comes of asking a registry for components, told without a bound on the factories that wait for
one another. Where no key waits for itself there is always an answer: the keys that a key waits for,
together with itself, are more than those that any of them waits for.
-/

namespace Tabular.Registry

open Relation

/-- A key without a component waits for what its factory asks for. -/
def Waits (r : Registry) (key need : Text) : Prop :=
  r.components.get? key = none ∧ ∃ needs, r.needs.get? key = some needs ∧ need ∈ needs

/-- A key waits for another one, perhaps through others, or is that key. -/
abbrev Awaits (r : Registry) : Text → Text → Prop := ReflTransGen r.Waits

/-- No key waits for itself, be it through others. -/
def Acyclic (r : Registry) : Prop := ∀ key, ¬ TransGen r.Waits key key

/-- The registry after the factory of a key has finished. -/
def finishing (r : Registry) (key : Text) (parts : List Component) : Registry :=
  { r with
    components := r.components.put key (.made key (r.finished + 1) parts)
    finished := r.finished + 1 }

/-- What comes of asking for keys one after the other. Each of them has a component, or a factory
that finishes or that lacks something, or it is missing. -/
inductive Resolves : Registry → List Text → Except Fault (List Component) → Registry → Prop
  | done (r : Registry) : Resolves r [] (.ok []) r
  | held {r r' : Registry} {key : Text} {keys : List Text} {c : Component}
      {x : Except Fault (List Component)} (hc : r.components.get? key = some c)
      (rest : Resolves r keys x r') : Resolves r (key :: keys) (x.map (c :: ·)) r'
  | made {r r₁ r' : Registry} {key : Text} {keys needs : List Text} {parts : List Component}
      {x : Except Fault (List Component)} (hc : r.components.get? key = none)
      (hn : r.needs.get? key = some needs) (first : Resolves r needs (.ok parts) r₁)
      (rest : Resolves (r₁.finishing key parts) keys x r') :
      Resolves r (key :: keys) (x.map (.made key (r₁.finished + 1) parts :: ·)) r'
  | lacks {r r' : Registry} {key : Text} {keys needs : List Text} {f : Fault}
      (hc : r.components.get? key = none) (hn : r.needs.get? key = some needs)
      (first : Resolves r needs (.error f) r') : Resolves r (key :: keys) (.error f) r'
  | missing {r : Registry} {key : Text} {keys : List Text} (hc : r.components.get? key = none)
      (hn : r.needs.get? key = none) : Resolves r (key :: keys) (.error (.missing key)) r

/-! ## Growth -/

/-- A registry that has got components for some keys, each made by the factory of its key out of
components that are held too, and numbered as the factories finished. -/
structure Grows (wanted : Text → Prop) (r r' : Registry) : Prop where
  given : r'.given = r.given
  needs : r'.needs = r.needs
  finished : r.finished ≤ r'.finished
  kept : ∀ key c, r.components.get? key = some c → r'.components.get? key = some c
  made : ∀ key c, r.components.get? key = none → r'.components.get? key = some c →
    wanted key ∧ ∃ needs n parts, r.needs.get? key = some needs ∧ c = .made key n parts ∧
      needs.map r'.components.get? = parts.map some ∧ r.finished < n ∧ n ≤ r'.finished
  counted : ∀ n, r.finished < n → n ≤ r'.finished → ∃ key parts,
    r.components.get? key = none ∧ r'.components.get? key = some (.made key n parts)
  apart : ∀ key key' n parts parts', r.components.get? key = none → r.components.get? key' = none →
    r'.components.get? key = some (.made key n parts) →
    r'.components.get? key' = some (.made key' n parts') → key = key'

variable {r r' r'' : Registry} {P Q : Text → Prop} {key need : Text} {keys : List Text}

namespace Grows

theorem refl (P : Text → Prop) (r : Registry) : Grows P r r where
  given := rfl
  needs := rfl
  finished := Nat.le_refl _
  kept := fun _ _ h => h
  made := by
    intro key c hnone hsome
    rw [hnone] at hsome
    cases hsome
  counted := fun n hlt hle => absurd hlt (by omega)
  apart := by
    intro key key' n parts parts' hnone _ hsome
    rw [hnone] at hsome
    cases hsome

theorem mono (h : Grows P r r') (hPQ : ∀ key, P key → Q key) : Grows Q r r' where
  given := h.given
  needs := h.needs
  finished := h.finished
  kept := h.kept
  made := fun key c hn hs => ⟨hPQ key (h.made key c hn hs).1, (h.made key c hn hs).2⟩
  counted := h.counted
  apart := h.apart

/-- What had no component in the end had none before. -/
theorem none_of_none (h : Grows P r r') (hk : r'.components.get? key = none) :
    r.components.get? key = none := by
  cases hr : r.components.get? key with
  | none => rfl
  | some c => rw [h.kept key c hr] at hk; cases hk

theorem map_kept (h : Grows P r r') {cs : List Component}
    (hcs : keys.map r.components.get? = cs.map some) :
    keys.map r'.components.get? = cs.map some := by
  induction keys generalizing cs with
  | nil => exact hcs
  | cons key keys ih =>
    cases cs with
    | nil => cases hcs
    | cons c cs =>
      obtain ⟨hc, hrest⟩ := List.cons.inj hcs
      rw [List.map_cons, List.map_cons, h.kept key c hc, ih hrest]

theorem trans (h : Grows P r r') (h' : Grows P r' r'') : Grows P r r'' where
  given := h'.given.trans h.given
  needs := h'.needs.trans h.needs
  finished := h.finished.trans h'.finished
  kept := fun key c hc => h'.kept key c (h.kept key c hc)
  made := by
    intro key c hnone hsome
    cases hmid : r'.components.get? key with
    | some d =>
      obtain rfl : d = c := Option.some.inj ((h'.kept key d hmid).symm.trans hsome)
      obtain ⟨hP, needs, n, parts, hneeds, hd, hparts, hlt, hle⟩ := h.made key d hnone hmid
      exact ⟨hP, needs, n, parts, hneeds, hd, h'.map_kept hparts, hlt, hle.trans h'.finished⟩
    | none =>
      obtain ⟨hP, needs, n, parts, hneeds, hd, hparts, hlt, hle⟩ := h'.made key c hmid hsome
      exact ⟨hP, needs, n, parts, h.needs ▸ hneeds, hd, hparts, by have := h.finished; omega, hle⟩
  counted := by
    intro n hlt hle
    by_cases hn : n ≤ r'.finished
    · obtain ⟨key, parts, hnone, hsome⟩ := h.counted n hlt hn
      exact ⟨key, parts, hnone, h'.kept key _ hsome⟩
    · obtain ⟨key, parts, hnone, hsome⟩ := h'.counted n (by omega) hle
      exact ⟨key, parts, h.none_of_none hnone, hsome⟩
  apart := by
    intro key key' n parts parts' hnone hnone' hsome hsome'
    -- A component is numbered below `r'.finished` if it was there in the middle, and else above.
    have hnumber {k : Text} {ps : List Component} (hk : r.components.get? k = none)
        (hs : r''.components.get? k = some (.made k n ps)) :
        r'.components.get? k = some (.made k n ps) ∧ n ≤ r'.finished ∨
          r'.components.get? k = none ∧ r'.finished < n := by
      cases hmid : r'.components.get? k with
      | none =>
        obtain ⟨-, _, m, _, -, hd, -, hlt, -⟩ := h'.made k _ hmid hs
        cases hd
        exact .inr ⟨rfl, hlt⟩
      | some d =>
        obtain rfl : d = .made k n ps := Option.some.inj ((h'.kept k d hmid).symm.trans hs)
        obtain ⟨-, _, m, _, -, hd, -, -, hle⟩ := h.made k _ hk hmid
        cases hd
        exact .inl ⟨rfl, hle⟩
    obtain ⟨hmid, hle⟩ | ⟨hmid, hlt⟩ := hnumber hnone hsome <;>
      obtain ⟨hmid', hle'⟩ | ⟨hmid', hlt'⟩ := hnumber hnone' hsome'
    · exact h.apart key key' n parts parts' hnone hnone' hmid hmid'
    · omega
    · omega
    · exact h'.apart key key' n parts parts' hmid hmid' hsome hsome'

/-- With more components no key waits for more. -/
theorem waits (h : Grows P r r') (hw : r'.Waits key need) : r.Waits key need := by
  obtain ⟨hc, needs, hn, hmem⟩ := hw
  exact ⟨h.none_of_none hc, needs, h.needs ▸ hn, hmem⟩

theorem awaits (h : Grows P r r') (hw : r'.Awaits key need) : r.Awaits key need :=
  ReflTransGen.mono (fun _ _ => h.waits) _ _ hw

theorem acyclic (h : Grows P r r') (hr : r.Acyclic) : r'.Acyclic := fun key hk =>
  hr key (TransGen.mono (fun _ _ => h.waits) _ _ hk)

end Grows

/-- A factory that finishes with components that are held adds the one of its key. -/
theorem grows_finishing {needs : List Text} {parts : List Component} (hP : P key)
    (hc : r.components.get? key = none) (hn : r.needs.get? key = some needs)
    (hparts : needs.map r.components.get? = parts.map some) :
    Grows P r (r.finishing key parts) where
  given := rfl
  needs := rfl
  finished := Nat.le_succ _
  kept := by
    intro k c hk
    have hne : key ≠ k := by rintro rfl; rw [hc] at hk; cases hk
    exact (OrderedMap.get?_put_other _ _ hne).trans hk
  made := by
    intro k c hnone hsome
    rw [finishing, OrderedMap.get?_put] at hsome
    split at hsome
    · next hk =>
      cases hsome
      subst hk
      refine ⟨hP, needs, _, parts, hn, rfl, ?_, Nat.lt_succ_self _, Nat.le_refl _⟩
      rw [← hparts]
      refine List.map_congr_left fun need hmem => OrderedMap.get?_put_other _ _ ?_
      -- The key itself had no component, so it is none of the parts.
      rintro rfl
      have hheld : none ∈ parts.map some := hparts ▸ hc ▸ List.mem_map_of_mem hmem
      simp at hheld
    · rw [hnone] at hsome
      cases hsome
  counted := by
    intro n hlt hle
    have hlast : n = r.finished + 1 := by
      have : n ≤ r.finished + 1 := hle
      omega
    exact ⟨key, parts, hc, by rw [hlast]; exact OrderedMap.get?_put_same _ _ _⟩
  apart := by
    have honly {k : Text} {c : Component} (hk : r.components.get? k = none)
        (hs : (r.finishing key parts).components.get? k = some c) : key = k := by
      rw [finishing, OrderedMap.get?_put] at hs
      split at hs
      · assumption
      · rw [hk] at hs; cases hs
    intro k k' n ps ps' hk hk' hs hs'
    exact (honly hk hs).symm.trans (honly hk' hs')

/-! ## What resolving does -/

/-- A key that waits has no component when its factory finishes. -/
theorem Grows.none_of_waits (h : Grows (fun k => ∃ need ∈ keys, r.Awaits need k) r r')
    (hr : r.Acyclic) (hc : r.components.get? key = none) (hn : r.needs.get? key = some keys) :
    r'.components.get? key = none := by
  cases hs : r'.components.get? key with
  | none => rfl
  | some c =>
    obtain ⟨⟨need, hmem, hpath⟩, -⟩ := h.made key c hc hs
    exact absurd (TransGen.head' ⟨hc, keys, hn, hmem⟩ hpath) (hr key)

/-- After the factory of a key has finished, the registry has grown by what the key waited for. -/
theorem Grows.finishing {parts : List Component}
    (h : Grows (fun k => ∃ need ∈ keys, r.Awaits need k) r r') (hr : r.Acyclic)
    (hc : r.components.get? key = none) (hn : r.needs.get? key = some keys)
    (hparts : keys.map r'.components.get? = parts.map some) :
    Grows (r.Awaits key) r (r'.finishing key parts) := by
  have hfirst : Grows (r.Awaits key) r r' := h.mono fun k ⟨need, hmem, hpath⟩ =>
    ReflTransGen.head ⟨hc, keys, hn, hmem⟩ hpath
  refine hfirst.trans ?_
  exact grows_finishing ReflTransGen.refl (h.none_of_waits hr hc hn) (h.needs ▸ hn) hparts

/-- Whatever comes of resolving, the registry has grown by what the keys wait for; if there are
components for all of them, these are held. -/
theorem Resolves.grows {x : Except Fault (List Component)} (h : Resolves r keys x r')
    (hr : r.Acyclic) : Grows (fun k => ∃ key ∈ keys, r.Awaits key k) r r' ∧
      ∀ cs, x = .ok cs → keys.map r'.components.get? = cs.map some := by
  induction h with
  | done r => exact ⟨Grows.refl _ r, fun cs hcs => by cases hcs; rfl⟩
  | @held r r' key keys c x hc rest ih =>
    obtain ⟨hgrows, hheld⟩ := ih hr
    refine ⟨hgrows.mono fun k ⟨j, hj, hpath⟩ => ⟨j, List.mem_cons_of_mem _ hj, hpath⟩, ?_⟩
    intro cs hcs
    obtain ⟨ds, hds, rfl⟩ := Except.map_eq_ok_iff.1 hcs
    rw [List.map_cons, List.map_cons, hgrows.kept key c hc, hheld ds hds]
  | @made r r₁ r' key keys needs parts x hc hn first rest ihfirst ihrest =>
    obtain ⟨hfirst, hparts⟩ := ihfirst hr
    have hmade := hfirst.finishing hr hc hn (hparts parts rfl)
    obtain ⟨hrest, hheld⟩ := ihrest (hmade.acyclic hr)
    constructor
    · refine Grows.trans (hmade.mono fun k hpath => ⟨key, List.mem_cons_self, hpath⟩) ?_
      exact hrest.mono fun k ⟨j, hj, hpath⟩ => ⟨j, List.mem_cons_of_mem _ hj, hmade.awaits hpath⟩
    · intro cs hcs
      obtain ⟨ds, hds, rfl⟩ := Except.map_eq_ok_iff.1 hcs
      rw [List.map_cons, List.map_cons, hheld ds hds,
        hrest.kept key _ (OrderedMap.get?_put_same _ _ _)]
  | @lacks r r' key keys needs f hc hn first ih =>
    refine ⟨(ih hr).1.mono fun k ⟨need, hmem, hpath⟩ => ?_, fun cs hcs => by cases hcs⟩
    exact ⟨key, List.mem_cons_self, ReflTransGen.head ⟨hc, needs, hn, hmem⟩ hpath⟩
  | missing hc hn => exact ⟨Grows.refl _ _, fun cs hcs => by cases hcs⟩

/-- Nothing is known under the key: neither a component nor a factory. -/
def Unknown (r : Registry) (key : Text) : Prop :=
  r.components.get? key = none ∧ r.needs.get? key = none

theorem Grows.unknown (h : Grows P r r') (hk : r'.Unknown key) : r.Unknown key :=
  ⟨h.none_of_none hk.1, h.needs ▸ hk.2⟩

/-- Resolving fails only for want of a key that nothing is known under. -/
theorem Resolves.exists_missing {x : Except Fault (List Component)} (h : Resolves r keys x r')
    (hr : r.Acyclic) {f : Fault} (hx : x = .error f) :
    ∃ m, f = .missing m ∧ r.Unknown m ∧ ∃ key ∈ keys, r.Awaits key m := by
  induction h with
  | done r => cases hx
  | @held r r' key keys c x hc rest ih =>
    cases x with
    | ok cs => cases hx
    | error e =>
      cases hx
      obtain ⟨m, hf, hm, k, hk, hpath⟩ := ih hr rfl
      exact ⟨m, hf, hm, k, List.mem_cons_of_mem _ hk, hpath⟩
  | @made r r₁ r' key keys needs parts x hc hn first rest ihfirst ihrest =>
    cases x with
    | ok cs => cases hx
    | error e =>
      cases hx
      obtain ⟨hfirst, hparts⟩ := first.grows hr
      have hmade := hfirst.finishing hr hc hn (hparts parts rfl)
      obtain ⟨m, hf, hm, k, hk, hpath⟩ := ihrest (hmade.acyclic hr) rfl
      exact ⟨m, hf, hmade.unknown hm, k, List.mem_cons_of_mem _ hk, hmade.awaits hpath⟩
  | @lacks r r' key keys needs f' hc hn first ih =>
    cases hx
    obtain ⟨m, hf, hm, need, hmem, hpath⟩ := ih hr rfl
    exact ⟨m, hf, hm, key, List.mem_cons_self, ReflTransGen.head ⟨hc, needs, hn, hmem⟩ hpath⟩
  | @missing r key keys hc hn =>
    cases hx
    exact ⟨key, rfl, ⟨hc, hn⟩, key, List.mem_cons_self, ReflTransGen.refl⟩

/-- No key that waits for a missing one gets a component. -/
theorem Grows.none_above {m : Text} (h : Grows P r r') (hm : r.Unknown m) (hpath : r.Awaits key m) :
    r'.components.get? key = none := by
  induction hpath using ReflTransGen.head_induction_on with
  | refl =>
    by_contra hsome
    obtain ⟨c, hc⟩ := Option.ne_none_iff_exists'.1 hsome
    obtain ⟨-, needs, -, -, hn, -⟩ := h.made m c hm.1 hc
    rw [hm.2] at hn
    cases hn
  | @head key need hw hpath ih =>
    obtain ⟨hnone, needs, hn, hmem⟩ := hw
    by_contra hsome
    obtain ⟨c, hc⟩ := Option.ne_none_iff_exists'.1 hsome
    obtain ⟨-, needs', -, parts, hn', -, hparts, -⟩ := h.made key c hnone hc
    cases hn.symm.trans hn'
    have hheld : none ∈ parts.map some := hparts ▸ ih ▸ List.mem_map_of_mem hmem
    simp at hheld

/-! ## How many keys a key waits for -/

open Classical in
/-- The keys with factories that a key waits for; the key is among them if it has one. -/
noncomputable def ahead (r : Registry) (key : Text) : Finset Text :=
  r.needs.keys.toFinset.filter (r.Awaits key)

theorem mem_ahead_iff {k : Text} : k ∈ r.ahead key ↔ r.needs.has k ∧ r.Awaits key k := by
  simp [ahead, OrderedMap.has_iff_mem_keys]

theorem card_ahead_le (r : Registry) (key : Text) : (r.ahead key).card ≤ r.needs.size := by
  classical
  refine (Finset.card_filter_le _ _).trans ((List.toFinset_card_le _).trans ?_)
  simp [OrderedMap.keys, OrderedMap.size]

/-- A key has more ahead of it than any key that it waits for: itself. -/
theorem card_ahead_lt (hr : r.Acyclic) (h : r.Waits key need) :
    (r.ahead need).card < (r.ahead key).card := by
  have hkey : key ∈ r.ahead key := by
    obtain ⟨-, needs, hn, -⟩ := h
    exact mem_ahead_iff.2 ⟨by simp [OrderedMap.has, hn], ReflTransGen.refl⟩
  refine Finset.card_lt_card ((Finset.ssubset_iff_of_subset fun k hk => ?_).2 ⟨key, hkey, ?_⟩)
  · obtain ⟨hhas, hpath⟩ := mem_ahead_iff.1 hk
    exact mem_ahead_iff.2 ⟨hhas, ReflTransGen.head h hpath⟩
  · exact fun hk => hr key (TransGen.head' h (mem_ahead_iff.1 hk).2)

theorem Grows.card_ahead_le (h : Grows P r r') (key : Text) :
    (r'.ahead key).card ≤ (r.ahead key).card := by
  refine Finset.card_le_card fun k hk => ?_
  obtain ⟨hhas, hpath⟩ := mem_ahead_iff.1 hk
  exact mem_ahead_iff.2 ⟨h.needs ▸ hhas, h.awaits hpath⟩

/-! ## Runs -/

open Action

section Runs

variable {depth : Nat}

theorem run_resolveWithin_held (depth : Nat) {c : Component} (hc : r.components.get? key = some c) :
    (resolveWithin depth key).run r = (.ok c, r) := by
  unfold resolveWithin
  simp [Action.run, bind, Action.andThen, Action.look, hc, pure]

theorem run_resolveWithin_missing (depth : Nat) (hk : r.Unknown key) :
    (resolveWithin depth key).run r = (.error (.missing key), r) := by
  unfold resolveWithin
  simp [Action.run, bind, Action.andThen, Action.look, hk.1, hk.2, Action.fail]

theorem run_resolveWithin_made (depth : Nat) {needs : List Text}
    (hc : r.components.get? key = none) (hn : r.needs.get? key = some needs) :
    (resolveWithin (depth + 1) key).run r =
      (forEach (resolveWithin depth) needs >>= finish key).run r := by
  rw [resolveWithin]
  simp [Action.run, bind, Action.andThen, Action.look, hc, hn]

/-- As long as no fewer factories may wait than there are keys ahead, resolving is as told. -/
theorem resolves_of_run {x : Except Fault (List Component)} (hr : r.Acyclic)
    (hdepth : ∀ key ∈ keys, (r.ahead key).card ≤ depth)
    (h : (forEach (resolveWithin depth) keys).run r = (x, r')) : Resolves r keys x r' := by
  induction depth using Nat.strong_induction_on generalizing r keys x r' with
  | _ depth ihdepth =>
  induction keys generalizing r x r' with
  | nil =>
    cases h
    exact .done r
  | cons key keys ih =>
    obtain ⟨hkey, hkeys⟩ := List.forall_mem_cons.1 hdepth
    cases hc : r.components.get? key with
    | some c =>
      rw [run_forEach_cons_ok (run_resolveWithin_held depth hc)] at h
      cases h
      exact .held hc (ih hr hkeys rfl)
    | none =>
      cases hn : r.needs.get? key with
      | none =>
        rw [run_forEach_cons_error (run_resolveWithin_missing depth ⟨hc, hn⟩)] at h
        cases h
        exact .missing hc hn
      | some needs =>
        have hpos : 0 < (r.ahead key).card :=
          Finset.card_pos.2 ⟨key, mem_ahead_iff.2 ⟨by simp [OrderedMap.has, hn], .refl⟩⟩
        obtain ⟨d, rfl⟩ : ∃ d, depth = d + 1 := ⟨depth - 1, by omega⟩
        have hneeds : ∀ need ∈ needs, (r.ahead need).card ≤ d := fun need hmem => by
          have := card_ahead_lt hr ⟨hc, needs, hn, hmem⟩
          omega
        have hrun := run_resolveWithin_made d hc hn
        cases hfirst : (forEach (resolveWithin d) needs).run r with
        | mk y r₁ =>
          have hres := ihdepth d (Nat.lt_succ_self d) hr hneeds hfirst
          cases y with
          | error f =>
            rw [run_bind_error hfirst] at hrun
            rw [run_forEach_cons_error hrun] at h
            cases h
            exact .lacks hc hn hres
          | ok parts =>
            rw [run_bind_ok hfirst, run_finish] at hrun
            rw [run_forEach_cons_ok hrun] at h
            cases h
            obtain ⟨hgrows, hheld⟩ := hres.grows hr
            have hmade := hgrows.finishing hr hc hn (hheld parts rfl)
            refine .made hc hn hres (ih (hmade.acyclic hr) (fun k hk => ?_) rfl)
            exact (hmade.card_ahead_le k).trans (hkeys k hk)

/-- What comes of asking an acyclic registry for one key. -/
theorem resolves_of_resolve {x : Except Fault Component} (hr : r.Acyclic)
    (h : (resolve key).run r = (x, r')) : Resolves r [key] (x.map ([·])) r' := by
  have hdepth : ∀ k ∈ [key], (r.ahead k).card ≤ r.needs.size := fun k _ => r.card_ahead_le k
  refine resolves_of_run hr hdepth ?_
  have h : (resolveWithin r.needs.size key).run r = (x, r') := h
  cases x with
  | ok c => rw [run_forEach_cons_ok h]; rfl
  | error f => rw [run_forEach_cons_error h]; rfl

end Runs

end Tabular.Registry
