import Tabular.Proofs.Registry.Resolving

/-!
# Requests to a registry

What is registered and asked for, one after the other. What was registered last under a key is what
is found there: a component as it was given, or the one that the factory made when it first finished.
A factory that lacks something leaves behind what the others have made, and none of these runs again.
-/

namespace Tabular

/-- Which factory run a component comes from, counting those that finished; a component that was given
comes from none. -/
def Component.number : Component → Nat
  | given _ => 0
  | made _ n _ => n

namespace Registry

open Relation

inductive Request where
  | register (key : Text) (c : Component)
  | registerFactory (key : Text) (needs : List Text)
  | resolve (key : Text)
  | clear

namespace Request

/-- Something is registered under the key. -/
def Registers (key : Text) : Request → Prop
  | .register k _ | .registerFactory k _ => k = key
  | .resolve _ | .clear => False

/-- What is registered under the key stays so. -/
def Spares (key : Text) : Request → Prop
  | .register k _ | .registerFactory k _ => k ≠ key
  | .resolve _ => True
  | .clear => False

end Request

def after (r : Registry) : Request → Registry
  | .register key c => r.register key c
  | .registerFactory key needs => r.registerFactory key needs
  | .resolve key => ((resolve key).run r).2
  | .clear => r.clear

def afterAll (r : Registry) (qs : List Request) : Registry := qs.foldl after r

/-- Whatever has been asked, no key waits for itself. -/
def Orderly : Registry → List Request → Prop
  | r, [] => r.Acyclic
  | r, q :: qs => r.Acyclic ∧ Orderly (r.after q) qs

/-- What factories make while a request is carried out, under the keys. -/
def makes (r : Registry) : Request → List (Text × Component)
  | .resolve key =>
    ((resolve key).run r).2.components.entries.filter fun e => !r.components.has e.1
  | .register _ _ | .registerFactory _ _ | .clear => []

/-- What factories make while requests are carried out, under the keys. -/
def makesAll : Registry → List Request → List (Text × Component)
  | _, [] => []
  | r, q :: qs => r.makes q ++ (r.after q).makesAll qs

variable {r r' : Registry} {key m : Text} {q : Request} {qs : List Request} {c : Component}

@[simp] theorem afterAll_cons (r : Registry) (q : Request) (qs : List Request) :
    r.afterAll (q :: qs) = (r.after q).afterAll qs := rfl

theorem afterAll_append (r : Registry) (qs qs' : List Request) :
    r.afterAll (qs ++ qs') = (r.afterAll qs).afterAll qs' := List.foldl_append

theorem Orderly.acyclic (h : r.Orderly qs) : r.Acyclic := by
  cases qs with
  | nil => exact h
  | cons q qs => exact h.1

theorem Orderly.append {qs' : List Request} (h : r.Orderly (qs ++ qs')) :
    r.Orderly qs ∧ (r.afterAll qs).Orderly qs' := by
  induction qs generalizing r with
  | nil => exact ⟨h.acyclic, h⟩
  | cons q qs ih => exact ⟨⟨h.1, (ih h.2).1⟩, (ih h.2).2⟩

/-! ## One request -/

theorem grows_resolve (hr : r.Acyclic) (key : Text) :
    Grows (r.Awaits key) r (r.after (.resolve key)) := by
  refine ((resolves_of_resolve hr rfl).grows hr).1.mono ?_
  rintro k ⟨j, hj, hpath⟩
  obtain rfl := List.mem_singleton.1 hj
  exact hpath

/-- A component that is returned is held. -/
theorem held_of_resolve (hr : r.Acyclic) (h : (resolve key).run r = (.ok c, r')) :
    r'.components.get? key = some c := by
  have hheld := ((resolves_of_resolve hr h).grows hr).2 [c] rfl
  simpa using hheld

theorem missing_of_resolve {f : Fault} (hr : r.Acyclic)
    (h : (resolve key).run r = (.error f, r')) :
    ∃ m, f = .missing m ∧ r.Unknown m ∧ r.Awaits key m := by
  obtain ⟨m, hf, hm, k, hk, hpath⟩ := (resolves_of_resolve hr h).exists_missing hr rfl
  obtain rfl := List.mem_singleton.1 hk
  exact ⟨m, hf, hm, hpath⟩

theorem Orderly.resolve (h : r.Orderly qs) (key : Text) : r.Orderly (qs ++ [.resolve key]) := by
  induction qs generalizing r with
  | nil => exact ⟨h, (grows_resolve h key).acyclic h⟩
  | cons q qs ih => exact ⟨h.1, ih h.2⟩

/-- A key has a component once all that it waits for is known. -/
theorem resolve_ok_iff (hr : r.Acyclic) : (∃ c r', (resolve key).run r = (.ok c, r')) ↔
    ∀ m, r.Awaits key m → ¬ r.Unknown m := by
  constructor
  · rintro ⟨c, r', h⟩ m hpath hm
    have hgrows : Grows (r.Awaits key) r ((resolve key).run r).2 := grows_resolve hr key
    rw [h] at hgrows
    have hnone := hgrows.none_above hm hpath
    rw [held_of_resolve hr h] at hnone
    cases hnone
  · intro hknown
    cases h : (resolve key).run r with
    | mk x r' =>
      cases x with
      | ok c => exact ⟨c, r', rfl⟩
      | error f =>
        obtain ⟨m, -, hm, hpath⟩ := missing_of_resolve hr h
        exact absurd hm (hknown m hpath)

theorem mem_makes_iff {e : Text × Component} : e ∈ r.makes (.resolve key) ↔
    (r.after (.resolve key)).components.get? e.1 = some e.2 ∧ r.components.get? e.1 = none := by
  rw [makes, List.mem_filter, ← OrderedMap.has_eq_false_iff, Bool.not_eq_true',
    ← OrderedMap.mem_entries_iff]
  rfl

/-- What is registered under a key, and what is held for it, outlasts a request that spares it. -/
theorem after_kept (hr : r.Acyclic) (hq : q.Spares key) (hc : r.components.get? key = some c) :
    (r.after q).components.get? key = some c := by
  cases q with
  | register k d => exact (OrderedMap.get?_put_other _ _ hq).trans hc
  | registerFactory k needs => exact (OrderedMap.get?_erase_other _ hq).trans hc
  | resolve k => exact (grows_resolve hr k).kept key c hc
  | clear => exact hq.elim

theorem after_unknown (hr : r.Acyclic) (hq : q.Spares key) (hk : r.Unknown key) :
    (r.after q).Unknown key := by
  obtain ⟨hc, hn⟩ := hk
  cases q with
  | register k d => exact ⟨(OrderedMap.get?_put_other _ _ hq).trans hc, hn⟩
  | registerFactory k needs =>
    exact ⟨(OrderedMap.get?_erase_other _ hq).trans hc, (OrderedMap.get?_put_other _ _ hq).trans hn⟩
  | resolve k =>
    have hgrows := grows_resolve hr k
    exact ⟨hgrows.none_above ⟨hc, hn⟩ .refl, hgrows.needs ▸ hn⟩
  | clear => exact hq.elim

/-- The factory of a key finishes in a request that spares the key if it has no component before
and one afterwards, and then only once. -/
theorem filter_makes (hq : q.Spares key) :
    (r.makes q).filter (·.1 = key) = if r.components.has key then [] else
      (((r.after q).components.get? key).map (key, ·)).toList := by
  cases q with
  | register k d =>
    have hsame : (r.after (.register k d)).components.get? key = r.components.get? key :=
      OrderedMap.get?_put_other _ _ hq
    rw [hsame, makes, OrderedMap.has]
    cases r.components.get? key <;> rfl
  | registerFactory k needs =>
    have hsame : (r.after (.registerFactory k needs)).components.get? key = r.components.get? key :=
      OrderedMap.get?_erase_other _ hq
    rw [hsame, makes, OrderedMap.has]
    cases r.components.get? key <;> rfl
  | resolve k =>
    have hentries := OrderedMap.filter_entries (r.after (.resolve k)).components key
    rw [makes, List.filter_comm, ← after, hentries]
    cases hs : (r.after (.resolve k)).components.get? key with
    | none => simp
    | some c => cases hh : r.components.has key <;> simp [hh]
  | clear => exact hq.elim

/-- The components that factories make in a request have the numbers that come next. -/
theorem number_makes (hr : r.Acyclic) (q : Request) :
    r.finished ≤ (r.after q).finished ∧ ((r.makes q).map fun e => e.2.number).Perm
      (List.range' (r.finished + 1) ((r.after q).finished - r.finished)) := by
  have hidle (h : (r.after q).finished = r.finished) (hm : r.makes q = []) :
      r.finished ≤ (r.after q).finished ∧ ((r.makes q).map fun e => e.2.number).Perm
        (List.range' (r.finished + 1) ((r.after q).finished - r.finished)) := by
    rw [h, hm, Nat.sub_self]
    exact ⟨Nat.le_refl _, List.Perm.refl _⟩
  cases q with
  | register k d => exact hidle rfl rfl
  | registerFactory k needs => exact hidle rfl rfl
  | clear => exact hidle rfl rfl
  | resolve k =>
    have hgrows := grows_resolve hr k
    refine ⟨hgrows.finished, (List.perm_ext_iff_of_nodup ?_ List.nodup_range').2 fun n => ?_⟩
    · refine List.Nodup.map_on ?_ ((List.Nodup.of_map _ (OrderedMap.distinct _)).filter _)
      rintro ⟨j, d⟩ hd ⟨j', d'⟩ hd' he
      obtain ⟨hs, hn⟩ := mem_makes_iff.1 hd
      obtain ⟨hs', hn'⟩ := mem_makes_iff.1 hd'
      obtain ⟨-, -, i, parts, -, rfl, -⟩ := hgrows.made j d hn hs
      obtain ⟨-, -, i', parts', -, rfl, -⟩ := hgrows.made j' d' hn' hs'
      obtain rfl : i = i' := he
      obtain rfl := hgrows.apart j j' i parts parts' hn hn' hs hs'
      exact congrArg (j, ·) (Option.some.inj (hs.symm.trans hs'))
    · rw [List.mem_range'_1, List.mem_map]
      have hle := hgrows.finished
      constructor
      · rintro ⟨⟨j, d⟩, hd, rfl⟩
        obtain ⟨hs, hn⟩ := mem_makes_iff.1 hd
        obtain ⟨-, -, i, parts, -, rfl, -, hlt, hi⟩ := hgrows.made j d hn hs
        change r.finished + 1 ≤ i ∧ i < _
        omega
      · intro hn
        obtain ⟨j, parts, hnone, hs⟩ := hgrows.counted n (by omega) (by omega)
        exact ⟨(j, .made j n parts), mem_makes_iff.2 ⟨hs, hnone⟩, rfl⟩

/-! ## Many requests -/

theorem afterAll_kept (hr : r.Orderly qs) (hqs : ∀ q ∈ qs, q.Spares key)
    (hc : r.components.get? key = some c) : (r.afterAll qs).components.get? key = some c := by
  induction qs generalizing r with
  | nil => exact hc
  | cons q qs ih =>
    obtain ⟨hq, hqs⟩ := List.forall_mem_cons.1 hqs
    exact ih hr.2 hqs (after_kept hr.1 hq hc)

theorem filter_makesAll (hr : r.Orderly qs) (hqs : ∀ q ∈ qs, q.Spares key) :
    (r.makesAll qs).filter (·.1 = key) = if r.components.has key then [] else
      (((r.afterAll qs).components.get? key).map (key, ·)).toList := by
  induction qs generalizing r with
  | nil =>
    rw [makesAll, afterAll, List.foldl_nil, OrderedMap.has]
    cases r.components.get? key <;> rfl
  | cons q qs ih =>
    obtain ⟨hq, hqs⟩ := List.forall_mem_cons.1 hqs
    rw [makesAll, List.filter_append, filter_makes hq, ih hr.2 hqs, afterAll_cons]
    cases hc : r.components.get? key with
    | some c =>
      have hkept := after_kept hr.1 hq hc
      simp [OrderedMap.has, hc, hkept]
    | none =>
      cases hnext : (r.after q).components.get? key with
      | none => simp [OrderedMap.has, hc, hnext]
      | some c => simp [OrderedMap.has, hc, hnext, afterAll_kept hr.2 hqs hnext]

theorem number_makesAll (hr : r.Orderly qs) : r.finished ≤ (r.afterAll qs).finished ∧
    ((r.makesAll qs).map fun e => e.2.number).Perm
      (List.range' (r.finished + 1) ((r.afterAll qs).finished - r.finished)) := by
  induction qs generalizing r with
  | nil => simp [makesAll, afterAll]
  | cons q qs ih =>
    obtain ⟨hle, hfirst⟩ := number_makes hr.1 q
    obtain ⟨hle', hrest⟩ := ih hr.2
    refine ⟨hle.trans hle', ?_⟩
    rw [makesAll, List.map_append, afterAll_cons]
    have hsplit : (r.afterAll (q :: qs)).finished - r.finished =
        ((r.after q).finished - r.finished) +
          (((r.after q).afterAll qs).finished - (r.after q).finished) := by
      rw [afterAll_cons]
      omega
    have hstart : r.finished + 1 + ((r.after q).finished - r.finished) =
        (r.after q).finished + 1 := by omega
    rw [← afterAll_cons, hsplit, ← List.range'_append_1, hstart]
    exact hfirst.append hrest

/-- What is known under a key was registered, and has been spared since. -/
theorem exists_registration (hqs : empty.Orderly qs) (hk : ¬ (empty.afterAll qs).Unknown key) :
    ∃ before q since, qs = before ++ q :: since ∧ q.Registers key ∧ ∀ p ∈ since, p.Spares key := by
  induction qs using List.reverseRecOn with
  | nil => exact absurd ⟨rfl, rfl⟩ hk
  | append_singleton qs q ih =>
    obtain ⟨hbefore, hlast⟩ := hqs.append
    by_cases hreg : q.Registers key
    · exact ⟨qs, q, [], rfl, hreg, by simp⟩
    · have hspares : q.Spares key := by
        cases q with
        | register k c => exact hreg
        | registerFactory k needs => exact hreg
        | resolve k => trivial
        | clear =>
          refine absurd ?_ hk
          rw [afterAll_append]
          exact ⟨rfl, rfl⟩
      have hknown : ¬ (empty.afterAll qs).Unknown key := fun h => hk <| by
        rw [afterAll_append]
        exact after_unknown hlast.1 hspares h
      obtain ⟨before, p, since, rfl, hp, hsince⟩ := ih hbefore hknown
      refine ⟨before, p, since ++ [q], by simp, hp, fun p' hp' => ?_⟩
      obtain h | h := List.mem_append.1 hp'
      · exact hsince p' h
      · obtain rfl := List.mem_singleton.1 h
        exact hspares

/-- Factories that ask only for keys of lower rank do not wait for one another in a circle. -/
theorem acyclic_of_rank {rank : Text → Nat}
    (hr : ∀ key needs, r.needs.get? key = some needs → ∀ need ∈ needs, rank need < rank key) :
    r.Acyclic := by
  have hlt {key need : Text} (hw : TransGen r.Waits key need) : rank need < rank key := by
    induction hw with
    | single hw =>
      obtain ⟨-, needs, hn, hmem⟩ := hw
      exact hr _ needs hn _ hmem
    | tail _ hw ih =>
      obtain ⟨-, needs, hn, hmem⟩ := hw
      exact (hr _ needs hn _ hmem).trans ih
  exact fun key hkey => (hlt hkey).false

/-- Requests that register only such factories are orderly. -/
theorem orderly_of_rank {rank : Text → Nat}
    (hr : ∀ key needs, r.needs.get? key = some needs → ∀ need ∈ needs, rank need < rank key)
    (hqs : ∀ key needs, .registerFactory key needs ∈ qs → ∀ need ∈ needs, rank need < rank key) :
    r.Orderly qs := by
  have hacyclic : r.Acyclic := acyclic_of_rank hr
  induction qs generalizing r with
  | nil => exact hacyclic
  | cons q qs ih =>
    have hnext : ∀ key needs, (r.after q).needs.get? key = some needs →
        ∀ need ∈ needs, rank need < rank key := by
      intro key needs hn
      cases q with
      | register k c => exact hr key needs hn
      | registerFactory k needs' =>
        have hput : (r.needs.put k needs').get? key = some needs := hn
        rw [OrderedMap.get?_put] at hput
        split at hput
        · next hk =>
          cases hput
          subst hk
          exact hqs k needs List.mem_cons_self
        · exact hr key needs hput
      | resolve k => exact hr key needs ((grows_resolve hacyclic k).needs ▸ hn)
      | clear => cases hn
    exact ⟨hacyclic, ih hnext (fun key needs hmem => hqs key needs (List.mem_cons_of_mem _ hmem))
      (acyclic_of_rank hnext)⟩

/-! ## What is found under a key -/

/-- What the factory of a key makes while requests are carried out. -/
def runs (r : Registry) (key : Text) (qs : List Request) : List (Text × Component) :=
  (r.makesAll qs).filter (·.1 = key)

/-- What there is to say of a key after requests to a new registry. -/
structure AsRegistered (qs : List Request) (key : Text) : Prop where
  /-- Each run of a factory that finished is among those told of, once. -/
  counted : ((empty.makesAll qs).map fun e => e.2.number).Perm
    (List.range' 1 (empty.afterAll qs).finished)
  registered : ∀ c r, (resolve key).run (empty.afterAll qs) = (.ok c, r) →
    ∃ before q since, qs = before ++ q :: since ∧ q.Registers key ∧ ∀ p ∈ since, p.Spares key
  /-- A component that was registered last is found, and no factory runs for it. -/
  given : ∀ before c since, qs = before ++ Request.register key c :: since →
    (∀ p ∈ since, p.Spares key) →
      (resolve key).run (empty.afterAll qs) = (.ok c, empty.afterAll qs) ∧
        ((empty.afterAll before).register key c).runs key since = []
  /-- A factory that was registered last finishes at most once, and what it makes is found. -/
  made : ∀ before needs since, qs = before ++ Request.registerFactory key needs :: since →
    (∀ p ∈ since, p.Spares key) →
      let made := ((empty.afterAll before).registerFactory key needs).runs key
        (since ++ [.resolve key])
      made.length ≤ 1 ∧
        ∀ c r, (resolve key).run (empty.afterAll qs) = (.ok c, r) → made = [(key, c)]
  resolves_iff : (∃ c r, (resolve key).run (empty.afterAll qs) = (.ok c, r)) ↔
    ∀ m, (empty.afterAll qs).Awaits key m → ¬ (empty.afterAll qs).Unknown m
  /-- For want of a key, no key above it gets a component, and all that was made is kept. When the
  missing key is registered, and nothing else is missing, the factories that finished do not run
  again. -/
  fails : ∀ f r, (resolve key).run (empty.afterAll qs) = (.error f, r) →
    ∃ m, f = .missing m ∧ (empty.afterAll qs).Unknown m ∧ (empty.afterAll qs).Awaits key m ∧
      (∀ above, (empty.afterAll qs).Awaits above m → r.components.get? above = none) ∧
      (∀ k c, (empty.afterAll qs).components.get? k = some c → r.components.get? k = some c) ∧
      (∀ e ∈ (empty.afterAll qs).makes (.resolve key), r.components.get? e.1 = some e.2) ∧
      ∀ q, q.Registers m → (r.after q).Acyclic →
        (∀ x, (r.after q).Awaits key x → ¬ (r.after q).Unknown x) →
          (∃ c r', (resolve key).run (r.after q) = (.ok c, r')) ∧
            ∀ e ∈ (r.after q).makes (.resolve key), r.components.get? e.1 = none

/-- A request that registers a key spares the others. -/
theorem Request.Registers.spares (hq : q.Registers m) (hne : m ≠ key) : q.Spares key := by
  cases q with
  | register k c => exact fun h => hne (hq.symm.trans h)
  | registerFactory k needs => exact fun h => hne (hq.symm.trans h)
  | resolve k => trivial
  | clear => exact hq.elim

/-- What was registered last is found, and each factory runs until it has finished and not again. -/
theorem asRegistered_of_orderly (hqs : empty.Orderly qs) (key : Text) : AsRegistered qs key := by
  have hacyclic : (empty.afterAll qs).Acyclic := by
    rw [← List.append_nil qs] at hqs
    exact hqs.append.2
  refine ⟨?counted, ?registered, ?given, ?made, resolve_ok_iff hacyclic, ?fails⟩
  case counted => exact (number_makesAll hqs).2
  case registered =>
    intro c r h
    exact exists_registration hqs ((resolve_ok_iff hacyclic).1 ⟨c, r, h⟩ key .refl)
  case given =>
    rintro before c since rfl hsince
    have hrest : (empty.afterAll before).Orderly (.register key c :: since) := hqs.append.2
    have hheld : ((empty.afterAll before).register key c).components.get? key = some c :=
      OrderedMap.get?_put_same _ _ _
    constructor
    · rw [afterAll_append, afterAll_cons]
      exact run_resolve_of_get? (afterAll_kept hrest.2 hsince hheld)
    · have hruns := filter_makesAll hrest.2 hsince
      rwa [after, OrderedMap.has, hheld] at hruns
  case made =>
    rintro before needs since rfl hsince made
    have hrest : (empty.afterAll before).Orderly (.registerFactory key needs :: since) :=
      hqs.append.2
    have hopen : ((empty.afterAll before).registerFactory key needs).components.get? key = none :=
      OrderedMap.get?_erase_same _ _
    have hspares : ∀ p ∈ since ++ [Request.resolve key], p.Spares key := by
      simpa [or_imp, forall_and, Request.Spares] using hsince
    have hruns := filter_makesAll (hrest.2.resolve key) hspares
    rw [after, OrderedMap.has, hopen] at hruns
    have hmade : made = _ := hruns
    rw [hmade, if_neg (by simp)]
    refine ⟨by cases OrderedMap.get? _ key <;> simp, fun c r h => ?_⟩
    have hlast : (((empty.afterAll before).registerFactory key needs).afterAll
        (since ++ [.resolve key])) = r := by
      rw [afterAll_append] at h ⊢
      exact congrArg Prod.snd h
    rw [hlast, held_of_resolve hacyclic h]
    rfl
  case fails =>
    intro f r h
    obtain ⟨m, hf, hm, hpath⟩ := missing_of_resolve hacyclic h
    have hr : (empty.afterAll qs).after (.resolve key) = r := congrArg Prod.snd h
    have hgrows := grows_resolve hacyclic key
    rw [hr] at hgrows
    refine ⟨m, hf, hm, hpath, fun above => hgrows.none_above hm, hgrows.kept, fun e he => ?_, ?_⟩
    · rw [← hr]
      exact (mem_makes_iff.1 he).1
    · intro q hq hnext hknown
      refine ⟨(resolve_ok_iff hnext).2 hknown, fun e he => ?_⟩
      have hnone := (mem_makes_iff.1 he).2
      by_cases hkey : m = e.1
      · exact hkey ▸ hgrows.none_above hm .refl
      · by_contra hsome
        obtain ⟨c, hc⟩ := Option.ne_none_iff_exists'.1 hsome
        rw [after_kept (hgrows.acyclic hacyclic) (hq.spares hkey) hc] at hnone
        cases hnone

/-- A factory lacks a component that is registered later, while another one has finished. -/
theorem asRegistered_of_late_part :
    let qs : List Request := [.registerFactory ['a'] [['b'], ['c']], .registerFactory ['b'] [],
      .resolve ['a'], .register ['c'] (.given ['C'])]
    empty.Orderly qs ∧ AsRegistered qs ['a'] ∧
      ((resolve ['a']).run (empty.afterAll qs)).1.toOption.map Component.text =
        some "a#2(b#1(),C)".toList := by
  intro qs
  have hqs : empty.Orderly qs := by
    refine @orderly_of_rank _ _ (fun key => if key = ['a'] then 1 else 0) (by simp [empty]) ?_
    intro key needs hmem
    simp only [qs, List.mem_cons, Request.registerFactory.injEq, reduceCtorEq, List.not_mem_nil,
      or_false] at hmem
    obtain ⟨rfl, rfl⟩ | ⟨rfl, rfl⟩ := hmem <;> decide
  exact ⟨hqs, asRegistered_of_orderly hqs ['a'], by decide +kernel⟩

end Registry

end Tabular
