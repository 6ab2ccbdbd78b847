import Tabular.Statement.Reader

/-!
# Walks over entries

Tokens can be kept in one list, with an entry for the end behind them, and read by a cursor, which
is a place in the list. A walk looks at the entry at the cursor and moves the cursor on. To look
fails where there is no entry, and to move asks nothing: what keeps the cursor in the list is that
every move comes behind a test that the end does not pass. A walk keeps a record of its places, and
of the turns that it takes: one each time that a loop goes round or a group is opened.
-/

namespace Tabular.Cursor

/-! ## Entries -/

inductive EntryKind where
  | keyword | identifier | number | string | operator | mark | stop
  deriving DecidableEq, Repr

/-- A token of any kind with any text, or the end of them. -/
structure Entry where
  kind : EntryKind
  text : Text
  position : Nat
  deriving DecidableEq, Repr

namespace Entry

def isKeyword (k : Keyword) (e : Entry) : Bool := e.kind = .keyword && e.text = k.text

def isMark (m : Mark) (e : Entry) : Bool := e.kind = .mark && e.text = m.text

def isOperator (o : Operator) (e : Entry) : Bool := e.kind = .operator && e.text = o.text

def isStop (e : Entry) : Bool := e.kind = .stop

def found (e : Entry) : Found := if e.isStop then .endOfCommand else .token e.text e.position

/-- The text of an entry that may be meant as a name. -/
def nameText? (e : Entry) : Option Text :=
  if e.kind = .identifier ∨ e.kind = .keyword ∨ e.kind = .number then some e.text else none

/-- The value of an entry that may stand for one. -/
def literal? (e : Entry) : Option Value :=
  if e.kind = .string ∨ e.kind = .number ∨ e.kind = .identifier ∨ e.isKeyword .TRUE ∨
      e.isKeyword .FALSE ∨ e.isKeyword .NULL then some (Value.ofLiteral e.text)
  else none

/-- The comparators that are written with signs. -/
def comparators : List Operator := [.eq, .ne, .gt, .lt, .ge, .le]

/-- The comparator of an entry that may stand for one. -/
def comparator? (e : Entry) : Option Comparator :=
  if e.isKeyword .LIKE then some .like
  else (comparators.find? e.isOperator).bind Operator.comparator?

end Entry

/-- There is one entry for the end, behind all others. -/
def Closed (es : List Entry) : Prop :=
  ∃ front last, es = front ++ [last] ∧ last.isStop ∧ ∀ e ∈ front, e.isStop = false

/-- Only the last entry is the end. -/
theorem Closed.succ_lt {es : List Entry} (h : Closed es) {n : Nat} {e : Entry}
    (he : es[n]? = some e) (hstop : e.isStop = false) : n + 1 < es.length := by
  obtain ⟨front, last, rfl, hlast, -⟩ := h
  obtain ⟨hlt, -⟩ := List.getElem?_eq_some_iff.1 he
  rw [List.length_append, List.length_singleton] at hlt ⊢
  refine Nat.succ_lt_succ (Nat.lt_of_le_of_ne (Nat.le_of_lt_succ hlt) ?_)
  rintro rfl
  rw [List.getElem?_concat_length] at he
  cases he
  rw [hlast] at hstop
  cases hstop

/-! ## Records -/

/-- The place of the cursor; the places at which it stood at each step, the last first; and for each
turn the place of its test and the place from which it goes on, the last first. -/
structure Track where
  place : Nat
  visited : List Nat
  turns : List (Nat × Nat)

namespace Track

/-- The record with which a walk begins. -/
def initial (start : Nat) : Track := ⟨start, [], []⟩

def look (t : Track) : Track := { t with visited := t.place :: t.visited }

def move (t : Track) : Track :=
  { t with place := t.place + 1, visited := (t.place + 1) :: t.visited }

def turn (start : Nat) (t : Track) : Track := { t with turns := (start, t.place) :: t.turns }

/-- Among `n` entries the cursor has always been at one of them and has never gone back to a place
before one where it was, the first of them `start`; and each turn took an entry or more that no
other turn took. -/
structure Sound (n start : Nat) (t : Track) : Prop where
  inside : ∀ p ∈ t.place :: t.visited, p < n
  forward : (t.place :: (t.visited ++ [start])).Pairwise (· ≥ ·)
  takes : ∀ s ∈ t.turns, start ≤ s.1 ∧ s.1 < s.2 ∧ s.2 ≤ t.place
  apart : t.turns.Pairwise fun s r => r.2 ≤ s.1

variable {n start : Nat} {t : Track}

theorem sound_initial (h : start < n) : (initial start).Sound n start where
  inside := by simpa [initial] using h
  forward := by simp [initial]
  takes := nofun
  apart := .nil

theorem Sound.look (h : t.Sound n start) : t.look.Sound n start where
  inside := List.forall_mem_cons.2 ⟨h.inside _ List.mem_cons_self, h.inside⟩
  forward := by
    refine List.pairwise_cons.2 ⟨?_, h.forward⟩
    exact List.forall_mem_cons.2 ⟨Nat.le_refl _, (List.pairwise_cons.1 h.forward).1⟩
  takes := h.takes
  apart := h.apart

theorem Sound.move (h : t.Sound n start) (hn : t.place + 1 < n) : t.move.Sound n start where
  inside := List.forall_mem_cons.2 ⟨hn, List.forall_mem_cons.2 ⟨hn, fun p hp =>
    h.inside p (List.mem_cons_of_mem _ hp)⟩⟩
  forward := by
    obtain ⟨hplace, hrest⟩ := List.pairwise_cons.1 h.forward
    have hnext : ∀ p ∈ t.visited ++ [start], t.place + 1 ≥ p := fun p hp =>
      Nat.le_succ_of_le (hplace p hp)
    exact .cons (List.forall_mem_cons.2 ⟨Nat.le_refl _, hnext⟩) (.cons hnext hrest)
  takes := fun s hs =>
    ⟨(h.takes s hs).1, (h.takes s hs).2.1, Nat.le_succ_of_le (h.takes s hs).2.2⟩
  apart := h.apart

theorem Sound.start_le (h : t.Sound n start) : start ≤ t.place :=
  (List.pairwise_cons.1 h.forward).1 start (by simp)

/-- A turn whose test was at the place of an earlier record. -/
theorem Sound.turn {u : Track} (hu : u.Sound n start) (ht : t.Sound n start)
    (hturns : u.turns = t.turns) (hlt : t.place < u.place) : (u.turn t.place).Sound n start where
  inside := hu.inside
  forward := hu.forward
  takes := List.forall_mem_cons.2 ⟨⟨ht.start_le, hlt, Nat.le_refl _⟩, hu.takes⟩
  apart := by
    refine .cons (fun r hr => ?_) hu.apart
    rw [hturns] at hr
    exact (ht.takes r hr).2.2

/-- There are no more turns than entries that the cursor has passed. -/
theorem Sound.length_turns_le (h : t.Sound n start) : start + t.turns.length ≤ t.place := by
  have hturns : ∀ {turns : List (Nat × Nat)} {place : Nat}, start ≤ place →
      (∀ s ∈ turns, start ≤ s.1 ∧ s.1 < s.2 ∧ s.2 ≤ place) →
      turns.Pairwise (fun s r => r.2 ≤ s.1) → start + turns.length ≤ place := by
    intro turns
    induction turns with
    | nil => exact fun hstart _ _ => hstart
    | cons s turns ih =>
      intro place _ htakes hapart
      obtain ⟨hs, hrest⟩ := List.forall_mem_cons.1 htakes
      obtain ⟨hbefore, hapart⟩ := List.pairwise_cons.1 hapart
      have hle := ih hs.1 (fun r hr => ⟨(hrest r hr).1, (hrest r hr).2.1, hbefore r hr⟩) hapart
      rw [List.length_cons]
      omega
  exact hturns h.start_le h.takes h.apart

end Track

/-! ## Walks -/

/-- Why a walk has no result: there was no entry to look at, or it turned the command down. -/
inductive Halt where
  | outOfRange
  | rejected (cause : Rejection)

/-- A walk over entries with a record. It goes as far as a limit of calls one inside the other, and
gives nothing if the limit is too low for it to end. -/
abbrev Walk := ReaderT Nat (ReaderT (List Entry) (ExceptT Halt (StateT Track Option)))

/-- A walk that goes beyond every limit. -/
def goOn {α : Type} : Walk α := fun _ _ _ => none

/-- The walk under a limit that is lower by one. -/
def tick {α : Type} (w : Walk α) : Walk α
  | 0 => goOn 0
  | n + 1 => w n

/-- The entry at the cursor. -/
def current : Walk Entry := do
  let es ← readThe (List Entry)
  let t ← getThe Track
  set t.look
  match es[t.place]? with
  | some e => return e
  | none => throw .outOfRange

/-- Go on to the next place, whatever is there. -/
def move : Walk Unit := modifyThe Track Track.move

/-- Go on behind an entry that is not the end. -/
def advance : Walk Entry := do
  let e ← current
  if e.isStop then return e
  else
    move
    return e

def atEnd : Walk Bool := do return (← current).isStop

def reject {α : Type} (cause : Rejection) : Walk α := throw (.rejected cause)

/-- Turn the command down for what stands at the cursor. -/
def refuse {α : Type} (fault : Found → CommandFault) : Walk α := do
  reject (.command (fault (← current).found))

/-- Go on behind an entry that passes the test. -/
def accept (test : Entry → Bool) : Walk Bool := do
  if test (← current) then
    move
    return true
  else return false

/-- Go on behind an entry that passes the test, and take note of the turn. -/
def enter (test : Entry → Bool) : Walk Bool := do
  let start := (← getThe Track).place
  if ← accept test then
    modifyThe Track (Track.turn start)
    return true
  else return false

/-- Go on behind an entry that `f` makes something of. -/
def take {α : Type} (f : Entry → Option α) (fault : Found → CommandFault) : Walk α := do
  match f (← current) with
  | some a =>
    move
    return a
  | none => refuse fault

/-- What is done behind an entry that is entered matters only under the limit in force. -/
theorem entered_congr {α : Type} {test : Entry → Bool} {w w' v : Walk α} {n : Nat}
    (h : w n = w' n) : (do if ← enter test then w else v : Walk α) n =
      (do if ← enter test then w' else v : Walk α) n := by
  have hbranch : ∀ b : Bool, (if b = true then w else v : Walk α) n =
      (if b = true then w' else v : Walk α) n := by
    intro b
    cases b with
    | true => exact h
    | false => rfl
  change (enter test n >>= fun b => (if b = true then w else v : Walk α) n) = _
  rw [funext hbranch]
  rfl

def ofResult {α : Type} : Except Rejection α → Walk α
  | .ok a => return a
  | .error cause => reject cause

/-! ## How walks end -/

/-- Under every limit that is high enough the walk ends in the same way. -/
def Ends {α : Type} (w : Walk α) (es : List Entry) (t : Track) (r : Except Halt α) (u : Track) :
    Prop :=
  ∃ limit, ∀ n, limit ≤ n → w n es t = some (r, u)

section Ends

variable {α β : Type} {w w' : Walk α} {f : α → Walk β} {es : List Entry} {t u v : Track} {a : α}
  {e : Entry} {halt : Halt} {r : Except Halt α}

theorem ends_of_eq (h : ∀ n, w n es t = some (r, u)) : Ends w es t r u := ⟨0, fun n _ => h n⟩

theorem ends_pure (a : α) : Ends (pure a) es t (.ok a) t := ends_of_eq fun _ => rfl

theorem ends_reject (cause : Rejection) : Ends (reject cause : Walk α) es t
    (.error (.rejected cause)) t := ends_of_eq fun _ => rfl

theorem ends_move : Ends move es t (.ok ()) t.move := ends_of_eq fun _ => rfl

/-- A walk ends in one way. -/
theorem Ends.unique {r' : Except Halt α} (h : Ends w es t r u) (h' : Ends w es t r' v) :
    r = r' ∧ u = v := by
  obtain ⟨m, hm⟩ := h
  obtain ⟨n, hn⟩ := h'
  have heq := (hm (max m n) (Nat.le_max_left m n)).symm.trans (hn _ (Nat.le_max_right m n))
  cases heq
  exact ⟨rfl, rfl⟩

theorem Ends.bind {r : Except Halt β} (h : Ends w es t (.ok a) u) (h' : Ends (f a) es u r v) :
    Ends (w >>= f) es t r v := by
  obtain ⟨m, hm⟩ := h
  obtain ⟨n, hn⟩ := h'
  refine ⟨max m n, fun l hl => ?_⟩
  change (w l es t).bind (fun x => ExceptT.bindCont (fun a => f a l es) x.1 x.2) = _
  rw [hm l (Nat.le_trans (Nat.le_max_left m n) hl)]
  exact hn l (Nat.le_trans (Nat.le_max_right m n) hl)

theorem Ends.bind_error (h : Ends w es t (.error halt) u) :
    Ends (w >>= f) es t (.error halt) u := by
  obtain ⟨m, hm⟩ := h
  refine ⟨m, fun l hl => ?_⟩
  change (w l es t).bind (fun x => ExceptT.bindCont (fun a => f a l es) x.1 x.2) = _
  rw [hm l hl]
  rfl

theorem Ends.tick (h : Ends w es t r u) : Ends (tick w) es t r u := by
  obtain ⟨m, hm⟩ := h
  refine ⟨m + 1, fun l hl => ?_⟩
  obtain ⟨n, rfl⟩ := Nat.exists_eq_add_of_le' (Nat.le_trans (Nat.le_add_left 1 m) hl)
  exact hm n (Nat.le_of_succ_le_succ hl)

theorem Ends.ite_pos {p : Prop} [Decidable p] (hp : p) (h : Ends w es t r u) :
    Ends (if p then w else w') es t r u := by
  rw [if_pos hp]
  exact h

theorem Ends.ite_neg {p : Prop} [Decidable p] (hp : ¬p) (h : Ends w' es t r u) :
    Ends (if p then w else w') es t r u := by
  rw [if_neg hp]
  exact h

theorem ends_current (h : es[t.place]? = some e) : Ends current es t (.ok e) t.look := by
  refine ends_of_eq fun n => ?_
  have hrun : current n es t = (match es[t.place]? with
    | some e => (return e : Walk Entry)
    | none => throw Halt.outOfRange) n es t.look := rfl
  rw [hrun, h]
  rfl

theorem ends_advance (h : es[t.place]? = some e) (he : e.isStop = false) :
    Ends advance es t (.ok e) t.look.move :=
  (ends_current h).bind (.ite_neg (by simp [he]) (ends_move.bind (ends_pure e)))

theorem ends_advance_stop (h : es[t.place]? = some e) (he : e.isStop) :
    Ends advance es t (.ok e) t.look :=
  (ends_current h).bind (.ite_pos he (ends_pure e))

variable {test : Entry → Bool}

theorem ends_accept_pass (h : es[t.place]? = some e) (he : test e) :
    Ends (accept test) es t (.ok true) t.look.move :=
  (ends_current h).bind (.ite_pos he (ends_move.bind (ends_pure true)))

theorem ends_accept_fail (h : es[t.place]? = some e) (he : test e = false) :
    Ends (accept test) es t (.ok false) t.look :=
  (ends_current h).bind (.ite_neg (by simp [he]) (ends_pure false))

/-- A turn is noted with the place of its test. -/
theorem Ends.of_enter {b : Bool} (h : Ends (do
      if ← accept test then
        modifyThe Track (Track.turn t.place)
        return true
      else return false : Walk Bool) es t (.ok b) u) : Ends (enter test) es t (.ok b) u := h

theorem ends_enter_pass (h : es[t.place]? = some e) (he : test e) :
    Ends (enter test) es t (.ok true) (t.look.move.turn t.place) :=
  .of_enter ((ends_accept_pass h he).bind (ends_of_eq fun _ => rfl))

theorem ends_enter_fail (h : es[t.place]? = some e) (he : test e = false) :
    Ends (enter test) es t (.ok false) t.look :=
  .of_enter ((ends_accept_fail h he).bind (ends_of_eq fun _ => rfl))

theorem ends_refuse {fault : Found → CommandFault} (h : es[t.place]? = some e) :
    Ends (refuse fault : Walk α) es t (.error (.rejected (.command (fault e.found)))) t.look :=
  (ends_current h).bind (ends_reject _)

theorem ends_take_some {g : Entry → Option α} {fault : Found → CommandFault}
    (h : es[t.place]? = some e) (he : g e = some a) :
    Ends (take g fault) es t (.ok a) t.look.move := by
  refine (ends_current h).bind ?_
  rw [he]
  exact ends_move.bind (ends_pure a)

theorem ends_take_none {g : Entry → Option α} {fault : Found → CommandFault}
    (h : es[t.place]? = some e) (he : g e = none) :
    Ends (take g fault) es t (.error (.rejected (.command (fault e.found)))) t.look.look := by
  refine (ends_current h).bind ?_
  rw [he]
  exact ends_refuse h

end Ends

end Tabular.Cursor
