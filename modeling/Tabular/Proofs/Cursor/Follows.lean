import Tabular.Proofs.Cursor.Within

/-!
# Walks and readers

A reader has the tokens that are left, and a walk has all entries and the place of its cursor. A
walk follows a reader if, with the entries of the same tokens ahead, it comes to the same result
with the same tokens left or turns the command down for the same cause.
-/

namespace Tabular

theorem Keyword.text_inj {k k' : Keyword} : k.text = k'.text ↔ k = k' := by
  refine ⟨fun h => ?_, congrArg _⟩
  have hk := congrArg ofWord? h
  simpa using hk

theorem Mark.text_inj {m m' : Mark} : m.text = m'.text ↔ m = m' := by
  cases m <;> cases m' <;> decide

theorem Operator.text_inj {o o' : Operator} : o.text = o'.text ↔ o = o' := by
  cases o <;> cases o' <;> decide

namespace Statement.Reader

variable {l : Lexeme} {x : Token} {ts : List Token}

theorem run_accept_of_eq (h : x.lexeme = l) (ts : List Token) :
    (accept l).run (x :: ts) = .ok (true, ts) := if_pos h

theorem run_accept_of_ne (h : ∀ x ∈ ts.head?, x.lexeme ≠ l) :
    (accept l).run ts = .ok (false, ts) := by
  cases ts with
  | nil => rfl
  | cons x ts => exact if_neg (h x rfl)

end Statement.Reader

namespace Cursor

open Statement

/-- Tokens begin with a lexeme or with another, if there are any. -/
theorem begins_or (l : Lexeme) (ts : List Token) :
    (∃ x us, ts = x :: us ∧ x.lexeme = l) ∨ ∀ x ∈ ts.head?, x.lexeme ≠ l := by
  cases ts with
  | nil => exact .inr nofun
  | cons x us =>
    by_cases h : x.lexeme = l
    · exact .inl ⟨x, us, rfl, h⟩
    · exact .inr (by simpa using h)

/-! ## Entries of tokens -/

/-- The entries of tokens and the end. -/
def laidOut (p : Nat) (ts : List Token) : List Entry := ts.map Entry.ofToken ++ [.stop p]

/-- The first of the entries of tokens and the end. -/
def front (p : Nat) : List Token → Entry
  | [] => .stop p
  | x :: _ => .ofToken x

section Entries

variable {x : Token} {p : Nat} {ts : List Token}

theorem isStop_ofToken : (Entry.ofToken x).isStop = false := by
  cases hl : x.lexeme <;> simp [Entry.ofToken, Entry.isStop, kindOf, hl]

theorem closed_laidOut : Closed (laidOut p ts) :=
  ⟨ts.map Entry.ofToken, .stop p, rfl, rfl, List.forall_mem_map.2 fun _ _ => isStop_ofToken⟩

theorem isKeyword_ofToken (k : Keyword) :
    (Entry.ofToken x).isKeyword k = decide (x.lexeme = .keyword k) := by
  cases hl : x.lexeme <;>
    simp [Entry.ofToken, Entry.isKeyword, kindOf, Token.text, Lexeme.text, hl, Keyword.text_inj]

theorem isMark_ofToken (m : Mark) :
    (Entry.ofToken x).isMark m = decide (x.lexeme = .mark m) := by
  cases hl : x.lexeme <;>
    simp [Entry.ofToken, Entry.isMark, kindOf, Token.text, Lexeme.text, hl, Mark.text_inj]

theorem isOperator_ofToken (o : Operator) :
    (Entry.ofToken x).isOperator o = decide (x.lexeme = .operator o) := by
  cases hl : x.lexeme <;>
    simp [Entry.ofToken, Entry.isOperator, kindOf, Token.text, Lexeme.text, hl, Operator.text_inj]

theorem nameText?_ofToken : (Entry.ofToken x).nameText? = Reader.nameText? x.lexeme := by
  cases hl : x.lexeme <;>
    simp [Entry.ofToken, Entry.nameText?, Reader.nameText?, kindOf, Token.text, Lexeme.text, hl]

theorem literal?_ofToken : (Entry.ofToken x).literal? = x.lexeme.literal? := by
  unfold Entry.literal?
  simp only [isKeyword_ofToken]
  cases hl : x.lexeme with
  | keyword k =>
    cases k <;> simp [Entry.ofToken, kindOf, Lexeme.literal?, Token.text, hl, Lexeme.text]
  | _ => simp [Entry.ofToken, kindOf, Lexeme.literal?, Token.text, hl, Lexeme.text]

theorem found_front : (front p ts).found = Token.foundIn ts := by
  cases ts with
  | nil => rfl
  | cons x ts =>
    cases hl : x.lexeme <;>
      simp [front, Entry.ofToken, Entry.found, Entry.isStop, kindOf, hl, Token.foundIn, Token.found]

/-- The cursor is at the first of the entries of tokens and the end. -/
def Ahead (p : Nat) (es : List Entry) (t : Track) (ts : List Token) : Prop :=
  es.drop t.place = laidOut p ts

variable {es : List Entry} {t : Track}

theorem Ahead.entry (h : Ahead p es t ts) : es[t.place]? = some (front p ts) := by
  rw [← List.head?_drop, h]
  cases ts <;> rfl

theorem Ahead.move (h : Ahead p es t (x :: ts)) : Ahead p es t.move ts := by
  change es.drop (t.place + 1) = _
  rw [← List.tail_drop, h]
  rfl

end Entries

/-! ## Results of walks with tokens ahead -/

section Gives

variable {α β : Type} {p : Nat} {x : Token} {ts rest : List Token} {w : Walk α} {f : α → Walk β}
  {a : α} {cause : Rejection} {test : Entry → Bool}

/-- With the entries of these tokens ahead the walk has this result, and the entries of the tokens
that are left are ahead. -/
def Gives (p : Nat) (w : Walk α) (ts : List Token) : Except Rejection (α × List Token) → Prop
  | .ok (a, rest) => ∀ es t, Ahead p es t ts → ∃ u, Ends w es t (.ok a) u ∧ Ahead p es u rest
  | .error cause => ∀ es t, Ahead p es t ts → ∃ u, Ends w es t (.error (.rejected cause)) u

theorem gives_pure (a : α) : Gives p (pure a) ts (.ok (a, ts)) := fun _ _ h => ⟨_, ends_pure a, h⟩

theorem gives_reject (cause : Rejection) : Gives p (reject cause : Walk α) ts (.error cause) :=
  fun _ _ _ => ⟨_, ends_reject cause⟩

theorem Gives.bind_ok {r : Except Rejection (β × List Token)} (hw : Gives p w ts (.ok (a, rest)))
    (hf : Gives p (f a) rest r) : Gives p (w >>= f) ts r := by
  cases r with
  | ok b =>
    intro es t h
    obtain ⟨u, hu, hrest⟩ := hw es t h
    obtain ⟨v, hv, hlast⟩ := hf es u hrest
    exact ⟨v, hu.bind hv, hlast⟩
  | error cause =>
    intro es t h
    obtain ⟨u, hu, hrest⟩ := hw es t h
    obtain ⟨v, hv⟩ := hf es u hrest
    exact ⟨v, hu.bind hv⟩

theorem Gives.bind_error (hw : Gives p w ts (.error cause)) : Gives p (w >>= f) ts (.error cause) :=
  fun es t h => (hw es t h).imp fun _ => Ends.bind_error

theorem Gives.bind {r : Except Rejection (α × List Token)}
    {g : α × List Token → Except Rejection (β × List Token)} (hw : Gives p w ts r)
    (hf : ∀ a rest, r = .ok (a, rest) → Gives p (f a) rest (g (a, rest))) :
    Gives p (w >>= f) ts (r >>= g) := by
  cases r with
  | error cause => exact hw.bind_error
  | ok b => exact hw.bind_ok (hf b.1 b.2 rfl)

theorem Gives.tick {r : Except Rejection (α × List Token)} (h : Gives p w ts r) :
    Gives p (tick w) ts r := by
  cases r with
  | ok a =>
    intro es t ht
    obtain ⟨u, hu, hrest⟩ := h es t ht
    exact ⟨u, hu.tick, hrest⟩
  | error cause => exact fun es t ht => (h es t ht).imp fun _ => Ends.tick

theorem gives_current : Gives p current ts (.ok (front p ts, ts)) :=
  fun _ _ h => ⟨_, ends_current h.entry, h⟩

theorem gives_advance : Gives p advance (x :: ts) (.ok (.ofToken x, ts)) := fun _ _ h =>
  ⟨_, ends_advance h.entry isStop_ofToken, h.move⟩

theorem gives_accept_pass (h : test (.ofToken x)) :
    Gives p (accept test) (x :: ts) (.ok (true, ts)) :=
  fun _ _ ht => ⟨_, ends_accept_pass ht.entry h, ht.move⟩

theorem gives_accept_fail (h : test (front p ts) = false) :
    Gives p (accept test) ts (.ok (false, ts)) :=
  fun _ _ ht => ⟨_, ends_accept_fail ht.entry h, ht⟩

theorem gives_enter_pass (h : test (.ofToken x)) :
    Gives p (enter test) (x :: ts) (.ok (true, ts)) :=
  fun _ _ ht => ⟨_, ends_enter_pass ht.entry h, ht.move⟩

theorem gives_enter_fail (h : test (front p ts) = false) :
    Gives p (enter test) ts (.ok (false, ts)) :=
  fun _ _ ht => ⟨_, ends_enter_fail ht.entry h, ht⟩

/-- What a walk gives leaves no more tokens than there were. -/
theorem Gives.length_le (h : Gives p w ts (.ok (a, rest))) (hw : ∀ k, Keeps k w) :
    rest.length ≤ ts.length := by
  have hstart : (Track.initial 0).Sound (laidOut p ts).length 0 :=
    Track.sound_initial (by simp [laidOut])
  have hahead : Ahead p (laidOut p ts) (.initial 0) ts := List.drop_zero
  obtain ⟨u, hu, hrest⟩ := h _ _ hahead
  obtain ⟨r, v, hr, -, hv, -⟩ := hw _ closed_laidOut hstart (Nat.le_add_left _ _)
  obtain ⟨rfl, rfl⟩ := hu.unique hr
  have hlength := congrArg List.length hrest
  simp only [laidOut, List.length_drop, List.length_append, List.length_map] at hlength
  omega

end Gives

/-! ## Walks that follow readers -/

section Follows

variable {α β : Type} {w w' : Walk α} {m m' : Reader α} {f : α → Walk β} {g : α → Reader β}
  {test : Entry → Bool}

/-- Whatever tokens are ahead the walk has the result of the reader. -/
def Follows (w : Walk α) (m : Reader α) : Prop := ∀ p ts, Gives p w ts (m.run ts)

theorem follows_pure (a : α) : Follows (pure a) (pure a) := fun _ _ => gives_pure a

theorem follows_bind (hw : Follows w m) (hf : ∀ a, Follows (f a) (g a)) :
    Follows (w >>= f) (m >>= g) :=
  fun p ts => (hw p ts).bind fun a rest _ => hf a p rest

theorem follows_ite {c : Prop} [Decidable c] (hw : Follows w m) (hw' : Follows w' m') :
    Follows (if c then w else w') (if c then m else m') := by
  split
  · exact hw
  · exact hw'

theorem follows_ofResult (x : Except Rejection α) : Follows (ofResult x) (liftM x) := by
  cases x with
  | ok a => exact follows_pure a
  | error cause => exact fun _ _ => gives_reject cause

theorem follows_reject (fault : CommandFault) :
    Follows (reject (.command fault) : Walk α) (Reader.refuse fun _ => fault) :=
  fun _ _ => gives_reject _

theorem follows_refuse (fault : Found → CommandFault) :
    Follows (refuse fault : Walk α) (Reader.refuse fault) := by
  intro p ts
  change Gives p _ ts (.error (.command (fault (Token.foundIn ts))))
  rw [← found_front (p := p)]
  exact gives_current.bind_ok (gives_reject _)

/-- A test for one lexeme. -/
structure TestsFor (test : Entry → Bool) (l : Lexeme) : Prop where
  token : ∀ x : Token, test (.ofToken x) = decide (x.lexeme = l)
  stop : ∀ p, test (.stop p) = false

theorem testsFor_keyword (k : Keyword) : TestsFor (·.isKeyword k) (.keyword k) :=
  ⟨fun _ => isKeyword_ofToken k, fun _ => rfl⟩

theorem testsFor_mark (m : Mark) : TestsFor (·.isMark m) (.mark m) :=
  ⟨fun _ => isMark_ofToken m, fun _ => rfl⟩

theorem testsFor_operator (o : Operator) : TestsFor (·.isOperator o) (.operator o) :=
  ⟨fun _ => isOperator_ofToken o, fun _ => rfl⟩

section TestsFor

variable {l : Lexeme} {x : Token} {p : Nat} {ts : List Token} (h : TestsFor test l)
include h

theorem TestsFor.pass (hl : x.lexeme = l) : test (.ofToken x) :=
  (h.token x).trans (decide_eq_true hl)

theorem TestsFor.fail (hl : ∀ x ∈ ts.head?, x.lexeme ≠ l) : test (front p ts) = false := by
  cases ts with
  | nil => exact h.stop p
  | cons x ts => exact (h.token x).trans (decide_eq_false (hl x rfl))

end TestsFor

variable {l : Lexeme}

theorem follows_accept (h : TestsFor test l) : Follows (accept test) (Reader.accept l) := by
  intro p ts
  obtain ⟨x, us, rfl, hl⟩ | hne := begins_or l ts
  · rw [Reader.run_accept_of_eq hl]
    exact gives_accept_pass (h.pass hl)
  · rw [Reader.run_accept_of_ne hne]
    exact gives_accept_fail (h.fail hne)

theorem follows_take {f : Entry → Option α} {g : Lexeme → Option α} {fault : Found → CommandFault}
    (hf : ∀ x : Token, f (.ofToken x) = g x.lexeme) (hstop : ∀ p, f (.stop p) = none) :
    Follows (take f fault) (Reader.take g fault) := by
  intro p ts
  cases ts with
  | nil =>
    intro es t ht
    exact ⟨_, ends_take_none ht.entry (hstop p)⟩
  | cons x us =>
    cases hg : g x.lexeme with
    | some a =>
      rw [Reader.run_take_of_some hg]
      exact fun _ _ ht => ⟨_, ends_take_some ht.entry ((hf x).trans hg), ht.move⟩
    | none =>
      rw [Reader.run_take_of_none hg]
      intro es t ht
      have htake : Ends (take f fault) es t (.error (.rejected (.command
          (fault (front p (x :: us)).found)))) t.look.look :=
        ends_take_none ht.entry ((hf x).trans hg)
      rw [found_front] at htake
      exact ⟨_, htake⟩

/-- To take one lexeme is to go on behind it or to turn the command down. -/
theorem follows_expect {fault : Found → CommandFault} (h : TestsFor test l) :
    Follows (do if ← accept test then return () else refuse fault)
      (Reader.take (fun l' => if l' = l then some () else none) fault) := by
  intro p ts
  cases ts with
  | nil =>
    have hfail : test (front p []) = false := h.stop p
    exact (gives_accept_fail hfail).bind_ok (follows_refuse fault p [])
  | cons x us =>
    by_cases hl : x.lexeme = l
    · have hr : (Reader.take (fun l' => if l' = l then some () else none) fault).run (x :: us) =
          .ok ((), us) := Reader.run_take_of_some (if_pos hl) us
      rw [hr]
      exact (gives_accept_pass (h.pass hl)).bind_ok (gives_pure ())
    · have hr : (Reader.take (fun l' => if l' = l then some () else none) fault).run (x :: us) =
          .error (.command (fault x.found)) := Reader.run_take_of_none (if_neg hl) us
      rw [hr]
      exact (gives_accept_fail (h.fail (by simpa using hl))).bind_ok (follows_refuse fault p _)

section Turns

variable {p : Nat} {x : Token} {ts : List Token} {r : Except Rejection (α × List Token)}

/-- A turn is taken behind its lexeme. -/
theorem gives_entered (h : TestsFor test l) (hx : x.lexeme = l) (hw : Gives p w ts r) :
    Gives p (do if ← enter test then w else w') (x :: ts) r :=
  (gives_enter_pass (h.pass hx)).bind_ok hw

theorem gives_not_entered (h : TestsFor test l) (hne : ∀ x ∈ ts.head?, x.lexeme ≠ l)
    (hw : Gives p w' ts r) : Gives p (do if ← enter test then w else w') ts r :=
  (gives_enter_fail (h.fail hne)).bind_ok hw

end Turns

section Items

variable {item : Walk α}

/-- A list has no more items than there are tokens. -/
theorem follows_items (h : Follows item m) (hitem : ∀ k, Keeps k item) :
    Follows (items item) (Reader.list m) := by
  have hcomma := testsFor_mark .comma
  -- On the number of tokens, of which every comma takes one.
  have hwithin : ∀ n p ts, ts.length ≤ n →
      Gives p (items item) ts ((Reader.listWithin m n).run ts) := by
    intro n
    induction n with
    | zero =>
      intro p ts hn
      refine (h p ts).bind fun a rest hr => ?_
      have hgives := h p ts
      rw [hr] at hgives
      have hle : rest.length ≤ 0 := Nat.le_trans (hgives.length_le hitem) hn
      cases List.length_eq_zero_iff.1 (Nat.le_zero.1 hle)
      have hne : ∀ x ∈ ([] : List Token).head?, x.lexeme ≠ .mark .comma := nofun
      rw [moreItems_eq]
      exact (gives_not_entered hcomma hne (gives_pure [])).tick.bind_ok (gives_pure [a])
    | succ n ih =>
      intro p ts hn
      refine (h p ts).bind fun a rest hr => ?_
      have hgives := h p ts
      rw [hr] at hgives
      have hle : rest.length ≤ n + 1 := Nat.le_trans (hgives.length_le hitem) hn
      rw [moreItems_eq]
      obtain ⟨x, us, rfl, hx⟩ | hne := begins_or (.mark .comma) rest
      · have hus := ih p us (Nat.le_of_succ_le_succ hle)
        change Gives p _ _ ((Reader.accept (.mark .comma)).run (x :: us) >>= _)
        rw [Reader.run_accept_of_eq hx]
        exact (gives_entered hcomma hx hus).tick.bind fun as last _ => gives_pure _
      · change Gives p _ _ ((Reader.accept (.mark .comma)).run rest >>= _)
        rw [Reader.run_accept_of_ne hne]
        exact (gives_not_entered hcomma hne (gives_pure [])).tick.bind_ok (gives_pure [a])
  exact fun p ts => hwithin ts.length p ts (Nat.le_refl _)

end Items

end Follows

end Cursor

end Tabular
