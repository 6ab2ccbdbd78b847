import Tabular.Failure
import Tabular.Proofs.Text.Decimal

/-!
# Texts in failures

A message of a failure is made of fixed words, numbers, quoted texts and texts that are put in as
they are. A text that is put in as it is brings its line breaks into the message, and nothing else
brings any.
-/

namespace Tabular

/-- The text is within one line. -/
def Text.OneLine (t : Text) : Prop := '\n' ∉ t

namespace Text

instance (t : Text) : Decidable t.OneLine := inferInstanceAs (Decidable ('\n' ∉ t))

@[simp] theorem oneLine_nil : OneLine [] := List.not_mem_nil

@[simp] theorem oneLine_cons {c : Char} {t : Text} : OneLine (c :: t) ↔ c ≠ '\n' ∧ OneLine t := by
  simp [OneLine, eq_comm]

@[simp] theorem oneLine_append {s t : Text} : OneLine (s ++ t) ↔ OneLine s ∧ OneLine t := by
  simp [OneLine]

theorem OneLine.subset {s t : Text} (h : OneLine t) (hs : s ⊆ t) : OneLine s := fun hm => h (hs hm)

theorem hexDigit_ne {n : Nat} (h : n < 16) : hexDigit n ≠ '\n' := by
  have : ∀ m < 16, hexDigit m ≠ '\n' := by decide
  exact this n h

theorem oneLine_hex (width n : Nat) : (hex width n).OneLine := by
  induction width generalizing n with
  | zero => exact oneLine_nil
  | succ w ih => simp [hex, ih, hexDigit_ne (Nat.mod_lt n (by decide))]

theorem oneLine_escape {quote : Char} (hq : quote ≠ '\n') (c : Char) :
    (escape quote c).OneLine := by
  unfold escape
  split
  · decide
  split
  · simp [hq]
  split
  · decide
  split
  · decide
  next hc =>
  split
  · decide
  split
  · simpa using hc
  split
  · simp [oneLine_hex]
  split <;> simp [oneLine_hex]

/-- A quoted text is one line. -/
theorem oneLine_quoted (t : Text) : (quoted t).OneLine := by
  have hq : quoteFor t ≠ '\n' := by
    unfold quoteFor
    split <;> decide
  have hflat : OneLine (t.flatMap (escape (quoteFor t))) := by
    intro hm
    obtain ⟨c, -, hc⟩ := List.mem_flatMap.1 hm
    exact oneLine_escape hq c hc
  simp [quoted, hq, hflat]

theorem oneLine_ofNat (n : Nat) : (ofNat n).OneLine := fun h =>
  absurd (isAsciiDigit_of_mem_ofNat h) (by decide)

end Text

/-- A message is within one line if its phrases are. -/
def Message.OneLine (m : Message) : Prop := m.text.OneLine

namespace Message.OneLine

variable {m : Message}

theorem nil : Message.OneLine [] := Text.oneLine_nil

/-- Words are looked through character by character as they are spelled in the literal. -/
theorem words {l : List Char} (h : '\n' ∉ l) (hm : m.OneLine) :
    Message.OneLine (.words (String.ofList l) :: m) := by
  refine Text.oneLine_append.2 ⟨?_, hm⟩
  rw [Phrase.text, String.toList_ofList]
  exact h

theorem kind {s : String} (h : Text.OneLine s.toList) (hm : m.OneLine) :
    Message.OneLine (.words s :: m) := Text.oneLine_append.2 ⟨h, hm⟩

theorem data {t : Text} (h : t.OneLine) (hm : m.OneLine) : Message.OneLine (.data t :: m) :=
  Text.oneLine_append.2 ⟨h, hm⟩

theorem number (n : Nat) (hm : m.OneLine) : Message.OneLine (.data (Text.ofNat n) :: m) :=
  data (Text.oneLine_ofNat n) hm

theorem quoted (t : Text) (hm : m.OneLine) : Message.OneLine (.data (Text.quoted t) :: m) :=
  data (Text.oneLine_quoted t) hm

end Message.OneLine

/-! ## The texts that are put in as they are -/

def Found.texts : Found → List Text
  | .endOfCommand => []
  | .token t _ => [t]

def CommandFault.texts : CommandFault → List Text
  | .unknown head => [head]
  | .expectedMark mark found => mark :: found.texts
  | .expectedName kind found => kind.toList :: found.texts
  | .expectedKeyword _ found | .expectedValue found | .expectedEnd found => found.texts
  | .expectedAssignment column => [column]
  | .empty | .noTerminator | .secondStatement _ | .openString _ | .badNumber _ | .badCharacter _ _
  | .expectedAction => []

def ConditionFault.texts : ConditionFault → List Text
  | .notColumn t | .singleEquals t | .noComparator t | .noLiteral t _ | .trailing t
  | .nonNumericOperand _ t | .unordered t => [t]
  | .missing | .unbalanced | .endsEarly => []

def FileFault.texts : FileFault → List Text
  | .firstColumn t | .badColumn t | .badId _ t => [t]
  | .noHeader | .fieldCount _ _ _ | .repeatedId _ _ => []

/-- The path at which storing or reading failed. -/
def StorageFault.path : StorageFault → Text
  | .createRoot p _ | .createDirectory p _ | .removeDirectory p _ | .readFile p _
  | .decodeFile p _ | .writeFile p _ | .appendMissing p | .appendFile p _ | .removeFile p _ => p

def Rejection.texts : Rejection → List Text
  | .command fault => fault.texts
  | .condition fault => fault.texts
  | .invalidName kind _ => [kind.toList]
  | .keywordName kind name => [kind.toList, name]
  | .unknownSession t | .unknownDatabase t | .duplicateDatabase t | .unknownTable t
  | .duplicateTable t | .duplicateColumn t => [t]
  | .unknownColumn name table => [name, table]
  | .storage fault => [fault.path]
  | .malformedFile path fault => path :: fault.texts
  | .noDatabaseSelected | .reservedColumn _ | .valueCount _ _ | .invalidValue _ => []

def Failure.texts : Failure → List Text
  | rejected cause => cause.texts
  | number _ | system _ => []

/-! ## Messages -/

theorem Found.oneLine_message {f : Found} (h : ∀ t ∈ f.texts, t.OneLine) :
    f.message.OneLine := by
  cases f with
  | endOfCommand => exact .words (by decide) .nil
  | token t n =>
    have ht := List.forall_mem_singleton.1 h
    exact .words (by decide) (.data ht (.words (by decide) (.number n .nil)))

theorem Keyword.oneLine_text (k : Keyword) : k.text.OneLine := by
  cases k <;> decide

theorem Comparator.oneLine_text (op : Comparator) : op.text.OneLine := by
  cases op <;> decide

theorem CommandFault.oneLine_message {f : CommandFault} (h : ∀ t ∈ f.texts, t.OneLine) :
    f.message.OneLine := by
  cases f with
  | empty | noTerminator | expectedAction => exact .words (by decide) .nil
  | unknown head =>
    have hhead := List.forall_mem_singleton.1 h
    exact .words (by decide) (.data hhead .nil)
  | secondStatement n | openString n | badNumber n => exact .words (by decide) (.number n .nil)
  | badCharacter c n =>
    exact .words (by decide) (.quoted [c] (.words (by decide) (.number n .nil)))
  | expectedKeyword k found =>
    have hfound := Found.oneLine_message h
    exact .words (by decide) (.data k.oneLine_text (.words (by decide) hfound))
  | expectedMark mark found =>
    obtain ⟨hmark, hfound⟩ := List.forall_mem_cons.1 h
    have hfound := Found.oneLine_message hfound
    exact .words (by decide) (.data hmark (.words (by decide) hfound))
  | expectedName kind found =>
    obtain ⟨hkind, hfound⟩ := List.forall_mem_cons.1 h
    have hfound := Found.oneLine_message hfound
    exact .words (by decide) (.kind hkind (.words (by decide) hfound))
  | expectedValue found | expectedEnd found =>
    exact .words (by decide) (Found.oneLine_message h)
  | expectedAssignment column =>
    have hcolumn := List.forall_mem_singleton.1 h
    exact .words (by decide) (.data hcolumn (.words (by decide) .nil))

theorem ConditionFault.oneLine_message {f : ConditionFault} (h : ∀ t ∈ f.texts, t.OneLine) :
    f.message.OneLine := by
  cases f with
  | missing | unbalanced | endsEarly => exact .words (by decide) .nil
  | notColumn t | singleEquals t | trailing t =>
    have ht := List.forall_mem_singleton.1 h
    exact .words (by decide) (.data ht (.words (by decide) .nil))
  | noComparator t | unordered t =>
    have ht := List.forall_mem_singleton.1 h
    exact .words (by decide) (.data ht .nil)
  | noLiteral column op =>
    have hcolumn := List.forall_mem_singleton.1 h
    exact .words (by decide) (.data hcolumn (.words (by decide) (.data op.oneLine_text .nil)))
  | nonNumericOperand op literal =>
    have hliteral := List.forall_mem_singleton.1 h
    exact .words (by decide) (.data op.oneLine_text (.words (by decide) (.data hliteral .nil)))

theorem FileFault.oneLine_message {f : FileFault} (h : ∀ t ∈ f.texts, t.OneLine) :
    f.message.OneLine := by
  cases f with
  | noHeader => exact .words (by decide) .nil
  | firstColumn t | badColumn t =>
    have ht := List.forall_mem_singleton.1 h
    exact .words (by decide) (.data ht (.words (by decide) .nil))
  | fieldCount line fields columns =>
    exact .words (by decide) (.number line (.words (by decide) (.number fields
      (.words (by decide) (.number columns .nil)))))
  | badId line t =>
    have ht := List.forall_mem_singleton.1 h
    exact .words (by decide) (.number line (.words (by decide) (.data ht
      (.words (by decide) .nil))))
  | repeatedId line id =>
    exact .words (by decide) (.number line (.words (by decide) (.number id .nil)))

theorem NumberFault.oneLine_message (f : NumberFault) : f.message.OneLine := by
  cases f with
  | tooManyDigits n => exact .words (by decide) (.number n (.words (by decide) .nil))
  | tooLargeToWrite => exact .words (by decide) (.words (by decide) .nil)
  | notNumber t | notInteger t | notDouble t => exact .words (by decide) (.quoted t .nil)
  | truthValue => exact .words (by decide) .nil

theorem SystemFault.oneLine_message (f : SystemFault) : f.message.OneLine := by
  cases f with
  | nullCharacter => exact .words (by decide) .nil
  | refused errno path target =>
    refine .words (by decide) (.number errno.number (.words (by decide) ?_))
    cases target with
    | none => cases errno <;> exact .words (by decide) (.words (by decide) (.quoted path .nil))
    | some target =>
      cases errno <;> exact .words (by decide) (.words (by decide) (.quoted path
        (.words (by decide) (.quoted target .nil))))

theorem Utf8.Fault.oneLine_message (f : Utf8.Fault) : f.message.OneLine := by
  have hreason : Message.OneLine [": ", f.reason.words] := by
    cases f.reason <;> exact .words (by decide) (.words (by decide) .nil)
  unfold Utf8.Fault.message
  split
  · exact .words (by decide) (.data (Text.oneLine_hex _ _) (.words (by decide)
      (.number _ hreason)))
  · exact .words (by decide) (.number _ (.words (by decide) (.number _ hreason)))

theorem StorageFault.oneLine_message {f : StorageFault} (h : f.path.OneLine) :
    f.message.OneLine := by
  cases f with
  | appendMissing path => exact .words (by decide) (.data h .nil)
  | decodeFile path cause =>
    exact .words (by decide) (.data h (.words (by decide) cause.oneLine_message))
  | createRoot path cause | createDirectory path cause | removeDirectory path cause
  | readFile path cause | writeFile path cause | appendFile path cause | removeFile path cause =>
    exact .words (by decide) (.data h (.words (by decide) cause.oneLine_message))

theorem Rejection.oneLine_message {f : Rejection} (h : ∀ t ∈ f.texts, t.OneLine) :
    f.message.OneLine := by
  cases f with
  | command fault => exact fault.oneLine_message h
  | condition fault => exact fault.oneLine_message h
  | storage fault => exact fault.oneLine_message (h _ (List.mem_singleton_self _))
  | malformedFile path fault =>
    obtain ⟨hpath, hfault⟩ := List.forall_mem_cons.1 h
    exact .words (by decide) (.data hpath (.words (by decide) (fault.oneLine_message hfault)))
  | reservedColumn action =>
    cases action <;> exact .words (by decide) (.words (by decide) (.words (by decide) .nil))
  | unknownColumn name table =>
    obtain ⟨hname, htable⟩ := List.forall_mem_cons.1 h
    have htable := List.forall_mem_singleton.1 htable
    cases table with
    | nil => exact .words (by decide) (.data hname .nil)
    | cons c table =>
      exact .words (by decide) (.data htable (.words (by decide) (.data hname .nil)))
  | invalidName kind name =>
    have hkind := List.forall_mem_singleton.1 h
    exact .words (by decide) (.kind hkind (.words (by decide) (.quoted name .nil)))
  | keywordName kind name =>
    obtain ⟨hkind, hname⟩ := List.forall_mem_cons.1 h
    have hname := List.forall_mem_singleton.1 hname
    exact .words (by decide) (.kind hkind (.words (by decide) (.data hname .nil)))
  | noDatabaseSelected => exact .words (by decide) .nil
  | unknownSession t | unknownDatabase t | duplicateDatabase t | unknownTable t
  | duplicateTable t | duplicateColumn t =>
    have ht := List.forall_mem_singleton.1 h
    exact .words (by decide) (.data ht .nil)
  | valueCount expected actual =>
    exact .words (by decide) (.number expected (.words (by decide) (.number actual .nil)))
  | invalidValue text => exact .words (by decide) (.quoted text .nil)

/-- Only a text that is put in as it is can break the line of a message. -/
theorem Failure.oneLine_message {f : Failure} (h : ∀ t ∈ f.texts, t.OneLine) :
    f.message.OneLine := by
  cases f with
  | rejected cause => exact cause.oneLine_message h
  | number cause => exact cause.oneLine_message
  | system cause => exact cause.oneLine_message

/-! ## The texts in the message -/

theorem Phrase.text_data (t : Text) : (Phrase.data t).text = t := rfl

namespace Message

/-- The text is one of the phrases. -/
def Has (m : Message) (t : Text) : Prop := ∃ p ∈ m, p.text = t

variable {m : Message} {t : Text}

@[simp] theorem has_nil : ¬ Message.Has [] t := nofun

@[simp] theorem has_cons {p : Phrase} : Message.Has (p :: m) t ↔ p.text = t ∨ m.Has t := by
  simp [Has]

theorem Has.subset (h : m.Has t) : t ⊆ m.text := by
  obtain ⟨p, hp, rfl⟩ := h
  exact fun c hc => List.mem_flatMap.2 ⟨p, hp, hc⟩

end Message

section Has

variable {t : Text}

theorem Found.has_message {f : Found} (h : t ∈ f.texts) : f.message.Has t := by
  cases f with
  | endOfCommand => cases h
  | token u n => simp_all [texts, message, Phrase.text_data]

theorem CommandFault.has_message {f : CommandFault} (h : t ∈ f.texts) : f.message.Has t := by
  cases f with
  | expectedKeyword | expectedValue | expectedEnd => simp [message, Found.has_message h]
  | expectedMark mark found =>
    obtain rfl | h := List.mem_cons.1 h
    · simp [message, Phrase.text_data]
    · simp [message, Found.has_message h]
  | expectedName kind found =>
    obtain rfl | h := List.mem_cons.1 h
    · exact ⟨.words kind, by simp [message], rfl⟩
    · simp [message, Found.has_message h]
  | _ => simp_all [texts, message, Phrase.text_data]

theorem ConditionFault.has_message {f : ConditionFault} (h : t ∈ f.texts) : f.message.Has t := by
  cases f <;> simp_all [texts, message, Phrase.text_data]

theorem FileFault.has_message {f : FileFault} (h : t ∈ f.texts) : f.message.Has t := by
  cases f <;> simp_all [texts, message, Phrase.text_data]

theorem StorageFault.has_message (f : StorageFault) : f.message.Has f.path := by
  cases f <;> simp [path, message, Phrase.text_data]

theorem Rejection.has_message {f : Rejection} (h : t ∈ f.texts) (hne : t ≠ []) :
    f.message.Has t := by
  cases f with
  | command fault => exact fault.has_message h
  | condition fault => exact fault.has_message h
  | storage fault =>
    cases List.mem_singleton.1 h
    exact fault.has_message
  | malformedFile path fault =>
    obtain rfl | h := List.mem_cons.1 h
    · simp [message, Phrase.text_data]
    · simp [message, fault.has_message h]
  | unknownColumn name table =>
    obtain rfl | h := List.mem_cons.1 h
    · cases table <;> simp [message, Phrase.text_data]
    · cases List.mem_singleton.1 h
      obtain ⟨c, table, rfl⟩ := List.exists_cons_of_ne_nil hne
      simp [message, Phrase.text_data]
  | invalidName kind name =>
    cases List.mem_singleton.1 h
    exact ⟨.words kind, by simp [message], rfl⟩
  | keywordName kind name =>
    obtain rfl | h := List.mem_cons.1 h
    · exact ⟨.words kind, by simp [message], rfl⟩
    · cases List.mem_singleton.1 h
      simp [message, Phrase.text_data]
  | _ => simp_all [texts, message, Phrase.text_data]

/-- A message is within one line if and only if the texts are that are put in as they are. -/
theorem Failure.oneLine_message_iff {f : Failure} :
    f.message.OneLine ↔ ∀ t ∈ f.texts, t.OneLine := by
  refine ⟨fun hm t ht => ?_, oneLine_message⟩
  by_contra hbreaks
  have hne : t ≠ [] := by
    rintro rfl
    exact hbreaks Text.oneLine_nil
  cases f with
  | rejected cause => exact hbreaks (Text.OneLine.subset hm (cause.has_message ht hne).subset)
  | number cause => cases ht
  | system cause => cases ht

end Has

/-! ## Places -/

namespace Failure

/-- The paths of files, and the names taken from files, that a failure is about. -/
def places : Failure → List Text
  | rejected (.storage fault) => [fault.path]
  | rejected (.malformedFile path _) => [path]
  | rejected (.duplicateTable name) => [name]
  | _ => []

/-- Every text that is put in as it is has the property, or it is a place. -/
def Tells (Q : Text → Prop) (f : Failure) : Prop := ∀ t ∈ f.texts, Q t ∨ t ∈ f.places

/-- Nothing but a place can bring a line break into the message. -/
def Tidy (f : Failure) : Prop := f.Tells Text.OneLine

theorem Tells.mono {Q R : Text → Prop} {f : Failure} (h : f.Tells Q) (hQ : ∀ t, Q t → R t) :
    f.Tells R := fun t ht => (h t ht).imp_left (hQ t)

theorem tells_of_texts {Q : Text → Prop} {f : Failure} (h : ∀ t ∈ f.texts, Q t) : f.Tells Q :=
  fun t ht => .inl (h t ht)

theorem Tidy.exists_place {f : Failure} (h : f.Tidy) (hm : ¬ f.message.OneLine) :
    ∃ p ∈ f.places, ¬ p.OneLine := by
  by_contra hp
  simp only [not_exists, not_and, not_not] at hp
  exact hm (oneLine_message fun t ht => (h t ht).elim id (hp t))

theorem tidy_of_oneLine {f : Failure} (h : ∀ t ∈ f.texts, t.OneLine) : f.Tidy := tells_of_texts h

theorem tidy_rejected {cause : Rejection} (h : ∀ t ∈ cause.texts, t.OneLine) :
    Tidy (.rejected cause) := tidy_of_oneLine h

theorem tidy_system (fault : SystemFault) : Tidy (.system fault) := nofun

theorem tidy_storage (fault : StorageFault) : Tidy (.rejected (.storage fault)) :=
  fun _ ht => .inr ht

theorem tidy_malformedFile {path : Text} {fault : FileFault} (h : ∀ t ∈ fault.texts, t.OneLine) :
    Tidy (.rejected (.malformedFile path fault)) := by
  intro t ht
  obtain rfl | ht := List.mem_cons.1 ht
  · exact .inr (List.mem_singleton_self t)
  · exact .inl (h t ht)

theorem tidy_duplicateTable (name : Text) : Tidy (.rejected (.duplicateTable name)) :=
  fun _ ht => .inr ht

/-- What the failure tells has the property under a proviso. -/
def TellsIf (Q : Text → Prop) (p : Prop) (f : Failure) : Prop := p → f.Tells Q

/-- The failure is tidy under a proviso. -/
def TidyIf (p : Prop) (f : Failure) : Prop := p → f.Tidy

/-- A failure, tidy under a proviso, that does not come of a number. -/
structure Tame (p : Prop) (f : Failure) : Prop where
  tidy : f.TidyIf p
  not_number : ∀ fault, f ≠ .number fault

theorem tame_rejected {p : Prop} {cause : Rejection} (h : p → Tidy (.rejected cause)) :
    Tame p (.rejected cause) := ⟨h, nofun⟩

theorem tame_system (p : Prop) (fault : SystemFault) : Tame p (.system fault) :=
  ⟨fun _ => tidy_system fault, nofun⟩

end Failure

end Tabular
