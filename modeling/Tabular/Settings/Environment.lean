import Tabular.Json.Reader
import Tabular.Settings
import Tabular.Text.PathName

/-!
# Settings from the environment

A variable sets one field, as in `TABDB_SERVER__PORT`, or a whole section as the text of a JSON
object, as in `TABDB_SERVER`; a field's own variable has precedence. Letter case is irrelevant in
the names of variables and fields. Values are read leniently: a number or a truth value may be
given as text. All fields are checked, and all that are wrong are reported.
-/

namespace Tabular.Settings

/-- What is wrong with the environment: a section that is no JSON, or the fields that are wrong. -/
inductive Fault where
  | unreadable
  | invalid (fields : List Text)
  deriving DecidableEq, Repr

/-! ## Lenient values -/

/-- A text without the zeros at its front and the underscores among them, but for the last of
these characters where no digit follows. -/
def dropZeros (t : Text) : Text :=
  let front := t.takeWhile fun c => c == '0' || c == '_'
  match front, t.drop front.length with
  | '0' :: _, [] => [front.getLastD '0']
  | '0' :: _, c :: rest =>
    if Text.isAsciiDigit c then c :: rest else front.getLastD '0' :: c :: rest
  | _, _ => t

/-- A text without a point and the zeros after it, of which there is at least one. -/
def dropZeroFraction (t : Text) : Text :=
  match t.dropWhile (· != '.') with
  | '.' :: '0' :: zeros => if zeros.all (· == '0') then t.takeWhile (· != '.') else t
  | _ => t

/-- The integer that a text is taken for. Zeros at its front do not count as digits. -/
def integerText? (t : Text) : Option Int :=
  let (negative, body) := Numeral.splitSign (Text.trimBy Text.isSpace t)
  let plain := dropZeroFraction (dropZeros body)
  match (Numeral.joinDigits? Text.isAsciiDigit false plain).map Text.toNatWithin with
  | some (.ok n) => some (if negative then -(n : Int) else n)
  | _ => none

/-- The integer that a double equals, if it is not too large. -/
def integerDouble? (x : Binary64) : Option Int :=
  match x.place with
  | .units n =>
    if n % Binary64.one = 0 && n.natAbs < Nat.pow 2 63 * Binary64.one then some (n / Binary64.one)
    else none
  | .below | .above => none

def integer? : Json → Option Int
  | .integer n => some n
  | .bool b => some (if b then 1 else 0)
  | .double x => integerDouble? x
  | .string t => integerText? t
  | _ => none

/-- The words for truth and for its contrary. -/
def trueWords : List Text :=
  [['1'], ['o', 'n'], ['t'], ['t', 'r', 'u', 'e'], ['y'], ['y', 'e', 's']]

def falseWords : List Text :=
  [['0'], ['o', 'f', 'f'], ['f'], ['f', 'a', 'l', 's', 'e'], ['n'], ['n', 'o']]

/-- A letter of ASCII made small. -/
def smallLetter (c : Char) : Char :=
  if 0x41 ≤ c.toNat && c.toNat ≤ 0x5A then Char.ofNat (c.toNat + 0x20) else c

def truthText? (t : Text) : Option Bool :=
  if trueWords.elem (t.map smallLetter) then some true
  else if falseWords.elem (t.map smallLetter) then some false
  else none

def truthNumber? (n : Int) : Option Bool :=
  if n = 1 then some true else if n = 0 then some false else none

def truth? : Json → Option Bool
  | .bool b => some b
  | .string t => truthText? t
  | .integer n => truthNumber? n
  | .double x => (integerDouble? x).bind truthNumber?
  | _ => none

def text? : Json → Option Text
  | .string t => some t
  | _ => none

def optionalText? : Json → Option (Option Text)
  | .null => some none
  | .string t => some (some t)
  | _ => none

def port? (v : Json) : Option Int := (integer? v).filter isPort

def lineLimit? (v : Json) : Option Int := (integer? v).filter isLineLimit

def suffix? (v : Json) : Option Text := (text? v).filter isSuffix

/-! ## Sections -/

/-- What is given for a section: nothing, something that is no object, or members under names in
small letters. -/
inductive Given where
  | nothing
  | malformed
  | members (m : OrderedMap Text Json)

/-- A text taken apart at double underscores. -/
def segments : Text → List Text
  | '_' :: '_' :: rest => [] :: segments rest
  | c :: rest =>
    match segments rest with
    | [] => [[c]]
    | s :: ss => (c :: s) :: ss
  | [] => [[]]

/-- The rest of a text after another that stands at its front. -/
def after? (front t : Text) : Option Text :=
  if front.isPrefixOf t then some (t.drop front.length) else none

/-- Put the value of a variable where its name says. A name that leads further than to a field
makes the field an object, unless it has a value. -/
def assign (m : OrderedMap Text Json) (name : List Text) (value : Text) : OrderedMap Text Json :=
  match name with
  | [] => m
  | [field] => m.put field (.string value)
  | field :: _ :: _ => if m.has field then m else m.put field (.object [])

/-- The members that variables give to the section whose variables begin with `front`. -/
def membersUnder (front : Text) (env : OrderedMap Text Text) : OrderedMap Text Json :=
  env.entries.foldl (fun m e =>
    match after? (front ++ ['_', '_']) e.1 with
    | some name => assign m (segments name) e.2
    | none => m) .empty

/-- Members put over others. -/
def overlay (below above : List (Text × Json)) : OrderedMap Text Json :=
  (below ++ above).foldl (fun m e => m.put e.1 e.2) .empty

/-- The same members under names in small letters. -/
def lowered (m : OrderedMap Text Json) : OrderedMap Text Json :=
  m.entries.foldl (fun m e => m.put (Text.lower e.1) e.2) .empty

/-- What the environment gives for a section. -/
def given (front : Text) (env : OrderedMap Text Text) : Except Fault Given :=
  let own := membersUnder front env
  match env.get? front with
  | none => .ok (if own.size = 0 then .nothing else .members (lowered own))
  | some t =>
    match Json.ofText? t with
    | none => .error .unreadable
    | some (.object members) => .ok (.members (lowered (overlay members own.entries)))
    | some .null => .ok .nothing
    | some _ => .ok .malformed

/-- A field's value, or the one that holds if none is given, and the names of what is wrong. -/
def field {α : Type} (m : OrderedMap Text Json) (part name : String) (read : Json → Option α)
    (standard : α) : α × List Text :=
  match m.get? name.toList with
  | none => (standard, [])
  | some v =>
    match read v with
    | some a => (a, [])
    | none => (standard, [part.toList ++ ['.'] ++ name.toList])

/-- A section read from its members, if it has any. -/
def ofGiven {α : Type} (name : String) (standard : α)
    (read : OrderedMap Text Json → α × List Text) : Given → α × List Text
  | .nothing => (standard, [])
  | .malformed => (standard, [name.toList])
  | .members m => read m

def readStorage (m : OrderedMap Text Json) : StorageSettings × List Text :=
  let s := standard.storage
  let (directory, e₁) :=
    field m "storage" "data_dir" (fun v => (text? v).map Text.plainPath) s.directory
  let (suffix, e₂) := field m "storage" "table_suffix" suffix? s.suffix
  let (safe, e₃) := field m "storage" "fsync" truth? s.safe
  let (mode, e₄) :=
    field m "storage" "insert_mode" (fun v => (text? v).bind InsertMode.ofText?) s.mode
  (⟨directory, suffix, safe, mode⟩, e₁ ++ e₂ ++ e₃ ++ e₄)

def readServer (m : OrderedMap Text Json) : ServerSettings × List Text :=
  let s := standard.server
  let (host, e₁) := field m "server" "host" text? s.host
  let (port, e₂) := field m "server" "port" port? s.port
  let (httpPort, e₃) := field m "server" "http_port" port? s.httpPort
  let (metricsPort, e₄) := field m "server" "metrics_port" port? s.metricsPort
  let (limit, e₅) := field m "server" "max_line_bytes" lineLimit? s.maxLineBytes
  (⟨host, port, httpPort, metricsPort, limit⟩, e₁ ++ e₂ ++ e₃ ++ e₄ ++ e₅)

def readReport (m : OrderedMap Text Json) : ReportSettings × List Text :=
  let s := standard.report
  let name := "observability"
  let (level, e₁) := field m name "log_level" (fun v => (text? v).bind LogLevel.ofText?) s.level
  let (format, e₂) := field m name "log_format" (fun v => (text? v).bind LogFormat.ofText?) s.format
  let (metrics, e₃) := field m name "metrics_enabled" truth? s.metrics
  let (endpoint, e₄) := field m name "otel_endpoint" optionalText? s.endpoint
  let (service, e₅) := field m name "otel_service_name" text? s.service
  let (console, e₆) := field m name "otel_console_export" truth? s.console
  (⟨level, format, metrics, endpoint, service, console⟩, e₁ ++ e₂ ++ e₃ ++ e₄ ++ e₅ ++ e₆)

/-- The variables under names in small letters. -/
def loweredNames (env : List (Text × Text)) : OrderedMap Text Text :=
  env.foldl (fun m e => m.put (Text.lower e.1) e.2) .empty

def storageFront : Text := ['t', 'a', 'b', 'd', 'b', '_', 's', 't', 'o', 'r', 'a', 'g', 'e']

def serverFront : Text := ['t', 'a', 'b', 'd', 'b', '_', 's', 'e', 'r', 'v', 'e', 'r']

def reportFront : Text :=
  ['t', 'a', 'b', 'd', 'b', '_', 'o', 'b', 's', 'e', 'r', 'v', 'a', 'b', 'i', 'l', 'i', 't', 'y']

/-- The settings that an environment makes. -/
def ofEnvironment (env : List (Text × Text)) : Except Fault Settings := do
  let env := loweredNames env
  let storageGiven ← given storageFront env
  let serverGiven ← given serverFront env
  let reportGiven ← given reportFront env
  let (s, e₁) := ofGiven "storage" standard.storage readStorage storageGiven
  let (v, e₂) := ofGiven "server" standard.server readServer serverGiven
  let (r, e₃) := ofGiven "observability" standard.report readReport reportGiven
  let faults := e₁ ++ e₂ ++ e₃
  if faults.isEmpty then return ⟨s, v, r⟩ else .error (.invalid (Text.sorted faults))

end Tabular.Settings
