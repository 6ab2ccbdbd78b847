import Tabular.Engine
import Tabular.Json
import Tabular.Program

/-!
# HTTP

The engine over HTTP. Commands are posted and answered with what a connection would be sent and
with the same result in parts; sessions are opened and closed; two resources tell how the engine
is doing, and some pages document all that. A path with a slash too many at its end leads to the
resource without it.
-/

namespace Tabular.Http

structure Request where
  method : Text
  path : Text
  body : Option Json

/-- A refused request body and a page of the documentation have answers without a body that anyone
relies on. -/
structure Response where
  status : Nat
  body : Option Json

inductive Resource where
  | health | stats | execute | sessions
  | session (id : Text)
  | documentation
  deriving DecidableEq, Repr

/-! ## Paths -/

/-- The byte that two bytes after a percent sign stand for. -/
def percentByte? (a b : UInt8) : Option UInt8 := do
  return UInt8.ofNat ((← Text.hexValue? a.toNat) * 16 + (← Text.hexValue? b.toNat))

/-- Bytes with percent codes taken for the bytes that they stand for. -/
def percentDecode : Bytes → Bytes
  | 0x25 :: a :: b :: rest =>
    match percentByte? a b with
    | some c => c :: percentDecode rest
    | none => 0x25 :: percentDecode (a :: b :: rest)
  | c :: rest => c :: percentDecode rest
  | [] => []

/-- The names of a path after one more: a point leads nowhere and two points lead back, but not
above the first name. -/
def follow (names : List Text) (name : Text) : List Text :=
  if name = ['.'] then names
  else if name = ['.', '.'] then if names = [[]] then names else names.dropLast
  else names ++ [name]

/-- A path without the name of a server, which stands after two slashes. -/
def dropServer : Text → Text
  | '/' :: '/' :: rest => rest.dropWhile (· != '/')
  | path => path

/-- The path of a request without server, query and fragment, decoded; a slash is put at the front
if there is none. -/
def cleanPath (path : Text) : Text :=
  let plain := dropServer (path.takeWhile fun c => c != '?' && c != '#')
  let rooted := if plain.head? = some '/' then plain else '/' :: plain
  let direct := Text.join ['/'] ((Text.pieces '/' rooted).foldl follow [])
  Utf8.decodeLossy (percentDecode (Utf8.encode direct))

def healthName : Text := ['h', 'e', 'a', 'l', 't', 'h']
def statsName : Text := ['s', 't', 'a', 't', 's']
def executeName : Text := ['e', 'x', 'e', 'c', 'u', 't', 'e']
def sessionName : Text := ['s', 'e', 's', 's', 'i', 'o', 'n']

/-- The pages of the documentation. -/
def pages : List Text :=
  [['d', 'o', 'c', 's'], ['r', 'e', 'd', 'o', 'c'],
    ['o', 'p', 'e', 'n', 'a', 'p', 'i', '.', 'j', 's', 'o', 'n']]

/-- The page below the first, by which one comes back from signing in. -/
def signInPage : List Text :=
  [['d', 'o', 'c', 's'],
    ['o', 'a', 'u', 't', 'h', '2', '-', 'r', 'e', 'd', 'i', 'r', 'e', 'c', 't']]

/-- The resource at a clean path. -/
def resource? (path : Text) : Option Resource :=
  match Text.pieces '/' path with
  | [[], name] =>
    if name = healthName then some .health
    else if name = statsName then some .stats
    else if name = executeName then some .execute
    else if name = sessionName then some .sessions
    else if pages.elem name then some .documentation
    else none
  | [[], name, id] =>
    if name = sessionName && !id.isEmpty then some (.session id)
    else if [name, id] = signInPage then some .documentation
    else none
  | _ => none

/-- The resource at a path, if need be without slashes at its end. -/
def locate (path : Text) : Option Resource :=
  match resource? path with
  | some r => some r
  | none => resource? (path.reverse.dropWhile (· == '/')).reverse

/-- The methods of a resource. -/
def Resource.methods : Resource → List Text
  | .health | .stats => [['G', 'E', 'T']]
  | .execute | .sessions => [['P', 'O', 'S', 'T']]
  | .session _ => [['D', 'E', 'L', 'E', 'T', 'E']]
  | .documentation => [['G', 'E', 'T'], ['H', 'E', 'A', 'D']]

/-! ## Bodies -/

def text (s : String) : Json := .string s.toList

def texts (ts : List Text) : Json := .array (ts.map Json.string)

def count (n : Nat) : Json := .integer n

/-- An object whose names are fixed words. -/
def record (members : List (String × Json)) : Json :=
  .object (members.map fun m => (m.1.toList, m.2))

def ok (body : Json) : Response := ⟨200, some body⟩

/-- A failure with its reason. -/
def failed (status : Nat) (detail : Message) : Response :=
  ⟨status, some (record [("detail", .string detail.text)])⟩

def outcomeBody (o : Outcome) : Json :=
  let r := match o.result with
    | .ok r => r
    | .error _ => Result.done []
  record [
    ("success", .bool o.success),
    ("response", .string o.response),
    ("message", .string r.message.text),
    ("columns", texts r.header),
    ("rows", .array (r.rowTexts.map texts)),
    ("affected_rows", count r.affected)]

def statisticsBody (s : Engine.Statistics) : Json :=
  record [
    ("databases", texts s.databases),
    ("databases_resident", texts s.resident),
    ("sessions", count s.sessions),
    ("commands", record [("ok", count s.succeeded), ("failed", count s.failed)]),
    ("insert_mode", .string s.mode.text)]

/-- A command and the session it is for. -/
def command? : Option Json → Option (Text × Option Text)
  | some (.object members) => do
    let command ← match Json.member? members ['c', 'o', 'm', 'm', 'a', 'n', 'd'] with
      | some (.string t) => some t
      | _ => none
    let id ← match Json.member? members ['s', 'e', 's', 's', 'i', 'o', 'n', '_', 'i', 'd'] with
      | some (.string t) => some (some t)
      | some .null | none => some none
      | some _ => none
    return (command, id)
  | _ => none

/-! ## Answers -/

/-- Carry out a posted command. A session that is not open is no resource. -/
def execute (body : Option Json) (e : Engine) : Response × Engine :=
  match command? body with
  | none => (⟨422, none⟩, e)
  | some (command, id) =>
    let unknown := match id with
      | none => none
      | some _ =>
        match e.session id with
        | .ok _ => none
        | .error cause => some cause
    match unknown with
    | some cause => (failed 404 cause.message, e)
    | none =>
      let (o, e) := e.execute command id
      (ok (outcomeBody o), e)

/-- Close the session of a path. -/
def close (id : Text) (e : Engine) : Response × Engine :=
  let (closed, e) := e.closeSession id
  if closed then (ok (record [("message", .string (Message.text ["Session ", id, " closed"]))]), e)
  else (failed 404 (Rejection.unknownSession id).message, e)

/-- How the engine is doing. -/
def stats (e : Engine) : Response × Engine :=
  match Engine.statistics.run e with
  | (.ok s, e) => (ok (statisticsBody s), e)
  | (.error f, e) => (failed 500 f.message, e)

/-- The answer of a resource to one of its methods. -/
def answer (r : Resource) (body : Option Json) (e : Engine) : Response × Engine :=
  match r with
  | .health => (ok (record [("status", text "healthy"), ("version", .string Program.version)]), e)
  | .stats => stats e
  | .execute => execute body e
  | .sessions =>
    let (id, e) := e.openSession
    (ok (record [("session_id", .string id)]), e)
  | .session id => close id e
  | .documentation => (⟨200, none⟩, e)

/-- The answer to a request. -/
def respond (request : Request) (e : Engine) : Response × Engine :=
  match locate (cleanPath request.path) with
  | none => (failed 404 ["Not Found"], e)
  | some r =>
    if r.methods.elem (Text.upper request.method) then answer r request.body e
    else (failed 405 ["Method Not Allowed"], e)

end Tabular.Http
