import Tabular.Table

/-!
# Table files

A table file has a header line of column names and one line for each row, with tabs between the
fields and a line feed after every line. Cells are stored as their text alone and get their kind
from it when they are read; the next id is one more than the largest in the file.
-/

namespace Tabular.Table

/-- A row as a line. -/
def encodeRow (row : Row) : Text := Text.join ['\t'] (row.map (·.text)) ++ ['\n']

/-- A table as the text of its file. -/
def encode (t : Table) : Text := Text.join ['\t'] t.columns ++ ['\n'] ++ t.rows.flatMap encodeRow

/-- The lines of a text; a line feed at its end begins no line. -/
def lines (t : Text) : List Text :=
  let ls := Text.pieces '\n' t
  if ls.getLast? = some [] then ls.dropLast else ls

/-- Check that column names are not empty and that no two agree in small letters. -/
def checkHeader (before : List Text) : List Text → Except FileFault Unit
  | [] => .ok ()
  | c :: cs =>
    if c.isEmpty || (Name.find? before c).isSome then .error (.badColumn c)
    else checkHeader (before ++ [c]) cs

/-- The columns of a header line. -/
def decodeHeader (line : Text) : Except FileFault (List Text) :=
  let columns := Text.pieces '\t' line
  if Name.isId (columns.headD []) then (checkHeader [] columns).map fun _ => columns
  else .error (.firstColumn (columns.headD []))

/-- The fields of a row line. -/
def fields (line : Text) : List Text :=
  Text.pieces '\t' (line.reverse.dropWhile (· == '\r')).reverse

/-- The number that an id field denotes, if it is made of ASCII digits. -/
def decodeId (path : Text) (line : Nat) (field : Text) : Except Failure Nat :=
  if field.isEmpty || !field.all Text.isAsciiDigit then
    .error (Rejection.malformedFile path (.badId line field))
  else (Text.toNatWithin field).mapError Failure.number

/-- The rows of lines, the first of them the given one, after rows with the ids `seen`. Each row
comes with its id. -/
def decodeRows (path : Text) (columns : Nat) (line : Nat) (seen : List Nat) :
    List Text → Except Failure (List (Nat × Row))
  | [] => .ok []
  | l :: ls =>
    let fs := fields l
    if fs.length ≠ columns then
      .error (Rejection.malformedFile path (.fieldCount line fs.length columns))
    else do
      let id ← decodeId path line (fs.headD [])
      if seen.elem id then .error (Rejection.malformedFile path (.repeatedId line id))
      else do
        let rest ← decodeRows path columns (line + 1) (id :: seen) ls
        return (id, ⟨.number, Text.ofNat id⟩ :: fs.tail.map Value.ofField) :: rest

/-- The table in the text of a file; `path` is named in errors. -/
def decode (name : Text) (text : Text) (path : Text) : Except Failure Table :=
  match lines text with
  | [] | [] :: _ => .error (Rejection.malformedFile path .noHeader)
  | header :: body => do
    let columns ← (decodeHeader header).mapError fun f => (Rejection.malformedFile path f : Failure)
    let rows ← decodeRows path columns.length 2 [] body
    return ⟨name, columns, rows.map (·.2), (rows.map (·.1)).foldl max 0 + 1⟩

@[simp] theorem encode_rows_nil (name : Text) (columns : List Text) (n : Nat) :
    encode ⟨name, columns, [], n⟩ = Text.join ['\t'] columns ++ ['\n'] := by simp [encode]

/-- A row appended to a table is a line appended to its file. -/
theorem encode_append_row (t : Table) (row : Row) (n : Nat) :
    encode { t with rows := t.rows ++ [row], nextId := n } = encode t ++ encodeRow row := by
  simp [encode]

end Tabular.Table
