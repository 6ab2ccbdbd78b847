import Tabular.Engine

/-!
# Connections

A connection brings commands, one on a line, and takes an answer for each. An answer is followed
by a line that holds the end mark alone. A connection has a session of its own, which is closed
when its input ends or an answer cannot be sent. Lines are read up to a limit; what is left of a
line that goes on behind the limit is passed over.
-/

namespace Tabular.Connection

/-- The byte that ends a line. -/
def lineFeed : UInt8 := 10

/-- The byte that stands alone on the line after an answer. -/
def endMark : UInt8 := 4

/-- An answer as it is sent. -/
def frame (response : Text) : Bytes := Utf8.encode response ++ [lineFeed, endMark, lineFeed]

/-- Read up to `limit` bytes, but not past the end of a line. -/
def readLine : (limit : Nat) → Bytes → Bytes × Bytes
  | 0, input => ([], input)
  | _ + 1, [] => ([], [])
  | limit + 1, b :: input =>
    if b = lineFeed then ([b], input)
    else
      let (line, rest) := readLine limit input
      (b :: line, rest)

/-- Does a line have its end? -/
def isWhole (line : Bytes) : Bool := line.getLast? == some lineFeed

theorem readLine_append (limit : Nat) (input : Bytes) :
    (readLine limit input).1 ++ (readLine limit input).2 = input := by
  induction limit generalizing input with
  | zero => rfl
  | succ n ih =>
    cases input with
    | nil => rfl
    | cons b input =>
      simp only [readLine]
      split
      · rfl
      · simp [ih input]

theorem readLine_shorter {limit : Nat} {input line rest : Bytes}
    (h : readLine limit input = (line, rest)) (hne : line ≠ []) : rest.length < input.length := by
  have := congrArg List.length (readLine_append limit input)
  rw [h] at this
  simp only [List.length_append] at this
  have := List.length_pos_iff.2 hne
  omega

/-- How many bytes are passed over at a time. -/
def chunk : Nat := 65536

/-- Pass over the rest of a line. -/
def skipLine (input : Bytes) : Bytes :=
  match _h : readLine chunk input with
  | ([], rest) => rest
  | (b :: line, rest) => if isWhole (b :: line) then rest else skipLine rest
termination_by input.length
decreasing_by exact readLine_shorter _h (by simp)

theorem skipLine_le (input : Bytes) : (skipLine input).length ≤ input.length := by
  fun_induction skipLine input with
  | case1 input rest h =>
    have := congrArg List.length (readLine_append chunk input)
    rw [h] at this
    simp only [List.nil_append] at this
    omega
  | case2 input b line rest h =>
    exact Nat.le_of_lt (readLine_shorter h (by simp))
  | case3 input b line rest h _ ih =>
    exact Nat.le_trans ih (Nat.le_of_lt (readLine_shorter h (by simp)))

/-- The answer to a line that is too long. -/
def tooLong (limit : Nat) : Message := ["[ERROR] Command longer than ", Text.ofNat limit, " bytes"]

/-- Serve the rest of a connection for a session. No more than `sends` answers can be sent, if
that is known; the bytes that were sent are returned. -/
def serve (limit : Nat) (id : Text) (sends : Option Nat) (input : Bytes) (e : Engine) :
    Bytes × Engine :=
  match _h : readLine (limit + 1) input with
  | ([], _) => ([], e)
  | (b :: line, rest) =>
    if limit < (b :: line).length && !isWhole (b :: line) then
      if sends = some 0 then ([], e)
      else
        let (out, last) := serve limit id (sends.map (· - 1)) (skipLine rest) e
        (frame (tooLong limit).text ++ out, last)
    else
      let (response, next) := e.handle (Utf8.decodeLossy (b :: line)) (some id)
      if sends = some 0 then ([], next)
      else
        let (out, last) := serve limit id (sends.map (· - 1)) rest next
        (frame response ++ out, last)
termination_by input.length
decreasing_by
  · exact Nat.lt_of_le_of_lt (skipLine_le rest) (readLine_shorter _h (by simp))
  · exact readLine_shorter _h (by simp)

/-- Everything that is sent on a connection whose input is given. -/
def run (limit : Nat) (sends : Option Nat) (input : Bytes) (e : Engine) : Bytes × Engine :=
  let (id, opened) := e.openSession
  let (out, last) := serve limit id sends input opened
  (out, (last.closeSession id).2)

end Tabular.Connection
