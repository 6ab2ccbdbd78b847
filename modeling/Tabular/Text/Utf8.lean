import Tabular.Text.Basic

/-!
# UTF-8

Characters as bytes. Reading either stops at the first fault and says what it is, or puts the
replacement character for each faulty stretch and goes on. A fault covers the longest beginning
of a character that stands there, and all the rest of the input if that ends too early.
-/

namespace Tabular

abbrev Bytes := List UInt8

namespace Utf8

/-- Why bytes are no character. -/
inductive Reason where
  | startByte
  | continuationByte
  | endOfData
  deriving DecidableEq, Repr

/-- The first character of some bytes: its code point and length, or the fault and its length. -/
inductive Head where
  | character (code length : Nat)
  | faulty (reason : Reason) (length : Nat)
  deriving DecidableEq, Repr

def isTail (b : UInt8) : Bool := 0x80 ≤ b.toNat && b.toNat ≤ 0xBF

/-- May `b` follow the first byte `a` of a character of three or four bytes? The ends of the range
keep out longer forms than needed, surrogates, and codes past the last one. -/
def isSecond (a b : UInt8) : Bool :=
  (if a = 0xE0 then 0xA0 else if a = 0xF0 then 0x90 else 0x80) ≤ b.toNat &&
    b.toNat ≤ (if a = 0xED then 0x9F else if a = 0xF4 then 0x8F else 0xBF)

/-- The six bits that a tail byte adds. -/
def low (b : UInt8) : Nat := b.toNat - 0x80

/-- The tails of a character of two bytes. -/
def headTwo (a : UInt8) : Bytes → Head
  | [] => .faulty .endOfData 1
  | b :: _ =>
    if isTail b then .character ((a.toNat - 0xC0) * 64 + low b) 2
    else .faulty .continuationByte 1

/-- The tails of a character of three bytes. -/
def headThree (a : UInt8) : Bytes → Head
  | [] => .faulty .endOfData 1
  | b :: rest =>
    if !isSecond a b then .faulty .continuationByte 1
    else match rest with
      | [] => .faulty .endOfData 2
      | c :: _ =>
        if isTail c then .character (((a.toNat - 0xE0) * 64 + low b) * 64 + low c) 3
        else .faulty .continuationByte 2

/-- The tails of a character of four bytes. -/
def headFour (a : UInt8) : Bytes → Head
  | [] => .faulty .endOfData 1
  | b :: rest =>
    if !isSecond a b then .faulty .continuationByte 1
    else match rest with
      | [] => .faulty .endOfData 2
      | c :: rest =>
        if !isTail c then .faulty .continuationByte 2
        else match rest with
          | [] => .faulty .endOfData 3
          | d :: _ =>
            if isTail d then
              .character ((((a.toNat - 0xF0) * 64 + low b) * 64 + low c) * 64 + low d) 4
            else .faulty .continuationByte 3

/-- What stands at the front of bytes that begin with `a`. -/
def head (a : UInt8) (rest : Bytes) : Head :=
  if a.toNat < 0x80 then .character a.toNat 1
  else if a.toNat < 0xC2 then .faulty .startByte 1
  else if a.toNat < 0xE0 then headTwo a rest
  else if a.toNat < 0xF0 then headThree a rest
  else if a.toNat < 0xF5 then headFour a rest
  else .faulty .startByte 1

/-- A fault in bytes: the first faulty byte, its place and how far the fault goes. -/
structure Fault where
  byte : UInt8
  position : Nat
  length : Nat
  reason : Reason
  deriving DecidableEq, Repr

/-- Read all bytes, of which `position` have been read before, or report the first fault. -/
def decodeFrom (position : Nat) : Bytes → Except Fault Text
  | [] => .ok []
  | a :: rest =>
    match head a rest with
    | .faulty reason length => .error ⟨a, position, length, reason⟩
    | .character code length =>
      (decodeFrom (position + length) (rest.drop (length - 1))).map (Char.ofNat code :: ·)
termination_by bytes => bytes.length
decreasing_by simp only [List.length_drop, List.length_cons]; omega

def decode (bytes : Bytes) : Except Fault Text := decodeFrom 0 bytes

/-- The character that stands for a fault. -/
def replacement : Char := '\ufffd'

/-- Read all bytes with a replacement character for each fault. -/
def decodeLossy : Bytes → Text
  | [] => []
  | a :: rest =>
    match head a rest with
    | .faulty _ length => replacement :: decodeLossy (rest.drop (length - 1))
    | .character code length => Char.ofNat code :: decodeLossy (rest.drop (length - 1))
termination_by bytes => bytes.length
decreasing_by all_goals simp only [List.length_drop, List.length_cons]; omega

/-- The bytes of one character. -/
def encodeChar (c : Char) : Bytes :=
  let n := c.toNat
  if n < 0x80 then [UInt8.ofNat n]
  else if n < 0x800 then [UInt8.ofNat (0xC0 + n / 64), UInt8.ofNat (0x80 + n % 64)]
  else if n < 0x10000 then
    [UInt8.ofNat (0xE0 + n / 4096), UInt8.ofNat (0x80 + n / 64 % 64), UInt8.ofNat (0x80 + n % 64)]
  else
    [UInt8.ofNat (0xF0 + n / 262144), UInt8.ofNat (0x80 + n / 4096 % 64),
      UInt8.ofNat (0x80 + n / 64 % 64), UInt8.ofNat (0x80 + n % 64)]

def encode (t : Text) : Bytes := t.flatMap encodeChar

@[simp] theorem encode_nil : encode [] = [] := rfl
@[simp] theorem encode_cons (c : Char) (t : Text) : encode (c :: t) = encodeChar c ++ encode t := rfl
@[simp] theorem encode_append (s t : Text) : encode (s ++ t) = encode s ++ encode t :=
  List.flatMap_append

end Utf8

end Tabular
