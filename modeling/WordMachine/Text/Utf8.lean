import WordMachine.Text.Digits
import WordMachine.Text.Hexadecimal

/-!
# Text as bytes

UTF-8 in both directions. Bytes are read by a machine that takes one at a time, so that a defect is
known by the bytes of the character in which it arises.
-/
namespace WordMachine.Utf8

inductive Reason
  /-- A byte that begins no character. -/
  | startByte
  /-- A byte that cannot go on with the character begun before it. -/
  | continuationByte
  /-- The bytes end inside a character. -/
  | endOfData
  deriving DecidableEq

/-- The bytes at fault: from `start` up to and without `stop`, of which `first` is the first. -/
structure Defect where
  start : Nat
  stop : Nat
  first : UInt8
  reason : Reason
  deriving DecidableEq

def Reason.text : Reason → String
  | .startByte => "invalid start byte"
  | .continuationByte => "invalid continuation byte"
  | .endOfData => "unexpected end of data"

def Defect.message (defect : Defect) : String :=
  let place :=
    if defect.stop = defect.start + 1 then
      "byte " ++ Hexadecimal.marked 2 defect.first.toNat ++ " in position " ++
        Decimal.written defect.start
    else
      "bytes in position " ++ Decimal.written defect.start ++ "-" ++
        Decimal.written (defect.stop - 1 : Nat)
  "'utf-8' codec can't decode " ++ place ++ ": " ++ defect.reason.text

/-- What the first byte of a character promises: how many bytes follow it, between which bounds
the next of them lies, and its own part of the code point. -/
structure Lead where
  owed : Nat
  low : Nat
  high : Nat
  code : Nat

/-- The promise of a first byte. The narrower bounds keep out code points written longer than
needed, surrogates, and numbers above the last code point. -/
def lead? (byte : Nat) : Option Lead :=
  if byte < 0x80 then some ⟨0, 0x80, 0xBF, byte⟩
  else if byte < 0xC2 then none
  else if byte < 0xE0 then some ⟨1, 0x80, 0xBF, byte - 0xC0⟩
  else if byte = 0xE0 then some ⟨2, 0xA0, 0xBF, 0⟩
  else if byte = 0xED then some ⟨2, 0x80, 0x9F, 0xD⟩
  else if byte < 0xF0 then some ⟨2, 0x80, 0xBF, byte - 0xE0⟩
  else if byte = 0xF0 then some ⟨3, 0x90, 0xBF, 0⟩
  else if byte < 0xF4 then some ⟨3, 0x80, 0xBF, byte - 0xF0⟩
  else if byte = 0xF4 then some ⟨3, 0x80, 0x8F, 4⟩
  else none

/-- Where the reader stands: between characters, or inside one that began at `start` and still
owes bytes. -/
inductive State
  | between
  | inside (start : Nat) (first : UInt8) (promise : Lead)

/-- Reads on from a position with the characters read so far, the last one first. -/
def decodeFrom (position : Nat) (done : List Char) :
    State → List UInt8 → Except Defect (List Char)
  | .between, [] => .ok done.reverse
  | .inside start first _, [] => .error ⟨start, position, first, .endOfData⟩
  | .between, byte :: rest =>
    match lead? byte.toNat with
    | none => .error ⟨position, position + 1, byte, .startByte⟩
    | some promise =>
      if promise.owed = 0 then
        decodeFrom (position + 1) (Char.ofNat promise.code :: done) .between rest
      else
        decodeFrom (position + 1) done (.inside position byte promise) rest
  | .inside start first promise, byte :: rest =>
    if promise.low ≤ byte.toNat ∧ byte.toNat ≤ promise.high then
      let code := promise.code * 64 + (byte.toNat - 0x80)
      if promise.owed = 1 then
        decodeFrom (position + 1) (Char.ofNat code :: done) .between rest
      else
        decodeFrom (position + 1) done
          (.inside start first ⟨promise.owed - 1, 0x80, 0xBF, code⟩) rest
    else .error ⟨start, position, first, .continuationByte⟩

def decode (bytes : List UInt8) : Except Defect (List Char) := decodeFrom 0 [] .between bytes

def encode (text : List Char) : List UInt8 := text.flatMap String.utf8EncodeChar

end WordMachine.Utf8
