import WordMachine.Text.Digits
import WordMachine.Word

/-!
# Programs as bytes

The binary form of a word stream: every word as two bytes, the low one first.
-/
namespace WordMachine

structure Program where
  words : List Word
  /-- The labels with their addresses, in the order of their declaration. -/
  labels : List (List Char × Nat)
  deriving DecidableEq

namespace Binary

def ofWord (word : Word) : List UInt8 :=
  [UInt8.ofNat (word.toNat % 256), UInt8.ofNat (word.toNat / 256)]

/-- The binary form of a word stream. -/
def encode (words : List Word) : List UInt8 := words.flatMap ofWord

/-- The binary form of a list of integers, if all of them are words. -/
def encodeExactly? (values : List Int) : Option (List UInt8) :=
  (values.mapM Word.exactly?).map encode

def toWord (low high : UInt8) : Word := BitVec.ofNat 16 (low.toNat + 256 * high.toNat)

/-- The words of a byte sequence; a last byte without a partner is dropped. -/
def decodePairs : List UInt8 → List Word
  | low :: high :: rest => toWord low high :: decodePairs rest
  | _ => []

/-- A byte sequence of odd length. -/
structure OddLength where
  length : Nat
  deriving DecidableEq

def OddLength.message (error : OddLength) : String :=
  "Binary length " ++ Decimal.written error.length ++ " is not a whole number of words"

/-- The word stream of a byte sequence. -/
def decode (bytes : List UInt8) : Except OddLength (List Word) :=
  if bytes.length % 2 = 0 then .ok (decodePairs bytes) else .error ⟨bytes.length⟩

theorem length_encode (words : List Word) : (encode words).length = 2 * words.length := by
  induction words with
  | nil => rfl
  | cons word rest ih =>
    simp only [encode, List.flatMap_cons, List.length_append] at ih ⊢
    simp only [ih, ofWord, List.length_cons, List.length_nil]
    omega

end Binary

end WordMachine
