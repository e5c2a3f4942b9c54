import WordMachine.Instruction

/-!
# Arithmetic

The operations on integers of any size and sign. A machine word is the low half of an exact
result, and the overflow register its high half.
-/
namespace WordMachine

namespace TwosComplement

/-- The bits that two integers have in common, a negative one having infinitely many high bits. -/
def and : Int → Int → Int
  | .ofNat m, .ofNat n => .ofNat (m &&& n)
  | .ofNat m, .negSucc n => .ofNat (m ^^^ (m &&& n))
  | .negSucc m, .ofNat n => .ofNat (n ^^^ (n &&& m))
  | .negSucc m, .negSucc n => .negSucc (m ||| n)

/-- The bits that at least one of two integers has. -/
def or : Int → Int → Int
  | .ofNat m, .ofNat n => .ofNat (m ||| n)
  | .ofNat m, .negSucc n => .negSucc (n ^^^ (n &&& m))
  | .negSucc m, .ofNat n => .negSucc (m ^^^ (m &&& n))
  | .negSucc m, .negSucc n => .negSucc (m &&& n)

/-- The bits that exactly one of two integers has. -/
def xor : Int → Int → Int
  | .ofNat m, .ofNat n => .ofNat (m ^^^ n)
  | .ofNat m, .negSucc n => .negSucc (m ^^^ n)
  | .negSucc m, .ofNat n => .negSucc (m ^^^ n)
  | .negSucc m, .negSucc n => .ofNat (m ^^^ n)

end TwosComplement

namespace Arithmetic

/-- The low half of an exact result. -/
def low (exact : Int) : Int := exact % 65536

/-- The half above the low one. -/
def high (exact : Int) : Int := (exact >>> (16 : Nat)) % 65536

/-- What an operation yields: a value, and what it leaves in the overflow register unless it
leaves that register alone. -/
structure Result where
  value : Int
  overflow? : Option Int
  deriving DecidableEq

/-- Both halves of an exact result. -/
def Result.wide (exact : Int) : Result := ⟨low exact, some (high exact)⟩

/-- The low half of an exact result, the overflow register left alone. -/
def Result.narrow (exact : Int) : Result := ⟨low exact, none⟩

/-- The number of places of a shift is negative. -/
inductive Error
  | negativeShift
  deriving DecidableEq

def Error.message : Error → String
  | .negativeShift => "negative shift count"

end Arithmetic

namespace BinaryOp

open Arithmetic

/-- Whether the second operand is a number of places to shift. -/
def isShift : BinaryOp → Bool
  | .shl | .shr => true
  | _ => false

/-- What an operation yields; a shift takes a negative number of places for none. Dividing by
zero yields zero. -/
def result (op : BinaryOp) (a b : Int) : Result :=
  match op with
  | .set => .narrow b
  | .add => .wide (a + b)
  | .sub => .wide (a - b)
  | .mul => .wide (a * b)
  | .div => if b = 0 then ⟨0, some 0⟩ else .wide (a.fdiv b)
  | .mod => if b = 0 then ⟨0, none⟩ else .narrow (a.fmod b)
  | .shl => .wide (a <<< b.toNat)
  | .shr => .wide (a >>> b.toNat)
  | .and => ⟨TwosComplement.and a b, none⟩
  | .bor => .narrow (TwosComplement.or a b)
  | .xor => .narrow (TwosComplement.xor a b)

/-- What an operation yields on any integers. -/
def evaluate (op : BinaryOp) (a b : Int) : Except Arithmetic.Error Result :=
  if op.isShift ∧ b < 0 then .error .negativeShift else .ok (op.result a b)

end BinaryOp

/-- Whether a condition holds between two integers. -/
def Condition.holds (condition : Condition) (a b : Int) : Bool :=
  match condition with
  | .equal => a == b
  | .notEqual => a != b
  | .greater => b < a
  | .common => TwosComplement.and a b != 0

end WordMachine
