import Mathlib
import WordMachine.Arithmetic

/-! The operation table: what each operation code means on sixteen-bit values, and that the
arithmetic of the machine is that of the table. -/
namespace WordMachine

namespace OperationTable

/-- The exact result of the binary operation with a code. -/
def exact (opcode : BitVec 4) (a b : Nat) : Int :=
  match opcode.toNat with
  | 0x1 => b
  | 0x2 => a + b
  | 0x3 => a - b
  | 0x4 => a * b
  | 0x5 => if b = 0 then 0 else (a / b : Nat)
  | 0x6 => if b = 0 then 0 else (a % b : Nat)
  | 0x7 => a * 2 ^ b
  | 0x8 => (a / 2 ^ b : Nat)
  | 0x9 => (a &&& b : Nat)
  | 0xA => (a ||| b : Nat)
  | 0xB => (a ^^^ b : Nat)
  | _ => 0

/-- Whether the binary operation with a code stores the high half of its result. -/
def wide (opcode : BitVec 4) : Bool := opcode.toNat ∈ [0x2, 0x3, 0x4, 0x5, 0x7, 0x8]

/-- The word that the binary operation with a code stores. -/
def result (opcode : BitVec 4) (a b : Word) : Word := BitVec.ofInt 16 (exact opcode a.toNat b.toNat)

/-- The bits of the exact result from the sixteenth on, if the operation stores them. -/
def overflow? (opcode : BitVec 4) (a b : Word) : Option Word :=
  if wide opcode then some ((BitVec.ofInt 32 (exact opcode a.toNat b.toNat)).extractLsb' 16 16)
  else none

/-- Whether the condition with a code holds. -/
def holds (opcode : BitVec 4) (a b : Nat) : Bool :=
  match opcode.toNat with
  | 0xC => a = b
  | 0xD => a ≠ b
  | 0xE => a > b
  | 0xF => a &&& b ≠ 0
  | _ => false

end OperationTable

/-- The operations of the machine are those of the table, with both halves or the low one alone. -/
theorem BinaryOp.result_eq (op : BinaryOp) (a b : Word) :
    op.result a.value b.value =
      if OperationTable.wide (Operation.binary op).opcode then
        .wide (OperationTable.exact (Operation.binary op).opcode a.toNat b.toNat)
      else .narrow (OperationTable.exact (Operation.binary op).opcode a.toNat b.toNat) := by
  have zero : b.value = 0 ↔ b.toNat = 0 := Int.natCast_eq_zero
  cases op with
  | set | add | sub | mul | bor | xor => rfl
  | div =>
    change (if b.value = 0 then ⟨0, some 0⟩ else Arithmetic.Result.wide (a.value.fdiv b.value)) =
      Arithmetic.Result.wide (if b.toNat = 0 then 0 else (a.toNat / b.toNat : Nat))
    by_cases none : b.toNat = 0
    · rw [if_pos (zero.mpr none), if_pos none]
      rfl
    · rw [if_neg (mt zero.mp none), if_neg none, Int.ofNat_fdiv]
      rfl
  | mod =>
    change (if b.value = 0 then ⟨0, none⟩ else Arithmetic.Result.narrow (a.value.fmod b.value)) =
      Arithmetic.Result.narrow (if b.toNat = 0 then 0 else (a.toNat % b.toNat : Nat))
    by_cases none : b.toNat = 0
    · rw [if_pos (zero.mpr none), if_pos none]
      rfl
    · rw [if_neg (mt zero.mp none), if_neg none, Int.ofNat_fmod]
      rfl
  | shl =>
    change Arithmetic.Result.wide (a.value <<< b.toNat) = .wide (a.toNat * 2 ^ b.toNat)
    rw [Int.shiftLeft_eq]
    rfl
  | shr =>
    change Arithmetic.Result.wide (a.value >>> b.toNat) = .wide (a.toNat / 2 ^ b.toNat : Nat)
    rw [← Nat.shiftRight_eq_div_pow]
    rfl
  | and =>
    -- The only result that is not cut to sixteen bits has no more bits than its operands.
    have bound := Nat.lt_of_le_of_lt (Nat.and_le_left (n := a.toNat) (m := b.toNat)) a.isLt
    change Arithmetic.Result.mk ((a.toNat &&& b.toNat : Nat) : Int) none =
      ⟨((a.toNat &&& b.toNat : Nat) : Int) % 65536, none⟩
    rw [Int.emod_eq_of_lt (by omega) (by omega)]

private theorem ofInt_high (exact : Int) :
    Word.ofInt (Arithmetic.high exact) = (BitVec.ofInt 32 exact).extractLsb' 16 16 := by
  apply BitVec.eq_of_toNat_eq
  rw [Word.ofInt, BitVec.toNat_ofInt, BitVec.extractLsb'_toNat, BitVec.toNat_ofInt,
    Arithmetic.high, Int.shiftRight_eq_div_pow, Nat.shiftRight_eq_div_pow]
  omega

private theorem ofInt_low (exact : Int) :
    Word.ofInt (Arithmetic.low exact) = BitVec.ofInt 16 exact := by
  apply BitVec.eq_of_toNat_eq
  rw [Word.ofInt, BitVec.toNat_ofInt, BitVec.toNat_ofInt, Arithmetic.low]
  omega

/-- The words that the operations of the machine yield are those of the table. -/
theorem BinaryOp.words_eq (op : BinaryOp) (a b : Word) :
    Word.ofInt (op.result a.value b.value).value =
        OperationTable.result (Operation.binary op).opcode a b ∧
      (op.result a.value b.value).overflow?.map Word.ofInt =
        OperationTable.overflow? (Operation.binary op).opcode a b := by
  rw [result_eq, OperationTable.overflow?]
  split
  · exact ⟨ofInt_low _, congrArg some (ofInt_high _)⟩
  · exact ⟨ofInt_low _, rfl⟩

/-- The tests of the machine are those of the table. -/
theorem Condition.holds_eq (condition : Condition) (a b : Word) :
    condition.holds a.value b.value =
      OperationTable.holds (Operation.conditional condition).opcode a.toNat b.toNat := by
  cases condition with
  | equal => exact decide_eq_decide.mpr Int.natCast_inj
  | notEqual =>
    change (!decide (a.value = b.value)) = decide (a.toNat ≠ b.toNat)
    rw [← decide_not]
    exact decide_eq_decide.mpr (not_congr Int.natCast_inj)
  | greater => exact decide_eq_decide.mpr Int.ofNat_lt
  | common =>
    change (!decide (((a.toNat &&& b.toNat : Nat) : Int) = 0)) = decide (a.toNat &&& b.toNat ≠ 0)
    rw [← decide_not]
    exact decide_eq_decide.mpr (not_congr Int.natCast_eq_zero)

end WordMachine
