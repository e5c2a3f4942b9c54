import WordMachine.Mode

/-!
# Instructions

An instruction word packs an operation code of four bits and two operand codes of six. The
operation code zero selects the extended form, whose first operand code selects the operation.
-/
namespace WordMachine

/-- Operations that combine two operands and store the result in the first. -/
inductive BinaryOp
  | set | add | sub | mul | div | mod | shl | shr | and | bor | xor
  deriving DecidableEq

/-- Tests of two operands; a test that fails makes the machine skip the next instruction. -/
inductive Condition
  | equal | notEqual | greater | common
  deriving DecidableEq

inductive Operation
  | binary (op : BinaryOp)
  | conditional (condition : Condition)
  /-- Calls a subroutine; the only operation of the extended form. -/
  | jsr
  deriving DecidableEq

structure Instruction where
  opcode : BitVec 4
  a : BitVec 6
  b : BitVec 6
  deriving DecidableEq

namespace Operation

def all : List Operation :=
  [.binary .set, .binary .add, .binary .sub, .binary .mul, .binary .div, .binary .mod,
    .binary .shl, .binary .shr, .binary .and, .binary .bor, .binary .xor,
    .conditional .equal, .conditional .notEqual, .conditional .greater, .conditional .common, .jsr]

def mnemonic : Operation → String
  | .binary .set => "SET"
  | .binary .add => "ADD"
  | .binary .sub => "SUB"
  | .binary .mul => "MUL"
  | .binary .div => "DIV"
  | .binary .mod => "MOD"
  | .binary .shl => "SHL"
  | .binary .shr => "SHR"
  | .binary .and => "AND"
  | .binary .bor => "BOR"
  | .binary .xor => "XOR"
  | .conditional .equal => "IFE"
  | .conditional .notEqual => "IFN"
  | .conditional .greater => "IFG"
  | .conditional .common => "IFB"
  | .jsr => "JSR"

/-- The operation code; that of the extended form is zero. -/
def opcode : Operation → BitVec 4
  | .binary .set => 0x1
  | .binary .add => 0x2
  | .binary .sub => 0x3
  | .binary .mul => 0x4
  | .binary .div => 0x5
  | .binary .mod => 0x6
  | .binary .shl => 0x7
  | .binary .shr => 0x8
  | .binary .and => 0x9
  | .binary .bor => 0xA
  | .binary .xor => 0xB
  | .conditional .equal => 0xC
  | .conditional .notEqual => 0xD
  | .conditional .greater => 0xE
  | .conditional .common => 0xF
  | .jsr => 0x0

/-- The first operand code that selects the subroutine call in the extended form. -/
def jsrSelector : BitVec 6 := 0x01

def operandCount : Operation → Nat
  | .jsr => 1
  | _ => 2

/-- The operation with a given mnemonic, in upper case. -/
def ofMnemonic? (text : List Char) : Option Operation :=
  all.find? fun operation => operation.mnemonic.toList == text

/-- The operation of an instruction, if it is defined. -/
def ofInstruction? (instruction : Instruction) : Option Operation :=
  all.find? fun operation => operation.opcode == instruction.opcode &&
    (operation != .jsr || instruction.a == jsrSelector)

theorem mem_all (operation : Operation) : operation ∈ all := by
  cases operation with
  | binary op => cases op <;> decide
  | conditional condition => cases condition <;> decide
  | jsr => decide

end Operation

namespace Instruction

/-- The fields of a word: the operation code in the low bits, then the first operand code. -/
def ofWord (word : Word) : Instruction :=
  ⟨word.extractLsb' 0 4, word.extractLsb' 4 6, word.extractLsb' 10 6⟩

def toWord (instruction : Instruction) : Word :=
  instruction.b ++ instruction.a ++ instruction.opcode

/-- The fields left of three integers when each is cut to its width. -/
def ofFields (opcode a b : Int) : Instruction :=
  ⟨BitVec.ofInt 4 opcode, BitVec.ofInt 6 a, BitVec.ofInt 6 b⟩

def extended (instruction : Instruction) : Bool := instruction.opcode == 0

/-- How many words an instruction takes, itself included. -/
def length (instruction : Instruction) : Nat :=
  if instruction.extended then 1 + (Mode.ofCode instruction.b).nextWords
  else 1 + (Mode.ofCode instruction.a).nextWords + (Mode.ofCode instruction.b).nextWords

theorem toNat_toWord (instruction : Instruction) :
    instruction.toWord.toNat =
      instruction.opcode.toNat + 16 * instruction.a.toNat + 1024 * instruction.b.toNat := by
  have opcode := instruction.opcode.isLt
  have a := instruction.a.isLt
  rw [toWord, BitVec.toNat_append, ← Nat.shiftLeft_add_eq_or_of_lt opcode, BitVec.toNat_append,
    ← Nat.shiftLeft_add_eq_or_of_lt a, Nat.shiftLeft_eq, Nat.shiftLeft_eq]
  omega

theorem ofWord_toWord (instruction : Instruction) : ofWord instruction.toWord = instruction := by
  have opcode := instruction.opcode.isLt
  have a := instruction.a.isLt
  have b := instruction.b.isLt
  have packed := toNat_toWord instruction
  cases instruction with
  | mk o l r =>
    simp only [ofWord, Instruction.mk.injEq]
    refine ⟨?_, ?_, ?_⟩ <;> apply BitVec.eq_of_toNat_eq <;>
      simp only [BitVec.extractLsb'_toNat, packed, Nat.shiftRight_eq_div_pow] <;> omega

theorem toWord_ofWord (word : Word) : (ofWord word).toWord = word := by
  have bound := word.isLt
  apply BitVec.eq_of_toNat_eq
  simp only [toNat_toWord, ofWord, BitVec.extractLsb'_toNat, Nat.shiftRight_eq_div_pow]
  omega

end Instruction

end WordMachine
