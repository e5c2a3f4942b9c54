import Mathlib
import WordMachine.Core

/-! Operand resolution as one equation: a location, and a core moved past the operand's next words
with its stack pointer shifted. -/
namespace WordMachine

/-! ### Instructions -/

theorem Operation.ofInstruction?_eq_some_iff (instruction : Instruction) (operation : Operation) :
    Operation.ofInstruction? instruction = some operation ↔
      operation.opcode = instruction.opcode ∧
        (operation = .jsr → instruction.a = Operation.jsrSelector) := by
  obtain ⟨opcode, a, b⟩ := instruction
  constructor
  · intro found
    have fits := List.find?_some found
    simp only [Bool.and_eq_true, Bool.or_eq_true, beq_iff_eq, bne_iff_ne] at fits
    exact ⟨fits.1, fun extended => fits.2.resolve_left (absurd extended)⟩
  · rintro ⟨rfl, selected⟩
    cases operation with
    | binary op => cases op <;> rfl
    | conditional condition => cases condition <;> rfl
    | jsr =>
      obtain rfl := selected rfl
      rfl

theorem Operation.opcode_eq_zero_iff (operation : Operation) :
    operation.opcode = 0 ↔ operation = .jsr := by
  cases operation with
  | binary op => cases op <;> decide
  | conditional condition => cases condition <;> decide
  | jsr => decide

/-- The modes of an instruction's operands, in the order in which they are resolved. -/
def Instruction.modes (instruction : Instruction) : List Mode :=
  if instruction.extended then [Mode.ofCode instruction.b]
  else [Mode.ofCode instruction.a, Mode.ofCode instruction.b]

theorem Instruction.length_eq (instruction : Instruction) :
    instruction.length = 1 + (instruction.modes.map Mode.nextWords).sum := by
  unfold Instruction.length Instruction.modes
  split
  · simp
  · simp [Nat.add_assoc]

/-- An instruction that is not of the extended form has an operation with two operands. -/
theorem Instruction.plain_cases (instruction : Instruction) (plain : instruction.opcode ≠ 0) :
    (∃ operation, Operation.ofInstruction? instruction = some operation ∧ operation ≠ .jsr) ∧
      instruction.modes = [Mode.ofCode instruction.a, Mode.ofCode instruction.b] := by
  have covered : ∀ opcode : BitVec 4, ∃ operation ∈ Operation.all, operation.opcode = opcode := by
    decide
  obtain ⟨operation, -, opcode⟩ := covered instruction.opcode
  have other : operation ≠ .jsr := by
    intro extended
    rw [(Operation.opcode_eq_zero_iff operation).mpr extended] at opcode
    exact plain opcode.symm
  constructor
  · refine ⟨operation, ?_, other⟩
    rw [Operation.ofInstruction?_eq_some_iff]
    exact ⟨opcode, fun extended => absurd extended other⟩
  · have short : instruction.extended = false := by simpa [Instruction.extended] using plain
    rw [Instruction.modes, short]
    rfl

/-! ### Operands -/

/-- How far resolving an operand moves the stack pointer. -/
def Mode.stackShift : Mode → Word
  | .pop => 1
  | .push => -1
  | _ => 0

theorem Mode.add_stackShift (mode : Mode) (top : Word) :
    top + mode.stackShift = match mode with
      | .pop => top + 1
      | .push => top - 1
      | _ => top := by
  cases mode with
  | pop => rfl
  | push => exact (BitVec.sub_eq_add_neg top 1).symm
  | _ => exact BitVec.add_zero top

/-- Where an operand is, given the registers before it is resolved and its next word. -/
def Mode.location (registers : Registers) (next : Word) : Mode → Location
  | .register r => .register r
  | .atRegister r => .memory (registers.read r)
  | .indexed r => .memory (next + registers.read r)
  | .pop | .peek => .memory registers.sp
  | .push => .memory (registers.sp - 1)
  | .stackPointer => .stackPointer
  | .programCounter => .programCounter
  | .overflow => .overflow
  | .atNextWord => .memory next
  | .nextWord => .immediate next
  | .literal n => .literal n

namespace Core

/-- The core moved past a number of words, with its stack pointer shifted. -/
def advance (core : Core) (words : Nat) (shift : Word) : Core :=
  { core with registers := { core.registers with
      pc := core.registers.pc + BitVec.ofNat 16 words
      sp := core.registers.sp + shift } }

@[simp] theorem advance_pc (core : Core) (words : Nat) (shift : Word) :
    (core.advance words shift).registers.pc = core.registers.pc + BitVec.ofNat 16 words := rfl

@[simp] theorem advance_memory (core : Core) (words : Nat) (shift : Word) :
    (core.advance words shift).memory = core.memory := rfl

@[simp] theorem advance_read (core : Core) (words : Nat) (shift : Word) (r : Register) :
    (core.advance words shift).registers.read r = core.registers.read r := rfl

@[simp] theorem advance_skip (core : Core) (words : Nat) (shift : Word) :
    (core.advance words shift).registers.skip = core.registers.skip := rfl

theorem advance_advance (core : Core) (first second : Nat) (shift further : Word) :
    (core.advance first shift).advance second further =
      core.advance (first + second) (shift + further) := by
  simp only [advance, BitVec.ofNat_add, BitVec.add_assoc]

theorem advance_zero (core : Core) : core.advance 0 0 = core := by
  simp [advance]

theorem jump_next (core : Core) : core.jump (core.registers.pc + 1) = core.advance 1 0 := by
  simp [advance, jump]

/-- Everything that resolving an operand does. -/
theorem resolve_eq (core : Core) (mode : Mode) :
    core.resolve mode =
      (mode.location core.registers (core.memory.read core.registers.pc),
        core.advance mode.nextWords mode.stackShift) := by
  cases mode with
  | indexed r | atNextWord | nextWord =>
    simp [resolve, takeWord, jump, advance, Mode.location, Mode.nextWords, Mode.stackShift,
      Registers.read]
  | pop =>
    simp [resolve, setStackPointer, advance, Mode.location, Mode.nextWords, Mode.stackShift]
  | push =>
    simp [resolve, setStackPointer, advance, Mode.location, Mode.nextWords, Mode.stackShift,
      BitVec.sub_eq_add_neg]
  | _ => exact congrArg (Prod.mk _) (advance_zero core).symm

/-- Resolves operands one after the other. -/
def resolveAll (core : Core) : List Mode → List Location × Core
  | [] => ([], core)
  | mode :: rest =>
    let (location, core) := core.resolve mode
    let (locations, core) := core.resolveAll rest
    (location :: locations, core)

theorem resolveAll_cons (core : Core) (mode : Mode) (rest : List Mode) :
    core.resolveAll (mode :: rest) =
      (mode.location core.registers (core.memory.read core.registers.pc) ::
          ((core.advance mode.nextWords mode.stackShift).resolveAll rest).1,
        ((core.advance mode.nextWords mode.stackShift).resolveAll rest).2) := by
  simp only [resolveAll, resolve_eq]

theorem resolveAll_pair (core : Core) (first second : Mode) :
    core.resolveAll [first, second] =
      ([(core.resolve first).1, ((core.resolve first).2.resolve second).1],
        ((core.resolve first).2.resolve second).2) := rfl

theorem resolveAll_core (core : Core) (modes : List Mode) :
    (core.resolveAll modes).2 =
      core.advance (modes.map Mode.nextWords).sum (modes.map Mode.stackShift).sum := by
  induction modes generalizing core with
  | nil => exact (advance_zero core).symm
  | cons mode rest ih =>
    simp only [resolveAll_cons, ih, advance_advance, List.map_cons, List.sum_cons]

/-- Resolving all operands of an instruction moves the core past it. -/
theorem resolveAll_modes (core : Core) (instruction : Instruction) :
    ((core.jump (core.registers.pc + 1)).resolveAll instruction.modes).2 =
      core.advance instruction.length (instruction.modes.map Mode.stackShift).sum := by
  rw [jump_next, resolveAll_core, advance_advance, instruction.length_eq]
  exact congrArg (core.advance _) (BitVec.zero_add _)

end Core

end WordMachine
