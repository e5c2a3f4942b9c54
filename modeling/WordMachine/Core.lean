import WordMachine.Arithmetic
import WordMachine.Location

/-!
# The core

Registers and memory, and what one instruction does to them: its operands are resolved, the first
before the second, and then its effect takes place unless a skip is pending.
-/
namespace WordMachine

/-- The state that instructions act on. -/
structure Core where
  registers : Registers
  memory : Memory

/-- Why an instruction cannot be carried out. -/
inductive Fault
  /-- A word fetched from an address begins no defined instruction. -/
  | illegalOpcode (word address : Word)
  /-- A result was to be stored in a constant. -/
  | illegalWrite (target : Reference)
  deriving DecidableEq

def Fault.message : Fault → String
  | .illegalOpcode word address =>
    "Illegal opcode " ++ Hexadecimal.padded 4 word.value ++ " at $" ++
      Hexadecimal.padded 4 address.value ++ " (extended selector " ++
      Hexadecimal.marked 2 (Instruction.ofWord word).a.toNat ++ ")"
  | .illegalWrite target =>
    "Illegal write target: " ++ target.storage.name ++ " " ++ Hexadecimal.marked 1 target.index

namespace Core

def jump (core : Core) (address : Word) : Core :=
  { core with registers := { core.registers with pc := address } }

def setStackPointer (core : Core) (address : Word) : Core :=
  { core with registers := { core.registers with sp := address } }

def setOverflow (core : Core) (value : Word) : Core :=
  { core with registers := { core.registers with overflow := value } }

def setSkip (core : Core) (pending : Bool) : Core :=
  { core with registers := { core.registers with skip := pending } }

/-- Puts a word on the stack, which grows downward. -/
def push (core : Core) (value : Word) : Core :=
  let top := core.registers.sp - 1
  let core := core.setStackPointer top
  { core with memory := core.memory.write top value }

/-- The word at the program counter, and the core moved past it. -/
def takeWord (core : Core) : Word × Core :=
  let pc := core.registers.pc
  let word := core.memory.read pc
  (word, core.jump (pc + 1))

/-- Where an operand is, and the core after taking the operand's next word or moving the stack. -/
def resolve (core : Core) (mode : Mode) : Location × Core :=
  match mode with
  | .register r => (.register r, core)
  | .atRegister r => (.memory (core.registers.read r), core)
  | .indexed r =>
    let (base, core) := core.takeWord
    (.memory (base + core.registers.read r), core)
  | .pop =>
    let top := core.registers.sp
    (.memory top, core.setStackPointer (top + 1))
  | .peek => (.memory core.registers.sp, core)
  | .push =>
    let top := core.registers.sp - 1
    (.memory top, core.setStackPointer top)
  | .stackPointer => (.stackPointer, core)
  | .programCounter => (.programCounter, core)
  | .overflow => (.overflow, core)
  | .atNextWord =>
    let (address, core) := core.takeWord
    (.memory address, core)
  | .nextWord =>
    let (value, core) := core.takeWord
    (.immediate value, core)
  | .literal n => (.literal n, core)

def read (core : Core) : Location → Word
  | .register r => core.registers.read r
  | .memory address => core.memory.read address
  | .stackPointer => core.registers.sp
  | .programCounter => core.registers.pc
  | .overflow => core.registers.overflow
  | .literal n => BitVec.ofNat 16 n
  | .immediate value => value

/-- Stores a value at a location; a constant stays what it is. -/
def store (core : Core) (location : Location) (value : Word) : Core :=
  match location with
  | .register r => { core with registers := core.registers.write r value }
  | .memory address => { core with memory := core.memory.write address value }
  | .stackPointer => core.setStackPointer value
  | .programCounter => core.jump value
  | .overflow => core.setOverflow value
  | .literal _ | .immediate _ => core

/-- Stores a value at a location, then, unless it is to be left alone, the overflow register. -/
def storeResult (core : Core) (location : Location) (result : Arithmetic.Result) : Core :=
  let core := core.store location (Word.ofInt result.value)
  -- The overflow register comes second, so that it wins when it is the target too.
  match result.overflow? with
  | some overflow => core.setOverflow (Word.ofInt overflow)
  | none => core

/-- The effect of a binary operation on resolved operands. -/
def combine (core : Core) (op : BinaryOp) (target source : Location) : Option Fault × Core :=
  -- Both values are read after both operands are resolved.
  let result := op.result (core.read target).value (core.read source).value
  if target.writable then (none, core.storeResult target result)
  else (some (.illegalWrite target.reference), core)

/-- The effect of a test on resolved operands: a failed test makes a skip pending. -/
def test (core : Core) (condition : Condition) (first second : Location) : Core :=
  if condition.holds (core.read first).value (core.read second).value then core
  else core.setSkip true

/-- Carries out the instruction whose word was fetched at the program counter. A pending skip is
used up once the operands are resolved, and then nothing else happens. -/
def execute (core : Core) (word : Word) : Option Fault × Core :=
  let instruction := Instruction.ofWord word
  let address := core.registers.pc
  let core := core.jump (address + 1)
  match Operation.ofInstruction? instruction with
  -- An undefined word faults even when it was to be skipped: its length is not known.
  | none => (some (.illegalOpcode word address), core)
  | some .jsr =>
    let (location, core) := core.resolve (Mode.ofCode instruction.b)
    -- The target is read before the return address can overwrite it on the stack.
    let target := core.read location
    if core.registers.skip then (none, core.setSkip false)
    else
      let back := core.registers.pc
      (none, (core.push back).jump target)
  | some (.binary op) =>
    let (target, core) := core.resolve (Mode.ofCode instruction.a)
    let (source, core) := core.resolve (Mode.ofCode instruction.b)
    -- A skipped instruction has still taken its next words and moved the stack.
    if core.registers.skip then (none, core.setSkip false) else core.combine op target source
  | some (.conditional condition) =>
    let (first, core) := core.resolve (Mode.ofCode instruction.a)
    let (second, core) := core.resolve (Mode.ofCode instruction.b)
    if core.registers.skip then (none, core.setSkip false)
    else (none, core.test condition first second)

/-! ### References from outside -/

/-- The value at a reference, if it stands for a location. -/
def readReference? (core : Core) (reference : Reference) : Option Word :=
  reference.location?.map core.read

/-- Stores a value at a reference, unless it stands for a constant. -/
def storeReference (core : Core) (reference : Reference) (value : Word) : Except Fault Core :=
  if reference.storage.writable then
    match reference.location? with
    | some location => .ok (core.store location value)
    -- Only constants lack a location, and they are not writable.
    | none => .ok core
  else .error (.illegalWrite reference)

end Core

end WordMachine
