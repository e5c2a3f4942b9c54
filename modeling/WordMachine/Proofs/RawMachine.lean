import WordMachine.Machine.Monitor

/-! The machine over integers: its registers and cells can hold any integer, and it is cut to
sixteen bits only where an operation says so. -/
namespace WordMachine.Raw

/-- The sixteen low bits of an integer. -/
def cut (value : Int) : Int := value % 65536

structure Core where
  general : Register → Int
  pc : Int
  sp : Int
  overflow : Int
  skip : Bool
  cells : Word → Int

namespace Core

/-! ### Registers and memory -/

def jump (core : Core) (address : Int) : Core := { core with pc := cut address }

def setStackPointer (core : Core) (address : Int) : Core := { core with sp := cut address }

def setOverflow (core : Core) (value : Int) : Core := { core with overflow := cut value }

def setSkip (core : Core) (pending : Bool) : Core := { core with skip := pending }

def writeGeneral (core : Core) (r : Register) (value : Int) : Core :=
  { core with general := fun other => if r = other then cut value else core.general other }

/-- Stores an integer as it is. -/
def put (core : Core) (address : Word) (value : Int) : Core :=
  { core with cells := fun other => if address = other then value else core.cells other }

def write (core : Core) (address value : Int) : Core := core.put (Word.ofInt address) (cut value)

/-- The data in a cell, of which the sentinel has none. -/
def readCell (core : Core) (address : Int) : Int := cut (core.cells (Word.ofInt address))

def push (core : Core) (value : Int) : Core :=
  let core := core.setStackPointer (core.sp - 1)
  core.write core.sp value

def reset (core : Core) (stack : Int) : Core :=
  { core with general := fun _ => 0, pc := 0, sp := cut stack, overflow := 0, skip := false }

/-- Stores integers as they are, up to the first that is neither a word nor the sentinel; the
address behind them, if there is no such one. -/
def load (core : Core) (address : Word) : List Int → Core × Option Word
  | [] => (core, some address)
  | value :: rest =>
    if value = Cell.sentinelValue ∨ (0 ≤ value ∧ value < 65536) then
      load (core.put address value) (address + 1) rest
    else (core, none)

/-! ### Operands -/

def takeWord (core : Core) : Int × Core := (core.readCell core.pc, core.jump (core.pc + 1))

/-- Where an operand is. An index taken from a register or from the next word is not cut. -/
def resolve (core : Core) (mode : Mode) : Reference × Core :=
  match mode with
  | .register r => (⟨.register, r.index⟩, core)
  | .atRegister r => (⟨.memory, core.general r⟩, core)
  | .indexed r =>
    let (base, core) := core.takeWord
    (⟨.memory, cut (base + core.general r)⟩, core)
  | .pop =>
    let top := core.sp
    (⟨.memory, top⟩, core.setStackPointer (top + 1))
  | .peek => (⟨.memory, core.sp⟩, core)
  | .push =>
    let core := core.setStackPointer (core.sp - 1)
    (⟨.memory, core.sp⟩, core)
  | .stackPointer => (⟨.stackPointer, 0⟩, core)
  | .programCounter => (⟨.programCounter, 0⟩, core)
  | .overflow => (⟨.overflow, 0⟩, core)
  | .atNextWord =>
    let (address, core) := core.takeWord
    (⟨.memory, address⟩, core)
  | .nextWord =>
    let (value, core) := core.takeWord
    (⟨.immediate, value⟩, core)
  | .literal n => (⟨.literal, n.val⟩, core)

/-- The value at a reference. Of the small constants only those that exist are asked for. -/
def read (core : Core) (reference : Reference) : Int :=
  match reference.storage with
  | .register => core.general (Register.around reference.index)
  | .memory => core.readCell reference.index
  | .stackPointer => core.sp
  | .programCounter => core.pc
  | .overflow => core.overflow
  | .literal => reference.index % 32
  | .immediate => cut reference.index

/-- Stores a value at a reference; a constant stays what it is. -/
def store (core : Core) (reference : Reference) (value : Int) : Core :=
  match reference.storage with
  | .register => core.writeGeneral (Register.around reference.index) value
  | .memory => core.write reference.index value
  | .stackPointer => core.setStackPointer value
  | .programCounter => core.jump value
  | .overflow => core.setOverflow value
  | .literal | .immediate => core

/-! ### Instructions -/

def storeResult (core : Core) (reference : Reference) (result : Arithmetic.Result) : Core :=
  let core := core.store reference result.value
  match result.overflow? with
  | some overflow => core.setOverflow overflow
  | none => core

/-- The effect of a binary operation; whether it faults. -/
def combine (core : Core) (op : BinaryOp) (target source : Reference) : Bool × Core :=
  let result := op.result (core.read target) (core.read source)
  if target.storage.writable then (false, core.storeResult target result) else (true, core)

def test (core : Core) (condition : Condition) (first second : Reference) : Core :=
  if condition.holds (core.read first) (core.read second) then core else core.setSkip true

/-- Carries out an instruction; whether it faults. -/
def execute (core : Core) (word : Int) : Bool × Core :=
  let instruction := Instruction.ofWord (Word.ofInt word)
  let core := core.jump (core.pc + 1)
  match Operation.ofInstruction? instruction with
  | none => (true, core)
  | some .jsr =>
    let (reference, core) := core.resolve (Mode.ofCode instruction.b)
    let target := core.read reference
    if core.skip then (false, core.setSkip false)
    else (false, (core.push core.pc).jump target)
  | some (.binary op) =>
    let (target, core) := core.resolve (Mode.ofCode instruction.a)
    let (source, core) := core.resolve (Mode.ofCode instruction.b)
    if core.skip then (false, core.setSkip false) else core.combine op target source
  | some (.conditional condition) =>
    let (first, core) := core.resolve (Mode.ofCode instruction.a)
    let (second, core) := core.resolve (Mode.ofCode instruction.b)
    if core.skip then (false, core.setSkip false) else (false, core.test condition first second)

end Core

/-- A core of integers with what decides which instructions it carries out. -/
structure Machine where
  core : Core
  /-- The stack pointer at power-on, as it was given. -/
  initialStack : Int
  halted : Bool
  breakpoints : List Int
  resume : Option Int

namespace Machine

def initial (stack : Int) : Machine :=
  ⟨⟨fun _ => 0, 0, cut stack, 0, false, fun _ => 0⟩, stack, false, [], none⟩

/-- Loads a program, with the sentinel behind it unless it fills memory; whether it is refused. -/
def load (machine : Machine) (program : List Int) (base : Int) : Bool × Machine :=
  if Memory.size < program.length then (true, machine)
  else match machine.core.load (Word.ofInt base) program with
    | (core, none) => (true, { machine with core := core })
    | (core, some next) =>
      if program.length < Memory.size then
        (false, { machine with core := core.put next Cell.sentinelValue })
      else (false, { machine with core := core })

/-- A new machine, with a program if one is given and can be loaded. -/
def build (program? : Option (List Int)) (stack : Int) : Option Machine :=
  match program? with
  | none => some (initial stack)
  | some program =>
    match (initial stack).load program 0 with
    | (true, _) => none
    | (false, machine) => some machine

/-- Carries out one instruction; whether there is a reason to stop. -/
def step (machine : Machine) : Bool × Machine :=
  if machine.halted then (true, machine)
  else if machine.core.pc ∈ machine.breakpoints ∧ machine.resume ≠ some machine.core.pc then
    (true, { machine with resume := some machine.core.pc })
  else
    let machine := { machine with resume := none }
    let word := machine.core.cells (Word.ofInt machine.core.pc)
    if word = Cell.sentinelValue then (true, { machine with halted := true })
    else match machine.core.execute word with
      | (true, core) => (true, { machine with core := core, halted := true })
      | (false, core) => (false, { machine with core := core })

def run : Nat → Machine → Machine
  | 0, machine => machine
  | budget + 1, machine =>
    match machine.step with
    | (true, machine) => machine
    | (false, machine) => run budget machine

def mapCore (machine : Machine) (change : Core → Core) : Machine :=
  { machine with core := change machine.core }

/-- What a request leaves; a refused one leaves what was done before it was refused. -/
def perform (machine : Machine) : Monitor.Command → Machine
  | .load program base => (machine.load program base).2
  | .step count | .run count => run count machine
  | .reset =>
    { machine with
      core := machine.core.reset machine.initialStack
      halted := false
      resume := none }
  | .addBreakpoint address =>
    { machine with breakpoints := machine.breakpoints.insert (cut address) }
  | .removeBreakpoint address =>
    { machine with breakpoints := machine.breakpoints.filter (· != cut address) }
  | .setRegister name value =>
    match Monitor.registerNamed name with
    | .ok (.general r) => machine.mapCore (·.writeGeneral r value)
    | .ok .pc => machine.mapCore (·.jump value)
    | .ok .sp => machine.mapCore (·.setStackPointer value)
    | .ok .overflow => machine.mapCore (·.setOverflow value)
    | .error _ => machine
  | .writeGeneral index value => machine.mapCore (·.writeGeneral (Register.around index) value)
  | .setSkip pending => machine.mapCore (·.setSkip pending)
  | .push value => machine.mapCore (·.push value)
  | .resetRegisters stack => machine.mapCore (·.reset stack)
  | .write address value => machine.mapCore (·.write address value)
  | .placeSentinel address => machine.mapCore (·.put (Word.ofInt address) Cell.sentinelValue)
  | .copyWords words base => machine.mapCore fun core => (core.load (Word.ofInt base) words).1
  | .resolve code | .resolveAndRead code =>
    match Monitor.modeOfCode code with
    | .ok mode => machine.mapCore fun core => (core.resolve mode).2
    | .error _ => machine
  | .writeReference reference value =>
    if reference.storage.writable then machine.mapCore (·.store reference value) else machine
  -- The others only look.
  | _ => machine

def performAll (machine : Machine) (commands : List Monitor.Command) : Machine :=
  commands.foldl perform machine

end Machine

end WordMachine.Raw
