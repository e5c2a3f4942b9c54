import WordMachine.Machine.Trace

/-!
# The machine

A core with what is needed to run it: whether and why it has stopped, how many instructions it has
carried out, its breakpoints, and a trace.
-/
namespace WordMachine

/-- Why a machine has stopped for good. -/
inductive Stop
  | halt
  | fault (cause : Fault)
  deriving DecidableEq

/-- Why a step or a run came back. -/
inductive Reason
  | halt | illegal | illegalWrite
  /-- The machine is about to run an instruction at a breakpoint. -/
  | breakpoint
  /-- As many instructions as allowed were carried out. -/
  | timeout
  deriving DecidableEq

def Reason.name : Reason → String
  | .halt => "HALT"
  | .illegal => "ILLEGAL"
  | .illegalWrite => "ILLEGAL_WRITE"
  | .breakpoint => "BREAK"
  | .timeout => "TIMEOUT"

def Stop.reason : Stop → Reason
  | .halt => .halt
  | .fault (.illegalOpcode _ _) => .illegal
  | .fault (.illegalWrite _) => .illegalWrite

def Stop.fault? : Stop → Option Fault
  | .halt => none
  | .fault cause => some cause

structure Machine where
  core : Core
  /-- The stack pointer at power-on. -/
  initialStack : Word
  stop : Option Stop
  steps : Nat
  breakpoints : List Word
  /-- The breakpoint that the machine has just stopped at, whose instruction comes next. -/
  resume : Option Word
  tracing : Bool
  trace : Array String

namespace Machine

def initial (stack : Word) : Machine :=
  ⟨⟨Registers.initial stack, Memory.blank⟩, stack, none, 0, [], none, false, #[]⟩

def halted (machine : Machine) : Bool := machine.stop.isSome

def fault? (machine : Machine) : Option Fault := machine.stop.bind Stop.fault?

def mapCore (machine : Machine) (change : Core → Core) : Machine :=
  { machine with core := change machine.core }

/-- Copies a program into memory from an address on, and places the halt sentinel behind it unless
the program fills memory. -/
def load (machine : Machine) (program : List Int) (base : Int) : Option LoadError × Machine :=
  if Memory.size < program.length then (some (.tooLarge program.length), machine)
  else
    -- Memory is taken out of the machine, so that its cells can be filled in place.
    let ⟨core, stack, stop, steps, breakpoints, resume, tracing, trace⟩ := machine
    let ⟨registers, memory⟩ := core
    let loaded := memory.load (Word.ofInt base) program
    let memory :=
      if loaded.error?.isNone ∧ program.length < Memory.size then
        loaded.memory.placeSentinel loaded.next
      else loaded.memory
    (loaded.error?, ⟨⟨registers, memory⟩, stack, stop, steps, breakpoints, resume, tracing, trace⟩)

/-- A machine with a program loaded at address zero. -/
def withProgram (program : List Int) (stack : Word) : Except LoadError Machine :=
  match (initial stack).load program 0 with
  | (some error, _) => .error error
  | (none, machine) => .ok machine

/-- Registers and run state as at power-on. Memory, breakpoints and whether steps are traced
stay. -/
def reset (machine : Machine) : Machine :=
  { machine with
    core := { machine.core with registers := Registers.initial machine.initialStack }
    stop := none
    steps := 0
    resume := none
    trace := #[] }

def addBreakpoint (machine : Machine) (address : Word) : Machine :=
  { machine with breakpoints := machine.breakpoints.insert address }

def removeBreakpoint (machine : Machine) (address : Word) : Machine :=
  { machine with breakpoints := machine.breakpoints.filter (· != address) }

/-- Turns tracing on or off. An empty trace gets its header and the row of the present state. -/
def setTracing (machine : Machine) (on : Bool) : Machine :=
  let trace :=
    if on ∧ machine.trace.isEmpty then #[Trace.header, Trace.row machine.core] else machine.trace
  { machine with tracing := on, trace := trace }

/-- Carries out one instruction; the reason, if the machine stops instead or because of it. The
step after a breakpoint runs the instruction there. -/
def step (machine : Machine) : Option Reason × Machine :=
  -- The parts are taken out of the machine, so that the core can be changed in place.
  let ⟨core, stack, stop, steps, breakpoints, resume, tracing, trace⟩ := machine
  match stop with
  -- A stopped machine gives its reason again.
  | some stop =>
    (some stop.reason, ⟨core, stack, some stop, steps, breakpoints, resume, tracing, trace⟩)
  | none =>
    let pc := core.registers.pc
    -- The breakpoint that the last step stopped at does not count again.
    if pc ∈ breakpoints ∧ resume ≠ some pc then
      (some .breakpoint, ⟨core, stack, none, steps, breakpoints, some pc, tracing, trace⟩)
    else
      match core.memory.fetch pc with
      | .sentinel =>
        (some .halt, ⟨core, stack, some .halt, steps, breakpoints, none, tracing, trace⟩)
      | .word word =>
        match core.execute word with
        | (some fault, core) =>
          let stop := Stop.fault fault
          (some stop.reason, ⟨core, stack, some stop, steps, breakpoints, none, tracing, trace⟩)
        | (none, core) =>
          let trace := if tracing then trace.push (Trace.row core) else trace
          (none, ⟨core, stack, none, steps + 1, breakpoints, none, tracing, trace⟩)

/-- Carries out at most a number of instructions. -/
def run : Nat → Machine → Reason × Machine
  | 0, machine => (.timeout, machine)
  | budget + 1, machine =>
    match machine.step with
    | (some reason, machine) => (reason, machine)
    | (none, machine) => run budget machine

/-- How many instructions a run may carry out when nothing else is said. -/
def defaultBudget : Nat := 1000000

end Machine

end WordMachine
