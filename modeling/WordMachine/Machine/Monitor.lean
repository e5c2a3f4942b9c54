import WordMachine.Disassembly
import WordMachine.Machine.Basic
import WordMachine.Text.UpperCase

/-!
# The monitor

What someone at the machine can ask of it, and the answers. Numbers are taken as they come: values
are cut to sixteen bits, and addresses wrap.
-/
namespace WordMachine.Monitor

inductive Command
  | load (program : List Int) (base : Int)
  | step (count : Nat)
  | run (budget : Nat)
  | reset
  | addBreakpoint (address : Int)
  | removeBreakpoint (address : Int)
  | setTracing (on : Bool)
  | trace
  | display
  | getRegister (name : List Char)
  | setRegister (name : List Char) (value : Int)
  | readGeneral (index : Int)
  | writeGeneral (index value : Int)
  | setSkip (pending : Bool)
  | push (value : Int)
  | resetRegisters (stack : Int)
  | read (address : Int)
  | fetch (address : Int)
  | write (address value : Int)
  | placeSentinel (address : Int)
  | copyWords (words : List Int) (base : Int)
  | dump (start length : Int)
  | memorySize
  | disassemble (start : Int) (length : Nat)
  | resolve (code : Int)
  | resolveAndRead (code : Int)
  | readReference (reference : Reference)
  | writeReference (reference : Reference) (value : Int)

inductive Error
  | load (error : LoadError)
  | unknownRegister (name : List Char)
  | operandCode (code : Int)
  | write (fault : Fault)
  /-- No small constant has the index of the reference. -/
  | noConstant

/-- The wording of an error, where it has one. -/
def Error.message? : Error → Option String
  | .load error => some error.message
  | .unknownRegister name => some ("Unknown register: " ++ String.ofList name)
  | .operandCode code => some ("Operand code out of range: " ++ Hexadecimal.marked 1 code)
  | .write fault => some fault.message
  | .noConstant => none

inductive Reply
  | done
  | number (value : Int)
  | text (text : String)
  | lines (lines : List String)
  | stopped (reason : Reason)
  /-- For each step its reason to stop, if it had one, and the registers after it. -/
  | steps (steps : List (Option Reason × String))
  | location (location : Location)
  | refused (error : Error)

/-- The register that a name stands for, in any letter case. -/
def registerNamed (name : List Char) : Except Error RegisterName :=
  let name := Text.upper name
  match RegisterName.ofName? name with
  | some register => .ok register
  | none => .error (.unknownRegister name)

def modeOfCode (code : Int) : Except Error Mode :=
  if 0 ≤ code ∧ code < 0x40 then .ok (Mode.ofCode (BitVec.ofInt 6 code))
  else .error (.operandCode code)

/-- Steps up to a number of times, no further than the first step with a reason to stop. -/
def stepUpTo : Nat → Machine → List (Option Reason × String) × Machine
  | 0, machine => ([], machine)
  | count + 1, machine =>
    match machine.step with
    | (some reason, machine) => ([(some reason, machine.core.registers.display)], machine)
    | (none, machine) =>
      let display := machine.core.registers.display
      let (steps, machine) := stepUpTo count machine
      ((none, display) :: steps, machine)

/-- Resolves an operand and answers from its location and the core then. -/
def resolving (machine : Machine) (code : Int) (answer : Location → Core → Reply) :
    Reply × Machine :=
  match modeOfCode code with
  | .error error => (.refused error, machine)
  | .ok mode =>
    let (location, core) := machine.core.resolve mode
    (answer location core, { machine with core := core })

/-- Copies words into memory from an address on, without a sentinel behind them. -/
def copyWords (machine : Machine) (words : List Int) (base : Int) : Reply × Machine :=
  -- Memory is taken out of the machine, so that its cells can be filled in place.
  let ⟨core, stack, stop, steps, breakpoints, resume, tracing, trace⟩ := machine
  let ⟨registers, memory⟩ := core
  let loaded := memory.load (Word.ofInt base) words
  let reply := match loaded.error? with
    | some error => .refused (.load error)
    | none => .number loaded.next.value
  (reply, ⟨⟨registers, loaded.memory⟩, stack, stop, steps, breakpoints, resume, tracing, trace⟩)

def perform (machine : Machine) : Command → Reply × Machine
  | .load program base =>
    match machine.load program base with
    | (some error, machine) => (.refused (.load error), machine)
    | (none, machine) => (.done, machine)
  | .step count =>
    let (steps, machine) := stepUpTo count machine
    (.steps steps, machine)
  | .run budget =>
    let (reason, machine) := Machine.run budget machine
    (.stopped reason, machine)
  | .reset => (.done, machine.reset)
  | .addBreakpoint address => (.done, machine.addBreakpoint (Word.ofInt address))
  | .removeBreakpoint address => (.done, machine.removeBreakpoint (Word.ofInt address))
  | .setTracing on => (.done, machine.setTracing on)
  | .trace => (.lines machine.trace.toList, machine)
  | .display => (.text machine.core.registers.display, machine)
  | .getRegister name =>
    match registerNamed name with
    | .ok register => (.number (machine.core.registers.get register).value, machine)
    | .error error => (.refused error, machine)
  | .setRegister name value =>
    match registerNamed name with
    | .ok register =>
      (.done, machine.mapCore fun core =>
        { core with registers := core.registers.set register (Word.ofInt value) })
    | .error error => (.refused error, machine)
  | .readGeneral index =>
    (.number (machine.core.registers.read (Register.around index)).value, machine)
  | .writeGeneral index value =>
    (.done, machine.mapCore (·.store (.register (Register.around index)) (Word.ofInt value)))
  | .setSkip pending => (.done, machine.mapCore (·.setSkip pending))
  | .push value => (.done, machine.mapCore (·.push (Word.ofInt value)))
  | .resetRegisters stack =>
    (.done, machine.mapCore fun core =>
      { core with registers := Registers.initial (Word.ofInt stack) })
  | .read address => (.number (machine.core.memory.read (Word.ofInt address)).value, machine)
  | .fetch address => (.number (machine.core.memory.fetch (Word.ofInt address)).raw, machine)
  | .write address value =>
    (.done, machine.mapCore (·.store (.memory (Word.ofInt address)) (Word.ofInt value)))
  | .placeSentinel address =>
    (.done, machine.mapCore fun core =>
      { core with memory := core.memory.placeSentinel (Word.ofInt address) })
  | .copyWords words base => copyWords machine words base
  | .dump start length =>
    (.text (machine.core.memory.dump (Word.ofInt start) length.toNat), machine)
  | .memorySize => (.number Memory.size, machine)
  | .disassemble start length =>
    (.lines (WordMachine.disassemble (machine.core.memory.raws (Word.ofInt start) length) start),
      machine)
  | .resolve code => resolving machine code fun location _ => .location location
  | .resolveAndRead code =>
    resolving machine code fun location core => .number (core.read location).value
  | .readReference reference =>
    match machine.core.readReference? reference with
    | some value => (.number value.value, machine)
    | none => (.refused .noConstant, machine)
  | .writeReference reference value =>
    match machine.core.storeReference reference (Word.ofInt value) with
    | .ok core => (.done, { machine with core := core })
    | .error fault => (.refused (.write fault), machine)

end WordMachine.Monitor
