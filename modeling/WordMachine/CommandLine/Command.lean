import WordMachine.Assembly.Session
import WordMachine.CommandLine.Arguments
import WordMachine.CommandLine.FileTree
import WordMachine.CommandLine.Log
import WordMachine.Disassembly

/-!
# Commands

What the commands do with the files they are given. A command reads, computes and prints; what it
does to the log and to files is kept as actions, one after the other, and stays when it fails. Most
failures are logged and end the command; a number that its switch has left out breaks it off.
-/
namespace WordMachine.CommandLine

/-- A number that a command needs and whose switch was set without a value. -/
inductive MissingNumber
  | address
  | budget
  deriving DecidableEq

namespace MissingNumber

def message : MissingNumber → String
  | .address => "'list' object has no attribute 'strip'"
  | .budget => "'<' not supported between instances of 'int' and 'list'"

def kind : MissingNumber → String
  | .address => "AttributeError"
  | .budget => "TypeError"

end MissingNumber

inductive Failure
  | file (error : FileError)
  | encoding (defect : Utf8.Defect)
  | assembly (error : Assembly.Error)
  | binary (error : Binary.OddLength)
  | load (error : LoadError)
  | numeral (error : Numeral.Error)
  | missing (number : MissingNumber)

namespace Failure

def message : Failure → String
  | .file error => error.message
  | .encoding defect => defect.message
  | .assembly error => error.message
  | .binary error => error.message
  | .load error => error.message
  | .numeral error => error.message
  | .missing number => number.message

def kind : Failure → String
  | .file error => error.fault.kind
  | .encoding _ => "UnicodeDecodeError"
  | .assembly _ => "CompileError"
  | .binary _ | .load _ | .numeral _ => "ValueError"
  | .missing number => number.kind

/-- What is logged of a failure. At a high verbosity it is told twice, except for errors in a
source text. Of a missing number nothing is logged. -/
def records (verbosity : Nat) (failure : Failure) : List Record :=
  match failure with
  | .assembly _ => [⟨.tool, .error, "Assembly error: " ++ failure.message⟩]
  | .missing _ => []
  | _ =>
    ⟨.tool, .error, "Error: " ++ failure.message⟩ ::
      if 1 < verbosity then
        [⟨.tool, .error, "Traceback\nTraceback (most recent call last):\n" ++ failure.kind ++
          ": " ++ failure.message⟩]
      else []

/-- The exit status of a command that fails, unless it is broken off. -/
def status : Failure → Except MissingNumber Nat
  | .missing number => .error number
  | _ => .ok 1

end Failure

inductive Action
  | logged (record : Record)
  /-- A file is opened for writing, which makes it or leaves it empty. -/
  | opened (key : Key)
  /-- Bytes are added to a file that has been opened. -/
  | written (key : Key) (bytes : List UInt8)

namespace Action

def record? : Action → Option Record
  | .logged record => some record
  | .opened _ | .written _ _ => none

/-- What is logged among other actions. -/
def records (actions : List Action) : List Record := actions.filterMap record?

end Action

/-- What a command has printed and done so far. -/
structure Transcript where
  output : String
  actions : List Action

/-- Part of a command: it may fail, and what it has printed and done stays. -/
abbrev Attempt := ExceptT Failure (StateM Transcript)

structure Report where
  /-- The exit status, or the number for want of which the command was broken off. -/
  status : Except MissingNumber Nat
  output : String
  actions : List Action

namespace Attempt

def print (text : String) : Attempt Unit :=
  modify fun transcript => { transcript with output := transcript.output ++ text ++ "\n" }

def perform (action : Action) : Attempt Unit :=
  modify fun transcript => { transcript with actions := transcript.actions ++ [action] }

def log (origin : Origin) (level : Level) (text : String) : Attempt Unit :=
  perform (.logged ⟨origin, level, text⟩)

/-- A result, or a failure of a given kind. -/
def orFail {ε α : Type} (failure : ε → Failure) : Except ε α → Attempt α
  | .ok value => pure value
  | .error error => throw (failure error)

/-- All that a command does, given how much it is to tell of a failure. -/
def report (verbosity : Nat) (attempt : Attempt Nat) : Report :=
  match attempt.run.run ⟨"", []⟩ with
  | (.ok status, transcript) => ⟨.ok status, transcript.output, transcript.actions⟩
  | (.error failure, transcript) =>
    ⟨failure.status, transcript.output,
      transcript.actions ++ (failure.records verbosity).map .logged⟩

end Attempt

open Attempt

/-! ### Parts of commands -/

/-- The integer that a hexadecimal numeral spells, with a dollar sign in front or without. -/
def readHexadecimal (text : List Char) : Except Numeral.Error Int :=
  match Text.trim text with
  | '$' :: digits => Numeral.read .hexadecimal digits
  | digits => Numeral.read .hexadecimal digits

/-- The address that a text spells in hexadecimal digits; there must be a text. -/
def readAddress : Option (List Char) → Attempt Int
  | some text => orFail .numeral (readHexadecimal text)
  | none => throw (.missing .address)

def readBytes (files : FileTree) (name : List Char) : Attempt (List UInt8) :=
  orFail .file (files.read (Path.ofText name))

def readWords (files : FileTree) (name : List Char) : Attempt (List Word) := do
  orFail .binary (Binary.decode (← readBytes files name))

/-- Logs the first pass over a source if it gets through. -/
def logScan (source : List Char) : Attempt Unit :=
  match Assembly.parse source with
  | .ok lines =>
    let scanned := Assembly.scan lines
    if scanned.error?.isNone then
      log .assembler .debug ("Pass 1: " ++ Decimal.written scanned.labels.length ++ " labels, " ++
        Decimal.written scanned.size ++ " words")
    else pure ()
  | .error _ => pure ()

/-- Assembles a source file and logs what the passes have found. -/
def assembleFile (files : FileTree) (name : List Char) :
    Attempt (Program × Assembly.Session) := do
  let source ← orFail .encoding (Assembly.readSource (← readBytes files name))
  let (result, session) := Assembly.Session.initial.assemble source
  -- The first pass is logged whatever the second finds.
  logScan source
  let program ← orFail .assembly result
  log .assembler .debug ("Pass 2: emitted " ++ Decimal.written program.words.length ++ " words")
  return (program, session)

def binaryExtension : List Char := ['.', 'b', 'i', 'n']

def listingExtension : List Char := ['.', 'l', 's', 't']

/-- The words of a program file: a binary file by its extension, or else a source file. -/
def loadWords (files : FileTree) (name : List Char) : Attempt (List Word) := do
  if Path.hasExtension name binaryExtension then readWords files name
  else
    let (program, _) ← assembleFile files name
    return program.words

/-- Opens a file for writing. Its path leads where it led when the command began, because nothing
but the log has been written since then. -/
def openFile (files : FileTree) (name : List Char) : Attempt Key := do
  let key ← orFail .file (files.target (Path.ofText name))
  perform (.opened key)
  return key

/-- Writes a file and says so. -/
def deliver (files : FileTree) (name : List Char) (bytes : List UInt8) (done : String) :
    Attempt Unit := do
  let key ← openFile files name
  perform (.written key bytes)
  log .tool .info (done ++ " -> " ++ String.ofList name)

/-! ### The commands -/

/-- Assembles a source file. Without an output file, or when asked for, the listing is printed;
an output file gets the listing if its extension says so, and else the binary form. -/
def AsmOptions.attempt (files : FileTree) (options : AsmOptions) : Attempt Nat := do
  let (program, session) ← assembleFile files options.input
  -- A listing that is asked for goes to the console, and then no file is written.
  if options.listing ∨ options.output.isEmpty then
    print session.listing
    return 0
  else
    let bytes :=
      if Path.hasExtension options.output listingExtension then
        Utf8.encode (session.listing ++ "\n").toList
      else Binary.encode program.words
    deliver files options.output bytes
      ("Assembled " ++ Decimal.written program.words.length ++ " words")
    return 0

/-- What is logged of a run that came back for a reason. -/
def runRecord (reason : Reason) (budget : Int) (machine : Machine) : Record :=
  let address := "$" ++ Hexadecimal.padded 4 machine.core.registers.pc.value
  match reason, machine.fault? with
  | .breakpoint, _ => ⟨.machine, .info, "Breakpoint at " ++ address⟩
  | .timeout, _ =>
    ⟨.machine, .debug, "Step limit " ++ Decimal.written budget ++ " reached at " ++ address⟩
  | _, some fault => ⟨.machine, .warning, "Machine fault: " ++ fault.message⟩
  | _, none =>
    ⟨.machine, .debug, "Halt sentinel at " ++ address ++ " after " ++
      Decimal.written machine.steps ++ " steps"⟩

/-- What is said of a run in the end, and the exit status. -/
def verdict (reason : Reason) (machine : Machine) : Nat × Record :=
  let steps := " after " ++ Decimal.written machine.steps ++ " steps"
  let stopped := "Stopped (" ++ reason.name ++ ")"
  match reason, machine.fault? with
  | .halt, _ => (0, ⟨.tool, .info, "Halted" ++ steps⟩)
  | _, some fault => (1, ⟨.tool, .error, stopped ++ ": " ++ fault.message⟩)
  | _, none =>
    (1, ⟨.tool, .error, stopped ++ " at $" ++
      Hexadecimal.padded 4 machine.core.registers.pc.value ++ steps⟩)

/-- Prints memory as a text asks: a start, and behind a colon a length. -/
def printDump (machine : Machine) (dump : List Char) : Attempt Unit := do
  let start ← orFail .numeral (readHexadecimal (dump.takeWhile (· != ':')))
  let spelled := (dump.dropWhile (· != ':')).drop 1
  -- Without a length, or with an empty one, sixteen words are shown.
  let length ← orFail .numeral
    (Numeral.read .marked (if spelled.isEmpty then ['1', '6'] else spelled))
  print (machine.core.memory.dump (Word.ofInt start) length.toNat)

/-- The address at which the stack begins, which is zero without a text for it. -/
def readStack (text : List Char) : Attempt Int :=
  if text.isEmpty then pure 0 else orFail .numeral (readHexadecimal text)

/-- Prints the trace and a dump, each if it is asked for, and the registers in between. -/
def RunOptions.printMachine (options : RunOptions) (machine : Machine) : Attempt Unit := do
  if options.trace then print (String.intercalate "\n" machine.trace.toList)
  print machine.core.registers.display
  if !options.dump.isEmpty then printDump machine options.dump

/-- Runs a program as it is asked to and prints what there is to show of the run. -/
def RunOptions.execute (options : RunOptions) (words : List Word) : Attempt (Reason × Machine) := do
  let stack ← readStack options.stack
  let machine ← orFail .load
    (Machine.withProgram (words.map Word.value) (Word.ofInt stack))
  log .machine .debug ("Loaded " ++ Decimal.written words.length ++ " words at $0000")
  -- Breakpoints are read once the program is in memory, and the dump only after the run.
  let breakpoints ← options.breakpoints.mapM readAddress
  let machine := breakpoints.foldl
    (fun machine address => machine.addBreakpoint (Word.ofInt address)) machine
  let machine := if options.trace then machine.setTracing true else machine
  -- The budget is missed only where the run begins.
  let budget ← orFail .missing (options.budget?.elim (.error .budget) .ok)
  let (reason, machine) := Machine.run budget.toNat machine
  let record := runRecord reason budget machine
  log record.origin record.level record.text
  -- The machine is shown however the run ended.
  options.printMachine machine
  return (reason, machine)

def RunOptions.attempt (files : FileTree) (options : RunOptions) : Attempt Nat := do
  let (reason, machine) ← options.execute (← loadWords files options.input)
  let (status, record) := verdict reason machine
  log record.origin record.level record.text
  return status

def DisasmOptions.attempt (files : FileTree) (options : DisasmOptions) : Attempt Nat := do
  let words ← readWords files options.input
  let base ← readAddress options.base?
  let text := String.intercalate "\n" (disassemble (words.map Word.value) base)
  if options.output.isEmpty then
    print text
    return 0
  else
    deliver files options.output (Utf8.encode (text ++ "\n").toList)
      ("Disassembled " ++ Decimal.written words.length ++ " words")
    return 0

def Command.attempt (files : FileTree) : Command → Attempt Nat
  | .asm options => options.attempt files
  | .run options => options.attempt files
  | .disasm options => options.attempt files

end WordMachine.CommandLine
