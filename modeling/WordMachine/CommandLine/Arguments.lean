import WordMachine.CommandLine.Help
import WordMachine.CommandLine.Switches
import WordMachine.Machine.Basic
import WordMachine.Text.Numeral

/-!
# Arguments

What the arguments of the tool ask for. They are understood from left to right, so that a question
for help is answered before anything wrong behind it is seen.
-/
namespace WordMachine.CommandLine

/-- What to assemble, and where the result goes. An empty name stands for no output file. -/
structure AsmOptions where
  input : List Char
  output : List Char
  listing : Bool
  deriving DecidableEq

/-- What to run, and how. An empty text stands for no stack address and for no dump. Texts that
stand for numbers are read when their turn comes, and a number whose switch was set without a value
is missed only then. -/
structure RunOptions where
  input : List Char
  trace : Bool
  budget? : Option Int
  stack : List Char
  breakpoints : List (Option (List Char))
  dump : List Char
  deriving DecidableEq

/-- What to disassemble, and where the result goes. An empty name stands for no output file. -/
structure DisasmOptions where
  input : List Char
  base? : Option (List Char)
  output : List Char
  deriving DecidableEq

inductive Command
  | asm (options : AsmOptions)
  | run (options : RunOptions)
  | disasm (options : DisasmOptions)
  deriving DecidableEq

/-- What holds for every command. An empty name stands for no log file. -/
structure Settings where
  verbosity : Nat
  quiet : Bool
  logFile : List Char
  deriving DecidableEq

inductive Request
  | show (text : String)
  /-- To show the help, because no command is given. -/
  | noCommand
  | usageError
  | command (settings : Settings) (command : Command)
  deriving DecidableEq

/-! ### Switches of the tool and of its commands -/

inductive ToolKey
  | help | version | verbose | quiet | logFile
  deriving DecidableEq

def toolSwitches : List (Switch ToolKey) :=
  [⟨.help, ["-h", "--help"], false⟩, ⟨.version, ["--version"], false⟩,
    ⟨.verbose, ["--verbose", "-v"], false⟩, ⟨.quiet, ["--quiet", "-q"], false⟩,
    ⟨.logFile, ["--log-file"], true⟩]

inductive AsmKey
  | help | output | listing
  deriving DecidableEq

def asmSwitches : List (Switch AsmKey) :=
  [⟨.help, ["-h", "--help"], false⟩, ⟨.output, ["-o", "--output"], true⟩,
    ⟨.listing, ["--listing"], false⟩]

inductive RunKey
  | help | trace | budget | stack | breakpoint | dump
  deriving DecidableEq

def runSwitches : List (Switch RunKey) :=
  [⟨.help, ["-h", "--help"], false⟩, ⟨.trace, ["--trace"], false⟩,
    ⟨.budget, ["--max-steps"], true⟩, ⟨.stack, ["--sp"], true⟩,
    ⟨.breakpoint, ["--break"], true⟩, ⟨.dump, ["--dump"], true⟩]

inductive DisasmKey
  | help | base | output
  deriving DecidableEq

def disasmSwitches : List (Switch DisasmKey) :=
  [⟨.help, ["-h", "--help"], false⟩, ⟨.base, ["--base"], true⟩,
    ⟨.output, ["-o", "--output"], true⟩]

/-! ### Commands -/

/-- What a switch of a command does: it changes the options, asks for help, or is refused. -/
inductive Effect (α : Type)
  | change (options : α)
  | help
  | refuse

/-- What the arguments of a command come to. -/
inductive CommandArguments (α : Type)
  | given (input : List Char) (options : α)
  | help
  | refused

/-- Understands the arguments of a command, which takes one input. `surplus` says that an argument
had no meaning, which is an error once nothing else is left to see. A double dash right behind the
input belongs to it. -/
def commandArguments {κ α : Type} (effect : κ → Option (List Char) → α → Effect α) (surplus : Bool)
    (input? : Option (List Char)) (options : α) : List (Item κ) → CommandArguments α
  | [] =>
    match input? with
    | some input => if surplus then .refused else .given input options
    | none => .refused
  | .invalid :: _ => .refused
  | .unknown :: rest => commandArguments effect true input? options rest
  | .separator :: rest => commandArguments effect (surplus || input?.isSome) input? options rest
  | .setting key value? :: rest =>
    match effect key value? options with
    | .change options => commandArguments effect surplus input? options rest
    | .help => .help
    | .refuse => .refused
  -- The double dash goes with the input before it and has no other effect.
  | .positional text _ :: .separator :: rest =>
    match input? with
    | some _ => commandArguments effect true input? options rest
    | none => commandArguments effect surplus (some text) options rest
  | .positional text _ :: rest =>
    match input? with
    | some _ => commandArguments effect true input? options rest
    | none => commandArguments effect surplus (some text) options rest

def asmEffect (key : AsmKey) (value? : Option (List Char)) (options : AsmOptions) :
    Effect AsmOptions :=
  match key with
  | .help => .help
  | .output => .change { options with output := value?.getD [] }
  | .listing => .change { options with listing := true }

def runEffect (key : RunKey) (value? : Option (List Char)) (options : RunOptions) :
    Effect RunOptions :=
  match key with
  | .help => .help
  | .trace => .change { options with trace := true }
  | .budget =>
    match value?.map (Numeral.read .decimal) with
    | some (.ok budget) => .change { options with budget? := some budget }
    | some (.error _) => .refuse
    | none => .change { options with budget? := none }
  | .stack => .change { options with stack := value?.getD [] }
  | .breakpoint => .change { options with breakpoints := options.breakpoints ++ [value?] }
  | .dump => .change { options with dump := value?.getD [] }

def disasmEffect (key : DisasmKey) (value? : Option (List Char)) (options : DisasmOptions) :
    Effect DisasmOptions :=
  match key with
  | .help => .help
  | .base => .change { options with base? := value? }
  | .output => .change { options with output := value?.getD [] }

def commandRequest {α : Type} (settings : Settings) (help : String)
    (command : List Char → α → Command) : CommandArguments α → Request
  | .given input options => .command settings (command input options)
  | .help => .show help
  | .refused => .usageError

/-- What a command of a given name asks for, with the arguments after the name. -/
def namedCommand (settings : Settings) (name : List Char) (arguments : List (List Char)) :
    Request :=
  if name = ['a', 's', 'm'] then
    commandRequest settings Help.asm (fun input options => .asm { options with input := input }) <|
      commandArguments asmEffect false none ⟨[], [], false⟩ (Switch.items asmSwitches arguments)
  else if name = ['r', 'u', 'n'] then
    commandRequest settings Help.run (fun input options => .run { options with input := input }) <|
      commandArguments runEffect false none ⟨[], false, some Machine.defaultBudget, [], [], []⟩
        (Switch.items runSwitches arguments)
  else if name = ['d', 'i', 's', 'a', 's', 'm'] then
    commandRequest settings Help.disasm
        (fun input options => .disasm { options with input := input }) <|
      commandArguments disasmEffect false none ⟨[], some ['0'], []⟩
        (Switch.items disasmSwitches arguments)
  else .usageError

/-! ### The tool -/

/-- Understands the arguments of the tool, given the settings so far; `surplus` says that an
argument had no meaning. The first positional argument is the command, which takes all others. -/
def toolArguments (surplus : Bool) (settings : Settings) : List (Item ToolKey) → Request
  | [] => if surplus then .usageError else .noCommand
  | .invalid :: _ => .usageError
  | .separator :: _ => .usageError
  | .unknown :: rest => toolArguments true settings rest
  | .setting key value? :: rest =>
    match key with
    | .help => .show Help.tool
    | .version => .show Help.version
    | .verbose =>
      toolArguments surplus { settings with verbosity := settings.verbosity + 1 } rest
    | .quiet => toolArguments surplus { settings with quiet := true } rest
    | .logFile => toolArguments surplus { settings with logFile := value?.getD [] } rest
  | .positional name arguments :: _ =>
    match namedCommand settings name arguments with
    -- Help asked for behind the command is shown even if something before it had no meaning.
    | .command settings command => if surplus then .usageError else .command settings command
    | request => request

def request (arguments : List (List Char)) : Request :=
  toolArguments false ⟨0, false, []⟩ (Switch.items toolSwitches arguments)

end WordMachine.CommandLine
