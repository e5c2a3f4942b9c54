import WordMachine.CommandLine.Command

/-!
# The tool

One call of the tool, from its arguments and the files there are to what it prints and the files
there are afterwards.
-/
namespace WordMachine.CommandLine

inductive Ending
  /-- A command, or the help for want of one, with its exit status. -/
  | status (status : Nat)
  /-- A command was broken off for want of a number. -/
  | brokenOff (number : MissingNumber)
  | shown
  | usageError
  | noLog (error : FileError)
  deriving DecidableEq

def Ending.exitStatus : Ending → Nat
  | .status number => number
  | .shown => 0
  | .usageError => 2
  | .noLog _ | .brokenOff _ => 1

/-- What is said on the console of a call that did not come to the end of a command. -/
def Ending.complaint : Ending → String
  | .status _ | .shown => ""
  | .usageError => Help.page Help.usage
  | .noLog error => error.fault.kind ++ ": " ++ error.message ++ "\n"
  | .brokenOff number => number.kind ++ ": " ++ number.message ++ "\n"

def Ending.ofStatus : Except MissingNumber Nat → Ending
  | .ok number => .status number
  | .error number => .brokenOff number

structure Outcome where
  ending : Ending
  output : String
  errors : String
  files : FileTree

namespace Tool

/-- The least level of records that the console shows. -/
def threshold (settings : Settings) : Level :=
  if settings.quiet then .error else if settings.verbosity = 0 then .info else .debug

/-- Opens the log file, if there is to be one: its directories are made, and the file itself. -/
def openLog (files : FileTree) (settings : Settings) :
    FileTree × Except FileError (Option Key) :=
  if settings.logFile.isEmpty then (files, .ok none)
  else
    let path := Path.ofText settings.logFile
    match files.makeDirectories path.parent with
    | (files, some error) => (files, .error error)
    | (files, none) =>
      -- The way is there by now, so that the direct path leads to the same place. Opening makes the
      -- file when it is not there, and leaves its bytes when it is.
      match files.target path.direct with
      | .ok key => (files.append key [], .ok (some key))
      | .error error => (files, .error error)

/-- What an action does to the files. Records are added to the log file, if there is one; a file
that is opened may be the log itself, which then loses what was added before. -/
def act (time : String) (log? : Option Key) (files : FileTree) : Action → FileTree
  | .logged record =>
    match log? with
    | some key => files.append key (Utf8.encode (record.fileLine time).toList)
    | none => files
  | .opened key => files.write key []
  | .written key bytes => files.append key bytes

/-- What actions leave, one after the other. -/
def settle (time : String) (log? : Option Key) (actions : List Action) (files : FileTree) :
    FileTree :=
  actions.foldl (act time log?) files

/-- Carries out a command. `time` is what log files show as the time. -/
def carryOut (time : String) (files : FileTree) (settings : Settings) (command : Command) :
    Outcome :=
  match openLog files settings with
  | (files, .error error) => ⟨.noLog error, "", "", files⟩
  | (files, .ok log?) =>
    let report := (command.attempt files).report settings.verbosity
    ⟨.ofStatus report.status, report.output,
      Record.console (threshold settings) (Action.records report.actions),
      settle time log? report.actions files⟩

/-- The paths of the files that a call may read, write or make. -/
def paths (arguments : List (List Char)) : List Path :=
  match request arguments with
  | .command settings command =>
    let named := match command with
      | .asm options => [options.input, options.output]
      | .run options => [options.input]
      | .disasm options => [options.input, options.output]
    -- The way to the log file may only be there once its directories are made.
    (Path.ofText settings.logFile).direct :: (settings.logFile :: named).map Path.ofText
  | _ => []

def call (time : String) (files : FileTree) (arguments : List (List Char)) : Outcome :=
  match request arguments with
  | .show text => ⟨.shown, text, "", files⟩
  | .noCommand => ⟨.status 0, Help.tool, "", files⟩
  | .usageError => ⟨.usageError, "", "", files⟩
  | .command settings command => carryOut time files settings command

end Tool

end WordMachine.CommandLine
