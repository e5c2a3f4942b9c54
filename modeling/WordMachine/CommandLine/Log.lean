/-! Log records and their forms on the console and in a log file. -/
namespace WordMachine.CommandLine

inductive Level
  | debug | info | warning | error
  deriving DecidableEq

def Level.name : Level → String
  | .debug => "DEBUG"
  | .info => "INFO"
  | .warning => "WARNING"
  | .error => "ERROR"

def Level.rank : Level → Nat
  | .debug => 0
  | .info => 1
  | .warning => 2
  | .error => 3

inductive Origin
  | assembler | machine | tool
  deriving DecidableEq

def Origin.name : Origin → String
  | .assembler => "dcpu_asm.assembler"
  | .machine => "dcpu_emulator.emu"
  | .tool => "dcpukit"

structure Record where
  origin : Origin
  level : Level
  text : String
  deriving DecidableEq

namespace Record

def consoleLine (record : Record) : String := record.level.name ++ ": " ++ record.text ++ "\n"

/-- The form of a record in a log file, behind the time. -/
def fileLine (time : String) (record : Record) : String :=
  time ++ " - " ++ record.origin.name ++ " - " ++ record.level.name ++ " - " ++ record.text ++ "\n"

/-- What the console shows of records: those that matter at least as much as a threshold. -/
def console (threshold : Level) (records : List Record) : String :=
  String.join ((records.filter fun record => threshold.rank ≤ record.level.rank).map consoleLine)

end Record

end WordMachine.CommandLine
