import WordMachine.Proofs.CommandLine.Refusals

/-! What flags in front of a command do not interfere with. How much the tool tells, and whether it
keeps a log, has no bearing on how a command ends, what it prints, and which files it leaves, as
long as the log is neither its input nor its output. -/
namespace WordMachine.CommandLine

/-! ### Attempts -/

/-- Two results are the same, or both are errors where that is let pass. -/
inductive Similar {ε α : Type} (lenient : Prop) : Except ε α → Except ε α → Prop
  | same (result : Except ε α) : Similar lenient result result
  | errors (passes : lenient) (one two : ε) : Similar lenient (.error one) (.error two)

theorem Similar.mono {ε α : Type} {strict lenient : Prop} {one two : Except ε α}
    (similar : Similar strict one two) (passes : strict → lenient) : Similar lenient one two := by
  cases similar with
  | same => exact .same one
  | errors holds one two => exact .errors (passes holds) one two

/-- Two results of attempts are the same, or both attempts fail for a fault of a file where that is
let pass. -/
inductive SameButFault {α : Type} (lenient : Prop) :
    Except Failure α → Except Failure α → Prop
  | same (result : Except Failure α) : SameButFault lenient result result
  | faults (passes : lenient) (one two : FileError) :
    SameButFault lenient (.error (.file one)) (.error (.file two))

namespace Attempt

variable {α β : Type} {lenient : Prop}

/-- From every transcript, two attempts leave the same transcript, and come to the same result but
for the faults of files. -/
def Alike (lenient : Prop) (first second : Attempt α) : Prop :=
  ∀ transcript, (first.run.run transcript).2 = (second.run.run transcript).2 ∧
    SameButFault lenient (first.run.run transcript).1 (second.run.run transcript).1

end Attempt

open Attempt

/-! ### Commands -/

/-- The names of the files that a command reads and writes. -/
def Command.names : Command → List (List Char)
  | .asm options => [options.input, options.output]
  | .run options => [options.input]
  | .disasm options => [options.input, options.output]

section Parts

variable {lenient : Prop} {files others : FileTree} {name : List Char}
  (reads : Similar lenient (files.read (Path.ofText name)) (others.read (Path.ofText name)))
include reads

end Parts

namespace FileTree

end FileTree

namespace Tool

/-- What a call logs of a command. -/
def logged (files : FileTree) (settings : Settings) (command : Command) : List Record :=
  match openLog files settings with
  | (_, .error _) => []
  | (opened, .ok _) =>
    Action.records ((command.attempt opened).report settings.verbosity).actions

/-- What the console shows of that. -/
def shown (files : FileTree) (settings : Settings) (command : Command) : List Record :=
  (logged files settings command).filter fun record =>
    (threshold settings).rank ≤ record.level.rank

section Outcomes

variable (time other : String) (files : FileTree) (one two : Settings) (command : Command)

end Outcomes

/-! ### Calls -/

end Tool

end WordMachine.CommandLine
