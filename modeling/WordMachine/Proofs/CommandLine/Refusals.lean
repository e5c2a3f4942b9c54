import WordMachine.Proofs.CommandLine.Failures
import WordMachine.Proofs.CommandLine.Logs
import WordMachine.Proofs.CommandLine.Requests

/-! What calls leave alone. A call that fails changes no file but the log, since a command opens a
file only when nothing can fail any more, and a run opens none at all. -/
namespace WordMachine.CommandLine

/-! ### Files -/

namespace FileTree

/-- All files, except that of one key, are there before if and only if they are there after, and
have the same bytes. -/
structure Untouched (but? : Option Key) (before after : FileTree) : Prop where
  entries : ∀ key, but? ≠ some key → ∀ bytes,
    after.find? key = some (.file bytes) ↔ before.find? key = some (.file bytes)
  /-- Directories may have been made, but none in the way of a file. -/
  paths : ∀ path key bytes, but? ≠ some key → before.locate path = .ok (.file key bytes) →
    after.locate path = .ok (.file key bytes)

namespace Untouched

variable {but? : Option Key} {before middle after : FileTree}

theorem refl (tree : FileTree) : Untouched but? tree tree :=
  ⟨fun _ _ _ => .rfl, fun _ _ _ _ leads => leads⟩

theorem trans (first : Untouched but? before middle) (second : Untouched but? middle after) :
    Untouched but? before after where
  entries key apart bytes := (second.entries key apart bytes).trans (first.entries key apart bytes)
  paths path key bytes apart leads :=
    second.paths path key bytes apart (first.paths path key bytes apart leads)

theorem put_directory (tree : FileTree) (made : Key) (fresh : tree.find? made = none) :
    Untouched but? tree (tree.put made .directory) where
  entries key _ bytes := by
    rw [find?_put]
    split
    next same =>
      rw [same, fresh]
      exact iff_of_false nofun nofun
    · rfl
  paths path key bytes _ leads := tree.locate_put_directory made fresh path _ leads nofun

theorem write (tree : FileTree) (written : Key) (bytes : List UInt8)
    (noDirectory : tree.find? written ≠ some .directory) :
    Untouched (some written) tree (tree.write written bytes) where
  entries key apart old := by
    rw [find?_write, if_neg]
    rintro rfl
    exact apart rfl
  paths path key old apart leads := by
    have after := tree.locate_write written bytes noDirectory path _ leads
    rw [Place.written, if_neg] at after
    · exact after
    · rintro rfl
      exact apart rfl

theorem read (untouched : Untouched but? before after) (path : Path) (bytes : List UInt8)
    (reads : before.read path = .ok bytes)
    (apart : ∀ key, before.target path = .ok key → but? ≠ some key) :
    after.read path = .ok bytes := by
  obtain ⟨key, leads⟩ := before.read_cases path bytes reads
  have other := apart key (by rw [target, leads])
  rw [FileTree.read, untouched.paths path key bytes other leads]

end Untouched

end FileTree

/-! ### Commands -/

theorem Failure.exitStatus (failure : Failure) :
    (Ending.ofStatus failure.status).exitStatus = 1 := by
  cases failure <;> rfl

/-- What an assembly or a disassembly cannot do without is not there: a source that can be read,
decoded and assembled, or whole words and a text that spells the address of the first. -/
def Command.Unworkable (files : FileTree) : Command → Prop
  | .asm options => ∀ program bytes text, ¬Sourced files options.input program bytes text
  | .run _ => False
  | .disasm options =>
    (∀ bytes, files.read (Path.ofText options.input) = .ok bytes → bytes.length % 2 ≠ 0) ∨
      ∀ address, ¬SpellsAddress options.base? address

/-- The output file of a command. An empty name stands for none. -/
def Command.output : Command → List Char
  | .asm options => options.output
  | .run _ => []
  | .disasm options => options.output

namespace Tool

open FileTree (Untouched)

/-! ### Logs -/

/-- The log file of a call, if it has one and that can be opened. -/
def logKey? (files : FileTree) (settings : Settings) : Option Key :=
  match (openLog files settings).2 with
  | .ok log? => log?
  | .error _ => none

theorem untouched_openLog (files : FileTree) (settings : Settings) :
    Untouched (logKey? files settings) files (openLog files settings).1 := by
  refine openLog_keeps files settings (Untouched (logKey? files settings) files)
    (fun tree made fresh holds => holds.trans (.put_directory tree made fresh))
    (fun tree log noDirectory opens holds => holds.trans ?_) (.refl files)
  rw [logKey?, opens]
  exact .write tree log _ noDirectory

theorem untouched_settle (time : String) (log? : Option Key) (actions : List Action)
    (files : FileTree) (isFile : LogIsFile log? files) (unchanged : Action.changes actions = []) :
    Untouched log? files (settle time log? actions files) := by
  have kept : Untouched log? files (settle time log? actions files) ∧
      LogIsFile log? (settle time log? actions files) := by
    refine settle_keeps time log? (fun tree => Untouched log? files tree ∧ LogIsFile log? tree)
      actions ?_ files ⟨.refl files, isFile⟩
    rintro tree key bytes ⟨action, member, own⟩ ⟨untouched, logged⟩
    -- Everything is logged, so that the file can only be the log.
    obtain ⟨record, rfl⟩ := Action.exists_record_of_changes actions unchanged action member
    obtain rfl : log? = some key := own
    exact ⟨untouched.trans (.write tree key bytes (logged key rfl)),
      logIsFile_write _ tree key bytes logged⟩
  exact kept.1

/-! ### Endings -/

/-- How a command ends, given how it comes to its end and for what causes it fails. -/
theorem carryOut_cases {good : Nat → Prop} {bad : Failure → Prop} (time : String)
    (files : FileTree) (settings : Settings) (command : Command)
    (yields : (command.attempt (openLog files settings).1).Yields good bad) :
    let outcome := carryOut time files settings command
    (∃ error, (openLog files settings).2 = .error error ∧ outcome.ending = .noLog error) ∨
    (∃ status, good status ∧ outcome.ending = .status status) ∨
    ∃ failure, bad failure ∧ outcome.ending = .ofStatus failure.status := by
  intro outcome
  have reported := Attempt.report_of_yields yields settings.verbosity
  simp only [outcome, carryOut]
  revert reported
  rcases openLog files settings with ⟨tree, error | log?⟩ <;> intro reported
  · exact .inl ⟨error, rfl, rfl⟩
  · rcases reported with ⟨number, holds, status⟩ | ⟨failure, holds, status⟩
    · exact .inr (.inl ⟨number, holds, congrArg Ending.ofStatus status⟩)
    · exact .inr (.inr ⟨failure, holds, congrArg Ending.ofStatus status⟩)

/-- A command that fails changes no file but the log, and neither does a run. -/
theorem untouched_carryOut (time : String) (files : FileTree) (settings : Settings)
    (command : Command)
    (spares : (carryOut time files settings command).ending.exitStatus ≠ 0 ∨
      ∃ options, command = .run options) :
    Untouched (logKey? files settings) files (carryOut time files settings command).files := by
  have opening := untouched_openLog files settings
  unfold carryOut at spares ⊢
  unfold logKey? at opening ⊢
  cases opened : openLog files settings with
  | mk tree result =>
    rw [opened] at opening spares
    cases result with
    | error error => exact opening
    | ok log? =>
      have isFile := logIsFile_of_openLog files tree settings log? opened
      have unchanged := command.changes_report tree settings.verbosity (spares.imp_left ?_)
      · exact opening.trans (untouched_settle time log? _ tree isFile unchanged)
      · intro fails done
        exact fails (congrArg (fun status => (Ending.ofStatus status).exitStatus) done)

/-- Without what it needs, a command fails. -/
theorem exitStatus_of_unworkable (time : String) (files : FileTree) (settings : Settings)
    (command : Command) (unworkable : command.Unworkable (openLog files settings).1) :
    (carryOut time files settings command).ending.exitStatus = 1 := by
  have yields : (command.attempt (openLog files settings).1).Yields (fun _ => False)
      fun _ => True := by
    cases command with
    | asm options =>
      refine Attempt.yields_mono (options.yields_attempt _) ?_ fun _ _ => trivial
      rintro _ ⟨program, bytes, text, sourced⟩
      exact unworkable program bytes text sourced
    | run options => exact unworkable.elim
    | disasm options =>
      refine Attempt.yields_mono (options.yields_attempt _) ?_ fun _ _ => trivial
      rintro _ ⟨⟨bytes, reads, whole⟩, address, spells⟩
      rcases unworkable with odd | unspelled
      · exact odd bytes reads whole
      · exact unspelled address spells
  rcases carryOut_cases time files settings command yields with
    ⟨error, -, ending⟩ | ⟨_, ⟨⟩, -⟩ | ⟨failure, -, ending⟩
  · rw [ending]
    rfl
  · rw [ending]
    exact failure.exitStatus

/-! ### Calls -/

/-- A call that asks for no command leaves all files alone. One that fails changes no file but the
log, and neither does a run, however it ends. Once the log is open, an assembly of a source that
cannot be read, decoded or assembled fails, and so does a disassembly of a file of odd length or
with a base that is not spelled; a file that is there in the place of the output keeps its bytes,
unless it is the log. -/
theorem call_spares (time : String) (files : FileTree) (arguments : List (List Char)) :
    let outcome := call time files arguments
    ((request arguments).Aside → outcome.files = files) ∧
    ∀ settings command, request arguments = .command settings command →
      (outcome.ending.exitStatus ≠ 0 ∨ (∃ options, command = .run options) →
        Untouched (logKey? files settings) files outcome.files) ∧
      (command.Unworkable (openLog files settings).1 →
        outcome.ending.exitStatus = 1 ∧
        ∀ bytes, files.read (Path.ofText command.output) = .ok bytes →
          (∀ key, files.target (Path.ofText command.output) = .ok key →
            logKey? files settings ≠ some key) →
          outcome.files.read (Path.ofText command.output) = .ok bytes) := by
  intro outcome
  constructor
  · intro aside
    simp only [outcome, call]
    cases asked : request arguments with
    | command settings command => exact absurd asked (aside settings command)
    | _ => rfl
  · intro settings command asked
    have called : outcome = carryOut time files settings command :=
      call_of_command time files arguments settings command asked
    rw [called]
    have spares := untouched_carryOut time files settings command
    refine ⟨spares, fun unworkable => ?_⟩
    have fails := exitStatus_of_unworkable time files settings command unworkable
    refine ⟨fails, fun bytes reads apart => ?_⟩
    exact (spares (.inl (by rw [fails]; decide))).read _ bytes reads apart

/-- A disassembly of one byte into a file that is there, with a log in a directory that is made. -/
theorem call_spares_output :
    let files := FileTree.ofFiles [("b.bin".toList, [1]), ("a.dasm".toList, [2])]
    let outcome := call "" files ["--log-file".toList, "log/x".toList, "disasm".toList,
      "b.bin".toList, "-o".toList, "a.dasm".toList]
    outcome.ending.exitStatus = 1 ∧ outcome.files.read (Path.ofText "a.dasm".toList) = .ok [2] := by
  intro files outcome
  have log : logKey? files ⟨0, false, "log/x".toList⟩ = some ["log".toList, "x".toList] := by
    decide +kernel
  have input : (openLog files ⟨0, false, "log/x".toList⟩).1.read (Path.ofText "b.bin".toList) =
      .ok [1] := by decide +kernel
  have output : files.target (Path.ofText "a.dasm".toList) = .ok ["a.dasm".toList] := by
    decide +kernel
  obtain ⟨-, spares⟩ := call_spares "" files ["--log-file".toList, "log/x".toList,
    "disasm".toList, "b.bin".toList, "-o".toList, "a.dasm".toList]
  obtain ⟨-, fails⟩ := spares ⟨0, false, "log/x".toList⟩
    (.disasm ⟨"b.bin".toList, some ['0'], "a.dasm".toList⟩) (by decide +kernel)
  have odd : Command.Unworkable (openLog files ⟨0, false, "log/x".toList⟩).1
      (.disasm ⟨"b.bin".toList, some ['0'], "a.dasm".toList⟩) := by
    refine .inl fun bytes reads => ?_
    cases input.symm.trans reads
    decide
  obtain ⟨exits, kept⟩ := fails odd
  refine ⟨exits, kept [2] (by decide +kernel) fun key opens => ?_⟩
  cases output.symm.trans opens
  rw [log]
  decide

end Tool

end WordMachine.CommandLine
