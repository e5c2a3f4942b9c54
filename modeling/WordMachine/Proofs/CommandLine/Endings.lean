import WordMachine.Proofs.CommandLine.Failures

/-! How calls of the tool end. Every failure is reported on the console, and the call then ends with
status one; only a log file that cannot be opened, and a number that is missing where it is needed,
get past that and end the call without a report. -/
namespace WordMachine.CommandLine

/-! ### The console -/

/-- The console shows a text as an error, on a line of its own. -/
def Told (errors text : String) : Prop :=
  ∃ before after, errors = before ++ ("ERROR: " ++ text ++ "\n") ++ after ∧
    (before = "" ∨ ∃ lines, before = lines ++ "\n")

namespace Record

theorem console_append (threshold : Level) (front back : List Record) :
    console threshold (front ++ back) = console threshold front ++ console threshold back := by
  rw [console, List.filter_append, List.map_append, String.join_append]
  rfl

theorem console_ends (threshold : Level) (records : List Record) :
    console threshold records = "" ∨ ∃ lines, console threshold records = lines ++ "\n" := by
  unfold console
  rcases List.eq_nil_or_concat (records.filter fun record => threshold.rank ≤ record.level.rank)
    with none | ⟨front, last, whole⟩
  · rw [none]
    exact .inl rfl
  · rw [whole, List.concat_eq_append, List.map_append, String.join_append]
    refine .inr ⟨String.join (front.map consoleLine) ++ (last.level.name ++ ": " ++ last.text), ?_⟩
    rw [List.map_singleton, String.join_cons, consoleLine]
    simp [String.append_assoc]

/-- Errors are shown whatever the threshold. -/
theorem told_of_mem (threshold : Level) (records : List Record) (record : Record)
    (member : record ∈ records) (error : record.level = .error) :
    Told (console threshold records) record.text := by
  obtain ⟨front, back, rfl⟩ := List.append_of_mem member
  refine ⟨console threshold front, console threshold back, ?_, console_ends threshold front⟩
  have shown : threshold.rank ≤ record.level.rank := by
    rw [error]
    cases threshold <;> decide
  have one : console threshold [record] = "ERROR: " ++ record.text ++ "\n" := by
    rw [console, List.filter_eq_self.mpr (by simpa using shown)]
    simp [consoleLine, error, Level.name]
  rw [console_append, ← List.singleton_append, console_append, one]
  simp only [String.append_assoc]

end Record

/-! ### Reports -/

/-- What is said of a failure. -/
def Failure.diagnosis (failure : Failure) : String :=
  match failure with
  | .assembly _ => "Assembly error: " ++ failure.message
  | _ => "Error: " ++ failure.message

/-- A failure is logged as an error unless it is a missing number. -/
theorem Failure.diagnosis_mem (failure : Failure) (verbosity : Nat)
    (present : ∀ number, failure ≠ .missing number) :
    ⟨.tool, .error, failure.diagnosis⟩ ∈ failure.records verbosity ∧ failure.status = .ok 1 := by
  cases failure with
  | missing number => exact absurd rfl (present number)
  | _ => exact ⟨List.mem_cons_self, rfl⟩

/-- Whatever has been logged before it, a failure is told of and ends a call with status one, unless
it is a missing number. -/
theorem Failure.reported (failure : Failure) (threshold : Level) (verbosity : Nat)
    (before : List Action) (present : ∀ number, failure ≠ .missing number) :
    let actions := before ++ (failure.records verbosity).map .logged
    Ending.ofStatus failure.status = .status 1 ∧
      Told (Record.console threshold (Action.records actions)) failure.diagnosis := by
  obtain ⟨logged, failed⟩ := failure.diagnosis_mem verbosity present
  simp only [failed, Action.records_append, Action.records_logged]
  exact ⟨rfl, Record.told_of_mem threshold _ ⟨.tool, .error, failure.diagnosis⟩
    (List.mem_append_right _ logged) rfl⟩

namespace Tool

/-- A call that asks for no command never fails. A call whose log file cannot be opened ends with
that error, and nothing is said of it on the console. Otherwise a command that comes to its end has
succeeded or says on the console why not; one that fails says for what cause, and ends with status
one, unless it is for want of a number: then the call is broken off, and a double dash stands right
behind a switch among its arguments. -/
theorem call_reports (time : String) (files : FileTree) (arguments : List (List Char)) :
    let outcome := call time files arguments
    ((∀ settings command, request arguments ≠ .command settings command) →
      outcome.ending = .status 0 ∨ outcome.ending = .shown ∨ outcome.ending = .usageError) ∧
    ∀ settings command, request arguments = .command settings command →
      (∀ error, (openLog files settings).2 = .error error →
        outcome.ending = .noLog error ∧ outcome.errors = "") ∧
      (∀ log?, (openLog files settings).2 = .ok log? →
        match ((command.attempt (openLog files settings).1).run.run ⟨"", []⟩).1 with
        | .ok _ => outcome.ending = .status 0 ∨
            outcome.ending = .status 1 ∧ ∃ text, Told outcome.errors text
        | .error (.missing number) => outcome.ending = .brokenOff number ∧
            ∃ argument ∈ arguments, Behind argument ['-', '-']
        | .error failure => outcome.ending = .status 1 ∧
            Told outcome.errors failure.diagnosis) := by
  intro outcome
  constructor
  · intro none
    unfold outcome call
    cases asked : request arguments with
    | noCommand => exact .inl rfl
    | usageError => exact .inr (.inr rfl)
    | command settings command => exact absurd asked (none settings command)
    | _ => exact .inr (.inl rfl)
  · intro settings command asked
    have called : outcome = carryOut time files settings command := by
      simp only [outcome, call, asked]
    rw [called]
    unfold carryOut
    rcases openLog files settings with ⟨opened, error | log?⟩
    · refine ⟨?_, nofun⟩
      rintro _ ⟨⟩
      exact ⟨rfl, rfl⟩
    · refine ⟨nofun, ?_⟩
      rintro _ ⟨⟩
      have yields := command.yields_attempt opened ⟨"", []⟩
      have accounts := command.accounts_attempt opened ⟨"", []⟩
      simp only [Attempt.report]
      revert yields accounts
      rcases (command.attempt opened).run.run ⟨"", []⟩ with ⟨failure | status, transcript⟩
      · intro only _
        have reported := failure.reported (threshold settings) settings.verbosity transcript.actions
        cases failure with
        | missing number =>
          have lacks := only number rfl
          exact ⟨rfl, behind_of_lacks arguments settings command asked number lacks⟩
        | _ => exact reported nofun
      · intro _ sound
        rcases sound with done | ⟨failed, text, logged⟩
        · exact .inl (congrArg Ending.status done)
        · have told := Record.told_of_mem (threshold settings) _ ⟨.tool, .error, text⟩ logged rfl
          exact .inr ⟨congrArg Ending.status failed, text, told⟩

/-- A quiet call for a source file that is not in the encoding it has to be in. -/
theorem call_reports_undecodable :
    let files := FileTree.ofFiles [("a.dasm".toList, [0x53, 0xFF])]
    let outcome := call "" files ["-q".toList, "asm".toList, "a.dasm".toList]
    outcome.ending = .status 1 ∧ Told outcome.errors
      "Error: 'utf-8' codec can't decode byte 0xff in position 1: invalid start byte" := by
  intro files outcome
  have asked : request ["-q".toList, "asm".toList, "a.dasm".toList] =
      .command ⟨0, true, []⟩ (.asm ⟨"a.dasm".toList, [], false⟩) := by decide +kernel
  have reports := ((call_reports "" files _).2 _ _ asked).2 none rfl
  exact reports

/-- A log file below a file, and a number whose switch is given a double dash. -/
theorem call_escapes :
    (call "" (FileTree.ofFiles
        [("x".toList, []), ("a.dasm".toList, Utf8.encode "SET A, 0x1".toList)])
      ["--log-file".toList, "x/log".toList, "asm".toList, "a.dasm".toList]).ending =
        .noLog ⟨.alreadyExists, "x".toList⟩ ∧
    (call "" (FileTree.ofFiles [("b.bin".toList, [])])
      ["disasm".toList, "--base=--".toList, "b.bin".toList]).ending = .brokenOff .address := by
  decide +kernel

end Tool

end WordMachine.CommandLine
