import WordMachine.Proofs.CommandLine.Endings
import WordMachine.Proofs.CommandLine.Logs

/-! What commands show. Two attempts agree if they come to the same result and show the same, where
records that only serve to find errors in the tool do not count. A run agrees with every other that
is given the same options and gets the same words. -/
namespace WordMachine.CommandLine

/-! ### Records -/

/-- The records that are shown when nothing else is asked for. -/
def Record.notable (records : List Record) : List Record :=
  records.filter fun record => Level.info.rank ≤ record.level.rank

theorem Record.notable_append (front back : List Record) :
    notable (front ++ back) = notable front ++ notable back :=
  List.filter_append front back

/-- What a transcript shows when nothing else is asked for, and the files that it changes. -/
def Transcript.shown (transcript : Transcript) : String × List Record × List Action :=
  (transcript.output, Record.notable (Action.records transcript.actions),
    Action.changes transcript.actions)

/-- What is logged is shown if it is notable, and changes no file. -/
theorem Transcript.shown_logged (output : String) (actions : List Action) (record : Record) :
    shown ⟨output, actions ++ [.logged record]⟩ =
      (output, Record.notable (Action.records actions) ++ Record.notable [record],
        Action.changes actions) := by
  simp only [shown, Action.records_append, Action.changes_append, Record.notable_append]
  exact congrArg (fun changes => (output, _, changes)) (List.append_nil _)

/-- Unless asked to tell more, the console shows only notable records. -/
theorem Record.console_of_notable (threshold : Level) (most : threshold ≠ .debug)
    (first second : List Record) (same : notable first = notable second) :
    console threshold first = console threshold second := by
  have within (records : List Record) :
      (notable records).filter (fun record => threshold.rank ≤ record.level.rank) =
        records.filter fun record => threshold.rank ≤ record.level.rank := by
    -- Whatever passes the higher threshold passes the lower one too.
    rw [notable, List.filter_filter]
    apply List.filter_congr
    intro record _
    have least : Level.info.rank ≤ threshold.rank := by
      cases threshold with
      | debug => exact absurd rfl most
      | _ => decide
    simp only [Bool.and_eq_left_iff_imp, decide_eq_true_eq]
    exact fun shown => least.trans shown
  rw [console, console, ← within first, ← within second, same]

/-! ### Attempts -/

namespace Attempt

variable {α β : Type}

/-- From transcripts that show the same, two attempts come to the same result, and to transcripts
that show the same. -/
def Agrees (first second : Attempt α) : Prop :=
  ∀ one two : Transcript, one.shown = two.shown →
    (first.run.run one).1 = (second.run.run two).1 ∧
      (first.run.run one).2.shown = (second.run.run two).2.shown

/-- An attempt depends on what has been printed and done before it at most as far as that is
shown. -/
abbrev Steady (attempt : Attempt α) : Prop := attempt.Agrees attempt

/-- Whatever has been printed and logged before it, an attempt comes to a result and shows
nothing. -/
def Quietly (attempt : Attempt α) (result : Except Failure α) : Prop :=
  ∀ transcript, (attempt.run.run transcript).1 = result ∧
    (attempt.run.run transcript).2.shown = transcript.shown

theorem agrees_of_quietly {first second : Attempt α} {result : Except Failure α}
    (one : first.Quietly result) (two : second.Quietly result) : first.Agrees second := by
  intro before after same
  obtain ⟨left, unshown⟩ := one before
  obtain ⟨right, hidden⟩ := two after
  exact ⟨left.trans right.symm, unshown.trans (same.trans hidden.symm)⟩

/-! ### Rules -/

theorem quietly_pure (value : α) : (pure value : Attempt α).Quietly (.ok value) :=
  fun _ => ⟨rfl, rfl⟩

theorem quietly_orFail {ε : Type} (failure : ε → Failure) (result : Except ε α) :
    (orFail failure result).Quietly (result.mapError failure) := by
  cases result with
  | ok value => exact quietly_pure value
  | error error => exact fun _ => ⟨rfl, rfl⟩

theorem quietly_debug (origin : Origin) (text : String) :
    (log origin .debug text).Quietly (.ok ()) := by
  intro transcript
  refine ⟨rfl, ?_⟩
  have added := Transcript.shown_logged transcript.output transcript.actions ⟨origin, .debug, text⟩
  rw [show Record.notable [⟨origin, .debug, text⟩] = [] from rfl, List.append_nil] at added
  exact added

theorem quietly_bind {first : Attempt β} {next : β → Attempt α} {middle : Except Failure β}
    {result : β → Except Failure α} (begins : first.Quietly middle)
    (goes : ∀ value, middle = .ok value → (next value).Quietly (result value)) :
    (first >>= next).Quietly (middle >>= result) := by
  intro transcript
  obtain ⟨comes, unshown⟩ := begins transcript
  rw [run_bind]
  revert comes unshown
  rcases first.run.run transcript with ⟨failure | value, after⟩
  · rintro rfl unshown
    exact ⟨rfl, unshown⟩
  · rintro rfl unshown
    obtain ⟨comesTo, hidden⟩ := goes value rfl after
    exact ⟨comesTo, hidden.trans unshown⟩

theorem quietly_bind_ok {first : Attempt β} {next : β → Attempt α} {value : β}
    {result : Except Failure α} (begins : first.Quietly (.ok value))
    (goes : (next value).Quietly result) : (first >>= next).Quietly result := by
  have both : (first >>= next).Quietly (.ok value >>= fun _ => result) := by
    refine quietly_bind begins ?_
    rintro _ ⟨⟩
    exact goes
  exact both

theorem quietly_bind_error {first : Attempt β} {next : β → Attempt α} {failure : Failure}
    (fails : first.Quietly (.error failure)) : (first >>= next).Quietly (.error failure) := by
  have both : (first >>= next).Quietly (.error failure >>= fun _ => .error failure) :=
    quietly_bind fails nofun
  exact both

theorem agrees_bind {first second : Attempt β} {next : β → Attempt α}
    (begins : first.Agrees second) (goes : ∀ value, (next value).Steady) :
    (first >>= next).Agrees (second >>= next) := by
  intro one two same
  -- Either both fail for the same cause, or both go on from the same value.
  obtain ⟨result, shown⟩ := begins one two same
  rw [run_bind, run_bind]
  revert result shown
  rcases first.run.run one with ⟨_ | value, left⟩ <;>
    rcases second.run.run two with ⟨_ | other, right⟩
  · rintro ⟨⟩ shown
    exact ⟨rfl, shown⟩
  · rintro ⟨⟩
  · rintro ⟨⟩
  · rintro ⟨⟩ shown
    exact goes value left right shown

/-- A plain attempt depends on what was shown before it at most, and shows the same if that was the
same. -/
theorem Plain.steady {attempt : Attempt α} (plain : attempt.Plain) : attempt.Steady := by
  induction plain with
  | pure value => exact agrees_of_quietly (quietly_pure value) (quietly_pure value)
  | orFail failure result =>
    exact agrees_of_quietly (quietly_orFail failure result) (quietly_orFail failure result)
  | print text =>
    intro one two same
    refine ⟨rfl, ?_⟩
    obtain ⟨output, rest⟩ := Prod.mk.inj same
    exact congrArg₂ (fun output rest => (output ++ text ++ "\n", rest)) output rest
  | log origin level text =>
    intro one two same
    refine ⟨rfl, ?_⟩
    have added (transcript : Transcript) :=
      Transcript.shown_logged transcript.output transcript.actions ⟨origin, level, text⟩
    obtain ⟨output, rest⟩ := Prod.mk.inj same
    obtain ⟨records, changes⟩ := Prod.mk.inj rest
    refine (added one).trans (Eq.trans ?_ (added two).symm)
    rw [output, records, changes]
  | bind _ _ begins goes => exact agrees_bind begins goes

/-! ### Reports -/

theorem report_of_agrees (verbosity : Nat) {first second : Attempt Nat}
    (agrees : first.Agrees second) :
    let one := first.report verbosity
    let two := second.report verbosity
    one.status = two.status ∧ one.output = two.output ∧
      Record.notable (Action.records one.actions) =
        Record.notable (Action.records two.actions) := by
  intro one two
  obtain ⟨result, shown⟩ := agrees ⟨"", []⟩ ⟨"", []⟩ rfl
  -- Both fail for the same cause or come to the same status.
  simp only [one, two, report]
  revert result shown
  rcases first.run.run ⟨"", []⟩ with ⟨_ | status, left⟩ <;>
    rcases second.run.run ⟨"", []⟩ with ⟨failure | other, right⟩ <;> intro result shown <;>
    cases result <;> obtain ⟨output, rest⟩ := Prod.mk.inj shown
  · refine ⟨rfl, output, ?_⟩
    simp only [Action.records_append, Record.notable_append, (Prod.mk.inj rest).1]
  · exact ⟨rfl, output, (Prod.mk.inj rest).1⟩

end Attempt

/-! ### Calls -/

namespace Tool

theorem threshold_ne_debug (settings : Settings) (silent : settings.verbosity = 0) :
    threshold settings ≠ .debug := by
  rw [threshold, silent, if_pos rfl]
  split <;> nofun

/-- Commands that agree print the same and end alike, and unless the tool is asked to tell more, the
console shows the same. -/
theorem carryOut_of_agrees (time other : String) (files : FileTree) (settings : Settings)
    (first second : Command) (noLog : settings.logFile = [])
    (agrees : (first.attempt files).Agrees (second.attempt files)) :
    let one := carryOut time files settings first
    let two := carryOut other files settings second
    one.ending = two.ending ∧ one.output = two.output ∧
      (settings.verbosity = 0 → one.errors = two.errors) := by
  intro one two
  obtain ⟨status, output, records⟩ := Attempt.report_of_agrees settings.verbosity agrees
  simp only [one, two, carryOut, openLog_none files settings noLog]
  refine ⟨congrArg Ending.ofStatus status, output, fun silent => ?_⟩
  exact Record.console_of_notable _ (threshold_ne_debug settings silent) _ _ records

/-- Without a log, a command leaves the files with its changes. -/
theorem files_carryOut (time : String) (files : FileTree) (settings : Settings) (command : Command)
    (noLog : settings.logFile = []) :
    (carryOut time files settings command).files =
      settle "" none
        (Action.changes ((command.attempt files).report settings.verbosity).actions) files := by
  simp only [carryOut, openLog_none files settings noLog]
  exact settle_unlogged time _ files

theorem records_silent (failure : Failure) (present : ∀ number, failure ≠ .missing number) :
    failure.records 0 = [⟨.tool, .error, failure.diagnosis⟩] := by
  cases failure with
  | missing number => exact absurd rfl (present number)
  | _ => rfl

/-- A command that fails without having shown anything says why, and leaves the files alone. -/
theorem carryOut_of_failure (time : String) (files : FileTree) (command : Command)
    (failure : Failure) (present : ∀ number, failure ≠ .missing number)
    (fails : (command.attempt files).Quietly (.error failure)) :
    carryOut time files ⟨0, false, []⟩ command =
      ⟨.status 1, "", "ERROR: " ++ failure.diagnosis ++ "\n", files⟩ := by
  obtain ⟨result, shown⟩ := fails ⟨"", []⟩
  simp only [carryOut, openLog_none files ⟨0, false, []⟩ rfl, Attempt.report, settle_unlogged time]
  revert result shown
  rcases (command.attempt files).run.run ⟨"", []⟩ with ⟨_, transcript⟩
  rintro rfl shown
  obtain ⟨output, rest⟩ := Prod.mk.inj shown
  obtain ⟨records, changes⟩ := Prod.mk.inj rest
  simp only [Action.records_append, Action.records_logged, Action.changes_append,
    Action.changes_logged, changes]
  -- Of all that has been logged, the console shows only the cause.
  have logged := records_silent failure present
  have said : Record.console .info (Action.records transcript.actions ++ failure.records 0) =
      Record.console .info [⟨.tool, .error, failure.diagnosis⟩] := by
    apply Record.console_of_notable .info (by decide)
    rw [Record.notable_append, records, logged]
    rfl
  have line : Record.console .info [⟨.tool, .error, failure.diagnosis⟩] =
      "ERROR: " ++ failure.diagnosis ++ "\n" := by
    simp [Record.console, Record.consoleLine, Level.rank, Level.name]
  have status := (failure.diagnosis_mem 0 present).2
  simp only [status, Outcome.mk.injEq]
  exact ⟨rfl, output, said.trans line, rfl⟩

end Tool

end WordMachine.CommandLine
