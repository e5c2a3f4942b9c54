import WordMachine.CommandLine.Tool

/-! What commands do, and when. All that comes before a file is opened only reads, prints and logs,
and nothing fails any more once one is open, so that a command that does not succeed has changed no
file. One that comes to its end has succeeded or has said why not. -/
namespace WordMachine.CommandLine

namespace Action

/-- What is done to files other than the log. -/
def changes (actions : List Action) : List Action :=
  actions.filter fun action => action.record?.isNone

theorem records_append (front back : List Action) :
    records (front ++ back) = records front ++ records back :=
  List.filterMap_append

theorem changes_append (front back : List Action) :
    changes (front ++ back) = changes front ++ changes back :=
  List.filter_append front back

theorem records_logged (logged : List Record) : records (logged.map .logged) = logged := by
  rw [records, List.filterMap_map]
  exact List.filterMap_some

theorem changes_logged (logged : List Record) : changes (logged.map .logged) = [] := by
  rw [changes, List.filter_map, List.map_eq_nil_iff, List.filter_eq_nil_iff]
  exact fun _ _ => nofun

/-- If no file is changed, everything is logged. -/
theorem exists_record_of_changes (actions : List Action) (unchanged : changes actions = [])
    (action : Action) (member : action ∈ actions) : ∃ record, action = .logged record := by
  have logged := List.filter_eq_nil_iff.mp unchanged action member
  cases action with
  | logged record => exact ⟨record, rfl⟩
  | opened key => exact absurd rfl logged
  | written key bytes => exact absurd rfl logged

end Action

namespace Attempt

theorem run_bind {α β : Type} (first : Attempt β) (next : β → Attempt α)
    (transcript : Transcript) :
    (first >>= next).run.run transcript = match first.run.run transcript with
      | (.ok value, after) => (next value).run.run after
      | (.error failure, after) => (.error failure, after) := by
  rw [ExceptT.run_bind, StateT.run_bind]
  rcases first.run.run transcript with ⟨_ | _, _⟩ <;> rfl

/-! ### Plain attempts -/

/-- An attempt computes, prints and logs, and does nothing else. -/
inductive Plain : {α : Type} → Attempt α → Prop
  | pure {α : Type} (value : α) : Plain (pure value)
  | orFail {ε α : Type} (failure : ε → Failure) (result : Except ε α) :
    Plain (orFail failure result)
  | print (text : String) : Plain (print text)
  | log (origin : Origin) (level : Level) (text : String) : Plain (log origin level text)
  | bind {α β : Type} {first : Attempt β} {next : β → Attempt α} (begins : Plain first)
    (goes : ∀ value, Plain (next value)) : Plain (first >>= next)

theorem plain_mapM {α β : Type} (f : α → Attempt β) (values : List α)
    (each : ∀ value, (f value).Plain) : (values.mapM f).Plain := by
  induction values with
  | nil => exact .pure []
  | cons value rest ih =>
    rw [List.mapM_cons]
    exact .bind (each value) fun _ => .bind ih fun _ => .pure _

/-- A plain attempt changes no file but the log. -/
theorem Plain.changes {α : Type} {attempt : Attempt α} (plain : attempt.Plain)
    (transcript : Transcript) :
    Action.changes (attempt.run.run transcript).2.actions =
      Action.changes transcript.actions := by
  induction plain generalizing transcript with
  | pure value => rfl
  | orFail failure result => cases result <;> rfl
  | print text => rfl
  | log origin level text =>
    have added := Action.changes_append transcript.actions [.logged ⟨origin, level, text⟩]
    exact added.trans (List.append_nil _)
  | @bind _ _ first next _ _ begins goes =>
    have start := begins transcript
    rw [run_bind]
    revert start
    rcases first.run.run transcript with ⟨failure | value, after⟩ <;> intro start
    · exact start
    · exact (goes value after).trans start

/-! ### Attempts that change files -/

/-- An attempt that does not succeed changes no file but the log. -/
def Spares (attempt : Attempt Nat) : Prop :=
  ∀ transcript, (attempt.run.run transcript).1 ≠ .ok 0 →
    Action.changes (attempt.run.run transcript).2.actions = Action.changes transcript.actions

theorem Plain.spares {attempt : Attempt Nat} (plain : attempt.Plain) : attempt.Spares :=
  fun transcript _ => plain.changes transcript

theorem spares_bind {β : Type} {first : Attempt β} {next : β → Attempt Nat} (begins : first.Plain)
    (goes : ∀ value, (next value).Spares) : (first >>= next).Spares := by
  intro transcript fails
  have start := begins.changes transcript
  rw [run_bind] at fails ⊢
  revert fails start
  rcases first.run.run transcript with ⟨failure | value, after⟩ <;> intro fails start
  · exact start
  · exact (goes value after fails).trans start

/-- An attempt that comes to its end has succeeded or has said why not. -/
def Accounts (attempt : Attempt Nat) : Prop :=
  ∀ transcript, match attempt.run.run transcript with
    | (.ok status, after) => status = 0 ∨
        status = 1 ∧ ∃ text, ⟨.tool, .error, text⟩ ∈ Action.records after.actions
    | (.error _, _) => True

theorem accounts_zero : (pure 0 : Attempt Nat).Accounts := fun _ => .inl rfl

theorem accounts_bind {β : Type} {first : Attempt β} {next : β → Attempt Nat}
    (goes : ∀ value, (next value).Accounts) : (first >>= next).Accounts := by
  intro transcript
  rw [run_bind]
  rcases first.run.run transcript with ⟨failure | value, after⟩
  · trivial
  · exact goes value after

end Attempt

open Attempt

/-! ### Parts of commands -/

theorem plain_readWords (files : FileTree) (name : List Char) : (readWords files name).Plain :=
  .bind (.orFail _ _) fun _ => .orFail _ _

theorem plain_logScan (source : List Char) : (logScan source).Plain := by
  unfold logScan
  split
  · dsimp only
    split
    · exact .log _ _ _
    · exact .pure ()
  · exact .pure ()

theorem plain_assembleFile (files : FileTree) (name : List Char) :
    (assembleFile files name).Plain := by
  refine .bind (.orFail _ _) fun bytes => .bind (.orFail _ _) fun source => ?_
  refine .bind (plain_logScan source) fun _ => .bind (.orFail _ _) fun program => ?_
  exact .bind (.log _ _ _) fun _ => .pure _

theorem plain_loadWords (files : FileTree) (name : List Char) : (loadWords files name).Plain := by
  unfold loadWords
  split
  · exact plain_readWords files name
  · exact .bind (plain_assembleFile files name) fun _ => .pure _

theorem plain_readAddress (text? : Option (List Char)) : (readAddress text?).Plain := by
  cases text? with
  | none => exact .orFail id (.error (.missing .address))
  | some text => exact .orFail _ _

theorem plain_printDump (machine : Machine) (dump : List Char) : (printDump machine dump).Plain :=
  .bind (.orFail _ _) fun _ => .bind (.orFail _ _) fun _ => .print _

theorem plain_readStack (text : List Char) : (readStack text).Plain := by
  unfold readStack
  split
  · exact .pure 0
  · exact .orFail _ _

theorem RunOptions.plain_printMachine (options : RunOptions) (machine : Machine) :
    (options.printMachine machine).Plain := by
  unfold printMachine
  -- The registers and the dump follow whether or not there is a trace.
  extract_lets display
  have displays : (display ()).Plain := by
    refine .bind (.print _) fun _ => ?_
    split
    · exact plain_printDump machine options.dump
    · exact .pure ()
  split
  · exact .bind (.print _) fun _ => displays
  · exact displays

theorem RunOptions.plain_execute (options : RunOptions) (words : List Word) :
    (options.execute words).Plain := by
  refine .bind (plain_readStack options.stack) fun stack => .bind (.orFail _ _) fun machine => ?_
  refine .bind (.log _ _ _) fun _ => .bind (plain_mapM _ _ plain_readAddress) fun breakpoints => ?_
  refine .bind (.orFail _ _) fun budget => .bind (.log _ _ _) fun _ => ?_
  exact .bind (options.plain_printMachine _) fun _ => .pure _

/-- Nothing fails once the file is open. -/
theorem spares_deliver (files : FileTree) (name : List Char) (bytes : List UInt8) (done : String) :
    (do
      deliver files name bytes done
      return 0 : Attempt Nat).Spares := by
  intro transcript fails
  unfold deliver openFile at fails ⊢
  cases opens : files.target (Path.ofText name) with
  | error error => rfl
  | ok key =>
    rw [opens] at fails
    exact absurd rfl fails

/-! ### Commands -/

theorem RunOptions.plain_attempt (files : FileTree) (options : RunOptions) :
    (options.attempt files).Plain :=
  .bind (plain_loadWords files options.input) fun words =>
    .bind (options.plain_execute words) fun _ => .bind (.log _ _ _) fun _ => .pure _

/-- A command that does not succeed has changed no file but the log. -/
theorem Command.spares_attempt (files : FileTree) (command : Command) :
    (command.attempt files).Spares := by
  cases command with
  | asm options =>
    refine spares_bind (plain_assembleFile files options.input) fun assembled => ?_
    simp only
    split
    · exact Plain.spares (.bind (.print _) fun _ => .pure 0)
    · exact spares_deliver files _ _ _
  | run options => exact (options.plain_attempt files).spares
  | disasm options =>
    refine spares_bind (plain_readWords files options.input) fun words => ?_
    refine spares_bind (plain_readAddress options.base?) fun base => ?_
    simp only
    split
    · exact Plain.spares (.bind (.print _) fun _ => .pure 0)
    · exact spares_deliver files _ _ _

theorem verdict_sound (reason : Reason) (machine : Machine) :
    (verdict reason machine).1 = 0 ∨
      (verdict reason machine).1 = 1 ∧
        ∃ text, (verdict reason machine).2 = ⟨.tool, .error, text⟩ := by
  unfold verdict
  simp only
  split
  · exact .inl rfl
  · exact .inr ⟨rfl, _, rfl⟩
  · exact .inr ⟨rfl, _, rfl⟩

/-- A command that comes to its end has succeeded or has said why not. -/
theorem Command.accounts_attempt (files : FileTree) (command : Command) :
    (command.attempt files).Accounts := by
  cases command with
  | asm options =>
    refine accounts_bind fun assembled => ?_
    simp only
    split
    · exact accounts_bind fun _ => accounts_zero
    · exact accounts_bind fun _ => accounts_zero
  | run options =>
    refine accounts_bind fun words => accounts_bind fun ended transcript => ?_
    rcases verdict_sound ended.1 ended.2 with done | ⟨failed, text, record⟩
    · exact .inl done
    · refine .inr ⟨failed, text, ?_⟩
      have logged := Action.records_append transcript.actions [.logged (verdict ended.1 ended.2).2]
      have last : ⟨.tool, .error, text⟩ ∈ Action.records [.logged (verdict ended.1 ended.2).2] :=
        List.mem_singleton.mpr record.symm
      exact logged ▸ List.mem_append_right _ last
  | disasm options =>
    refine accounts_bind fun words => accounts_bind fun base => ?_
    simp only
    split
    · exact accounts_bind fun _ => accounts_zero
    · exact accounts_bind fun _ => accounts_zero

/-! ### Reports -/

theorem Attempt.changes_report (attempt : Attempt Nat) (verbosity : Nat) :
    Action.changes (attempt.report verbosity).actions =
      Action.changes (attempt.run.run ⟨"", []⟩).2.actions := by
  unfold report
  rcases attempt.run.run ⟨"", []⟩ with ⟨failure | status, transcript⟩
  · simp only [Action.changes_append, Action.changes_logged, List.append_nil]
  · rfl

/-- A command that fails is reported to have changed no file but the log, and so is a run. -/
theorem Command.changes_report (files : FileTree) (command : Command) (verbosity : Nat)
    (spares : ((command.attempt files).report verbosity).status ≠ .ok 0 ∨
      ∃ options, command = .run options) :
    Action.changes ((command.attempt files).report verbosity).actions = [] := by
  rw [Attempt.changes_report]
  rcases spares with fails | ⟨options, rfl⟩
  · apply command.spares_attempt files
    intro done
    apply fails
    unfold Attempt.report
    revert done
    rcases (command.attempt files).run.run ⟨"", []⟩ with ⟨_, transcript⟩
    rintro rfl
    rfl
  · exact (options.plain_attempt files).changes _

end WordMachine.CommandLine
