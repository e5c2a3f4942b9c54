import WordMachine.Proofs.RunState
import WordMachine.Proofs.Skipping

/-! Breakpoints. They stop a machine without changing anything that it does: without the calls that
stop there, the calls for steps answer and leave what they do when there are no breakpoints. -/
namespace WordMachine

/-! ### The last answer -/

namespace Monitor

/-- The answers of the steps that a request makes. One for a run makes as many as one for steps. -/
def answers (machine : Machine) : Command → List (Option Reason)
  | .step count | .run count => (stepUpTo count machine).1.map Prod.fst
  | _ => []

/-- A run gives the reason of its last step, if that one had a reason. -/
theorem run_of_answers (budget : Nat) (machine : Machine) :
    (Machine.run budget machine).1 =
      ((answers machine (.run budget)).getLast?.getD none).getD .timeout := by
  simp only [answers]
  induction budget generalizing machine with
  | zero => rfl
  | succ budget ih =>
    unfold Machine.run stepUpTo
    rcases machine.step with ⟨_ | reason, after⟩
    · simpa [List.getLast?_cons] using ih after
    · rfl

/-- The answer of the last step that a request leaves, if a step was made since the last reset. -/
def lastAnswer (machine : Machine) (last? : Option (Option Reason)) :
    Command → Option (Option Reason)
  | .reset => none
  | command => (answers machine command).getLast?.or last?

/-- The answer of the last step after all requests, if a step was made since the last reset. -/
def lastAnswerOf (machine : Machine) (last? : Option (Option Reason)) :
    List Command → Option (Option Reason)
  | [] => last?
  | command :: rest =>
    lastAnswerOf (perform machine command).2 (lastAnswer machine last? command) rest

/-- A breakpoint is noted only right after a step that stopped there, and never in a machine that
has stopped for good. -/
structure Noted (machine : Machine) (last? : Option (Option Reason)) : Prop where
  stopped : machine.stop ≠ none → machine.resume = none
  answered : machine.resume ≠ none → last? = some (some .breakpoint)

theorem noted_step (machine : Machine) (last? : Option (Option Reason))
    (noted : Noted machine last?) : Noted machine.step.2 (some machine.step.1) := by
  rcases machine.step_cases with ⟨stop, stopped, stepped⟩ | ⟨running, breaks, fresh, stepped⟩ |
    ⟨running, passing, fetched, stepped⟩ | ⟨word, fault, core, ready, executed, stepped⟩ |
    ⟨word, core, ready, executed, stepped⟩
  · have clear := noted.stopped (by simp [stopped])
    rw [stepped]
    exact ⟨fun _ => clear, fun set => absurd clear set⟩
  · rw [stepped]
    exact ⟨fun halted => absurd running halted, fun _ => rfl⟩
  all_goals
    rw [stepped]
    exact ⟨fun _ => rfl, fun set => absurd rfl set⟩

theorem noted_stepUpTo (count : Nat) (machine : Machine) (last? : Option (Option Reason))
    (noted : Noted machine last?) : Noted (stepUpTo count machine).2
      (((stepUpTo count machine).1.map Prod.fst).getLast?.or last?) := by
  induction count generalizing machine last? with
  | zero => exact noted
  | succ count ih =>
    have stepped := noted_step machine last? noted
    unfold stepUpTo
    generalize machine.step = outcome at stepped
    obtain ⟨_ | reason, after⟩ := outcome
    -- The last answer is that of a later step, or of this one if there is none.
    · have others := ih after _ stepped
      simpa [List.getLast?_cons] using others
    · exact stepped

theorem noted_perform (machine : Machine) (last? : Option (Option Reason))
    (noted : Noted machine last?) (command : Command) :
    Noted (perform machine command).2 (lastAnswer machine last? command) := by
  have ran (count : Nat) := noted_stepUpTo count machine last? noted
  have other (quiet : command.quiet = true) : Noted (perform machine command).2 last? := by
    obtain ⟨stopped, answered⟩ := noted
    constructor
    · rwa [stop_of_quiet machine command quiet, resume_of_quiet machine command quiet]
    · rwa [resume_of_quiet machine command quiet]
  cases command with
  | step count => exact ran count
  | run budget =>
    have same := ran budget
    rw [Raw.stepUpTo_eq_run] at same
    exact same
  | reset => exact ⟨fun _ => rfl, fun set => absurd rfl set⟩
  | _ => exact other rfl

theorem noted_performAll (machine : Machine) (last? : Option (Option Reason))
    (noted : Noted machine last?) (commands : List Command) :
    Noted (performAll machine commands) (lastAnswerOf machine last? commands) := by
  induction commands generalizing machine last? with
  | nil => exact noted
  | cons command rest ih => exact ih _ _ (noted_perform machine last? noted command)

end Monitor

open Monitor (Command performAll lastAnswerOf)

theorem Stop.reason_ne_breakpoint (stop : Stop) : stop.reason ≠ .breakpoint := by
  cases stop with
  | halt => exact nofun
  | fault cause => cases cause <;> exact nofun

namespace Machine

/-! ### Steps -/

/-- A machine without breakpoints, and without the note of one. -/
def unwatched (machine : Machine) : Machine := { machine with breakpoints := [], resume := none }

/-- A step that stops at a breakpoint only notes it, and it was not noted before. -/
theorem step_of_breakpoint (machine : Machine) (breaks : machine.step.1 = some .breakpoint) :
    machine.resume ≠ some machine.core.registers.pc ∧
      machine.step.2 = { machine with resume := some machine.core.registers.pc } := by
  rcases machine.step_cases with ⟨stop, stopped, stepped⟩ | ⟨-, -, fresh, stepped⟩ |
    ⟨-, -, -, stepped⟩ | ⟨word, fault, core, -, -, stepped⟩ | ⟨word, core, -, -, stepped⟩
  · rw [stepped] at breaks
    exact absurd (Option.some.inj breaks) stop.reason_ne_breakpoint
  · exact ⟨fresh, by rw [stepped]⟩
  · rw [stepped] at breaks
    cases breaks
  · rw [stepped] at breaks
    exact absurd (Option.some.inj breaks) (Stop.fault fault).reason_ne_breakpoint
  · rw [stepped] at breaks
    cases breaks

/-- Without breakpoints, a machine does the same in every step that does not stop at one. -/
theorem step_unwatched (machine : Machine) (passes : machine.step.1 ≠ some .breakpoint) :
    machine.unwatched.step = (machine.step.1, machine.step.2.unwatched) := by
  have clear : machine.unwatched.core.registers.pc ∈ machine.unwatched.breakpoints →
      machine.unwatched.resume = some machine.unwatched.core.registers.pc := nofun
  rcases machine.step_cases with ⟨stop, stopped, stepped⟩ | ⟨-, -, -, stepped⟩ |
    ⟨running, -, fetched, stepped⟩ | ⟨word, fault, core, ready, executed, stepped⟩ |
    ⟨word, core, ready, executed, stepped⟩
  · rw [stepped]
    exact machine.unwatched.step_of_stop stop stopped
  · rw [stepped] at passes
    exact absurd rfl passes
  · rw [stepped]
    exact machine.unwatched.step_of_sentinel running clear fetched
  · rw [stepped]
    exact machine.unwatched.step_of_fault word ⟨ready.running, clear, ready.fetched⟩ fault core
      executed
  · rw [stepped]
    exact machine.unwatched.step_of_execute word ⟨ready.running, clear, ready.fetched⟩ core executed

/-- A machine that has not stopped for good notes a breakpoint only where it has just stopped. -/
theorem breakpoint_of_resume (machine : Machine) (pc : Word) (running : machine.step.2.stop = none)
    (noted : machine.step.2.resume = some pc) :
    machine.step.1 = some .breakpoint ∧ machine.core.registers.pc = pc := by
  rcases machine.step_cases with ⟨stop, stopped, stepped⟩ | ⟨-, -, -, stepped⟩ |
    ⟨-, -, -, stepped⟩ | ⟨word, fault, core, -, -, stepped⟩ | ⟨word, core, -, -, stepped⟩
  · rw [stepped, stopped] at running
    cases running
  · rw [stepped] at noted ⊢
    exact ⟨rfl, Option.some.inj noted⟩
  all_goals
    rw [stepped] at noted
    cases noted

/-- A step that does not stop at a breakpoint was announced by the note of it. -/
theorem resume_of_passed (machine : Machine) (running : machine.stop = none)
    (breaks : machine.core.registers.pc ∈ machine.breakpoints)
    (passes : machine.step.1 ≠ some .breakpoint) :
    machine.resume = some machine.core.registers.pc := by
  rcases machine.step_cases with ⟨stop, stopped, -⟩ | ⟨-, -, -, stepped⟩ |
    ⟨-, passing, -⟩ | ⟨word, fault, core, ready, -⟩ | ⟨word, core, ready, -⟩
  · rw [running] at stopped
    cases stopped
  · rw [stepped] at passes
    exact absurd rfl passes
  · exact passing breaks
  · exact ready.passing breaks
  · exact ready.passing breaks

/-- The step after one that stopped at a breakpoint goes on. -/
theorem passes_after_breakpoint (machine : Machine) (breaks : machine.step.1 = some .breakpoint) :
    machine.step.2.step.1 ≠ some .breakpoint := by
  have noted := (machine.step_of_breakpoint breaks).2
  intro again
  have fresh := (machine.step.2.step_of_breakpoint again).1
  rw [noted] at fresh
  exact fresh rfl

theorem breakpoints_step (machine : Machine) :
    machine.step.2.breakpoints = machine.breakpoints := by
  rcases machine.step_cases with ⟨stop, -, stepped⟩ | ⟨-, -, -, stepped⟩ | ⟨-, -, -, stepped⟩ |
    ⟨word, fault, core, -, -, stepped⟩ | ⟨word, core, -, -, stepped⟩
  all_goals exact congrArg (fun outcome => outcome.2.breakpoints) stepped

/-! ### Calls -/

theorem breakpoints_afterCalls (machine : Machine) (count : Nat) :
    (machine.afterCalls count).breakpoints = machine.breakpoints := by
  induction count with
  | zero => rfl
  | succ count ih => exact (breakpoints_step _).trans ih

/-- What a number of calls for a step, one after the other, answer and leave. -/
def calls (machine : Machine) (count : Nat) : List (Option Reason × Machine) :=
  (List.range count).map fun call => (machine.afterCalls call).step

/-- What the calls among them that do not stop at a breakpoint answer and leave, without
breakpoints. -/
def passed (machine : Machine) (count : Nat) : List (Option Reason × Machine) :=
  ((machine.calls count).filter (·.1 ≠ some .breakpoint)).map fun call => (call.1, call.2.unwatched)

theorem calls_succ (machine : Machine) (count : Nat) :
    machine.calls (count + 1) = machine.calls count ++ [(machine.afterCalls count).step] := by
  rw [calls, List.range_succ, List.map_append]
  rfl

theorem passed_succ_of_breakpoint (machine : Machine) (count : Nat)
    (breaks : (machine.afterCalls count).step.1 = some .breakpoint) :
    machine.passed (count + 1) = machine.passed count := by
  simp [passed, calls_succ, breaks]

theorem passed_succ (machine : Machine) (count : Nat)
    (passes : (machine.afterCalls count).step.1 ≠ some .breakpoint) :
    machine.passed (count + 1) = machine.passed count ++
      [((machine.afterCalls count).step.1, (machine.afterCalls (count + 1)).unwatched)] := by
  simp [passed, calls_succ, passes, afterCalls]

/-- Without the calls that stop at breakpoints, calls answer and leave what as many do without
breakpoints. -/
theorem passed_eq (machine : Machine) (count : Nat) :
    machine.passed count = machine.unwatched.calls (machine.passed count).length ∧
      (machine.afterCalls count).unwatched =
        machine.unwatched.afterCalls (machine.passed count).length := by
  -- The machine without breakpoints falls behind by one call whenever the other one stops at one.
  induction count with
  | zero => exact ⟨rfl, rfl⟩
  | succ count ih =>
    obtain ⟨same, reached⟩ := ih
    by_cases breaks : (machine.afterCalls count).step.1 = some .breakpoint
    · have noted := ((machine.afterCalls count).step_of_breakpoint breaks).2
      rw [machine.passed_succ_of_breakpoint count breaks, ← reached, ← same, afterCalls, noted]
      exact ⟨rfl, rfl⟩
    · have stepped := (machine.afterCalls count).step_unwatched breaks
      have next : machine.unwatched.afterCalls ((machine.passed count).length + 1) =
          (machine.afterCalls (count + 1)).unwatched := by
        rw [afterCalls, ← reached, stepped]
        rfl
      rw [machine.passed_succ count breaks, List.length_append, List.length_singleton, calls_succ,
        ← same, ← reached, stepped, next]
      exact ⟨rfl, rfl⟩

/-- Every number of calls is passed at some time. -/
theorem exists_passed (machine : Machine) (count : Nat) :
    ∃ total, (machine.passed total).length = count := by
  induction count with
  | zero => exact ⟨0, rfl⟩
  | succ count ih =>
    obtain ⟨total, rfl⟩ := ih
    -- After a call that stops at a breakpoint, the next one is passed.
    by_cases breaks : (machine.afterCalls total).step.1 = some .breakpoint
    · have passes := (machine.afterCalls total).passes_after_breakpoint breaks
      refine ⟨total + 2, ?_⟩
      rw [machine.passed_succ (total + 1) passes, machine.passed_succ_of_breakpoint total breaks,
        List.length_append, List.length_singleton]
    · refine ⟨total + 1, ?_⟩
      rw [machine.passed_succ total breaks, List.length_append, List.length_singleton]

/-- What breakpoints do to the calls for steps, and what they do not. -/
structure Transparent (machine : Machine) : Prop where
  /-- The calls that do not stop at a breakpoint answer and leave what as many calls do without
  breakpoints. -/
  passed : ∀ count, machine.passed count =
    ({ machine with breakpoints := [] } : Machine).calls (machine.passed count).length
  /-- No call that is made without breakpoints is lost. -/
  complete : ∀ count, ∃ total, machine.passed total =
    ({ machine with breakpoints := [] } : Machine).calls count
  /-- A call that stops at a breakpoint only notes it. -/
  inert : ∀ call, (machine.afterCalls call).step.1 = some .breakpoint →
    machine.afterCalls (call + 1) =
      { machine.afterCalls call with resume := some (machine.afterCalls call).core.registers.pc }
  alternating : ∀ call, (machine.afterCalls call).step.1 = some .breakpoint →
    (machine.afterCalls (call + 1)).step.1 ≠ some .breakpoint
  /-- Whatever is done at a breakpoint comes right after a call that stopped there. -/
  announced : ∀ call, (machine.afterCalls call).stop = none →
    (machine.afterCalls call).core.registers.pc ∈ machine.breakpoints →
    (machine.afterCalls call).step.1 ≠ some .breakpoint →
      ∃ before, call = before + 1 ∧ (machine.afterCalls before).step.1 = some .breakpoint ∧
        (machine.afterCalls before).core.registers.pc =
          (machine.afterCalls call).core.registers.pc

theorem transparent_of_clear (machine : Machine) (clear : machine.resume = none) :
    machine.Transparent := by
  have same : ({ machine with breakpoints := [] } : Machine) = machine.unwatched := by
    rw [unwatched, clear]
  refine ⟨?_, ?_, ?_, ?_, ?_⟩
  · intro count
    rw [same]
    exact (machine.passed_eq count).1
  · intro count
    obtain ⟨total, rfl⟩ := machine.exists_passed count
    exact ⟨total, by rw [same]; exact (machine.passed_eq total).1⟩
  · intro call breaks
    exact ((machine.afterCalls call).step_of_breakpoint breaks).2
  · intro call breaks
    exact (machine.afterCalls call).passes_after_breakpoint breaks
  · intro call running breaks passes
    rw [← machine.breakpoints_afterCalls call] at breaks
    have noted := (machine.afterCalls call).resume_of_passed running breaks passes
    cases call with
    -- Before the first call nothing is noted, so that it would have stopped.
    | zero =>
      rw [afterCalls, clear] at noted
      cases noted
    | succ before => exact ⟨before, rfl, breakpoint_of_resume _ _ running noted⟩

/-- Breakpoints are transparent in every machine that can be reached and whose last step did not
stop at one. -/
theorem performAll_transparent (program? : Option (List Int)) (stack : Int) (start : Machine)
    (built : build program? stack = .ok start) (commands : List Command)
    (last : lastAnswerOf start none commands ≠ some (some .breakpoint)) :
    (performAll start commands).Transparent := by
  have clear := (stop_of_build program? stack start built).2
  have noted := Monitor.noted_performAll start none ⟨fun _ => clear, fun set => absurd clear set⟩
    commands
  refine transparent_of_clear _ ?_
  by_contra set
  exact last (noted.answered set)

/-- A jump to itself is stopped at on every pass. -/
theorem performAll_transparent_self_jump :
    ∃ start, build (some [0x81C1]) 0 = .ok start ∧
      let machine := performAll start [.step 3, .addBreakpoint 0]
      machine.Transparent ∧ (machine.calls 4).map Prod.fst =
        [some .breakpoint, none, some .breakpoint, none] := by
  refine ⟨_, rfl, ?_, rfl⟩
  exact performAll_transparent (some [0x81C1]) 0 _ rfl _ nofun

end Machine

end WordMachine
