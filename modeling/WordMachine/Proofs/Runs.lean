import WordMachine.Proofs.Tracing

/-! Runs one after the other. A run carries out as many instructions as it is allowed, unless a step
gives a reason to stop before; so a run that was allowed too little can be gone on with, and what
was left to a run that stopped makes no difference. -/
namespace WordMachine

open Monitor (performAll)

/-! ### Instructions in a row -/

/-- A number of instructions are carried out, each of them fetched at the program counter, and none
of them faults. -/
inductive Core.Executes : Nat → Core → Core → Prop
  | nothing (core : Core) : Executes 0 core core
  | next {count : Nat} {word : Word} {before middle after : Core}
      (fetched : before.memory.fetch before.registers.pc = .word word)
      (executed : before.execute word = (none, middle)) (others : Executes count middle after) :
      Executes (count + 1) before after

namespace Machine

theorem step_ne_timeout (machine : Machine) : machine.step.1 ≠ some .timeout := by
  have final (stop : Stop) : stop.reason ≠ .timeout := by
    cases stop with
    | halt => exact nofun
    | fault cause => cases cause <;> exact nofun
  rcases machine.step_cases with ⟨stop, -, stepped⟩ | ⟨-, -, -, stepped⟩ | ⟨-, -, -, stepped⟩ |
    ⟨word, fault, core, -, -, stepped⟩ | ⟨word, core, -, -, stepped⟩
  · rw [stepped]
    exact fun spent => final stop (Option.some.inj spent)
  · rw [stepped]
    exact nofun
  · rw [stepped]
    exact nofun
  · rw [stepped]
    exact fun spent => final (.fault fault) (Option.some.inj spent)
  · rw [stepped]
    exact nofun

/-- The first of a number of calls can be made before the others. -/
theorem afterCalls_succ (machine : Machine) (calls : Nat) :
    machine.afterCalls (calls + 1) = machine.step.2.afterCalls calls := by
  induction calls with
  | zero => rfl
  | succ calls ih => rw [afterCalls, ih, afterCalls]

theorem run_of_execution (machine : Machine) (budget : Nat) (executes : machine.step.1 = none) :
    run (budget + 1) machine = run budget machine.step.2 := by
  rw [run]
  generalize machine.step = outcome at executes
  obtain ⟨_, after⟩ := outcome
  cases executes
  rfl

theorem run_of_reason (machine : Machine) (budget : Nat) (reason : Reason)
    (stops : machine.step.1 = some reason) :
    run (budget + 1) machine = (reason, machine.step.2) := by
  rw [run]
  generalize machine.step = outcome at stops
  obtain ⟨_, after⟩ := outcome
  cases stops
  rfl

/-! ### One run -/

/-- What a run with a budget does, and how many instructions it carries out. -/
structure Ran (budget : Nat) (before : Machine) (count : Nat) (answer : Reason) (after : Machine) :
    Prop where
  executes : Core.Executes count before.core (before.afterCalls count).core
  within : count ≤ budget
  steps : after.steps = before.steps + count
  timeout_iff : answer = .timeout ↔ count = budget
  /-- A run whose budget is used up looks no further, and does not stop the machine. -/
  usedUp : answer = .timeout → after = before.afterCalls count ∧ after.stop = before.stop
  /-- Any other run is ended by a step that carries nothing out. -/
  ended : answer ≠ .timeout → (before.afterCalls count).step = (some answer, after)

theorem ran_nothing (machine : Machine) : Ran 0 machine 0 .timeout machine where
  executes := .nothing _
  within := Nat.le_refl 0
  steps := rfl
  timeout_iff := iff_of_true rfl rfl
  usedUp _ := ⟨rfl, rfl⟩
  ended other := absurd rfl other

theorem ran_of_reason (machine : Machine) (budget : Nat) (reason : Reason)
    (stops : machine.step.1 = some reason) :
    Ran (budget + 1) machine 0 reason machine.step.2 := by
  have other : reason ≠ .timeout := by
    rintro rfl
    exact machine.step_ne_timeout stops
  refine ⟨.nothing _, Nat.zero_le _, ?_, iff_of_false other (Nat.zero_ne_add_one budget),
    fun spent => absurd spent other, fun _ => ?_⟩
  · exact (machine.records_of_reason reason stops).steps
  · exact Prod.ext stops rfl

theorem Ran.after_execution {machine : Machine} {budget count : Nat} {answer : Reason}
    {after : Machine} (executes : machine.step.1 = none)
    (ran : Ran budget machine.step.2 count answer after) :
    Ran (budget + 1) machine (count + 1) answer after := by
  have reached := machine.afterCalls_succ count
  rcases machine.step_cases with ⟨stop, -, stepped⟩ | ⟨-, -, -, stepped⟩ | ⟨-, -, -, stepped⟩ |
    ⟨word, fault, core, -, -, stepped⟩ | ⟨word, core, ready, executed, stepped⟩
  -- Only the last of these carries out an instruction.
  iterate 4
    rw [stepped] at executes
    cases executes
  rw [stepped] at ran reached
  refine ⟨?_, Nat.succ_le_succ ran.within, ?_, ?_, fun spent => ?_, fun other => ?_⟩
  · rw [reached]
    exact .next ready.fetched executed ran.executes
  · rw [ran.steps]
    exact Nat.add_right_comm machine.steps 1 count
  · rw [ran.timeout_iff, Nat.add_right_cancel_iff]
  · obtain ⟨same, stop⟩ := ran.usedUp spent
    rw [reached]
    exact ⟨same, stop⟩
  · rw [reached]
    exact ran.ended other

theorem exists_ran (budget : Nat) (machine : Machine) :
    ∃ count, Ran budget machine count (run budget machine).1 (run budget machine).2 := by
  induction budget generalizing machine with
  | zero => exact ⟨0, machine.ran_nothing⟩
  | succ budget ih =>
    cases answer : machine.step.1 with
    | some reason =>
      rw [machine.run_of_reason budget reason answer]
      exact ⟨0, machine.ran_of_reason budget reason answer⟩
    | none =>
      rw [machine.run_of_execution budget answer]
      obtain ⟨count, ran⟩ := ih machine.step.2
      exact ⟨count + 1, ran.after_execution answer⟩

/-! ### Two runs -/

theorem run_add (first second : Nat) (machine : Machine) :
    run (first + second) machine =
      if (run first machine).1 = .timeout then run second (run first machine).2
      else run first machine := by
  induction first generalizing machine with
  | zero =>
    rw [Nat.zero_add]
    rfl
  | succ first ih =>
    rw [Nat.add_right_comm]
    cases answer : machine.step.1 with
    | some reason =>
      have other : reason ≠ .timeout := by
        rintro rfl
        exact machine.step_ne_timeout answer
      rw [machine.run_of_reason _ reason answer, machine.run_of_reason _ reason answer,
        if_neg other]
    | none =>
      rw [machine.run_of_execution _ answer, machine.run_of_execution _ answer]
      exact ih machine.step.2

/-- A run whose budget is used up can be gone on with by another, which answers and leaves what one
run with both budgets does; a run that stopped for another reason would have stopped there with any
larger budget. The steps that are counted are the instructions carried out, which are as many as the
budget only if it is used up. -/
theorem run_composes (machine : Machine) :
    (∀ first second, (run first machine).1 = .timeout →
      run second (run first machine).2 = run (first + second) machine) ∧
    (∀ first second, (run first machine).1 ≠ .timeout →
      run (first + second) machine = run first machine) ∧
    (∀ budget, ∃ count,
      Ran budget machine count (run budget machine).1 (run budget machine).2) := by
  refine ⟨?_, ?_, fun budget => exists_ran budget machine⟩
  · intro first second spent
    rw [run_add, if_pos spent]
  · intro first second other
    rw [run_add, if_neg other]

/-- A run that is over right before a breakpoint, and one that is over right before the sentinel. -/
theorem run_composes_at_limits :
    let machine := performAll (initial 0) [.load [0x8402, 0x8402] 0, .addBreakpoint 1]
    (run 1 machine).1 = .timeout ∧ run 2 (run 1 machine).2 = run 3 machine ∧
      (run 3 machine).1 = .breakpoint ∧ run (3 + 4) machine = run 3 machine ∧
      (run 1 (run 3 machine).2).1 = .timeout ∧
      run 1 (run 1 (run 3 machine).2).2 = run 2 (run 3 machine).2 ∧
      (run 2 (run 3 machine).2).1 = .halt ∧ (run 2 (run 3 machine).2).2.steps = 2 := by
  intro machine
  obtain ⟨goesOn, ends, -⟩ := machine.run_composes
  obtain ⟨resumes, -, -⟩ := (run 3 machine).2.run_composes
  have spent : (run 1 machine).1 = .timeout := rfl
  have breaks : (run 3 machine).1 = .breakpoint := rfl
  have spentAgain : (run 1 (run 3 machine).2).1 = .timeout := rfl
  exact ⟨spent, goesOn 1 2 spent, breaks, ends 3 4 (by rw [breaks]; exact nofun), spentAgain,
    resumes 1 1 spentAgain, rfl, rfl⟩

end Machine

end WordMachine
