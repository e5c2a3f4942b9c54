import WordMachine.Proofs.Breakpoints

/-! Tracing. Whether a machine is traced has no bearing on what it does. The trace gets one row for
each instruction that is carried out while tracing is on, of the state that the instruction leaves,
and no row for a step that stops the machine. -/
namespace WordMachine

namespace Machine

/-- The cores left by the instructions that are carried out in at most a number of steps, one for
each instruction. -/
def executed : Nat → Machine → List Core
  | 0, _ => []
  | count + 1, machine =>
    match machine.step with
    | (some _, _) => []
    | (none, after) => after.core :: executed count after

/-! ### What is recorded -/

/-- From one machine to another, instructions were carried out that left given cores, and each of
these cores has its row in the trace if tracing is on. -/
structure Records (before : Machine) (cores : List Core) (after : Machine) : Prop where
  tracing : after.tracing = before.tracing
  trace : after.trace.toList =
    before.trace.toList ++ if before.tracing then cores.map Trace.row else []
  steps : after.steps = before.steps + cores.length

theorem Records.append {first middle last : Machine} {front back : List Core}
    (one : Records first front middle) (two : Records middle back last) :
    Records first (front ++ back) last := by
  constructor
  · exact two.tracing.trans one.tracing
  · rw [two.trace, one.trace, one.tracing]
    by_cases on : first.tracing = true
    · simp [on]
    · simp [on]
  · rw [two.steps, one.steps, List.length_append, Nat.add_assoc]

theorem records_nothing (before after : Machine) (tracing : after.tracing = before.tracing)
    (trace : after.trace = before.trace) (steps : after.steps = before.steps) :
    Records before [] after := by
  refine ⟨tracing, ?_, steps⟩
  simp [trace]

/-- A step that gives a reason to stop adds no row. -/
theorem records_of_reason (machine : Machine) (reason : Reason)
    (stops : machine.step.1 = some reason) : Records machine [] machine.step.2 := by
  rcases machine.step_cases with ⟨stop, -, stepped⟩ | ⟨-, -, -, stepped⟩ | ⟨-, -, -, stepped⟩ |
    ⟨word, fault, core, -, -, stepped⟩ | ⟨word, core, -, -, stepped⟩
  · rw [stepped]
    exact records_nothing machine machine rfl rfl rfl
  · rw [stepped]
    exact records_nothing machine _ rfl rfl rfl
  · rw [stepped]
    exact records_nothing machine _ rfl rfl rfl
  · rw [stepped]
    exact records_nothing machine _ rfl rfl rfl
  · rw [stepped] at stops
    cases stops

/-- A step that carries out an instruction records what it leaves. -/
theorem records_of_execution (machine : Machine) (executes : machine.step.1 = none) :
    Records machine [machine.step.2.core] machine.step.2 := by
  rcases machine.step_cases with ⟨stop, -, stepped⟩ | ⟨-, -, -, stepped⟩ | ⟨-, -, -, stepped⟩ |
    ⟨word, fault, core, -, -, stepped⟩ | ⟨word, core, -, -, stepped⟩
  -- Only the last of these carries out an instruction.
  iterate 4
    rw [stepped] at executes
    cases executes
  rw [stepped]
  refine ⟨rfl, ?_, rfl⟩
  by_cases on : machine.tracing = true
  · simp [proceed, on]
  · simp [proceed, on]

theorem records_run (count : Nat) (machine : Machine) :
    Records machine (executed count machine) (run count machine).2 := by
  induction count generalizing machine with
  | zero => exact records_nothing machine machine rfl rfl rfl
  | succ count ih =>
    -- The run records what its first step does, and then what the shorter run from there does.
    have stops := machine.records_of_reason
    have executes := machine.records_of_execution
    unfold executed run
    generalize machine.step = outcome at stops executes
    obtain ⟨_ | reason, after⟩ := outcome
    · exact (executes rfl).append (ih after)
    · exact stops reason rfl

/-! ### Machines that differ in the trace -/

/-- Two machines differ at most in whether steps are traced, and in what has been. -/
def TraceApart (first second : Machine) : Prop :=
  ∃ tracing trace, second = { first with tracing := tracing, trace := trace }

theorem traceApart_setTracing (machine : Machine) (on : Bool) :
    TraceApart machine (machine.setTracing on) :=
  ⟨_, _, rfl⟩

theorem TraceApart.symm {first second : Machine} (apart : TraceApart first second) :
    TraceApart second first := by
  obtain ⟨tracing, trace, rfl⟩ := apart
  exact ⟨first.tracing, first.trace, rfl⟩

theorem TraceApart.trans {first second third : Machine} (one : TraceApart first second)
    (two : TraceApart second third) : TraceApart first third := by
  obtain ⟨_, _, rfl⟩ := one
  obtain ⟨tracing, trace, rfl⟩ := two
  exact ⟨tracing, trace, rfl⟩

theorem TraceApart.step {first second : Machine} (apart : TraceApart first second) :
    second.step.1 = first.step.1 ∧ TraceApart first.step.2 second.step.2 := by
  obtain ⟨tracing, trace, rfl⟩ := apart
  -- The other machine takes the same way through the step, since it only looks at the rest.
  rcases first.step_cases with ⟨stop, stopped, stepped⟩ | ⟨running, breaks, fresh, stepped⟩ |
    ⟨running, passing, fetched, stepped⟩ | ⟨word, fault, core, ready, executed, stepped⟩ |
    ⟨word, core, ready, executed, stepped⟩
  · rw [stepped, step_of_stop { first with tracing := tracing, trace := trace } stop stopped]
    exact ⟨rfl, tracing, trace, rfl⟩
  · have counts : first.core.registers.pc ∈ first.breakpoints ∧
        first.resume ≠ some first.core.registers.pc := ⟨breaks, fresh⟩
    rw [stepped]
    simp only [Machine.step, running, if_pos counts]
    exact ⟨trivial, tracing, trace, rfl⟩
  · rw [stepped, step_of_sentinel { first with tracing := tracing, trace := trace } running passing
      fetched]
    exact ⟨rfl, tracing, trace, rfl⟩
  · rw [stepped, step_of_fault { first with tracing := tracing, trace := trace } word
      ⟨ready.running, ready.passing, ready.fetched⟩ fault core executed]
    exact ⟨rfl, tracing, trace, rfl⟩
  · rw [stepped, step_of_execute { first with tracing := tracing, trace := trace } word
      ⟨ready.running, ready.passing, ready.fetched⟩ core executed]
    exact ⟨rfl, tracing, _, rfl⟩

end Machine

namespace Monitor

open Machine (Records TraceApart)

/-! ### Requests -/

/-- The cores left by the instructions that a request has carried out. -/
def executed (machine : Machine) : Command → List Core
  | .step count | .run count => Machine.executed count machine
  | _ => []

/-- The cores left by the instructions that requests have carried out, one after the other. -/
def executedAll (machine : Machine) : List Command → List Core
  | [] => []
  | command :: rest => executed machine command ++ executedAll (perform machine command).2 rest

/-- The answers to requests, one after the other. -/
def replies (machine : Machine) : List Command → List Reply
  | [] => []
  | command :: rest => (perform machine command).1 :: replies (perform machine command).2 rest

/-- A request that has nothing to do with steps or with the trace. -/
def Command.plain : Command → Bool
  | .step _ | .run _ | .reset | .setTracing _ | .trace => false
  | _ => true

private theorem load_traced (machine : Machine) (program : List Int) (base : Int) (steps : Nat)
    (tracing : Bool) (trace : Array String) :
    Machine.load { machine with steps := steps, tracing := tracing, trace := trace } program base =
      ((machine.load program base).1, { (machine.load program base).2 with
        steps := steps, tracing := tracing, trace := trace }) := by
  unfold Machine.load
  split <;> rfl

/-- A plain request neither asks for what has been counted and traced nor changes it. -/
theorem perform_of_plain (machine : Machine) (command : Command) (plain : command.plain = true)
    (steps : Nat) (tracing : Bool) (trace : Array String) :
    perform { machine with steps := steps, tracing := tracing, trace := trace } command =
      ((perform machine command).1, { (perform machine command).2 with
        steps := steps, tracing := tracing, trace := trace }) := by
  cases command with
  | step _ | run _ | reset | setTracing _ | trace => cases plain
  | load program base =>
    simp only [perform, load_traced]
    rcases machine.load program base with ⟨_ | error, after⟩ <;> rfl
  -- A request that looks something up leaves the same whether or not it is found.
  | getRegister name | setRegister name _ =>
    simp only [perform]
    cases registerNamed name <;> rfl
  | resolve code | resolveAndRead code =>
    simp only [perform, resolving]
    cases modeOfCode code <;> rfl
  | readReference reference =>
    simp only [perform]
    cases machine.core.readReference? reference <;> rfl
  | writeReference reference value =>
    simp only [perform]
    cases machine.core.storeReference reference (Word.ofInt value) <;> rfl
  | _ => rfl

theorem executed_of_plain (machine : Machine) (command : Command) (plain : command.plain = true) :
    executed machine command = [] := by
  cases command with
  | step _ | run _ | reset | setTracing _ | trace => cases plain
  | _ => rfl

theorem records_of_plain (machine : Machine) (command : Command) (plain : command.plain = true) :
    Records machine [] (perform machine command).2 := by
  have kept :=
    perform_of_plain machine command plain machine.steps machine.tracing machine.trace
  apply Machine.records_nothing
  · exact congrArg (fun outcome => outcome.2.tracing) kept
  · exact congrArg (fun outcome => outcome.2.trace) kept
  · exact congrArg (fun outcome => outcome.2.steps) kept

/-- A request other than one that starts the machine over or turns tracing on or off records the
instructions that it carries out. -/
theorem records_perform (machine : Machine) (command : Command) (noReset : command ≠ .reset)
    (noTurn : ∀ on, command ≠ .setTracing on) :
    Records machine (executed machine command) (perform machine command).2 := by
  cases command with
  | step count =>
    have ran := machine.records_run count
    rw [← Raw.stepUpTo_eq_run] at ran
    exact ran
  | run budget => exact machine.records_run budget
  | reset => exact absurd rfl noReset
  | setTracing on => exact absurd rfl (noTurn on)
  | trace => exact Machine.records_nothing machine machine rfl rfl rfl
  | _ =>
    rw [executed_of_plain _ _ rfl]
    exact records_of_plain machine _ rfl

/-! ### Answers -/

theorem stepUpTo_of_traceApart (count : Nat) (first second : Machine)
    (apart : TraceApart first second) :
    (stepUpTo count second).1 = (stepUpTo count first).1 ∧
      TraceApart (stepUpTo count first).2 (stepUpTo count second).2 := by
  induction count generalizing first second with
  | zero => exact ⟨rfl, apart⟩
  | succ count ih =>
    obtain ⟨same, next⟩ := apart.step
    -- The registers that are shown after the step are not part of what differs.
    have display : second.step.2.core.registers.display =
        first.step.2.core.registers.display := by
      obtain ⟨_, _, after⟩ := next
      rw [after]
    obtain ⟨answers, last⟩ := ih first.step.2 second.step.2 next
    -- Either both stop here for the same reason, or both go on.
    unfold stepUpTo
    generalize first.step = one at *
    generalize second.step = two at *
    obtain ⟨answer, after⟩ := one
    obtain ⟨_, later⟩ := two
    cases same
    cases answer with
    | some reason => exact ⟨congrArg (fun display => [(some reason, display)]) display, next⟩
    | none =>
      refine ⟨?_, last⟩
      simp only at answers display
      simp only [answers, display]

theorem run_of_traceApart (budget : Nat) (first second : Machine)
    (apart : TraceApart first second) :
    (Machine.run budget second).1 = (Machine.run budget first).1 ∧
      TraceApart (Machine.run budget first).2 (Machine.run budget second).2 := by
  obtain ⟨same, after⟩ := stepUpTo_of_traceApart budget first second apart
  constructor
  · simp only [run_of_answers, answers, same]
  · rwa [Raw.stepUpTo_eq_run, Raw.stepUpTo_eq_run] at after

/-- Only a request for the trace itself is answered differently by machines that differ in it. -/
theorem perform_of_traceApart (first second : Machine) (apart : TraceApart first second)
    (command : Command) (other : command ≠ .trace) :
    (perform second command).1 = (perform first command).1 ∧
      TraceApart (perform first command).2 (perform second command).2 := by
  -- All that a plain request leaves alone is what the machines differ in.
  have plain (plain : command.plain = true) :
      (perform second command).1 = (perform first command).1 ∧
        TraceApart (perform first command).2 (perform second command).2 := by
    obtain ⟨tracing, trace, rfl⟩ := apart
    have same := perform_of_plain first command plain first.steps tracing trace
    have counted : (perform first command).2.steps = first.steps :=
      (records_of_plain first command plain).steps
    rw [same]
    refine ⟨rfl, tracing, trace, ?_⟩
    rw [counted]
  cases command with
  | step count =>
    obtain ⟨answers, after⟩ := stepUpTo_of_traceApart count first second apart
    exact ⟨congrArg Reply.steps answers, after⟩
  | run budget =>
    obtain ⟨answer, after⟩ := run_of_traceApart budget first second apart
    exact ⟨congrArg Reply.stopped answer, after⟩
  | reset =>
    obtain ⟨tracing, trace, rfl⟩ := apart
    exact ⟨rfl, tracing, #[], rfl⟩
  | setTracing on =>
    have one := (Machine.traceApart_setTracing first on).symm
    exact ⟨rfl, one.trans (apart.trans (Machine.traceApart_setTracing second on))⟩
  | trace => exact absurd rfl other
  | _ => exact plain rfl

theorem performAll_of_traceApart (first second : Machine) (apart : TraceApart first second)
    (commands : List Command) (others : .trace ∉ commands) :
    replies second commands = replies first commands ∧
      TraceApart (performAll first commands) (performAll second commands) := by
  induction commands generalizing first second with
  | nil => exact ⟨rfl, apart⟩
  | cons command rest ih =>
    obtain ⟨other, later⟩ := not_or.mp (mt List.mem_cons.mpr others)
    obtain ⟨answer, next⟩ := perform_of_traceApart first second apart command (Ne.symm other)
    obtain ⟨answers, last⟩ := ih _ _ next later
    refine ⟨?_, last⟩
    rw [replies, replies, answer, answers]

/-! ### The whole trace -/

/-- A machine that is traced already is not changed by turning tracing on. -/
theorem setTracing_of_traced (machine : Machine) (on : machine.tracing = true)
    (begun : machine.trace ≠ #[]) : machine.setTracing true = machine := by
  cases machine
  cases on
  simp only [Machine.setTracing, Machine.mk.injEq, true_and]
  rw [if_neg]
  simpa using begun

/-- While tracing stays on and the machine is not started over, everything is recorded. -/
theorem records_performAll (machine : Machine) (on : machine.tracing = true)
    (begun : machine.trace ≠ #[]) (commands : List Command) (noReset : .reset ∉ commands)
    (noTurn : .setTracing false ∉ commands) :
    Records machine (executedAll machine commands) (performAll machine commands) := by
  induction commands generalizing machine with
  | nil => exact Machine.records_nothing machine machine rfl rfl rfl
  | cons command rest ih =>
    obtain ⟨goes, laterGo⟩ := not_or.mp (mt List.mem_cons.mpr noReset)
    obtain ⟨stays, laterStay⟩ := not_or.mp (mt List.mem_cons.mpr noTurn)
    -- Turning tracing on once more changes nothing, so that it records nothing either.
    have first : Records machine (executed machine command) (perform machine command).2 := by
      by_cases turn : command = .setTracing true
      · subst turn
        have same := setTracing_of_traced machine on begun
        exact Machine.records_nothing machine _ (congrArg _ same) (congrArg _ same)
          (congrArg _ same)
      · apply records_perform machine command (Ne.symm goes)
        rintro (_ | _) same
        · exact stays same.symm
        · exact turn same
    have still : (perform machine command).2.tracing = true := first.tracing.trans on
    -- A trace that is begun never gets shorter.
    have grown : (perform machine command).2.trace ≠ #[] := by
      intro empty
      have lines := first.trace
      rw [empty] at lines
      apply begun
      simpa using (List.append_eq_nil_iff.mp lines.symm).1
    exact first.append (ih _ still grown laterGo laterStay)

end Monitor

open Monitor (Command performAll replies executedAll)

namespace Machine

/-- Whether a machine is traced makes no difference to what it answers and leaves, the trace apart.
A trace that is begun consists of the header, the row of the state then, and a row for each
instruction carried out since, of the state that it left; steps that stop the machine add none. -/
theorem tracing_transparent (machine : Machine) :
    (∀ (one other : Bool) (calls : List Command), .trace ∉ calls →
      replies (machine.setTracing other) calls = replies (machine.setTracing one) calls ∧
        TraceApart (performAll (machine.setTracing one) calls)
          (performAll (machine.setTracing other) calls)) ∧
    (machine.trace = #[] → ∀ further : List Command, .reset ∉ further →
      .setTracing false ∉ further →
        let cores := executedAll (machine.setTracing true) further
        let after := performAll (machine.setTracing true) further
        after.trace.toList = Trace.header :: (machine.core :: cores).map Trace.row ∧
          after.steps = machine.steps + cores.length) ∧
    (∀ reason, machine.step.1 = some reason → machine.step.2.trace = machine.trace) := by
  refine ⟨?_, ?_, ?_⟩
  · intro one other calls others
    have apart := (traceApart_setTracing machine one).symm.trans
      (traceApart_setTracing machine other)
    exact Monitor.performAll_of_traceApart _ _ apart calls others
  · intro empty further noReset noTurn cores after
    have begins : (machine.setTracing true).trace =
        #[Trace.header, Trace.row machine.core] := by
      simp [setTracing, empty]
    have recorded := Monitor.records_performAll (machine.setTracing true) rfl
      (by simp [begins]) further noReset noTurn
    refine ⟨?_, recorded.steps⟩
    have lines := recorded.trace
    rw [begins] at lines
    exact lines
  · intro reason stops
    have lines := (machine.records_of_reason reason stops).trace
    rw [List.map_nil, ite_self, List.append_nil] at lines
    exact Array.toList_inj.mp lines

/-- A jump back to an addition, on the way past a breakpoint at the jump. -/
theorem tracing_transparent_loop :
    let machine := performAll (initial 0) [.load [0x8402, 0x81C1] 0, .step 1, .addBreakpoint 1]
    let further := [.run 5, .step 3, .setRegister ['a'] 7, .run 2]
    replies (machine.setTracing true) further = replies (machine.setTracing false) further ∧
      (performAll (machine.setTracing true) further).trace.toList = Trace.header ::
        (machine.core :: executedAll (machine.setTracing true) further).map Trace.row ∧
      (performAll (machine.setTracing true) further).steps = 5 ∧
      machine.step.1 = some .breakpoint ∧ machine.step.2.trace = #[] := by
  intro machine further
  obtain ⟨transparent, complete, stops⟩ := machine.tracing_transparent
  have answers := (transparent false true further (by simp [further])).1
  obtain ⟨lines, steps⟩ := complete rfl further (by simp [further]) (by simp [further])
  exact ⟨answers, lines, steps.trans rfl, rfl, stops .breakpoint rfl⟩

end Machine

end WordMachine
