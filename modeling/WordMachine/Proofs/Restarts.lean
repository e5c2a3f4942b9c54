import WordMachine.Proofs.Tracing

/-! Starting over. Whatever a machine has been asked before, a reset leaves it as a new one with the
same cells and breakpoints, so that it goes through every later run as that one does; and a run that
has changed no cell can be repeated. -/
namespace WordMachine

open Monitor (Command performAll replies)

/-! ### The stack pointer at power-on -/

namespace Raw.Machine

theorem initialStack_step (machine : Machine) :
    machine.step.2.initialStack = machine.initialStack := by
  unfold step
  split
  · rfl
  · split
    · rfl
    · simp only
      split
      · rfl
      · split <;> rfl

theorem initialStack_run (budget : Nat) (machine : Machine) :
    (machine.run budget).initialStack = machine.initialStack := by
  induction budget generalizing machine with
  | zero => rfl
  | succ budget ih =>
    have stepped := machine.initialStack_step
    unfold run
    generalize machine.step = outcome at stepped
    obtain ⟨_ | _, after⟩ := outcome
    · exact (ih after).trans stepped
    · exact stepped

theorem initialStack_load (machine : Machine) (program : List Int) (base : Int) :
    (machine.load program base).2.initialStack = machine.initialStack := by
  unfold load
  split
  · rfl
  · split
    · rfl
    · split <;> rfl

/-- No request changes what a reset sets the stack pointer to. -/
theorem initialStack_perform (machine : Machine) (command : Command) :
    (machine.perform command).initialStack = machine.initialStack := by
  cases command with
  | load program base => exact machine.initialStack_load program base
  | step count | run count => exact initialStack_run count machine
  | setRegister name value =>
    simp only [perform]
    rcases Monitor.registerNamed name with _ | (_ | _ | _ | _) <;> rfl
  | resolve code | resolveAndRead code =>
    simp only [perform]
    cases Monitor.modeOfCode code <;> rfl
  | writeReference reference value =>
    simp only [perform]
    split <;> rfl
  | _ => rfl

theorem initialStack_performAll (machine : Machine) (commands : List Command) :
    (machine.performAll commands).initialStack = machine.initialStack := by
  induction commands generalizing machine with
  | nil => rfl
  | cons command rest ih => exact (ih _).trans (machine.initialStack_perform command)

theorem initialStack_build (program? : Option (List Int)) (stack : Int) (machine : Machine)
    (built : build program? stack = some machine) : machine.initialStack = stack := by
  cases program? with
  | none =>
    cases built
    rfl
  | some program =>
    have loaded := (initial stack).initialStack_load program 0
    simp only [build] at built
    generalize (initial stack).load program 0 = outcome at built loaded
    obtain ⟨_ | _, after⟩ := outcome
    · cases built
      exact loaded
    · cases built

/-- A reset sets the registers from the stack pointer as it was given, of any size. -/
theorem perform_reset (program? : Option (List Int)) (stack : Int) (start : Machine)
    (built : build program? stack = some start) (commands : List Command) :
    (start.performAll commands).perform .reset =
      { initial stack with
        core := { (initial stack).core with cells := (start.performAll commands).core.cells }
        breakpoints := (start.performAll commands).breakpoints } := by
  have kept : (start.performAll commands).initialStack = stack :=
    (start.initialStack_performAll commands).trans (initialStack_build program? stack start built)
  rw [perform, kept]
  rfl

end Raw.Machine

namespace Machine

/-- A new machine over words is a new machine over integers. -/
theorem exists_raw_of_build (program? : Option (List Int)) (stack : Int) (start : Machine)
    (built : build program? stack = .ok start) :
    ∃ raw : Raw.Machine, raw.initialStack = stack ∧ Raw.Represents raw start := by
  have initial := Raw.represents_initial stack
  rcases build_cases program? stack start built with rfl | ⟨program, rfl⟩
  · exact ⟨_, rfl, initial⟩
  · exact ⟨_, Raw.Machine.initialStack_perform _ _, Raw.represents_perform _ _ initial _⟩

theorem initialStack_performAll (program? : Option (List Int)) (stack : Int) (start : Machine)
    (built : build program? stack = .ok start) (commands : List Command) :
    (performAll start commands).initialStack = Word.ofInt stack := by
  obtain ⟨raw, rfl, represents⟩ := exists_raw_of_build program? stack start built
  rw [← (Raw.represents_performAll commands raw start represents).stack,
    raw.initialStack_performAll]

/-! ### Breakpoints in another order -/

def withBreakpoints (machine : Machine) (breakpoints : List Word) : Machine :=
  { machine with breakpoints := breakpoints }

/-- The breakpoints of a machine, perhaps in another order or more often. -/
def SameBreakpoints (machine : Machine) (breakpoints : List Word) : Prop :=
  ∀ address, address ∈ breakpoints ↔ address ∈ machine.breakpoints

theorem step_withBreakpoints (machine : Machine) (breakpoints : List Word)
    (same : machine.SameBreakpoints breakpoints) :
    (machine.withBreakpoints breakpoints).step =
      (machine.step.1, machine.step.2.withBreakpoints breakpoints) := by
  rcases machine.step_cases with ⟨stop, stopped, stepped⟩ | ⟨running, breaks, fresh, stepped⟩ |
    ⟨running, passing, fetched, stepped⟩ | ⟨word, fault, core, ready, executed, stepped⟩ |
    ⟨word, core, ready, executed, stepped⟩
  · rw [stepped]
    exact (machine.withBreakpoints breakpoints).step_of_stop stop stopped
  · have counts : machine.core.registers.pc ∈ breakpoints ∧
        machine.resume ≠ some machine.core.registers.pc := ⟨(same _).mpr breaks, fresh⟩
    rw [stepped]
    simp only [withBreakpoints, step, running, if_pos counts]
  · rw [stepped]
    exact (machine.withBreakpoints breakpoints).step_of_sentinel running
      (fun breaks => passing ((same _).mp breaks)) fetched
  · rw [stepped]
    exact (machine.withBreakpoints breakpoints).step_of_fault word
      ⟨ready.running, fun breaks => ready.passing ((same _).mp breaks), ready.fetched⟩ fault core
      executed
  · rw [stepped]
    exact (machine.withBreakpoints breakpoints).step_of_execute word
      ⟨ready.running, fun breaks => ready.passing ((same _).mp breaks), ready.fetched⟩ core executed

/-! ### What steps leave alone -/

/-- What is set on a machine from outside is as before. -/
structure SameSettings (before after : Machine) : Prop where
  initialStack : after.initialStack = before.initialStack
  breakpoints : after.breakpoints = before.breakpoints
  tracing : after.tracing = before.tracing

theorem SameSettings.trans {first second third : Machine} (one : SameSettings first second)
    (two : SameSettings second third) : SameSettings first third :=
  ⟨two.initialStack.trans one.initialStack, two.breakpoints.trans one.breakpoints,
    two.tracing.trans one.tracing⟩

theorem sameSettings_step (machine : Machine) : SameSettings machine machine.step.2 := by
  rcases machine.step_cases with ⟨stop, -, stepped⟩ | ⟨-, -, -, stepped⟩ | ⟨-, -, -, stepped⟩ |
    ⟨word, fault, core, -, -, stepped⟩ | ⟨word, core, -, -, stepped⟩
  all_goals
    rw [stepped]
    exact ⟨rfl, rfl, rfl⟩

theorem sameSettings_run (budget : Nat) (machine : Machine) :
    SameSettings machine (run budget machine).2 := by
  induction budget generalizing machine with
  | zero => exact ⟨rfl, rfl, rfl⟩
  | succ budget ih =>
    have stepped := machine.sameSettings_step
    unfold run
    generalize machine.step = outcome at stepped
    obtain ⟨_ | reason, after⟩ := outcome
    · exact stepped.trans (ih after)
    · exact stepped

end Machine

namespace Monitor

open Machine (SameSettings TraceApart)

/-- A request for a number of steps or for a run. -/
def Command.stepping : Command → Bool
  | .step _ | .run _ => true
  | _ => false

theorem stepUpTo_withBreakpoints (count : Nat) (machine : Machine) (breakpoints : List Word)
    (same : machine.SameBreakpoints breakpoints) :
    stepUpTo count (machine.withBreakpoints breakpoints) =
      ((stepUpTo count machine).1, (stepUpTo count machine).2.withBreakpoints breakpoints) := by
  induction count generalizing machine with
  | zero => rfl
  | succ count ih =>
    have kept := machine.breakpoints_step
    unfold stepUpTo
    rw [machine.step_withBreakpoints breakpoints same]
    generalize machine.step = outcome at kept
    obtain ⟨_ | reason, after⟩ := outcome
    · have still : after.SameBreakpoints breakpoints := fun address => by rw [same, kept]
      simp only [ih after still]
      rfl
    · rfl

theorem perform_withBreakpoints (machine : Machine) (breakpoints : List Word)
    (same : machine.SameBreakpoints breakpoints) (command : Command)
    (stepping : command.stepping = true) :
    perform (machine.withBreakpoints breakpoints) command =
      ((perform machine command).1, (perform machine command).2.withBreakpoints breakpoints) := by
  have stepped (count : Nat) := stepUpTo_withBreakpoints count machine breakpoints same
  cases command with
  | step count =>
    simp only [perform, stepped]
  | run budget =>
    have answer : (Machine.run budget (machine.withBreakpoints breakpoints)).1 =
        (Machine.run budget machine).1 := by
      simp only [run_of_answers, answers, stepped]
    have left : (Machine.run budget (machine.withBreakpoints breakpoints)).2 =
        (Machine.run budget machine).2.withBreakpoints breakpoints := by
      rw [← Raw.stepUpTo_eq_run, stepped, Raw.stepUpTo_eq_run]
    simp only [perform, answer, left]
  | _ => cases stepping

theorem sameSettings_perform (machine : Machine) (command : Command)
    (stepping : command.stepping = true) : SameSettings machine (perform machine command).2 := by
  cases command with
  | step count =>
    have ran := machine.sameSettings_run count
    rw [← Raw.stepUpTo_eq_run] at ran
    exact ran
  | run budget => exact machine.sameSettings_run budget
  | _ => cases stepping

theorem sameSettings_performAll (machine : Machine) (calls : List Command)
    (stepping : ∀ call ∈ calls, call.stepping = true) :
    SameSettings machine (performAll machine calls) := by
  induction calls generalizing machine with
  | nil => exact ⟨rfl, rfl, rfl⟩
  | cons call rest ih =>
    obtain ⟨first, others⟩ := List.forall_mem_cons.mp stepping
    exact (sameSettings_perform machine call first).trans (ih _ others)

theorem performAll_withBreakpoints (machine : Machine) (breakpoints : List Word)
    (same : machine.SameBreakpoints breakpoints) (calls : List Command)
    (stepping : ∀ call ∈ calls, call.stepping = true) :
    replies (machine.withBreakpoints breakpoints) calls = replies machine calls ∧
      performAll (machine.withBreakpoints breakpoints) calls =
        (performAll machine calls).withBreakpoints breakpoints := by
  induction calls generalizing machine with
  | nil => exact ⟨rfl, rfl⟩
  | cons call rest ih =>
    obtain ⟨first, others⟩ := List.forall_mem_cons.mp stepping
    have performed := perform_withBreakpoints machine breakpoints same call first
    have still : (perform machine call).2.SameBreakpoints breakpoints := fun address => by
      rw [same, (sameSettings_perform machine call first).breakpoints]
    obtain ⟨answers, left⟩ := ih _ still others
    constructor
    · rw [replies, performed, answers]
      rfl
    · rw [performAll, List.foldl_cons, performed]
      exact left

theorem trace_notMem_of_stepping (calls : List Command)
    (stepping : ∀ call ∈ calls, call.stepping = true) : .trace ∉ calls :=
  fun member => Bool.noConfusion (stepping .trace member)

/-- Breakpoints are added one after the other. -/
theorem performAll_addBreakpoints (machine : Machine) (addresses : List Word) :
    ∃ breakpoints, performAll machine (addresses.map fun address => .addBreakpoint address.value) =
        machine.withBreakpoints breakpoints ∧
      ∀ address, address ∈ breakpoints ↔ address ∈ addresses ∨ address ∈ machine.breakpoints := by
  induction addresses generalizing machine with
  | nil => exact ⟨machine.breakpoints, rfl, by simp⟩
  | cons first rest ih =>
    obtain ⟨breakpoints, added, members⟩ := ih (machine.addBreakpoint first)
    refine ⟨breakpoints, ?_, fun address => ?_⟩
    · rw [List.map_cons, performAll, List.foldl_cons, perform, Word.ofInt_value]
      exact added
    · rw [members, Machine.addBreakpoint, List.mem_insert_iff, List.mem_cons, or_left_comm,
        or_assoc]

end Monitor

namespace Machine

/-! ### New machines -/

/-- But for its cells, its breakpoints and its trace, a machine is as when it was switched on. -/
structure AsNew (stack : Word) (machine : Machine) : Prop where
  registers : machine.core.registers = Registers.initial stack
  initialStack : machine.initialStack = stack
  stop : machine.stop = none
  steps : machine.steps = 0
  resume : machine.resume = none

/-- Two machines hold the same cells and have the same breakpoints. -/
structure SetUpAlike (first second : Machine) : Prop where
  cells : ∀ address, second.core.memory.fetch address = first.core.memory.fetch address
  breakpoints : ∀ address, address ∈ second.breakpoints ↔ address ∈ first.breakpoints

/-- Two machines have the same registers and cells, have carried out as many instructions, and have
stopped alike, with the same fault if there is one, for good or at a breakpoint. -/
structure Alike (first second : Machine) : Prop where
  core : second.core = first.core
  stop : second.stop = first.stop
  steps : second.steps = first.steps
  resume : second.resume = first.resume

theorem exists_memory_of_load (machine : Machine) (program : List Int) (base : Int) :
    ∃ memory, (machine.load program base).2 =
      { machine with core := { machine.core with memory := memory } } := by
  unfold load
  split
  · exact ⟨machine.core.memory, rfl⟩
  · exact ⟨_, rfl⟩

theorem AsNew.eq {stack : Word} {machine : Machine} (new : machine.AsNew stack) :
    machine = { initial stack with
      core := ⟨Registers.initial stack, machine.core.memory⟩
      breakpoints := machine.breakpoints
      tracing := machine.tracing
      trace := machine.trace } := by
  obtain ⟨⟨_, memory⟩, _, _, _, breakpoints, _, tracing, trace⟩ := machine
  obtain ⟨registers, initialStack, stop, steps, resume⟩ := new
  simp only at registers initialStack stop steps resume
  rw [registers, initialStack, stop, steps, resume]
  rfl

/-- A reset leaves the cells, the breakpoints and whether steps are traced, and nothing else. -/
theorem reset_eq (machine : Machine) :
    machine.reset = { initial machine.initialStack with
      core := ⟨Registers.initial machine.initialStack, machine.core.memory⟩
      breakpoints := machine.breakpoints
      tracing := machine.tracing } :=
  rfl

/-- From two new machines with the same cells and breakpoints, all runs are the same. -/
theorem alike_performAll (stack : Word) (first second : Machine) (one : first.AsNew stack)
    (two : second.AsNew stack) (alike : SetUpAlike first second) (calls : List Command)
    (stepping : ∀ call ∈ calls, call.stepping = true) :
    replies second calls = replies first calls ∧
      Alike (performAll first calls) (performAll second calls) := by
  have memory : second.core.memory = first.core.memory := Memory.ext_fetch _ _ alike.cells
  -- With the breakpoints of the second machine, the first one differs from it in the trace only.
  have apart : TraceApart (first.withBreakpoints second.breakpoints) second := by
    refine ⟨second.tracing, second.trace, ?_⟩
    rw [two.eq, one.eq, memory]
    rfl
  obtain ⟨answers, last⟩ := Monitor.performAll_of_traceApart _ _ apart calls
    (Monitor.trace_notMem_of_stepping calls stepping)
  obtain ⟨same, left⟩ := Monitor.performAll_withBreakpoints first second.breakpoints
    alike.breakpoints calls stepping
  rw [left] at last
  obtain ⟨tracing, trace, reached⟩ := last
  rw [reached]
  exact ⟨answers.trans same, rfl, rfl, rfl, rfl⟩

/-- A new machine can be given the cells and the breakpoints of any machine. -/
theorem exists_setUpAlike (machine : Machine) (stack : Word) :
    ∃ settings : List Command, (performAll (initial stack) settings).AsNew stack ∧
      SetUpAlike machine (performAll (initial stack) settings) := by
  have restored := (initial stack).core.memory.memory_load_raws machine.core.memory
  have copied : (Monitor.perform (initial stack)
      (.copyWords (machine.core.memory.raws 0 Memory.size) 0)).2 =
      { initial stack with core := ⟨Registers.initial stack, machine.core.memory⟩ } :=
    congrArg (fun memory => { initial stack with core := ⟨Registers.initial stack, memory⟩ })
      restored
  obtain ⟨breakpoints, added, members⟩ := Monitor.performAll_addBreakpoints
    { initial stack with core := ⟨Registers.initial stack, machine.core.memory⟩ }
    machine.breakpoints
  refine ⟨.copyWords (machine.core.memory.raws 0 Memory.size) 0 ::
    machine.breakpoints.map fun address => .addBreakpoint address.value, ?_⟩
  rw [performAll, List.foldl_cons, copied]
  rw [performAll] at added
  rw [added]
  refine ⟨⟨rfl, rfl, rfl, rfl, rfl⟩, fun _ => rfl, fun address => ?_⟩
  exact (members address).trans (or_iff_left List.not_mem_nil)

/-! ### Resets -/

/-- What a reset of a machine that was switched on with a stack pointer does. -/
structure StartsOver (stack : Word) (machine : Machine) : Prop where
  /-- The cells, the breakpoints and whether steps are traced stay; all else is as in a new
  machine. -/
  state : machine.reset = { initial stack with
    core := ⟨(initial stack).core.registers, machine.core.memory⟩
    breakpoints := machine.breakpoints
    tracing := machine.tracing }
  again : machine.reset.reset = machine.reset
  /-- Some new machine can be given the same cells and breakpoints. -/
  settable : ∃ settings : List Command, (performAll (initial stack) settings).AsNew stack ∧
    SetUpAlike machine (performAll (initial stack) settings)
  /-- Every new machine with the same cells and breakpoints goes through the same runs. -/
  rerun : ∀ new : Machine, new.AsNew stack → SetUpAlike machine new → ∀ calls : List Command,
    (∀ call ∈ calls, call.stepping = true) →
      replies machine.reset calls = replies new calls ∧
        Alike (performAll new calls) (performAll machine.reset calls)

/-- A run that has changed no cell of a new machine is repeated after a reset. -/
def Repeatable (new : Machine) : Prop :=
  ∀ calls : List Command, (∀ call ∈ calls, call.stepping = true) →
    (∀ address, (performAll new calls).core.memory.fetch address =
      new.core.memory.fetch address) →
    (performAll new calls).reset = { new with trace := #[] } ∧
      replies (performAll new calls).reset calls = replies new calls ∧
      Alike (performAll new calls) (performAll (performAll new calls).reset calls)

theorem startsOver_of_initialStack (machine : Machine) :
    machine.StartsOver machine.initialStack where
  state := rfl
  again := rfl
  settable := machine.exists_setUpAlike machine.initialStack
  rerun new asNew alike calls stepping :=
    alike_performAll machine.initialStack new machine.reset asNew ⟨rfl, rfl, rfl, rfl, rfl⟩
      ⟨fun address => (alike.cells address).symm, fun address => (alike.breakpoints address).symm⟩
      calls stepping

theorem repeatable_of_asNew (stack : Word) (new : Machine) (asNew : new.AsNew stack) :
    new.Repeatable := by
  intro calls stepping cells
  have memory : (performAll new calls).core.memory = new.core.memory :=
    Memory.ext_fetch _ _ cells
  obtain ⟨initialStack, breakpoints, tracing⟩ :=
    Monitor.sameSettings_performAll new calls stepping
  have restored : (performAll new calls).reset = { new with trace := #[] } := by
    rw [reset_eq, initialStack, breakpoints, tracing, memory, asNew.initialStack, asNew.eq]
    rfl
  refine ⟨restored, ?_⟩
  rw [restored]
  exact alike_performAll stack new { new with trace := #[] } asNew
    ⟨asNew.registers, asNew.initialStack, asNew.stop, asNew.steps, asNew.resume⟩
    ⟨fun _ => rfl, fun _ => Iff.rfl⟩ calls stepping

theorem asNew_of_build (program? : Option (List Int)) (stack : Int) (start : Machine)
    (built : build program? stack = .ok start) : start.AsNew (Word.ofInt stack) := by
  rcases build_cases program? stack start built with rfl | ⟨program, rfl⟩
  · exact ⟨rfl, rfl, rfl, rfl, rfl⟩
  · obtain ⟨memory, loaded⟩ := (initial (Word.ofInt stack)).exists_memory_of_load program 0
    rw [Monitor.perform_load, loaded]
    exact ⟨rfl, rfl, rfl, rfl, rfl⟩

/-- Whatever a machine has been asked, a reset makes it a new one with the cells and breakpoints
that it has: everything else is as it was when it was switched on, also if the stack pointer was
given as an integer out of range, and all later runs are as on a new machine that is set up with the
same cells and breakpoints. So a run from a new machine that changes no cell can be repeated. -/
theorem performAll_startsOver (program? : Option (List Int)) (stack : Int) (start : Machine)
    (built : build program? stack = .ok start) (commands : List Command) :
    (performAll start commands).StartsOver (Word.ofInt stack) ∧
      start.AsNew (Word.ofInt stack) ∧
      (∀ new : Machine, new.AsNew (Word.ofInt stack) → new.Repeatable) ∧
      (∀ raw, Raw.Machine.build program? stack = some raw →
        (raw.performAll commands).perform .reset =
          { Raw.Machine.initial stack with
            core := { (Raw.Machine.initial stack).core with
              cells := (raw.performAll commands).core.cells }
            breakpoints := (raw.performAll commands).breakpoints }) := by
  have kept := initialStack_performAll program? stack start built commands
  have startsOver := (performAll start commands).startsOver_of_initialStack
  rw [kept] at startsOver
  refine ⟨startsOver, asNew_of_build program? stack start built, ?_, ?_⟩
  · intro new asNew
    exact repeatable_of_asNew (Word.ofInt stack) new asNew
  · intro raw same
    exact raw.perform_reset program? stack same commands

/-- A machine that was stopped by a store in a constant, past a breakpoint and with a skip pending,
and a cell that was changed; and its first run, which changes none. -/
theorem performAll_startsOver_after_fault :
    ∃ start, build (some [0x8402, 0x3F1]) (-1) = .ok start ∧
      let machine := performAll start [.addBreakpoint 1, .run 9, .run 9, .setSkip true, .write 5 7]
      machine.fault? = some (.illegalWrite ⟨.literal, 31⟩) ∧ machine.StartsOver 0xFFFF ∧
      replies (performAll start [.run 9]).reset [.run 9] = replies start [.run 9] := by
  refine ⟨_, rfl, ?_⟩
  intro machine
  obtain ⟨startsOver, asNew, repeats, -⟩ := performAll_startsOver (some [0x8402, 0x3F1]) (-1) _ rfl
    [.addBreakpoint 1, .run 9, .run 9, .setSkip true, .write 5 7]
  obtain ⟨-, again, -⟩ := repeats _ asNew [.run 9] (by simp [Command.stepping]) fun _ => rfl
  exact ⟨rfl, startsOver, again⟩

end Machine

end WordMachine
