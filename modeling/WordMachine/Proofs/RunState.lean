import WordMachine.Proofs.Ranges
import WordMachine.Proofs.Steps

/-! The run state. A machine can keep whether it has stopped, why, and with which fault in three
places that nothing ties together. Whatever is asked of it, the three agree, and once it has stopped
no step and no run does anything before it is reset. -/
namespace WordMachine

/-! ### Requests that make no step -/

namespace Monitor

/-- A request that neither makes a step nor starts the machine over. -/
def Command.quiet : Command → Bool
  | .step _ | .run _ | .reset => false
  | _ => true

theorem perform_load (machine : Machine) (program : List Int) (base : Int) :
    (perform machine (.load program base)).2 = (machine.load program base).2 := by
  simp only [perform]
  rcases machine.load program base with ⟨_ | error, after⟩ <;> rfl

private theorem load_with (machine : Machine) (program : List Int) (base : Int)
    (stop : Option Stop) (resume : Option Word) :
    (Machine.load { machine with stop := stop, resume := resume } program base).2 =
      { (machine.load program base).2 with stop := stop, resume := resume } := by
  unfold Machine.load
  split <;> rfl

/-- A request that makes no step neither asks for what decides about steps nor changes it. -/
theorem perform_of_quiet (machine : Machine) (command : Command) (quiet : command.quiet = true)
    (stop : Option Stop) (resume : Option Word) :
    (perform { machine with stop := stop, resume := resume } command).2 =
      { (perform machine command).2 with stop := stop, resume := resume } := by
  cases command with
  | step _ | run _ | reset => cases quiet
  | load program base =>
    rw [perform_load, perform_load]
    exact load_with machine program base stop resume
  -- A request that looks something up leaves the same whether or not it is found.
  | getRegister name | setRegister name _ =>
    simp only [perform]
    cases registerNamed name <;> rfl
  | resolve code | resolveAndRead code =>
    simp only [perform, resolving]
    cases modeOfCode code <;> rfl
  | readReference reference =>
    simp only [perform]
    cases machine.core.readReference? reference <;> rfl
  | writeReference reference value =>
    simp only [perform]
    cases machine.core.storeReference reference (Word.ofInt value) <;> rfl
  | _ => rfl

theorem stop_of_quiet (machine : Machine) (command : Command) (quiet : command.quiet = true) :
    (perform machine command).2.stop = machine.stop := by
  have kept := perform_of_quiet machine command quiet machine.stop machine.resume
  exact congrArg (fun after => after.stop) kept

theorem resume_of_quiet (machine : Machine) (command : Command) (quiet : command.quiet = true) :
    (perform machine command).2.resume = machine.resume := by
  have kept := perform_of_quiet machine command quiet machine.stop machine.resume
  exact congrArg (fun after => after.resume) kept

end Monitor

open Monitor (Command performAll)

/-! ### Run states in three places -/

/-- A machine whose run state is in three places. -/
structure LooseMachine where
  /-- All the rest, of which it is not asked whether it has stopped. -/
  parts : Machine
  halted : Bool
  reason? : Option Reason
  fault? : Option Fault

namespace LooseMachine

def fresh (parts : Machine) : LooseMachine := ⟨parts, false, none, none⟩

def stopWith (machine : LooseMachine) (reason : Reason) (fault? : Option Fault) :
    Option Reason × LooseMachine :=
  (some reason, { machine with halted := true, reason? := some reason, fault? := fault? })

def step (machine : LooseMachine) : Option Reason × LooseMachine :=
  if machine.halted then (machine.reason?, machine)
  else
    let pc := machine.parts.core.registers.pc
    if machine.parts.breakpoints.contains pc && machine.parts.resume != some pc then
      (some .breakpoint, { machine with parts := { machine.parts with resume := some pc } })
    else
      let machine := { machine with parts := { machine.parts with resume := none } }
      match machine.parts.core.memory.fetch pc with
      | .sentinel => machine.stopWith .halt none
      | .word word =>
        match machine.parts.core.execute word with
        | (none, core) => (none, { machine with parts := machine.parts.proceed core })
        | (some fault, core) =>
          let machine := { machine with parts := { machine.parts with core := core } }
          match fault with
          | .illegalOpcode _ _ => machine.stopWith .illegal (some fault)
          | .illegalWrite _ => machine.stopWith .illegalWrite (some fault)

def run : Nat → LooseMachine → Reason × LooseMachine
  | 0, machine => (.timeout, machine)
  | budget + 1, machine =>
    match machine.step with
    | (some reason, machine) => (reason, machine)
    | (none, machine) => run budget machine

/-- What a request leaves. One for steps goes no further than a run. -/
def perform (machine : LooseMachine) : Command → LooseMachine
  | .step count | .run count => (run count machine).2
  | .reset => fresh machine.parts.reset
  | command => { machine with parts := (Monitor.perform machine.parts command).2 }

def performAll (machine : LooseMachine) (commands : List Command) : LooseMachine :=
  commands.foldl perform machine

/-- Whether a machine has stopped, why, and with which fault agree. -/
structure Consistent (machine : LooseMachine) : Prop where
  halted : machine.halted = true ↔ machine.reason? ≠ none
  /-- A machine never stops for good at a breakpoint or when a run is over. -/
  final : ∀ reason, machine.reason? = some reason →
    reason = .halt ∨ reason = .illegal ∨ reason = .illegalWrite
  illegal : machine.reason? = some .illegal →
    ∃ word address, machine.fault? = some (.illegalOpcode word address)
  illegalWrite : machine.reason? = some .illegalWrite →
    ∃ target, machine.fault? = some (.illegalWrite target)
  faultless : machine.reason? ≠ some .illegal → machine.reason? ≠ some .illegalWrite →
    machine.fault? = none

/-- A machine that has stopped for a reason, with a fault if there was one, gives the reason again
for every step and every run, and nothing in it changes. -/
structure Absorbed (machine : LooseMachine) (reason : Reason) (fault? : Option Fault) : Prop where
  halted : machine.halted = true
  reason? : machine.reason? = some reason
  fault? : machine.fault? = fault?
  step : machine.step = (some reason, machine)
  run : ∀ budget, 0 < budget → machine.run budget = (reason, machine)

end LooseMachine

/-! ### The same machine -/

/-- The run state of a machine taken apart. -/
def Machine.loosen (machine : Machine) : LooseMachine :=
  ⟨{ machine with stop := none }, machine.stop.isSome, machine.stop.map Stop.reason, machine.fault?⟩

namespace LooseMachine

private theorem counts_iff (machine : Machine) :
    (machine.breakpoints.contains machine.core.registers.pc &&
        machine.resume != some machine.core.registers.pc) = true ↔
      machine.core.registers.pc ∈ machine.breakpoints ∧
        machine.resume ≠ some machine.core.registers.pc := by
  rw [Bool.and_eq_true, List.contains_iff_mem, bne_iff_ne]

theorem step_loosen (machine : Machine) :
    machine.loosen.step = (machine.step.1, machine.step.2.loosen) := by
  rcases machine.step_cases with ⟨stop, stopped, stepped⟩ | ⟨running, breaks, fresh, stepped⟩ |
    ⟨running, passing, fetched, stepped⟩ | ⟨word, fault, core, ready, executed, stepped⟩ |
    ⟨word, core, ready, executed, stepped⟩
  · rw [stepped]
    simp only [step, Machine.loosen, stopped, Option.isSome_some, if_true, Option.map_some]
  · rw [stepped]
    simp only [step, Machine.loosen, running, counts_iff, if_pos (And.intro breaks fresh),
      Machine.fault?]
    rfl
  · have counted := machine.not_counts_of_passing passing
    rw [stepped]
    simp only [step, Machine.loosen, running, fetched, counts_iff, if_neg counted]
    rfl
  · have counted := machine.not_counts_of_passing ready.passing
    rw [stepped]
    simp only [step, Machine.loosen, ready.running, ready.fetched, executed, counts_iff,
      if_neg counted]
    -- The kind of the fault is the reason.
    cases fault <;> rfl
  · have counted := machine.not_counts_of_passing ready.passing
    rw [stepped]
    simp only [step, Machine.loosen, Machine.proceed, Machine.fault?, ready.running, ready.fetched,
      executed, counts_iff, if_neg counted]
    rfl

theorem run_loosen (budget : Nat) (machine : Machine) :
    machine.loosen.run budget =
      ((Machine.run budget machine).1, (Machine.run budget machine).2.loosen) := by
  induction budget generalizing machine with
  | zero => rfl
  | succ budget ih =>
    rw [run, Machine.run, step_loosen]
    rcases machine.step with ⟨_ | reason, after⟩
    · exact ih after
    · rfl

private theorem perform_of_quiet (machine : LooseMachine) (command : Command)
    (quiet : command.quiet = true) : machine.perform command =
      { machine with parts := (Monitor.perform machine.parts command).2 } := by
  cases command with
  | step _ | run _ | reset => cases quiet
  | _ => rfl

private theorem perform_loosen_of_quiet (machine : Machine) (command : Command)
    (quiet : command.quiet = true) :
    machine.loosen.perform command = (Monitor.perform machine command).2.loosen := by
  have parts : (Monitor.perform machine.loosen.parts command).2 = _ :=
    Monitor.perform_of_quiet machine command quiet none machine.resume
  rw [perform_of_quiet _ command quiet, parts, Machine.loosen, Machine.loosen, Machine.fault?,
    Machine.fault?, Monitor.stop_of_quiet machine command quiet,
    ← Monitor.resume_of_quiet machine command quiet]

theorem perform_loosen (machine : Machine) (command : Command) :
    machine.loosen.perform command = (Monitor.perform machine command).2.loosen := by
  cases command with
  | step count =>
    rw [perform, run_loosen, ← Raw.stepUpTo_eq_run]
    rfl
  | run budget =>
    rw [perform, run_loosen]
    rfl
  | reset => rfl
  | _ => exact perform_loosen_of_quiet machine _ rfl

theorem performAll_loosen (machine : Machine) (commands : List Command) :
    machine.loosen.performAll commands = (Monitor.performAll machine commands).loosen := by
  induction commands generalizing machine with
  | nil => rfl
  | cons command rest ih =>
    rw [performAll, List.foldl_cons, perform_loosen]
    exact ih _

end LooseMachine

/-! ### Stopped machines -/

namespace Machine

/-- A new machine is as it was switched on, except for a program that was loaded into it. -/
theorem build_cases (program? : Option (List Int)) (stack : Int) (machine : Machine)
    (built : build program? stack = .ok machine) :
    machine = initial (Word.ofInt stack) ∨ ∃ program,
      machine = (Monitor.perform (initial (Word.ofInt stack)) (.load program 0)).2 := by
  cases program? with
  | none =>
    cases built
    exact .inl rfl
  | some program =>
    refine .inr ⟨program, ?_⟩
    rw [Monitor.perform_load]
    simp only [build, withProgram] at built
    split at built
    · cases built
    next outcome =>
      cases built
      rw [outcome]

theorem stop_of_build (program? : Option (List Int)) (stack : Int) (machine : Machine)
    (built : build program? stack = .ok machine) : machine.stop = none ∧ machine.resume = none := by
  rcases build_cases program? stack machine built with rfl | ⟨program, rfl⟩
  · exact ⟨rfl, rfl⟩
  · constructor
    · apply Monitor.stop_of_quiet
      rfl
    · apply Monitor.resume_of_quiet
      rfl

/-- Every step and every run of a machine gives a reason, and nothing in the machine changes. -/
structure Idle (machine : Machine) (reason : Reason) : Prop where
  step : machine.step = (some reason, machine)
  run : ∀ budget, 0 < budget → Machine.run budget machine = (reason, machine)

theorem idle_of_stop (machine : Machine) (stop : Stop) (stopped : machine.stop = some stop) :
    machine.Idle stop.reason := by
  have step := machine.step_of_stop stop stopped
  refine ⟨step, fun budget positive => ?_⟩
  obtain ⟨budget, rfl⟩ := Nat.exists_eq_add_of_lt positive
  rw [Nat.zero_add, run, step]

/-- Only a reset starts a stopped machine again. -/
theorem stop_of_perform (machine : Machine) (stop : Stop) (stopped : machine.stop = some stop)
    (command : Command) (noReset : command ≠ .reset) :
    (Monitor.perform machine command).2.stop = some stop := by
  -- Also a run that may carry out nothing leaves the machine as it is.
  have ran (budget : Nat) : (run budget machine).2.stop = some stop := by
    cases budget with
    | zero => exact stopped
    | succ budget => rw [(machine.idle_of_stop stop stopped).run _ budget.succ_pos, stopped]
  cases command with
  | reset => exact absurd rfl noReset
  | step count =>
    rw [← ran count, ← Raw.stepUpTo_eq_run]
    rfl
  | run budget => exact ran budget
  | _ => exact (Monitor.stop_of_quiet machine _ rfl).trans stopped

theorem stop_of_performAll (machine : Machine) (stop : Stop) (stopped : machine.stop = some stop)
    (commands : List Command) (noReset : .reset ∉ commands) :
    (performAll machine commands).stop = some stop := by
  induction commands generalizing machine with
  | nil => exact stopped
  | cons command rest ih =>
    obtain ⟨first, others⟩ := not_or.mp (mt List.mem_cons.mpr noReset)
    exact ih _ (machine.stop_of_perform stop stopped command (Ne.symm first)) others

end Machine

namespace LooseMachine

theorem loosen_of_running (machine : Machine) (running : machine.stop = none) :
    machine.loosen = fresh machine := by
  cases machine
  cases running
  rfl

theorem consistent_loosen (machine : Machine) : machine.loosen.Consistent := by
  simp only [Machine.loosen, Machine.fault?]
  cases machine.stop with
  | none => exact ⟨by simp, nofun, nofun, nofun, fun _ _ => rfl⟩
  | some stop =>
    cases stop with
    | halt => constructor <;> simp [Stop.reason, Stop.fault?]
    | fault cause => cases cause <;> constructor <;> simp [Stop.reason, Stop.fault?]

theorem absorbed_loosen (machine : Machine) (stop : Stop) (stopped : machine.stop = some stop) :
    machine.loosen.Absorbed stop.reason stop.fault? where
  halted := by simp only [Machine.loosen, stopped, Option.isSome_some]
  reason? := by simp only [Machine.loosen, stopped, Option.map_some]
  fault? := by simp only [Machine.loosen, Machine.fault?, stopped, Option.bind_some]
  step := by rw [step_loosen, (machine.idle_of_stop stop stopped).step]
  run budget positive := by rw [run_loosen, (machine.idle_of_stop stop stopped).run budget positive]

/-- Whatever is asked of a new machine, whether it has stopped, why, and with which fault agree; and
once it has stopped, whatever is asked of it but a reset, every step and every run gives the reason
again and changes nothing. -/
theorem performAll_consistent (program? : Option (List Int)) (stack : Int) (start : Machine)
    (built : Machine.build program? stack = .ok start) (commands : List Command) :
    let machine := (fresh start).performAll commands
    machine = (Monitor.performAll start commands).loosen ∧ machine.Consistent ∧
      (machine.halted = true → ∃ reason, machine.reason? = some reason ∧
        ∀ further : List Command, .reset ∉ further →
          (machine.performAll further).Absorbed reason machine.fault? ∧
            (Monitor.performAll start (commands ++ further)).Idle reason) := by
  intro machine
  have new := loosen_of_running start (Machine.stop_of_build program? stack start built).1
  have same : machine = (Monitor.performAll start commands).loosen := by
    rw [← performAll_loosen, new]
  refine ⟨same, same ▸ consistent_loosen _, ?_⟩
  intro halted
  rw [same] at halted ⊢
  obtain ⟨stop, stopped⟩ := Option.isSome_iff_exists.mp halted
  have absorbed := absorbed_loosen _ stop stopped
  refine ⟨stop.reason, absorbed.reason?, fun further noReset => ?_⟩
  have remains := Machine.stop_of_performAll _ stop stopped further noReset
  have appended : Monitor.performAll start (commands ++ further) = _ := List.foldl_append
  rw [performAll_loosen, absorbed.fault?, appended]
  exact ⟨absorbed_loosen _ stop remains, Machine.idle_of_stop _ stop remains⟩

/-- A machine that has stored in a constant, with another instruction put in the place of that one,
a breakpoint behind it and the program counter set back. -/
theorem performAll_consistent_illegalWrite :
    ∃ start, Machine.build (some [0x3F1]) 0 = .ok start ∧
      let machine := (fresh start).performAll [.run 9]
      machine.halted = true ∧ machine.fault? = some (.illegalWrite ⟨.literal, 31⟩) ∧
      (machine.performAll [.load [0x8401] 0, .addBreakpoint 1, .setRegister ['p', 'c'] 0,
        .step 2]).Absorbed .illegalWrite (some (.illegalWrite ⟨.literal, 31⟩)) := by
  refine ⟨_, rfl, ?_⟩
  intro machine
  obtain ⟨-, -, stops⟩ := performAll_consistent (some [0x3F1]) 0 _ rfl [.run 9]
  have halted : machine.halted = true := rfl
  have fault : machine.fault? = some (.illegalWrite ⟨.literal, 31⟩) := rfl
  obtain ⟨reason, recorded, absorbed⟩ := stops halted
  obtain rfl : .illegalWrite = reason := Option.some.inj recorded
  rw [← fault]
  exact ⟨halted, rfl, (absorbed _ (by simp)).1⟩

end LooseMachine

end WordMachine
