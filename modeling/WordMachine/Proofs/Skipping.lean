import WordMachine.Proofs.Steps

/-! Skipping: an instruction is skipped exactly when the one carried out before it was a test that
did not hold and that was itself carried out, and a skipped instruction is passed with nothing done
but what resolving its operands does. -/
namespace WordMachine

/-- One instruction was skipped: only the program counter and the stack pointer have moved, and no
skip is pending any more. -/
structure Skipped (before : Core) (instruction : Instruction) (after : Core) : Prop where
  skip : after.registers.skip = false
  general : ∀ r, after.registers.read r = before.registers.read r
  overflow : after.registers.overflow = before.registers.overflow
  memory : after.memory = before.memory
  pc : after.registers.pc = before.registers.pc + BitVec.ofNat 16 instruction.length
  /-- Values taken off the stack and values put on it still count. -/
  sp : after.registers.sp = before.registers.sp +
    (BitVec.ofNat 16 (instruction.modes.count .pop) -
      BitVec.ofNat 16 (instruction.modes.count .push))

/-- The instruction at the program counter is a test that does not hold between its operands. -/
def FailsTest (core : Core) : Prop :=
  ∃ word condition first second resolved,
    core.memory.fetch core.registers.pc = .word word ∧
    Operation.ofInstruction? (Instruction.ofWord word) = some (.conditional condition) ∧
    (core.jump (core.registers.pc + 1)).resolveAll (Instruction.ofWord word).modes =
      ([first, second], resolved) ∧
    OperationTable.holds (Instruction.ofWord word).opcode (resolved.read first).toNat
      (resolved.read second).toNat = false

/-! ### Stack shifts -/

theorem Mode.sum_stackShift (modes : List Mode) :
    (modes.map stackShift).sum =
      BitVec.ofNat 16 (modes.count .pop) - BitVec.ofNat 16 (modes.count .push) := by
  induction modes with
  | nil => rfl
  | cons mode rest ih =>
    rw [List.map_cons, List.sum_cons, ih]
    by_cases pop : mode = .pop
    · subst pop
      rw [List.count_cons_self, List.count_cons_of_ne (by decide), BitVec.ofNat_add]
      change 1 + (_ - _) = _
      bv_omega
    · by_cases push : mode = .push
      · subst push
        rw [List.count_cons_self, List.count_cons_of_ne (by decide), BitVec.ofNat_add]
        change -1 + (_ - _) = _
        bv_omega
      · have still : mode.stackShift = 0 := by
          cases mode <;> first | rfl | contradiction
        rw [List.count_cons_of_ne pop, List.count_cons_of_ne push, still]
        exact BitVec.zero_add _

/-! ### The flag -/

namespace Core

theorem skip_of_combine (core : Core) (op : BinaryOp) (target source : Location) :
    (core.combine op target source).2.registers.skip = core.registers.skip := by
  unfold combine
  simp only
  split
  · exact (core.stored_of_storeResult target _).skip
  · rfl

/-- Of all operations, only a test that does not hold makes a skip pending. -/
theorem skip_of_effect (core : Core) (settled : core.registers.skip = false)
    (operation : Operation) (locations : List Location) :
    (core.effect operation locations).2.registers.skip = true ↔
      ∃ condition first second, operation = .conditional condition ∧
        locations = [first, second] ∧
        OperationTable.holds operation.opcode (core.read first).toNat (core.read second).toNat =
          false := by
  unfold effect
  split
  next op target source => simp [skip_of_combine, settled]
  next condition first second =>
    rw [test_eq core condition first second settled, setSkip, Bool.not_eq_true']
    constructor
    · exact fun fails => ⟨condition, first, second, rfl, rfl, fails⟩
    · rintro ⟨_, _, _, ⟨⟩, ⟨⟩, fails⟩
      exact fails
  next target => simp [jump, push, setStackPointer, settled]
  next noTest _ =>
    rw [settled]
    constructor
    · exact fun pending => absurd pending Bool.false_ne_true
    · rintro ⟨condition, first, second, rfl, rfl, -⟩
      exact (noTest condition first second rfl rfl).elim

/-- An instruction that faults leaves the flag alone. -/
theorem skip_of_fault (core : Core) (word : Word) (fault : Fault) (after : Core)
    (executed : core.execute word = (some fault, after)) :
    after.registers.skip = core.registers.skip := by
  rcases core.execute_of_fault word fault after executed with
    ⟨-, -, moved⟩ | ⟨_, _, _, -, -, -, -, moved⟩
  · rw [moved, advance_skip]
  · rw [moved, advance_skip]

/-- A defined instruction that is to be skipped is passed. -/
theorem execute_of_pending (core : Core) (word : Word) (operation : Operation)
    (pending : core.registers.skip = true)
    (defined : Operation.ofInstruction? (Instruction.ofWord word) = some operation) :
    ∃ after, core.execute word = (none, after) ∧ Skipped core (Instruction.ofWord word) after := by
  obtain ⟨locations, resolved, -, rfl, executed⟩ := core.execute_of_defined word operation defined
  rw [if_pos pending] at executed
  refine ⟨_, executed, rfl, fun _ => rfl, rfl, rfl, rfl, ?_⟩
  rw [← Mode.sum_stackShift]
  rfl

/-- What a carried out instruction leaves of the flag. -/
theorem skip_of_execute (core : Core) (word : Word) (after : Core)
    (fetched : core.memory.fetch core.registers.pc = .word word)
    (executed : core.execute word = (none, after)) :
    after.registers.skip = true ↔ core.registers.skip = false ∧ FailsTest core := by
  cases defined : Operation.ofInstruction? (Instruction.ofWord word) with
  | none =>
    rw [core.execute_of_undefined word defined] at executed
    cases executed
  | some operation =>
    obtain ⟨locations, resolved, resolves, moved, carried⟩ :=
      core.execute_of_defined word operation defined
    have opcode := ((Operation.ofInstruction?_eq_some_iff _ _).mp defined).1
    have skip : resolved.registers.skip = core.registers.skip := by rw [moved, advance_skip]
    rw [carried] at executed
    cases flag : core.registers.skip with
    | true =>
      rw [if_pos flag] at executed
      cases executed
      simp [setSkip]
    | false =>
      rw [flag, if_neg Bool.false_ne_true] at executed
      have settled := resolved.skip_of_effect (skip.trans flag) operation locations
      rw [executed] at settled
      rw [settled]
      constructor
      · rintro ⟨condition, first, second, rfl, rfl, fails⟩
        refine ⟨rfl, word, condition, first, second, resolved, fetched, defined, resolves, ?_⟩
        rw [← opcode]
        exact fails
      · -- The failing test is the one at the program counter, which was just resolved.
        rintro ⟨-, other, condition, first, second, final, here, tests, resolves', fails⟩
        rw [fetched] at here
        cases here
        rw [defined] at tests
        cases tests
        rw [resolves] at resolves'
        cases resolves'
        refine ⟨condition, first, second, rfl, rfl, ?_⟩
        rw [opcode]
        exact fails

end Core

/-! ### Runs -/

namespace Machine

/-- The machine after a number of calls for a step. -/
def afterCalls (machine : Machine) : Nat → Machine
  | 0 => machine
  | calls + 1 => (machine.afterCalls calls).step.2

/-- The call for a step that comes after a number of others carries out an instruction. -/
def ExecutesAt (machine : Machine) (calls : Nat) : Prop :=
  (machine.afterCalls calls).step.1 = none

/-- Whether a skip is pending after a number of calls for a step. -/
def pendingAt (machine : Machine) (calls : Nat) : Bool :=
  (machine.afterCalls calls).core.registers.skip

theorem skip_of_step (machine : Machine) :
    (machine.step.1 = none →
      (machine.step.2.core.registers.skip = true ↔
        machine.core.registers.skip = false ∧ FailsTest machine.core)) ∧
    (machine.step.1 ≠ none →
      machine.step.2.core.registers.skip = machine.core.registers.skip) := by
  rcases machine.step_cases with ⟨stop, -, stepped⟩ | ⟨-, -, -, stepped⟩ | ⟨-, -, -, stepped⟩ |
    ⟨word, fault, core, -, executed, stepped⟩ | ⟨word, core, ready, executed, stepped⟩
  · rw [stepped]
    exact ⟨nofun, fun _ => rfl⟩
  · rw [stepped]
    exact ⟨nofun, fun _ => rfl⟩
  · rw [stepped]
    exact ⟨nofun, fun _ => rfl⟩
  · rw [stepped]
    exact ⟨nofun, fun _ => machine.core.skip_of_fault word fault core executed⟩
  · rw [stepped]
    refine ⟨fun _ => ?_, fun reason => absurd rfl reason⟩
    exact machine.core.skip_of_execute word core ready.fetched executed

/-- Calls that carry out no instruction leave the flag as it is. -/
theorem pendingAt_of_idle (machine : Machine) (calls further : Nat)
    (idle : ∀ call, calls ≤ call → call < calls + further → ¬machine.ExecutesAt call) :
    machine.pendingAt (calls + further) = machine.pendingAt calls := by
  induction further with
  | zero => rfl
  | succ further ih =>
    have last := (machine.afterCalls (calls + further)).skip_of_step.2
      (idle (calls + further) (by omega) (by omega))
    exact last.trans (ih fun call from' before => idle call from' (by omega))

/-- A defined instruction that is to be skipped, whatever it would do, is passed in one step. A skip
is pending after an instruction exactly if that one was not skipped and was a test that did not
hold; so of two instructions carried out one after the other, with any stops at breakpoints between
them, the second is skipped exactly if the first was such a test. -/
theorem skips_one_after_failed_test (machine : Machine) :
    (∀ word operation, Ready machine word → machine.core.registers.skip = true →
      Operation.ofInstruction? (Instruction.ofWord word) = some operation →
      ∃ after, machine.step = (none, machine.proceed after) ∧
        Skipped machine.core (Instruction.ofWord word) after) ∧
    (∀ calls, machine.ExecutesAt calls →
      (machine.pendingAt (calls + 1) = true ↔
        machine.pendingAt calls = false ∧ FailsTest (machine.afterCalls calls).core)) ∧
    (∀ calls next, calls < next → machine.ExecutesAt calls → machine.ExecutesAt next →
      (∀ call, calls < call → call < next → ¬machine.ExecutesAt call) →
      (machine.pendingAt next = true ↔
        machine.pendingAt calls = false ∧ FailsTest (machine.afterCalls calls).core)) := by
  have one (calls : Nat) (executes : machine.ExecutesAt calls) :
      machine.pendingAt (calls + 1) = true ↔
        machine.pendingAt calls = false ∧ FailsTest (machine.afterCalls calls).core :=
    (machine.afterCalls calls).skip_of_step.1 executes
  refine ⟨?_, one, ?_⟩
  · intro word operation ready pending defined
    obtain ⟨after, executed, skipped⟩ :=
      machine.core.execute_of_pending word operation pending defined
    exact ⟨after, machine.step_of_execute word ready after executed, skipped⟩
  · intro calls next later executes _ idle
    obtain ⟨further, rfl⟩ := Nat.exists_eq_add_of_le (Nat.succ_le_of_lt later)
    rw [machine.pendingAt_of_idle (calls + 1) further fun call from' before =>
      idle call from' before]
    exact one calls executes

/-- A test that does not hold, with a breakpoint between it and an instruction that would store in
a constant what it takes off the stack. -/
theorem skips_one_after_failed_test_at_breakpoint :
    let machine : Machine := ⟨⟨Registers.initial 0,
      (Memory.blank.write 0 0x840C).write 1 0x6301⟩, 0, none, 0, [1], none, false, #[]⟩
    FailsTest machine.core ∧ machine.pendingAt 2 = true ∧ machine.pendingAt 3 = false ∧
      ∃ after, (machine.afterCalls 2).step = (none, (machine.afterCalls 2).proceed after) ∧
        Skipped (machine.afterCalls 2).core (Instruction.ofWord 0x6301) after := by
  intro machine
  obtain ⟨-, settles, alternates⟩ := machine.skips_one_after_failed_test
  obtain ⟨passes, -, -⟩ := (machine.afterCalls 2).skips_one_after_failed_test
  have fails : FailsTest machine.core := ((settles 0 rfl).mp rfl).2
  have idle (call : Nat) (after : 0 < call) (before : call < 2) : ¬machine.ExecutesAt call := by
    obtain rfl : call = 1 := by omega
    exact nofun
  have pending := (alternates 0 2 (by decide) rfl rfl idle).mpr ⟨rfl, fails⟩
  have settled : machine.pendingAt 3 = false := by
    rw [← Bool.not_eq_true, settles 2 rfl, pending]
    exact fun both => absurd both.1 nofun
  exact ⟨fails, pending, settled, passes 0x6301 (.binary .set) ⟨rfl, fun _ => rfl, rfl⟩ pending rfl⟩

end Machine

end WordMachine
