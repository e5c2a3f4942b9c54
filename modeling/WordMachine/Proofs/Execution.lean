import WordMachine.Machine.Basic
import WordMachine.Proofs.Operations
import WordMachine.Proofs.Resolution

/-! Execution of one instruction: resolving its operands, and then a change of one cell and perhaps
of the overflow register, or a test. -/
namespace WordMachine

/-! ### Storing -/

/-- A result was stored: besides its target, and the overflow register when an overflow is given,
everything is as before. -/
structure Stored (before : Core) (target : Location) (result : Word) (overflow? : Option Word)
    (after : Core) : Prop where
  general : ∀ r, after.registers.read r =
    if target = .register r then result else before.registers.read r
  pc : after.registers.pc = if target = .programCounter then result else before.registers.pc
  sp : after.registers.sp = if target = .stackPointer then result else before.registers.sp
  /-- An overflow wins over a result that is stored in the same register. -/
  overflow : after.registers.overflow =
    overflow?.getD (if target = .overflow then result else before.registers.overflow)
  skip : after.registers.skip = before.registers.skip
  memory : ∀ address, after.memory.fetch address =
    if target = .memory address then .word result else before.memory.fetch address

namespace Core

theorem stored_of_store (core : Core) (target : Location) (value : Word) :
    Stored core target value none (core.store target value) := by
  cases target with
  | register r =>
    refine ⟨fun other => ?_, rfl, rfl, rfl, rfl, fun _ => rfl⟩
    simp only [store, Registers.read_write, Location.register.injEq]
  | memory address =>
    refine ⟨fun _ => rfl, rfl, rfl, rfl, rfl, fun other => ?_⟩
    simp only [store, Memory.write, Memory.fetch_put, Location.memory.injEq]
  | _ => exact ⟨fun _ => rfl, rfl, rfl, rfl, rfl, fun _ => rfl⟩

theorem stored_of_storeResult (core : Core) (target : Location) (result : Arithmetic.Result) :
    Stored core target (Word.ofInt result.value) (result.overflow?.map Word.ofInt)
      (core.storeResult target result) := by
  have stored := stored_of_store core target (Word.ofInt result.value)
  unfold storeResult
  cases result.overflow? with
  | none => exact stored
  | some overflow => exact ⟨stored.general, stored.pc, stored.sp, rfl, stored.skip, stored.memory⟩

/-! ### Instructions with two operands -/

theorem stored_of_combine (core : Core) (op : BinaryOp) (target source : Location)
    (writable : target.writable = true) :
    ∃ after, core.combine op target source = (none, after) ∧
      Stored core target
        (OperationTable.result (Operation.binary op).opcode (core.read target) (core.read source))
        (OperationTable.overflow? (Operation.binary op).opcode (core.read target)
          (core.read source)) after := by
  refine ⟨_, by rw [combine, if_pos writable], ?_⟩
  obtain ⟨value, overflow⟩ := op.words_eq (core.read target) (core.read source)
  rw [← value, ← overflow]
  exact stored_of_storeResult core target _

theorem test_eq (core : Core) (condition : Condition) (first second : Location)
    (settled : core.registers.skip = false) :
    core.test condition first second =
      core.setSkip (!OperationTable.holds (Operation.conditional condition).opcode
        (core.read first).toNat (core.read second).toNat) := by
  rw [test, Condition.holds_eq]
  split
  next holds =>
    rw [holds, setSkip, Bool.not_true, ← settled]
  next fails =>
    rw [Bool.not_eq_true] at fails
    rw [fails, Bool.not_false]

/-- Everything that carrying out an instruction with two operands does: both are resolved, and
then its effect takes place unless it is to be skipped. -/
theorem execute_of_plain (core : Core) (word : Word)
    (plain : (Instruction.ofWord word).opcode ≠ 0) :
    ∃ target source resolved,
      (core.jump (core.registers.pc + 1)).resolveAll (Instruction.ofWord word).modes =
        ([target, source], resolved) ∧
      (∀ op, Operation.ofInstruction? (Instruction.ofWord word) = some (.binary op) →
        core.execute word = if core.registers.skip then (none, resolved.setSkip false)
          else resolved.combine op target source) ∧
      (∀ condition,
        Operation.ofInstruction? (Instruction.ofWord word) = some (.conditional condition) →
        core.execute word = if core.registers.skip then (none, resolved.setSkip false)
          else (none, resolved.test condition target source)) := by
  have modes := ((Instruction.ofWord word).plain_cases plain).2
  have moved := core.resolveAll_modes (Instruction.ofWord word)
  rw [modes, resolveAll_pair] at moved
  -- The code looks at the flag after the operands are resolved, which leaves it alone.
  have skip := congrArg (fun core => core.registers.skip) moved
  simp only [advance_skip] at skip
  refine ⟨_, _, _, by rw [modes, resolveAll_pair], ?_, ?_⟩
  · intro op found
    simp only [execute, found, skip]
  · intro condition found
    simp only [execute, found, skip]

end Core

/-! ### Steps -/

/-- A machine that has not stopped and is at no breakpoint that counts is about to carry out a
word. -/
structure Ready (machine : Machine) (word : Word) : Prop where
  running : machine.stop = none
  passing : machine.core.registers.pc ∈ machine.breakpoints →
    machine.resume = some machine.core.registers.pc
  fetched : machine.core.memory.fetch machine.core.registers.pc = .word word

namespace Machine

/-- The machine after an instruction that changed its core. -/
def proceed (machine : Machine) (core : Core) : Machine :=
  { machine with
    core := core
    steps := machine.steps + 1
    resume := none
    trace := if machine.tracing then machine.trace.push (Trace.row core) else machine.trace }

/-- A breakpoint that the last step stopped at does not count again. -/
theorem not_counts_of_passing (machine : Machine)
    (passing : machine.core.registers.pc ∈ machine.breakpoints →
      machine.resume = some machine.core.registers.pc) :
    ¬(machine.core.registers.pc ∈ machine.breakpoints ∧
      machine.resume ≠ some machine.core.registers.pc) :=
  fun both => both.2 (passing both.1)

theorem step_of_execute (machine : Machine) (word : Word) (ready : Ready machine word)
    (core : Core) (executed : machine.core.execute word = (none, core)) :
    machine.step = (none, machine.proceed core) := by
  obtain ⟨running, passing, fetched⟩ := ready
  have counted := machine.not_counts_of_passing passing
  simp only [step, running, if_neg counted, fetched, executed, proceed]

private theorem opcode_binary_le (op : BinaryOp) : (Operation.binary op).opcode.toNat ≤ 0xB := by
  cases op <;> decide

private theorem le_opcode_conditional (condition : Condition) :
    0xC ≤ (Operation.conditional condition).opcode.toNat := by
  cases condition <;> decide

/-- A step carries out an instruction with two operands as the operation table says. Both operands
are resolved, the first before the second, and only then read. A binary operation stores its
result in the first, if that is no constant, and its overflow; a condition that does not hold makes
a skip pending. -/
theorem step_follows_table (machine : Machine) (word : Word) (ready : Ready machine word)
    (settled : machine.core.registers.skip = false)
    (plain : (Instruction.ofWord word).opcode ≠ 0) :
    ∃ target source resolved,
      (machine.core.jump (machine.core.registers.pc + 1)).resolveAll
        (Instruction.ofWord word).modes = ([target, source], resolved) ∧
      resolved = machine.core.advance (Instruction.ofWord word).length
        ((Instruction.ofWord word).modes.map Mode.stackShift).sum ∧
      ((Instruction.ofWord word).opcode.toNat ≤ 0xB → target.writable = true →
        ∃ after, machine.step = (none, machine.proceed after) ∧
          Stored resolved target
            (OperationTable.result (Instruction.ofWord word).opcode (resolved.read target)
              (resolved.read source))
            (OperationTable.overflow? (Instruction.ofWord word).opcode (resolved.read target)
              (resolved.read source)) after) ∧
      (0xC ≤ (Instruction.ofWord word).opcode.toNat →
        machine.step = (none, machine.proceed (resolved.setSkip
          (!OperationTable.holds (Instruction.ofWord word).opcode (resolved.read target).toNat
            (resolved.read source).toNat)))) := by
  obtain ⟨target, source, resolved, resolves, binary, conditional⟩ :=
    machine.core.execute_of_plain word plain
  have moved : resolved = machine.core.advance (Instruction.ofWord word).length
      ((Instruction.ofWord word).modes.map Mode.stackShift).sum := by
    rw [← Core.resolveAll_modes, resolves]
  have skip : resolved.registers.skip = false := by rw [moved, Core.advance_skip, settled]
  obtain ⟨⟨operation, found, other⟩, -⟩ := (Instruction.ofWord word).plain_cases plain
  have opcode := ((Operation.ofInstruction?_eq_some_iff _ _).mp found).1
  refine ⟨target, source, resolved, resolves, moved, ?_, ?_⟩
  -- The code of an operation tells on which side of the table it is.
  · intro low writable
    cases operation with
    | binary op =>
      obtain ⟨after, combined, stored⟩ := resolved.stored_of_combine op target source writable
      have executed := binary op found
      rw [settled, if_neg Bool.false_ne_true, combined] at executed
      rw [opcode] at stored
      exact ⟨after, machine.step_of_execute word ready after executed, stored⟩
    | conditional condition =>
      have high := le_opcode_conditional condition
      rw [opcode] at high
      omega
    | jsr => exact absurd rfl other
  · intro high
    cases operation with
    | binary op =>
      have low := opcode_binary_le op
      rw [opcode] at low
      omega
    | conditional condition =>
      have executed := conditional condition found
      rw [settled, if_neg Bool.false_ne_true, resolved.test_eq condition target source skip,
        opcode] at executed
      exact machine.step_of_execute word ready _ executed
    | jsr => exact absurd rfl other

/-- The overflow of an addition to the overflow register wins over the sum. -/
theorem step_follows_table_overflow :
    let machine : Machine := ⟨⟨{ Registers.initial 0 with overflow := 0xFFFF },
      Memory.blank.write 0 0x71D2⟩, 0, none, 0, [0], some 0, false, #[]⟩
    ∃ after, machine.step = (none, after) ∧ after.core.registers.overflow = 1 ∧
      after.core.registers.pc = 1 := by
  intro machine
  have fetched : (Memory.blank.write 0 0x71D2).fetch 0 = .word 0x71D2 := by
    rw [Memory.write, Memory.fetch_put, if_pos rfl]
  obtain ⟨target, source, resolved, resolves, -, stores, -⟩ :=
    machine.step_follows_table 0x71D2 ⟨rfl, fun _ => rfl, fetched⟩ rfl (by decide)
  have modes : (Instruction.ofWord 0x71D2).modes = [.overflow, .programCounter] := by decide
  rw [modes] at resolves
  cases resolves
  obtain ⟨after, stepped, stored⟩ := stores (by decide) rfl
  have carry : OperationTable.overflow? 0x2 0xFFFF 1 = some 1 := by decide
  exact ⟨_, stepped, stored.overflow.trans (congrArg (Option.getD · _) carry), stored.pc⟩

end Machine

end WordMachine
