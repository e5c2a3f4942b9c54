import WordMachine.Proofs.Execution

/-! What a step can do. A call of a stopped machine, a breakpoint, the sentinel, a fault and an
instruction carried out are all there is; an instruction has the effect of its operation on the
resolved core, unless it is to be skipped. -/
namespace WordMachine

/-! ### Instructions -/

namespace Instruction

theorem opcode_ne_zero_of_defined (instruction : Instruction) (operation : Operation)
    (defined : Operation.ofInstruction? instruction = some operation)
    (noCall : operation ≠ .jsr) : instruction.opcode ≠ 0 := by
  rw [← ((Operation.ofInstruction?_eq_some_iff _ _).mp defined).1]
  exact mt (Operation.opcode_eq_zero_iff operation).mp noCall

theorem modes_of_defined (instruction : Instruction) (operation : Operation)
    (defined : Operation.ofInstruction? instruction = some operation)
    (noCall : operation ≠ .jsr) :
    instruction.modes = [Mode.ofCode instruction.a, Mode.ofCode instruction.b] :=
  (instruction.plain_cases (instruction.opcode_ne_zero_of_defined operation defined noCall)).2

theorem modes_of_jsr (instruction : Instruction)
    (defined : Operation.ofInstruction? instruction = some .jsr) :
    instruction.modes = [Mode.ofCode instruction.b] := by
  have opcode := ((Operation.ofInstruction?_eq_some_iff _ _).mp defined).1
  have extended : instruction.extended = true := by
    rw [Instruction.extended, ← opcode]
    rfl
  rw [modes, extended]
  rfl

theorem length_modes (instruction : Instruction) (operation : Operation)
    (defined : Operation.ofInstruction? instruction = some operation) :
    instruction.modes.length = operation.operandCount := by
  cases operation with
  | jsr =>
    rw [instruction.modes_of_jsr defined]
    rfl
  | _ =>
    rw [instruction.modes_of_defined _ defined nofun]
    rfl

/-- The operation stores its result, and its first operand is a constant. -/
def StoresInConstant (instruction : Instruction) : Prop :=
  1 ≤ instruction.opcode.toNat ∧ instruction.opcode.toNat ≤ 0xB ∧ 0x1F ≤ instruction.a.toNat

end Instruction

private theorem Operation.binary_iff (operation : Operation) :
    (∃ op, operation = .binary op) ↔
      1 ≤ operation.opcode.toNat ∧ operation.opcode.toNat ≤ 0xB := by
  cases operation with
  | binary op => exact iff_of_true ⟨op, rfl⟩ (by cases op <;> decide)
  | conditional condition => exact iff_of_false nofun (by cases condition <;> decide)
  | jsr => exact iff_of_false nofun (by decide)

/-- Exactly the operands with the codes from 0x1F on are constants. -/
private theorem Mode.not_writable_iff (code : BitVec 6) (registers : Registers) (next : Word) :
    ((Mode.ofCode code).location registers next).writable = false ↔ 0x1F ≤ code.toNat := by
  have constants : ∀ code, ((Mode.ofCode code).location registers next).writable =
      match Mode.ofCode code with
        | .nextWord | .literal _ => false
        | _ => true := by
    intro code
    cases Mode.ofCode code <;> rfl
  rw [constants]
  revert code
  decide

namespace Core

/-- The effect of an operation on a core whose operands are at given locations. -/
def effect (core : Core) (operation : Operation) (locations : List Location) :
    Option Fault × Core :=
  match operation, locations with
  | .binary op, [target, source] => core.combine op target source
  | .conditional condition, [first, second] => (none, core.test condition first second)
  | .jsr, [target] => (none, (core.push core.registers.pc).jump (core.read target))
  -- There are always as many locations as the operation has operands.
  | _, _ => (none, core)

theorem execute_of_undefined (core : Core) (word : Word)
    (undefined : Operation.ofInstruction? (Instruction.ofWord word) = none) :
    core.execute word =
      (some (.illegalOpcode word core.registers.pc), core.jump (core.registers.pc + 1)) := by
  simp only [execute, undefined]

private theorem execute_of_jsr (core : Core) (word : Word)
    (defined : Operation.ofInstruction? (Instruction.ofWord word) = some .jsr) :
    ∃ target resolved,
      (core.jump (core.registers.pc + 1)).resolveAll (Instruction.ofWord word).modes =
        ([target], resolved) ∧
      core.execute word = if core.registers.skip then (none, resolved.setSkip false)
        else resolved.effect .jsr [target] := by
  have modes := (Instruction.ofWord word).modes_of_jsr defined
  have moved := core.resolveAll_modes (Instruction.ofWord word)
  rw [modes] at moved
  have skip := congrArg (fun core => core.registers.skip) moved
  simp only [advance_skip] at skip
  refine ⟨_, _, by rw [modes]; rfl, ?_⟩
  rw [← skip]
  simp only [execute, defined]
  rfl

/-- Everything that carrying out a defined instruction does: all its operands are resolved, which
moves the core past it, and then its operation takes effect unless it is to be skipped. -/
theorem execute_of_defined (core : Core) (word : Word) (operation : Operation)
    (defined : Operation.ofInstruction? (Instruction.ofWord word) = some operation) :
    ∃ locations resolved,
      (core.jump (core.registers.pc + 1)).resolveAll (Instruction.ofWord word).modes =
        (locations, resolved) ∧
      resolved = core.advance (Instruction.ofWord word).length
        ((Instruction.ofWord word).modes.map Mode.stackShift).sum ∧
      core.execute word = if core.registers.skip then (none, resolved.setSkip false)
        else resolved.effect operation locations := by
  have moved := core.resolveAll_modes (Instruction.ofWord word)
  have plain := (Instruction.ofWord word).opcode_ne_zero_of_defined operation defined
  cases operation with
  | jsr =>
    obtain ⟨target, resolved, resolves, executed⟩ := core.execute_of_jsr word defined
    rw [resolves] at moved
    exact ⟨_, _, resolves, moved, executed⟩
  | binary op =>
    obtain ⟨target, source, resolved, resolves, executed, -⟩ :=
      core.execute_of_plain word (plain nofun)
    rw [resolves] at moved
    exact ⟨_, _, resolves, moved, executed op defined⟩
  | conditional condition =>
    obtain ⟨first, second, resolved, resolves, -, executed⟩ :=
      core.execute_of_plain word (plain nofun)
    rw [resolves] at moved
    exact ⟨_, _, resolves, moved, executed condition defined⟩

/-- A test does nothing but to the skip flag. -/
theorem effect_of_conditional (core : Core) (condition : Condition) (locations : List Location) :
    ∃ pending, core.effect (.conditional condition) locations = (none, core.setSkip pending) := by
  unfold effect
  split
  next other => cases other
  next =>
    unfold test
    split
    · exact ⟨core.registers.skip, rfl⟩
    · exact ⟨true, rfl⟩
  next other => cases other
  next => exact ⟨core.registers.skip, rfl⟩

/-- Only storing in a constant faults, and then nothing is stored. -/
theorem effect_fault_iff (core : Core) (operation : Operation) (locations : List Location)
    (fault : Fault) (after : Core) :
    core.effect operation locations = (some fault, after) ↔
      ∃ op target source, operation = .binary op ∧ locations = [target, source] ∧
        target.writable = false ∧ fault = .illegalWrite target.reference ∧ after = core := by
  constructor
  · intro failed
    unfold effect at failed
    split at failed
    next op target source =>
      unfold combine at failed
      simp only at failed
      split at failed
      · cases failed
      next constant =>
        cases failed
        exact ⟨op, target, source, rfl, rfl, Bool.not_eq_true _ ▸ constant, rfl, rfl⟩
    all_goals cases failed
  · rintro ⟨op, target, source, rfl, rfl, constant, rfl, rfl⟩
    simp [effect, combine, constant]

private theorem locations_of_plain (core : Core) (instruction : Instruction)
    (operation : Operation)
    (defined : Operation.ofInstruction? instruction = some operation) (noCall : operation ≠ .jsr)
    (locations : List Location) (resolved : Core)
    (resolves : core.resolveAll instruction.modes = (locations, resolved)) :
    ∃ target source, locations = [target, source] ∧
      (target.writable = false ↔ 0x1F ≤ instruction.a.toNat) := by
  rw [instruction.modes_of_defined operation defined noCall, resolveAll_pair, resolve_eq]
    at resolves
  obtain ⟨rfl, -⟩ := Prod.mk.inj resolves
  exact ⟨_, _, rfl, Mode.not_writable_iff _ _ _⟩

/-- An operation that stores faults if its first operand is a constant, and no other does. -/
private theorem effect_fault_cases (core : Core) (word : Word) (operation : Operation)
    (defined : Operation.ofInstruction? (Instruction.ofWord word) = some operation)
    (locations : List Location) (resolved : Core)
    (resolves : core.resolveAll (Instruction.ofWord word).modes = (locations, resolved)) :
    ((Instruction.ofWord word).StoresInConstant ∧
      ∃ target, (resolved.effect operation locations).1 = some (.illegalWrite target)) ∨
    (¬(Instruction.ofWord word).StoresInConstant ∧
      (resolved.effect operation locations).1 = none) := by
  have opcode := ((Operation.ofInstruction?_eq_some_iff _ _).mp defined).1
  have plain (noCall : operation ≠ .jsr) :=
    core.locations_of_plain _ operation defined noCall locations resolved resolves
  rcases outcome : resolved.effect operation locations with ⟨_ | fault, after⟩
  · refine .inr ⟨?_, rfl⟩
    rintro ⟨low, high, constant⟩
    obtain ⟨op, rfl⟩ := operation.binary_iff.mpr (by rw [opcode]; exact ⟨low, high⟩)
    obtain ⟨target, source, rfl, readOnly⟩ := plain nofun
    have failed := (resolved.effect_fault_iff _ _ _ _).mpr
      ⟨op, target, source, rfl, rfl, readOnly.mpr constant, rfl, rfl⟩
    rw [outcome] at failed
    cases failed
  · obtain ⟨op, target, source, rfl, rfl, constant, rfl, -⟩ :=
      (resolved.effect_fault_iff _ _ _ _).mp outcome
    obtain ⟨first, second, same, readOnly⟩ := plain nofun
    cases same
    have stores := (Operation.binary op).binary_iff.mp ⟨op, rfl⟩
    rw [opcode] at stores
    exact .inl ⟨⟨stores.1, stores.2, readOnly.mp constant⟩, _, rfl⟩

/-- Everything that an instruction which faults does: an undefined one is passed by one word, and of
one that stores in a constant the operands are resolved. -/
theorem execute_of_fault (core : Core) (word : Word) (fault : Fault) (after : Core)
    (executed : core.execute word = (some fault, after)) :
    (Operation.ofInstruction? (Instruction.ofWord word) = none ∧
      fault = .illegalOpcode word core.registers.pc ∧ after = core.advance 1 0) ∨
    (∃ op target source, Operation.ofInstruction? (Instruction.ofWord word) = some (.binary op) ∧
      (core.jump (core.registers.pc + 1)).resolveAll (Instruction.ofWord word).modes =
        ([target, source], after) ∧
      target.writable = false ∧ fault = .illegalWrite target.reference ∧
      after = core.advance (Instruction.ofWord word).length
        ((Instruction.ofWord word).modes.map Mode.stackShift).sum) := by
  cases defined : Operation.ofInstruction? (Instruction.ofWord word) with
  | none =>
    rw [core.execute_of_undefined word defined] at executed
    cases executed
    exact .inl ⟨rfl, rfl, core.jump_next⟩
  | some operation =>
    obtain ⟨locations, resolved, resolves, moved, carried⟩ :=
      core.execute_of_defined word operation defined
    rw [carried] at executed
    split at executed
    · cases executed
    · obtain ⟨op, target, source, rfl, rfl, constant, rfl, rfl⟩ :=
        (effect_fault_iff _ _ _ fault after).mp executed
      exact .inr ⟨op, target, source, rfl, resolves, constant, rfl, moved⟩

/-- Everything that can become of carrying out an instruction: an undefined one faults even when it
is to be skipped, and a defined one when it stores in a constant. -/
theorem execute_fault_cases (core : Core) (word : Word) :
    (Operation.ofInstruction? (Instruction.ofWord word) = none ∧
      (core.execute word).1 = some (.illegalOpcode word core.registers.pc)) ∨
    (∃ operation, Operation.ofInstruction? (Instruction.ofWord word) = some operation ∧
      core.registers.skip = false ∧ (Instruction.ofWord word).StoresInConstant ∧
      ∃ target, (core.execute word).1 = some (.illegalWrite target)) ∨
    (∃ operation, Operation.ofInstruction? (Instruction.ofWord word) = some operation ∧
      ¬(core.registers.skip = false ∧ (Instruction.ofWord word).StoresInConstant) ∧
      (core.execute word).1 = none) := by
  cases defined : Operation.ofInstruction? (Instruction.ofWord word) with
  | none => exact .inl ⟨rfl, congrArg Prod.fst (core.execute_of_undefined word defined)⟩
  | some operation =>
    right
    obtain ⟨locations, resolved, resolves, -, executed⟩ :=
      core.execute_of_defined word operation defined
    cases skips : core.registers.skip with
    | true =>
      refine .inr ⟨operation, rfl, fun both => absurd both.1 nofun, ?_⟩
      rw [executed, skips, if_pos rfl]
    | false =>
      rw [executed, skips, if_neg Bool.false_ne_true]
      rcases effect_fault_cases _ word operation defined locations resolved resolves with
        ⟨stores, faults⟩ | ⟨safe, effective⟩
      · exact .inl ⟨operation, rfl, rfl, stores, faults⟩
      · exact .inr ⟨operation, rfl, fun both => safe both.2, effective⟩

end Core

namespace Machine

/-! ### Steps -/

theorem step_of_stop (machine : Machine) (stop : Stop) (stopped : machine.stop = some stop) :
    machine.step = (some stop.reason, machine) := by
  simp only [step, stopped]
  rw [← stopped]

theorem step_of_sentinel (machine : Machine) (running : machine.stop = none)
    (passing : machine.core.registers.pc ∈ machine.breakpoints →
      machine.resume = some machine.core.registers.pc)
    (fetched : machine.core.memory.fetch machine.core.registers.pc = .sentinel) :
    machine.step = (some .halt, { machine with stop := some .halt, resume := none }) := by
  have counted := machine.not_counts_of_passing passing
  simp only [step, running, if_neg counted, fetched]

theorem step_of_fault (machine : Machine) (word : Word) (ready : Ready machine word) (fault : Fault)
    (core : Core) (executed : machine.core.execute word = (some fault, core)) :
    machine.step = (some (Stop.fault fault).reason,
      { machine with core := core, stop := some (.fault fault), resume := none }) := by
  obtain ⟨running, passing, fetched⟩ := ready
  have counted := machine.not_counts_of_passing passing
  simp only [step, running, if_neg counted, fetched, executed]

/-- Everything that a step can do. -/
theorem step_cases (machine : Machine) :
    (∃ stop, machine.stop = some stop ∧ machine.step = (some stop.reason, machine)) ∨
    (machine.stop = none ∧ machine.core.registers.pc ∈ machine.breakpoints ∧
      machine.resume ≠ some machine.core.registers.pc ∧
      machine.step = (some .breakpoint,
        { machine with resume := some machine.core.registers.pc })) ∨
    (machine.stop = none ∧
      (machine.core.registers.pc ∈ machine.breakpoints →
        machine.resume = some machine.core.registers.pc) ∧
      machine.core.memory.fetch machine.core.registers.pc = .sentinel ∧
      machine.step = (some .halt, { machine with stop := some .halt, resume := none })) ∨
    (∃ word fault core, Ready machine word ∧ machine.core.execute word = (some fault, core) ∧
      machine.step = (some (Stop.fault fault).reason,
        { machine with core := core, stop := some (.fault fault), resume := none })) ∨
    (∃ word core, Ready machine word ∧ machine.core.execute word = (none, core) ∧
      machine.step = (none, machine.proceed core)) := by
  cases stopped : machine.stop with
  | some stop => exact .inl ⟨stop, rfl, machine.step_of_stop stop stopped⟩
  | none =>
    right
    by_cases counts : machine.core.registers.pc ∈ machine.breakpoints ∧
        machine.resume ≠ some machine.core.registers.pc
    · refine .inl ⟨rfl, counts.1, counts.2, ?_⟩
      simp only [step, stopped, if_pos counts]
    · right
      have passing (breaks : machine.core.registers.pc ∈ machine.breakpoints) :
          machine.resume = some machine.core.registers.pc :=
        Decidable.not_not.mp fun fresh => counts ⟨breaks, fresh⟩
      cases fetched : machine.core.memory.fetch machine.core.registers.pc with
      | sentinel =>
        exact .inl ⟨rfl, passing, rfl, machine.step_of_sentinel stopped passing fetched⟩
      | word word =>
        right
        have ready : Ready machine word := ⟨stopped, passing, fetched⟩
        rcases executed : machine.core.execute word with ⟨_ | fault, core⟩
        · exact .inr ⟨word, core, ready, executed, machine.step_of_execute word ready core executed⟩
        · exact .inl ⟨word, fault, core, ready, executed,
            machine.step_of_fault word ready fault core executed⟩

end Machine

end WordMachine
