import WordMachine.Proofs.Skipping

/-! What a step leaves when it stops the machine for good. The sentinel moves nothing, an undefined
instruction moves the program counter by one word, and an instruction that stores in a constant
moves what resolving its operands moves; all other state is as it was before the step. -/
namespace WordMachine

/-- A machine was stopped by a step. Besides that it has stopped, and which breakpoint it has noted,
only its program counter and its stack pointer may differ from before. -/
structure StoppedBy (before : Machine) (stop : Stop) (pc sp : Word) (after : Machine) : Prop where
  stop : after.stop = some stop
  pc : after.core.registers.pc = pc
  sp : after.core.registers.sp = sp
  general : ∀ r, after.core.registers.read r = before.core.registers.read r
  overflow : after.core.registers.overflow = before.core.registers.overflow
  skip : after.core.registers.skip = before.core.registers.skip
  memory : ∀ address, after.core.memory.fetch address = before.core.memory.fetch address
  steps : after.steps = before.steps
  trace : after.trace = before.trace
  tracing : after.tracing = before.tracing
  breakpoints : after.breakpoints = before.breakpoints
  initialStack : after.initialStack = before.initialStack

namespace Machine

/-- A step that faults leaves the core moved past the words it has taken. -/
theorem stoppedBy_of_advance (machine : Machine) (cause : Fault) (words : Nat) (shift : Word) :
    StoppedBy machine (.fault cause) (machine.core.registers.pc + BitVec.ofNat 16 words)
      (machine.core.registers.sp + shift)
      { machine with
        core := machine.core.advance words shift, stop := some (.fault cause), resume := none } :=
  ⟨rfl, rfl, rfl, fun _ => rfl, rfl, rfl, fun _ => rfl, rfl, rfl, rfl, rfl, rfl⟩

theorem stoppedBy_of_halt (machine : Machine) :
    StoppedBy machine .halt machine.core.registers.pc machine.core.registers.sp
      { machine with stop := some .halt, resume := none } :=
  ⟨rfl, rfl, rfl, fun _ => rfl, rfl, rfl, fun _ => rfl, rfl, rfl, rfl, rfl, rfl⟩

/-- A step that stops the machine changes only what it has to. For an undefined instruction the
program counter moves by one word, and the fault is of that word at that address; for a result that
cannot be stored both operands have been resolved, and the fault names where the first one is; for
the sentinel nothing moves. -/
theorem step_stop_keeps (machine : Machine) (running : machine.stop = none) :
    (machine.step.1 = some .illegal → ∃ word,
      machine.core.memory.fetch machine.core.registers.pc = .word word ∧
      Operation.ofInstruction? (Instruction.ofWord word) = none ∧
      StoppedBy machine (.fault (.illegalOpcode word machine.core.registers.pc))
        (machine.core.registers.pc + 1) machine.core.registers.sp machine.step.2) ∧
    (machine.step.1 = some .illegalWrite → ∃ word op target source resolved,
      machine.core.memory.fetch machine.core.registers.pc = .word word ∧
      Operation.ofInstruction? (Instruction.ofWord word) = some (.binary op) ∧
      (machine.core.jump (machine.core.registers.pc + 1)).resolveAll
        (Instruction.ofWord word).modes = ([target, source], resolved) ∧
      target.writable = false ∧
      StoppedBy machine (.fault (.illegalWrite target.reference))
        (machine.core.registers.pc + BitVec.ofNat 16 (Instruction.ofWord word).length)
        (machine.core.registers.sp +
          (BitVec.ofNat 16 ((Instruction.ofWord word).modes.count .pop) -
            BitVec.ofNat 16 ((Instruction.ofWord word).modes.count .push))) machine.step.2) ∧
    (machine.step.1 = some .halt →
      machine.core.memory.fetch machine.core.registers.pc = .sentinel ∧
      StoppedBy machine .halt machine.core.registers.pc machine.core.registers.sp
        machine.step.2) := by
  rcases machine.step_cases with ⟨stop, stopped, -⟩ | ⟨-, -, -, stepped⟩ |
    ⟨-, -, fetched, stepped⟩ | ⟨word, fault, core, ready, executed, stepped⟩ |
    ⟨word, core, -, -, stepped⟩
  · rw [running] at stopped
    cases stopped
  · rw [stepped]
    exact ⟨nofun, nofun, nofun⟩
  · rw [stepped]
    exact ⟨nofun, nofun, fun _ => ⟨fetched, machine.stoppedBy_of_halt⟩⟩
  · rw [stepped]
    -- The kind of the fault decides which of the answers was given.
    rcases machine.core.execute_of_fault word fault core executed with
      ⟨undefined, rfl, rfl⟩ | ⟨op, target, source, defined, resolves, constant, rfl, rfl⟩
    · refine ⟨fun _ => ⟨word, ready.fetched, undefined, ?_⟩, nofun, nofun⟩
      have stopped := machine.stoppedBy_of_advance
        (.illegalOpcode word machine.core.registers.pc) 1 0#16
      rwa [BitVec.add_zero] at stopped
    · refine ⟨nofun, fun _ => ⟨word, op, target, source, _, ready.fetched, defined, resolves,
        constant, ?_⟩, nofun⟩
      rw [← Mode.sum_stackShift]
      exact machine.stoppedBy_of_advance _ _ _
  · rw [stepped]
    exact ⟨nofun, nofun, nofun⟩

/-- An addition to a constant whose sum would overflow, of a word taken off the stack, carried out
on the way past a breakpoint. -/
theorem step_stop_keeps_overflow :
    let machine : Machine := ⟨⟨{ Registers.initial 1 with overflow := 7 },
      (Memory.blank.write 0 0x61F2).write 1 0xFFFF⟩, 1, none, 0, [0], some 0, false, #[]⟩
    machine.step.1 = some .illegalWrite ∧
      StoppedBy machine (.fault (.illegalWrite ⟨.immediate, 0xFFFF⟩)) 2 2 machine.step.2 := by
  intro machine
  have fetched : machine.core.memory.fetch 0 = .word 0x61F2 := by
    simp only [machine, Memory.write, Memory.fetch_put]
    decide
  have answered : machine.step.1 = some .illegalWrite := rfl
  obtain ⟨word, -, target, source, resolved, fetches, -, resolves, -, stopped⟩ :=
    (machine.step_stop_keeps rfl).2.1 answered
  obtain rfl : word = 0x61F2 := Cell.word.inj (fetches.symm.trans fetched)
  cases resolves
  exact ⟨answered, stopped⟩

end Machine

end WordMachine
