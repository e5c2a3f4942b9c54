import WordMachine.Proofs.Steps

/-! Subroutine calls and returns. A call reads its target before it stores the return address below
the stack pointer, and an instruction that sets the program counter to the top of the stack, met at
the target, takes the machine back behind the call. -/
namespace WordMachine

namespace Core

/-- The target of a call, said of the core before the call. The program counter reads as the
address behind the call, and the stack as it is before the return address is stored. -/
def callTarget (core : Core) (mode : Mode) : Word :=
  let next := core.memory.read (core.registers.pc + 1)
  match mode with
  | .register r => core.registers.read r
  | .atRegister r => core.memory.read (core.registers.read r)
  | .indexed r => core.memory.read (next + core.registers.read r)
  | .pop | .peek => core.memory.read core.registers.sp
  | .push => core.memory.read (core.registers.sp - 1)
  | .stackPointer => core.registers.sp
  | .programCounter => core.registers.pc + 1
  | .overflow => core.registers.overflow
  | .atNextWord => core.memory.read next
  | .nextWord => next
  | .literal n => BitVec.ofNat 16 n

theorem read_resolve_next (core : Core) (mode : Mode) :
    ((core.jump (core.registers.pc + 1)).resolve mode).2.read
      ((core.jump (core.registers.pc + 1)).resolve mode).1 = core.callTarget mode := by
  rw [resolve_eq]
  cases mode with
  | programCounter => exact BitVec.add_zero (core.registers.pc + 1)
  | stackPointer => exact BitVec.add_zero core.registers.sp
  | _ => rfl

end Core

/-! ### What calls and returns leave -/

/-- A core before and after a call with a target and a return address, the stack pointer being at
an address once the operand is resolved. -/
structure Called (before : Core) (target back top : Word) (after : Core) : Prop where
  pc : after.registers.pc = target
  sp : after.registers.sp = top - 1
  general : ∀ r, after.registers.read r = before.registers.read r
  overflow : after.registers.overflow = before.registers.overflow
  skip : after.registers.skip = before.registers.skip
  memory : ∀ address, after.memory.fetch address =
    if top - 1 = address then .word back else before.memory.fetch address

/-- A core before and after a return to an address, with the stack pointer then at another. -/
structure Returned (before : Core) (back top : Word) (after : Core) : Prop where
  pc : after.registers.pc = back
  sp : after.registers.sp = top
  general : ∀ r, after.registers.read r = before.registers.read r
  overflow : after.registers.overflow = before.registers.overflow
  skip : after.registers.skip = before.registers.skip
  memory : after.memory = before.memory

/-! ### Instructions -/

namespace Core

theorem called_of_execute (core : Core) (word : Word)
    (defined : Operation.ofInstruction? (Instruction.ofWord word) = some .jsr)
    (settled : core.registers.skip = false) :
    ∃ location resolved after,
      (core.jump (core.registers.pc + 1)).resolve (Mode.ofCode (Instruction.ofWord word).b) =
        (location, resolved) ∧
      core.execute word = (none, after) ∧
      Called core (resolved.read location)
        (core.registers.pc + BitVec.ofNat 16 (Instruction.ofWord word).length)
        resolved.registers.sp after := by
  obtain ⟨locations, resolved, resolves, moved, executed⟩ :=
    core.execute_of_defined word .jsr defined
  rw [(Instruction.ofWord word).modes_of_jsr defined] at resolves
  obtain ⟨rfl, rfl⟩ := Prod.mk.inj resolves
  rw [settled, if_neg Bool.false_ne_true] at executed
  refine ⟨_, _, _, rfl, executed, ?_⟩
  -- Resolving the operand leaves everything but the program counter and the stack pointer alone.
  rw [moved]
  exact ⟨rfl, rfl, fun _ => rfl, rfl, rfl, fun address => Memory.fetch_put _ _ address _⟩

/-- Setting the program counter to a word is a jump. -/
theorem combine_set_programCounter (core : Core) (source : Location) :
    core.combine .set .programCounter source = (none, core.jump (core.read source)) := by
  have stored : Word.ofInt (BinaryOp.set.result (core.read .programCounter).value
      (core.read source).value).value = core.read source := by
    rw [(BinaryOp.set.words_eq _ _).1]
    exact Word.ofInt_value (core.read source)
  exact congrArg (fun address => (none, core.jump address)) stored

/-- Setting the program counter to what is taken off the stack. -/
theorem returned_of_execute (core : Core) (settled : core.registers.skip = false) :
    ∃ after, core.execute 0x61C1 = (none, after) ∧
      Returned core (core.memory.read core.registers.sp) (core.registers.sp + 1) after := by
  have modes : (Instruction.ofWord 0x61C1).modes = [.programCounter, .pop] := by decide
  obtain ⟨locations, resolved, resolves, moved, executed⟩ :=
    core.execute_of_defined 0x61C1 (.binary .set) (by decide)
  rw [modes] at resolves moved
  obtain ⟨rfl, -⟩ := Prod.mk.inj resolves
  rw [settled, if_neg Bool.false_ne_true, moved] at executed
  rw [executed]
  refine ⟨_, combine_set_programCounter _ (.memory core.registers.sp), ?_⟩
  exact ⟨rfl, rfl, fun _ => rfl, rfl, rfl, rfl⟩

theorem sp_of_resolve (core : Core) (mode : Mode) (location : Location) (resolved : Core)
    (resolves : (core.jump (core.registers.pc + 1)).resolve mode = (location, resolved)) :
    resolved.registers.sp = core.registers.sp + mode.stackShift := by
  rw [resolve_eq] at resolves
  obtain ⟨-, rfl⟩ := Prod.mk.inj resolves
  rfl

end Core

/-! ### Steps -/

namespace Machine

/-- A call reads its target before it stores the address behind it on the stack, and a return met at
the target takes the machine there, with the stack pointer as it was before that address was
stored. -/
theorem step_call_returns (machine : Machine) (word : Word) (running : machine.stop = none)
    (free : machine.breakpoints = []) (settled : machine.core.registers.skip = false)
    (fetched : machine.core.memory.fetch machine.core.registers.pc = .word word)
    (defined : Operation.ofInstruction? (Instruction.ofWord word) = some .jsr) :
    let core := machine.core
    let mode := Mode.ofCode (Instruction.ofWord word).b
    let back := core.registers.pc + BitVec.ofNat 16 (Instruction.ofWord word).length
    ∃ location resolved after,
      (core.jump (core.registers.pc + 1)).resolve mode = (location, resolved) ∧
      resolved.registers.sp = core.registers.sp + mode.stackShift ∧
      resolved.read location = core.callTarget mode ∧
      (mode = .programCounter → core.callTarget mode = back) ∧
      machine.step = (none, machine.proceed after) ∧
      Called core (resolved.read location) back resolved.registers.sp after ∧
      (after.memory.fetch after.registers.pc = .word 0x61C1 →
        ∃ last, (machine.proceed after).step = (none, (machine.proceed after).proceed last) ∧
          Returned after back resolved.registers.sp last) := by
  intro core mode back
  -- Without breakpoints there is nothing to pass.
  have passing (address : Word) (resume : Option Word) :
      address ∈ machine.breakpoints → resume = some address := by
    rw [free]
    exact nofun
  obtain ⟨location, resolved, after, resolves, executed, called⟩ :=
    core.called_of_execute word defined settled
  have target := core.read_resolve_next mode
  rw [resolves] at target
  refine ⟨location, resolved, after, resolves, core.sp_of_resolve _ _ _ resolves, target, ?_,
    machine.step_of_execute word ⟨running, passing _ _, fetched⟩ after executed, called, ?_⟩
  · intro counter
    have alone : (Instruction.ofWord word).length = 1 := by
      rw [Instruction.length_eq, Instruction.modes_of_jsr _ defined]
      exact congrArg (fun mode => 1 + ([mode].map Mode.nextWords).sum) counter
    rw [counter]
    exact congrArg (fun length => core.registers.pc + BitVec.ofNat 16 length) alone.symm
  · intro meets
    obtain ⟨last, carried, returned⟩ :=
      after.returned_of_execute (called.skip.trans settled)
    -- The word on top of the stack is the address that the call has stored there.
    have top : after.memory.read after.registers.sp = back := by
      rw [Memory.read, called.memory, called.sp, if_pos rfl]
      rfl
    rw [top, called.sp, BitVec.sub_add_cancel] at returned
    exact ⟨last, (machine.proceed after).step_of_execute 0x61C1 ⟨running, passing _ _, meets⟩ last
      carried, returned⟩

/-- A call whose target is in the stack cell that the return address is then stored in, at the top
of memory. -/
theorem step_call_returns_over_target :
    let memory := ((Memory.blank.write 0 0x6010).write 5 0x61C1).write 0xFFFF 5
    let machine : Machine :=
      ⟨⟨Registers.initial 0xFFFF, memory⟩, 0xFFFF, none, 0, [], none, false, #[]⟩
    ∃ after last, machine.step = (none, machine.proceed after) ∧
      after.registers.pc = 5 ∧ after.registers.sp = 0xFFFF ∧
      after.memory.fetch 0xFFFF = .word 1 ∧
      (machine.proceed after).step = (none, (machine.proceed after).proceed last) ∧
      last.registers.pc = 1 ∧ last.registers.sp = 0 := by
  intro memory machine
  have fetch (address : Word) : memory.fetch address =
      if 0xFFFF = address then .word 5 else if 5 = address then .word 0x61C1
      else if 0 = address then .word 0x6010 else Memory.blank.fetch address := by
    simp only [memory, Memory.write, Memory.fetch_put]
  obtain ⟨location, resolved, after, -, top, target, -, stepped, called, returns⟩ :=
    machine.step_call_returns 0x6010 rfl rfl rfl (fetch 0) (by decide)
  have pop : Mode.ofCode (Instruction.ofWord 0x6010).b = .pop := by decide
  have back : machine.core.registers.pc +
      BitVec.ofNat 16 (Instruction.ofWord 0x6010).length = 1 := by decide
  rw [pop] at top target
  replace top : resolved.registers.sp = 0 := top.trans (by decide)
  rw [back, top] at called returns
  have five : memory.read 0xFFFF = 5 := congrArg Cell.data (fetch 0xFFFF)
  have there : after.registers.pc = 5 := called.pc.trans (target.trans five)
  have kept : after.memory.fetch 5 = .word 0x61C1 :=
    (called.memory 5).trans ((if_neg (by decide)).trans (fetch 5))
  obtain ⟨last, left, returned⟩ := returns (by rw [there, kept])
  exact ⟨after, last, stepped, there, called.sp, (called.memory 0xFFFF).trans (if_pos (by decide)),
    left, returned.pc, returned.sp⟩

end Machine

end WordMachine
