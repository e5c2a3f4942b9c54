import WordMachine.Proofs.Attempts
import WordMachine.Proofs.Skipping

/-! What steps change. Besides the program counter, the stack pointer, the overflow register and the
skip flag, a step changes at most one place, a cell or a general register, and leaves a word there.
So no number of steps ever makes a cell a sentinel. -/
namespace WordMachine.Raw

open Monitor (Command performAll)

/-! ### Changes -/

def Core.instruction (core : Core) : Instruction := Instruction.ofWord (Word.ofInt core.fetched)

/-- The next instruction has an operation, and it is not to be skipped. -/
structure TakesEffect (core : Core) (operation : Operation) : Prop where
  word : core.fetched ≠ Cell.sentinelValue
  defined : Operation.ofInstruction? core.instruction = some operation
  settled : core.skip = false

/-- The cell in which the next instruction is to store something. -/
inductive Destination (before after : Core) : Word → Prop
  /-- A result goes where the first operand is. -/
  | result {op : BinaryOp} {reference : Reference} {resolved : Core}
      (takesEffect : TakesEffect before (.binary op))
      (resolves : (before.jump (before.pc + 1)).resolve (Mode.ofCode before.instruction.a) =
        (reference, resolved))
      (cell : reference.storage = .memory) :
      Destination before after (Word.ofInt reference.index)
  /-- A return address goes on top of the stack. -/
  | call (takesEffect : TakesEffect before .jsr) : Destination before after (Word.ofInt after.sp)

/-- Of all cells and general registers, only the one at a location changes, and a cell only to a
word that an instruction stores there. -/
structure ChangesOnly (target : Location) (before after : Core) : Prop where
  general : ∀ r, after.general r ≠ before.general r → target = .register r
  cells : ∀ address, after.cells address ≠ before.cells address →
    target = .memory address ∧ Small (after.cells address) ∧ Destination before after address

theorem sentinel_of_changesOnly (target : Location) (before after : Core)
    (changes : ChangesOnly target before after) (address : Word)
    (sentinel : after.cells address = Cell.sentinelValue) :
    before.cells address = Cell.sentinelValue := by
  by_contra other
  have small := (changes.cells address (by rw [sentinel]; exact Ne.symm other)).2.1
  rw [sentinel, Small] at small
  exact absurd small (by decide)

/-! ### Instructions -/

/-- Whatever stores in no cell and no general register changes none. -/
theorem changesOnly_of_same (before after : WordMachine.Core)
    (general : ∀ r, after.registers.read r = before.registers.read r)
    (memory : after.memory = before.memory) :
    ChangesOnly .programCounter (ofCore before) (ofCore after) where
  general r changed := absurd (congrArg Word.value (general r)) changed
  cells address changed :=
    absurd (congrArg (fun memory => (memory.fetch address).raw) memory) changed

theorem changesOnly_of_stored (before after : WordMachine.Core) (target : Location) (result : Word)
    (general : ∀ r, after.registers.read r =
      if target = .register r then result else before.registers.read r)
    (memory : ∀ address, after.memory.fetch address =
      if target = .memory address then .word result else before.memory.fetch address)
    (destination : ∀ address, target = .memory address →
      Destination (ofCore before) (ofCore after) address) :
    ChangesOnly target (ofCore before) (ofCore after) where
  general r changed := by
    by_contra other
    have kept := general r
    rw [if_neg other] at kept
    exact changed (congrArg Word.value kept)
  cells address changed := by
    have here := memory address
    by_cases same : target = .memory address
    · rw [if_pos same] at here
      have word : (ofCore after).cells address = result.value := congrArg Cell.raw here
      exact ⟨same, word ▸ small_value result, destination address same⟩
    · rw [if_neg same] at here
      exact absurd (congrArg Cell.raw here) changed

theorem takesEffect_ofCore (core : WordMachine.Core) (word : Word) (operation : Operation)
    (fetched : core.memory.fetch core.registers.pc = .word word)
    (defined : Operation.ofInstruction? (Instruction.ofWord word) = some operation)
    (settled : core.registers.skip = false) : TakesEffect (ofCore core) operation ∧
      (ofCore core).instruction = Instruction.ofWord word := by
  have number : (ofCore core).fetched = word.value := by rw [fetched_ofCore, fetched, Cell.raw]
  have instruction : (ofCore core).instruction = Instruction.ofWord word := by
    rw [Core.instruction, number, Word.ofInt_value]
  refine ⟨⟨?_, ?_, settled⟩, instruction⟩
  · rw [number]
    exact Cell.value_ne_sentinelValue word
  · rw [instruction, defined]

private theorem destination_of_result (core after : WordMachine.Core) (op : BinaryOp)
    (takesEffect : TakesEffect (ofCore core) (.binary op)) (target : Location)
    (resolved : WordMachine.Core)
    (resolves : (core.jump (core.registers.pc + 1)).resolve
      (Mode.ofCode (ofCore core).instruction.a) = (target, resolved))
    (address : Word) (cell : target = .memory address) :
    Destination (ofCore core) (ofCore after) address := by
  have same : ((ofCore core).jump ((ofCore core).pc + 1)).resolve
      (Mode.ofCode (ofCore core).instruction.a) = (⟨.memory, address.value⟩, ofCore resolved) := by
    rw [jump_next_ofCore, resolve_ofCore, resolves, cell]
    rfl
  have stores : Destination (ofCore core) (ofCore after) (Word.ofInt address.value) :=
    .result takesEffect same rfl
  rwa [Word.ofInt_value] at stores

private theorem changesOnly_of_combine (core resolved : WordMachine.Core) (op : BinaryOp)
    (target source : Location)
    (general : ∀ r, resolved.registers.read r = core.registers.read r)
    (memory : resolved.memory = core.memory)
    (destination : ∀ after address, target = .memory address →
      Destination (ofCore core) (ofCore after) address) :
    ∃ place, ChangesOnly place (ofCore core) (ofCore (resolved.combine op target source).2) := by
  cases writable : target.writable with
  | true =>
    obtain ⟨after, combined, stored⟩ := resolved.stored_of_combine op target source writable
    generalize OperationTable.result _ _ _ = result at stored
    rw [combined]
    refine ⟨target, changesOnly_of_stored core after target result (fun r => ?_) (fun address => ?_)
      (destination after)⟩
    · rw [stored.general, general]
    · rw [stored.memory, memory]
  | false =>
    -- An operation that stores in a constant stops the machine and stores nothing.
    have failed : resolved.combine op target source = _ :=
      (resolved.effect_fault_iff (.binary op) [target, source] _ _).mpr
        ⟨op, target, source, rfl, rfl, writable, rfl, rfl⟩
    rw [failed]
    exact ⟨_, changesOnly_of_same core resolved general memory⟩

private theorem changesOnly_of_call (core resolved : WordMachine.Core) (target : Location)
    (takesEffect : TakesEffect (ofCore core) .jsr)
    (general : ∀ r, resolved.registers.read r = core.registers.read r)
    (memory : resolved.memory = core.memory) :
    ∃ place, ChangesOnly place (ofCore core) (ofCore (resolved.effect .jsr [target]).2) := by
  -- The return address is stored at the new stack pointer; the jump stores nothing.
  have stored := (resolved.setStackPointer (resolved.registers.sp - 1)).stored_of_store
    (.memory (resolved.registers.sp - 1)) resolved.registers.pc
  refine ⟨.memory (resolved.registers.sp - 1), changesOnly_of_stored core _ _ resolved.registers.pc
    (fun r => ?_) (fun address => ?_) ?_⟩
  · exact (stored.general r).trans (general r)
  · rw [← memory]
    exact stored.memory address
  · rintro _ ⟨⟩
    have stores : Destination (ofCore core) (ofCore (resolved.effect .jsr [target]).2) _ :=
      .call takesEffect
    exact Word.ofInt_value (resolved.registers.sp - 1) ▸ stores

/-- Carrying out an instruction changes at most what its operation stores in. -/
theorem changesOnly_of_execute (core : WordMachine.Core) (word : Word)
    (fetched : core.memory.fetch core.registers.pc = .word word) :
    ∃ place, ChangesOnly place (ofCore core) (ofCore (core.execute word).2) := by
  cases defined : Operation.ofInstruction? (Instruction.ofWord word) with
  | none =>
    rw [core.execute_of_undefined word defined]
    exact ⟨_, changesOnly_of_same _ _ (fun _ => rfl) rfl⟩
  | some operation =>
    obtain ⟨locations, resolved, resolves, moved, executed⟩ :=
      core.execute_of_defined word operation defined
    -- Resolving the operands moves the core on, but stores nothing.
    have general (r : Register) : resolved.registers.read r = core.registers.read r := by
      rw [moved, WordMachine.Core.advance_read]
    have memory : resolved.memory = core.memory := by rw [moved, WordMachine.Core.advance_memory]
    rw [executed]
    cases settled : core.registers.skip with
    | true => exact ⟨_, changesOnly_of_same _ _ general memory⟩
    | false =>
      obtain ⟨takesEffect, instruction⟩ :=
        takesEffect_ofCore core word operation fetched defined settled
      rw [if_neg Bool.false_ne_true]
      cases operation with
      | conditional condition =>
        obtain ⟨pending, tested⟩ := resolved.effect_of_conditional condition locations
        rw [tested]
        exact ⟨_, changesOnly_of_same _ _ general memory⟩
      | jsr =>
        rw [(Instruction.ofWord word).modes_of_jsr defined] at resolves
        obtain ⟨rfl, -⟩ := Prod.mk.inj resolves
        exact changesOnly_of_call core resolved _ takesEffect general memory
      | binary op =>
        rw [(Instruction.ofWord word).modes_of_defined _ defined nofun,
          WordMachine.Core.resolveAll_pair] at resolves
        obtain ⟨rfl, -⟩ := Prod.mk.inj resolves
        refine changesOnly_of_combine core resolved op _ _ general memory fun after => ?_
        exact destination_of_result core after op takesEffect _ _ (by rw [instruction])

/-! ### Steps -/

/-- The machine after a number of calls for a step. -/
def Machine.afterCalls (machine : Machine) : Nat → Machine
  | 0 => machine
  | calls + 1 => (machine.afterCalls calls).step.2

theorem represents_afterCalls (raw : Machine) (machine : WordMachine.Machine)
    (represents : Represents raw machine) (calls : Nat) :
    Represents (raw.afterCalls calls) (machine.afterCalls calls) := by
  induction calls with
  | zero => exact represents
  | succ calls ih => exact (represents_step _ _ ih).2

theorem changesOnly_of_step (raw : Machine) (machine : WordMachine.Machine)
    (represents : Represents raw machine) :
    ∃ place, ChangesOnly place raw.core raw.step.2.core := by
  rw [represents.core, (represents_step raw machine represents).2.core]
  rcases machine.step_cases with ⟨stop, -, stepped⟩ | ⟨-, -, -, stepped⟩ | ⟨-, -, -, stepped⟩ |
    ⟨word, fault, core, ready, executed, stepped⟩ | ⟨word, core, ready, executed, stepped⟩
  · rw [stepped]
    exact ⟨_, changesOnly_of_same _ _ (fun _ => rfl) rfl⟩
  · rw [stepped]
    exact ⟨_, changesOnly_of_same _ _ (fun _ => rfl) rfl⟩
  · rw [stepped]
    exact ⟨_, changesOnly_of_same _ _ (fun _ => rfl) rfl⟩
  · have changes := changesOnly_of_execute machine.core word ready.fetched
    rw [executed] at changes
    rwa [stepped]
  · have changes := changesOnly_of_execute machine.core word ready.fetched
    rw [executed] at changes
    rw [stepped]
    exact changes

theorem sentinel_of_afterCalls (machine : Machine)
    (changes : ∀ calls, ∃ place,
      ChangesOnly place (machine.afterCalls calls).core (machine.afterCalls (calls + 1)).core)
    (calls : Nat) (address : Word)
    (sentinel : (machine.afterCalls calls).core.cells address = Cell.sentinelValue) :
    machine.core.cells address = Cell.sentinelValue := by
  induction calls with
  | zero => exact sentinel
  | succ calls ih =>
    obtain ⟨place, changes⟩ := changes calls
    exact ih (sentinel_of_changesOnly place _ _ changes address sentinel)

/-- In every machine that can be reached, each step changes at most one cell, where the instruction
stores a word, or one general register; so all sentinels in memory after any number of steps were
there before. -/
theorem performAll_forges_no_sentinel (program? : Option (List Int)) (stack : Int) (raw : Machine)
    (built : Machine.build program? stack = some raw) (commands : List Command) :
    let machine := raw.performAll commands
    (∀ calls address, (machine.afterCalls calls).core.cells address = Cell.sentinelValue →
      machine.core.cells address = Cell.sentinelValue) ∧
    (∀ calls, ∃ place,
      ChangesOnly place (machine.afterCalls calls).core (machine.afterCalls (calls + 1)).core) ∧
    ∃ start, WordMachine.Machine.build program? stack = .ok start ∧
      ∀ calls, Represents (machine.afterCalls calls)
        ((performAll start commands).afterCalls calls) := by
  intro machine
  obtain ⟨start, same, represents⟩ := represents_build program? stack raw built
  have represented (calls : Nat) : Represents (machine.afterCalls calls)
      ((performAll start commands).afterCalls calls) :=
    represents_afterCalls _ _ (represents_performAll commands raw start represents) calls
  have changes (calls : Nat) : ∃ place,
      ChangesOnly place (machine.afterCalls calls).core (machine.afterCalls (calls + 1)).core :=
    changesOnly_of_step _ _ (represented calls)
  exact ⟨sentinel_of_afterCalls machine changes, changes, start, same, represented⟩

/-- A program that stores the largest word over the sentinel behind it. -/
theorem performAll_forges_no_sentinel_overwritten :
    ∃ raw, Machine.build (some [0x7DE1, 3, 0xFFFF]) 0 = some raw ∧
      raw.core.cells 3 = Cell.sentinelValue ∧ (raw.afterCalls 1).core.cells 3 = 0xFFFF ∧
      ChangesOnly (.memory 3) raw.core (raw.afterCalls 1).core ∧
      ∀ address, (raw.afterCalls 9).core.cells address = Cell.sentinelValue →
        raw.core.cells address = Cell.sentinelValue := by
  refine ⟨_, rfl, rfl, rfl, ?_⟩
  obtain ⟨kept, changes, -⟩ := performAll_forges_no_sentinel (some [0x7DE1, 3, 0xFFFF]) 0 _ rfl []
  obtain ⟨place, changes⟩ := changes 0
  obtain ⟨rfl, -⟩ := changes.cells 3 (by decide)
  exact ⟨changes, kept 9⟩

end WordMachine.Raw
