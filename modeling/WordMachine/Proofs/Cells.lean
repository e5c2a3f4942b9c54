import WordMachine.Proofs.Execution
import WordMachine.Proofs.Loading
import WordMachine.Machine.Monitor

/-! References as storage cells. Whoever writes at a reference finds the value at every reference to
the same cell and everything else as it was, whatever the storage classes and however far an index
is out of range. Constants are no cells: they refuse a write. -/
namespace WordMachine

namespace Reference

/-- Two references stand for the same cell. Registers are counted around, addresses wrap, and the
index of the other registers says nothing. Constants are no cells. -/
def SameCell (first second : Reference) : Prop :=
  first.storage = second.storage ∧
    match first.storage with
    | .register => first.index % 8 = second.index % 8
    | .memory => first.index % 65536 = second.index % 65536
    | .stackPointer | .programCounter | .overflow => True
    | .literal | .immediate => False

theorem exists_location (reference : Reference) (writable : reference.storage.writable = true) :
    ∃ location, reference.location? = some location ∧ location.writable = true := by
  obtain ⟨storage, index⟩ := reference
  cases storage with
  | literal | immediate => cases writable
  | _ => exact ⟨_, rfl, rfl⟩

private theorem around_inj (first second : Int) :
    Register.around first = Register.around second ↔ first % 8 = second % 8 := by
  constructor
  · intro same
    have index := congrArg (fun r => (Register.index r).val) same
    simp only [Register.around, Register.index_ofIndex, Fin.val_ofNat] at index
    omega
  · intro same
    rw [Register.around, same, Register.around]

private theorem ofInt_inj (first second : Int) :
    Word.ofInt first = Word.ofInt second ↔ first % 65536 = second % 65536 := by
  constructor
  · intro same
    rw [← Word.value_ofInt, same, Word.value_ofInt]
  · intro same
    rw [← Word.ofInt_value (Word.ofInt first), Word.value_ofInt, same, ← Word.value_ofInt,
      Word.ofInt_value]

theorem storage_of_location (reference : Reference) (location : Location)
    (located : reference.location? = some location) :
    location.reference.storage = reference.storage := by
  obtain ⟨storage, index⟩ := reference
  cases storage with
  | literal =>
    obtain ⟨-, found⟩ := Option.ite_none_right_eq_some.mp located
    cases found
    rfl
  | _ =>
    cases located
    rfl

/-- References stand for the same cell when they have the same location. -/
theorem sameCell_iff (first second : Reference) (location : Location)
    (located : first.location? = some location) (writable : location.writable = true) :
    first.SameCell second ↔ second.location? = some location := by
  have storage := storage_of_location first location located
  obtain ⟨kind, index⟩ := first
  obtain ⟨other, further⟩ := second
  by_cases alike : kind = other
  · -- A location names its storage class, so that only indices are left to compare.
    subst alike
    cases kind with
    | register =>
      cases located
      rw [location?, Option.some.injEq, Location.register.injEq, around_inj, eq_comm]
      exact and_iff_right rfl
    | memory =>
      cases located
      rw [location?, Option.some.injEq, Location.memory.injEq, ofInt_inj, eq_comm]
      exact and_iff_right rfl
    | literal | immediate =>
      rw [Location.writable, storage] at writable
      cases writable
    | _ =>
      cases located
      exact iff_of_true ⟨rfl, trivial⟩ rfl
  · refine iff_of_false (fun same => alike same.1) fun elsewhere => alike ?_
    exact storage.symm.trans (storage_of_location ⟨other, further⟩ location elsewhere)

end Reference

namespace Core

theorem read_store (core : Core) (target other : Location) (value : Word)
    (writable : target.writable = true) :
    (core.store target value).read other = if target = other then value else core.read other := by
  have stored := core.stored_of_store target value
  cases other with
  | register r => exact stored.general r
  | memory address =>
    have cell := congrArg Cell.data (stored.memory address)
    rwa [apply_ite Cell.data] at cell
  | stackPointer => exact stored.sp
  | programCounter => exact stored.pc
  | overflow => exact stored.overflow
  | literal n | immediate word =>
    rw [if_neg]
    · rfl
    · rintro rfl
      cases writable

theorem store_store (core : Core) (target : Location) (first second : Word) :
    (core.store target first).store target second = core.store target second := by
  cases target with
  | register r => simp [store, Registers.write]
  | memory address => simp [store, Memory.write, Memory.put]
  | _ => rfl

end Core

namespace Monitor

/-- A machine before and after a value was written at a reference. -/
structure Written (before : Machine) (target : Reference) (value : Int) (after : Machine) :
    Prop where
  /-- Every reference to the cell reads the value. -/
  same : ∀ other, target.SameCell other →
    perform after (.readReference other) = (.number (value % 65536), after)
  others : ∀ other, ¬target.SameCell other →
    perform after (.readReference other) = ((perform before (.readReference other)).1, after)
  /-- In memory a word stands at the cell, whatever stood there before. -/
  filled : ∀ address : Int, target.SameCell ⟨.memory, address⟩ →
    after.core.memory.fetch (Word.ofInt address) = .word (Word.ofInt value)
  kept : ∀ address : Int, ¬target.SameCell ⟨.memory, address⟩ →
    after.core.memory.fetch (Word.ofInt address) =
      before.core.memory.fetch (Word.ofInt address)
  skip : after.core.registers.skip = before.core.registers.skip
  machine : after = { before with core := after.core }
  /-- The next write to the cell is as if there had been none before. -/
  overridden : ∀ other next, target.SameCell other →
    perform after (.writeReference other next) = perform before (.writeReference other next)

theorem perform_writeReference (machine : Machine) (reference : Reference) (location : Location)
    (located : reference.location? = some location) (writable : location.writable = true)
    (value : Int) :
    perform machine (.writeReference reference value) =
      (.done, { machine with core := machine.core.store location (Word.ofInt value) }) := by
  rw [Location.writable, Reference.storage_of_location reference location located] at writable
  simp only [perform, Core.storeReference, writable, if_true, located]

/-- A reading answers with what is at the location and changes nothing. -/
theorem perform_readReference (machine : Machine) (reference : Reference) :
    perform machine (.readReference reference) =
      ((reference.location?.map fun location =>
        Reply.number (machine.core.read location).value).getD (.refused .noConstant), machine) := by
  simp only [perform, Core.readReference?]
  cases reference.location? with
  | none => rfl
  | some location => rfl

theorem written_of_store (machine : Machine) (reference : Reference) (location : Location)
    (located : reference.location? = some location) (writable : location.writable = true)
    (value : Int) :
    Written machine reference value
      { machine with core := machine.core.store location (Word.ofInt value) } := by
  have sameCell_iff (other : Reference) :=
    reference.sameCell_iff other location located writable
  have stored := machine.core.stored_of_store location (Word.ofInt value)
  refine ⟨fun other same => ?_, fun other apart => ?_, fun address same => ?_,
    fun address apart => ?_, stored.skip, rfl, fun other next same => ?_⟩
  · rw [perform_readReference, (sameCell_iff other).mp same, Option.map_some, Option.getD_some,
      Core.read_store _ _ _ _ writable, if_pos rfl, Word.value_ofInt]
  · rw [perform_readReference, perform_readReference]
    cases elsewhere : other.location? with
    | none => rfl
    | some place =>
      have distinct : location ≠ place := fun equal =>
        apart ((sameCell_iff other).mpr (equal ▸ elsewhere))
      rw [Option.map_some, Option.map_some, Core.read_store _ _ _ _ writable, if_neg distinct]
  · have here := Option.some.inj ((sameCell_iff _).mp same)
    rw [stored.memory, if_pos here.symm]
  · have elsewhere : location ≠ .memory (Word.ofInt address) := fun equal =>
      apart ((sameCell_iff _).mpr (congrArg some equal.symm))
    rw [stored.memory, if_neg elsewhere]
  · have there := (sameCell_iff other).mp same
    rw [perform_writeReference _ other location there writable,
      perform_writeReference _ other location there writable, Core.store_store]

/-- What is written at a reference is what every reference to the same cell reads, cut to sixteen
bits, until the next write there. Every other cell and register keeps what it holds, a sentinel at
the cell gives way, and a constant refuses the write. A sentinel reads as zero. -/
theorem writeReference_independent (machine : Machine) (reference : Reference) (value : Int) :
    (reference.storage.writable = true → ∃ after,
      perform machine (.writeReference reference value) = (.done, after) ∧
      Written machine reference value after) ∧
    (reference.storage.writable = false →
      perform machine (.writeReference reference value) =
        (.refused (.write (.illegalWrite reference)), machine)) ∧
    (∀ address : Int, machine.core.memory.fetch (Word.ofInt address) = .sentinel →
      perform machine (.readReference ⟨.memory, address⟩) = (.number 0, machine)) := by
  refine ⟨fun cell => ?_, fun constant => ?_, fun address sentinel => ?_⟩
  · obtain ⟨location, located, writable⟩ := reference.exists_location cell
    exact ⟨_, perform_writeReference machine reference location located writable value,
      written_of_store machine reference location located writable value⟩
  · simp only [perform, Core.storeReference, constant, Bool.false_eq_true, if_false]
  · have zero : machine.core.memory.read (Word.ofInt address) = 0 := congrArg Cell.data sentinel
    rw [perform_readReference]
    exact congrArg (fun word => (Reply.number (Word.value word), machine)) zero

/-- A write over a sentinel, by an address below zero. -/
theorem writeReference_independent_over_sentinel :
    let machine := (Machine.initial 5).mapCore fun core =>
      { core with memory := core.memory.placeSentinel 0xFFFF }
    perform machine (.readReference ⟨.memory, 65535⟩) = (.number 0, machine) ∧
    perform machine (.writeReference ⟨.literal, -1⟩ 7) =
      (.refused (.write (.illegalWrite ⟨.literal, -1⟩)), machine) ∧
    ∃ after, perform machine (.writeReference ⟨.memory, -1⟩ (-2)) = (.done, after) ∧
      perform after (.readReference ⟨.memory, 131071⟩) = (.number 65534, after) ∧
      after.core.memory.fetch 0xFFFF = .word 0xFFFE ∧
      perform after (.readReference ⟨.stackPointer, 65535⟩) = (.number 5, after) := by
  intro machine
  have sentinel : machine.core.memory.fetch 0xFFFF = .sentinel :=
    (Memory.fetch_put _ _ _ _).trans (if_pos rfl)
  obtain ⟨cell, -, zero⟩ := writeReference_independent machine ⟨.memory, -1⟩ (-2)
  obtain ⟨-, constant, -⟩ := writeReference_independent machine ⟨.literal, -1⟩ 7
  obtain ⟨after, written, left⟩ := cell rfl
  refine ⟨zero 65535 sentinel, constant rfl, after, written, left.same ⟨.memory, 131071⟩ ⟨rfl, rfl⟩,
    left.filled (-1) ⟨rfl, rfl⟩, ?_⟩
  exact left.others ⟨.stackPointer, 65535⟩ fun same => absurd same.1 nofun

end Monitor

end WordMachine
