import Mathlib.Data.List.Basic
import WordMachine.Proofs.Loading
import WordMachine.Proofs.RawMachine

/-! Ranges of the machine over integers: whatever is asked of it, it is the image of the machine
over words, so that no register and no cell ever leaves its range. -/
namespace WordMachine

/-- A new machine, with a program if one is given. -/
def Machine.build (program? : Option (List Int)) (stack : Int) : Except LoadError Machine :=
  match program? with
  | none => .ok (initial (Word.ofInt stack))
  | some program => withProgram program (Word.ofInt stack)

/-- What requests leave, one after the other. -/
def Monitor.performAll (machine : Machine) (commands : List Command) : Machine :=
  commands.foldl (fun machine command => (perform machine command).2) machine

namespace Raw

open Monitor (Command performAll)

/-! ### Words as integers -/

private theorem cut_eq (value : Int) : cut value = (Word.ofInt value).value :=
  (Word.value_ofInt value).symm

private theorem ofInt_add (word : Word) (value : Int) :
    Word.ofInt (word.value + value) = word + Word.ofInt value := by
  rw [Word.ofInt, BitVec.ofInt_add]
  exact congrArg (· + Word.ofInt value) (Word.ofInt_value word)

private theorem ofInt_next (word : Word) : Word.ofInt (word.value + 1) = word + 1 :=
  ofInt_add word 1

private theorem ofInt_previous (word : Word) : Word.ofInt (word.value - 1) = word - 1 := by
  rw [Int.sub_eq_add_neg, ofInt_add, BitVec.sub_eq_add_neg]
  rfl

/-- The core of integers that a core of words is. -/
def ofCore (core : WordMachine.Core) : Core where
  general r := (core.registers.read r).value
  pc := core.registers.pc.value
  sp := core.registers.sp.value
  overflow := core.registers.overflow.value
  skip := core.registers.skip
  cells address := (core.memory.fetch address).raw

/-! ### Registers and memory -/

theorem jump_ofCore (core : WordMachine.Core) (address : Int) :
    (ofCore core).jump address = ofCore (core.jump (Word.ofInt address)) := by
  rw [Core.jump, cut_eq]
  rfl

theorem setStackPointer_ofCore (core : WordMachine.Core) (address : Int) :
    (ofCore core).setStackPointer address = ofCore (core.setStackPointer (Word.ofInt address)) := by
  rw [Core.setStackPointer, cut_eq]
  rfl

theorem setOverflow_ofCore (core : WordMachine.Core) (value : Int) :
    (ofCore core).setOverflow value = ofCore (core.setOverflow (Word.ofInt value)) := by
  rw [Core.setOverflow, cut_eq]
  rfl

theorem setSkip_ofCore (core : WordMachine.Core) (pending : Bool) :
    (ofCore core).setSkip pending = ofCore (core.setSkip pending) := rfl

theorem writeGeneral_ofCore (core : WordMachine.Core) (r : Register) (value : Int) :
    (ofCore core).writeGeneral r value = ofCore (core.store (.register r) (Word.ofInt value)) := by
  rw [Core.writeGeneral, cut_eq, ofCore, ofCore]
  simp only [WordMachine.Core.store, Registers.read_write, apply_ite Word.value]
  rfl

theorem put_ofCore (core : WordMachine.Core) (address : Word) (cell : Cell) :
    (ofCore core).put address cell.raw =
      ofCore { core with memory := core.memory.put address cell } := by
  rw [Core.put, ofCore, ofCore]
  simp only [Memory.fetch_put, apply_ite Cell.raw]

theorem placeSentinel_ofCore (core : WordMachine.Core) (address : Word) :
    (ofCore core).put address Cell.sentinelValue =
      ofCore { core with memory := core.memory.placeSentinel address } :=
  put_ofCore core address .sentinel

private theorem read_initial (stack : Word) (r : Register) :
    (Registers.initial stack).read r = 0 := by
  cases r <;> rfl

theorem reset_ofCore (core : WordMachine.Core) (stack : Int) :
    (ofCore core).reset stack =
      ofCore { core with registers := Registers.initial (Word.ofInt stack) } := by
  rw [Core.reset, cut_eq, ofCore, ofCore]
  simp only [read_initial]
  rfl

theorem write_ofCore (core : WordMachine.Core) (address value : Int) :
    (ofCore core).write address value =
      ofCore (core.store (.memory (Word.ofInt address)) (Word.ofInt value)) := by
  rw [Core.write, cut_eq]
  exact put_ofCore core (Word.ofInt address) (.word (Word.ofInt value))

theorem readCell_ofCore (core : WordMachine.Core) (address : Int) :
    (ofCore core).readCell address = (core.memory.read (Word.ofInt address)).value :=
  (Cell.data_value _).symm

private theorem raise_ofCore (core : WordMachine.Core) :
    (ofCore core).setStackPointer ((ofCore core).sp + 1) =
      ofCore (core.setStackPointer (core.registers.sp + 1)) := by
  rw [setStackPointer_ofCore, ← ofInt_next]
  rfl

private theorem lower_ofCore (core : WordMachine.Core) :
    (ofCore core).setStackPointer ((ofCore core).sp - 1) =
      ofCore (core.setStackPointer (core.registers.sp - 1)) := by
  rw [setStackPointer_ofCore, ← ofInt_previous]
  rfl

theorem jump_next_ofCore (core : WordMachine.Core) :
    (ofCore core).jump ((ofCore core).pc + 1) = ofCore (core.jump (core.registers.pc + 1)) := by
  rw [jump_ofCore, ← ofInt_next]
  rfl

theorem push_ofCore (core : WordMachine.Core) (value : Int) :
    (ofCore core).push value = ofCore (core.push (Word.ofInt value)) := by
  rw [Core.push, lower_ofCore, write_ofCore]
  exact congrArg (fun address => ofCore ((core.setStackPointer _).store (.memory address) _))
    (Word.ofInt_value _)

/-! ### Operands -/

theorem takeWord_ofCore (core : WordMachine.Core) :
    (ofCore core).takeWord = (core.takeWord.1.value, ofCore core.takeWord.2) := by
  have read : (ofCore core).readCell (ofCore core).pc =
      (core.memory.read core.registers.pc).value := by
    rw [readCell_ofCore]
    exact congrArg (fun address => (core.memory.read address).value) (Word.ofInt_value _)
  rw [Core.takeWord, read, jump_next_ofCore]
  rfl

theorem resolve_ofCore (core : WordMachine.Core) (mode : Mode) :
    (ofCore core).resolve mode =
      ((core.resolve mode).1.reference, ofCore (core.resolve mode).2) := by
  cases mode with
  | indexed r =>
    have sum : cut (core.takeWord.1.value + (ofCore core.takeWord.2).general r) =
        (core.takeWord.1 + core.takeWord.2.registers.read r).value := by
      rw [cut_eq, ofInt_add]
      exact congrArg (fun word => (core.takeWord.1 + word).value) (Word.ofInt_value _)
    rw [Core.resolve, takeWord_ofCore]
    simp only [sum]
    rfl
  | pop =>
    rw [Core.resolve, raise_ofCore]
    rfl
  | push =>
    rw [Core.resolve, lower_ofCore]
    rfl
  | atNextWord =>
    rw [Core.resolve, takeWord_ofCore]
    rfl
  | nextWord =>
    rw [Core.resolve, takeWord_ofCore]
    rfl
  | _ => rfl

theorem read_ofCore (core : WordMachine.Core) (reference : Reference) (location : Location)
    (located : reference.location? = some location) :
    (ofCore core).read reference = (core.read location).value := by
  obtain ⟨storage, index⟩ := reference
  cases storage with
  | memory =>
    cases located
    exact readCell_ofCore core index
  | literal =>
    simp only [Reference.location?, Option.ite_none_right_eq_some, Option.some.injEq] at located
    obtain ⟨-, rfl⟩ := located
    change index % 32 = ((BitVec.ofNat 16 ((index % 32).toNat % 32)).toNat : Int)
    rw [BitVec.toNat_ofNat]
    omega
  | immediate =>
    cases located
    exact cut_eq index
  | _ =>
    cases located
    rfl

theorem read_reference_ofCore (core : WordMachine.Core) (location : Location) :
    (ofCore core).read location.reference = (core.read location).value :=
  read_ofCore core location.reference location location.location?_reference

theorem store_ofCore (core : WordMachine.Core) (reference : Reference) (location : Location)
    (located : reference.location? = some location) (value : Int) :
    (ofCore core).store reference value = ofCore (core.store location (Word.ofInt value)) := by
  obtain ⟨storage, index⟩ := reference
  cases storage with
  | register =>
    cases located
    exact writeGeneral_ofCore core _ value
  | memory =>
    cases located
    exact write_ofCore core index value
  | stackPointer =>
    cases located
    exact setStackPointer_ofCore core value
  | programCounter =>
    cases located
    exact jump_ofCore core value
  | overflow =>
    cases located
    exact setOverflow_ofCore core value
  | literal =>
    simp only [Reference.location?, Option.ite_none_right_eq_some, Option.some.injEq] at located
    obtain ⟨-, rfl⟩ := located
    rfl
  | immediate =>
    cases located
    rfl

/-! ### Instructions -/

theorem storeResult_ofCore (core : WordMachine.Core) (target : Location)
    (result : Arithmetic.Result) :
    (ofCore core).storeResult target.reference result =
      ofCore (core.storeResult target result) := by
  unfold Core.storeResult WordMachine.Core.storeResult
  rw [store_ofCore core target.reference target target.location?_reference]
  cases result.overflow? with
  | none => rfl
  | some overflow => exact setOverflow_ofCore _ overflow

/-- What carrying out an instruction leaves, the fault told apart no further. -/
def ofOutcome (outcome : Option Fault × WordMachine.Core) : Bool × Core :=
  (outcome.1.isSome, ofCore outcome.2)

theorem combine_ofCore (core : WordMachine.Core) (op : BinaryOp) (target source : Location) :
    (ofCore core).combine op target.reference source.reference =
      ofOutcome (core.combine op target source) := by
  simp only [Core.combine, WordMachine.Core.combine, read_reference_ofCore, storeResult_ofCore,
    apply_ite ofOutcome]
  rfl

theorem test_ofCore (core : WordMachine.Core) (condition : Condition) (first second : Location) :
    (ofCore core).test condition first.reference second.reference =
      ofCore (core.test condition first second) := by
  unfold Core.test WordMachine.Core.test
  rw [read_reference_ofCore, read_reference_ofCore]
  split
  · rfl
  · exact setSkip_ofCore core true

theorem execute_ofCore (core : WordMachine.Core) (word : Word) :
    (ofCore core).execute word.value = ofOutcome (core.execute word) := by
  -- Decoding and resolving are the same; what is left are the effects of the operations.
  simp only [Core.execute, WordMachine.Core.execute, Word.ofInt_value, jump_next_ofCore,
    resolve_ofCore]
  cases Operation.ofInstruction? (Instruction.ofWord word) with
  | none => rfl
  | some operation =>
    cases operation with
    | jsr =>
      have back (core : WordMachine.Core) : (ofCore core).pc = core.registers.pc.value := rfl
      simp only [read_reference_ofCore, back, push_ofCore, jump_ofCore, Word.ofInt_value,
        apply_ite ofOutcome]
      rfl
    | binary op =>
      simp only [combine_ofCore, apply_ite ofOutcome]
      rfl
    | conditional condition =>
      simp only [test_ofCore, apply_ite ofOutcome]
      rfl

/-! ### Loading -/

/-- What can be stored as it is is what a cell can hold. -/
private theorem ofRaw?_cases (value : Int) :
    (∃ cell : Cell, cell.raw = value ∧ Cell.ofRaw? value = some cell ∧
      (value = Cell.sentinelValue ∨ (0 ≤ value ∧ value < 65536))) ∨
    (Cell.ofRaw? value = none ∧
      ¬(value = Cell.sentinelValue ∨ (0 ≤ value ∧ value < 65536))) := by
  by_cases sentinel : value = Cell.sentinelValue
  · refine .inl ⟨.sentinel, sentinel.symm, ?_, .inl sentinel⟩
    rw [Cell.ofRaw?, if_pos sentinel]
  · by_cases small : 0 ≤ value ∧ value < 65536
    · refine .inl ⟨.word (Word.ofInt value), ?_, ?_, .inr small⟩
      · rw [Cell.raw, Word.value_ofInt]
        omega
      · rw [Cell.ofRaw?, if_neg sentinel, Word.exactly?, if_pos small]
        rfl
    · refine .inr ⟨?_, not_or.mpr ⟨sentinel, small⟩⟩
      rw [Cell.ofRaw?, if_neg sentinel, Word.exactly?, if_neg small]
      rfl

theorem load_ofCore (core : WordMachine.Core) (address : Word) (position : Nat)
    (values : List Int) :
    (ofCore core).load address values =
      (ofCore { core with memory := (core.memory.loadFrom address position values).memory },
        if (core.memory.loadFrom address position values).error?.isNone then
          some (core.memory.loadFrom address position values).next
        else none) := by
  induction values generalizing core address position with
  | nil => rfl
  | cons value rest ih =>
    unfold Core.load Memory.loadFrom
    rcases ofRaw?_cases value with ⟨cell, rfl, held, fits⟩ | ⟨refused, large⟩
    · rw [if_pos fits, held, put_ofCore, ih _ (address + 1) (position + 1)]
    · rw [if_neg large, refused]
      rfl

/-! ### Machines -/

private theorem value_injective : Function.Injective Word.value := by
  intro first second same
  rw [← Word.ofInt_value first, same, Word.ofInt_value]

/-- A machine of integers is the image of a machine of words. -/
structure Represents (raw : Machine) (machine : WordMachine.Machine) : Prop where
  core : raw.core = ofCore machine.core
  stack : Word.ofInt raw.initialStack = machine.initialStack
  halted : raw.halted = machine.stop.isSome
  breakpoints : raw.breakpoints = machine.breakpoints.map Word.value
  resume : raw.resume = machine.resume.map Word.value

theorem represents_load (raw : Machine) (machine : WordMachine.Machine)
    (represents : Represents raw machine) (program : List Int) (base : Int) :
    (raw.load program base).1 = (machine.load program base).1.isSome ∧
      Represents (raw.load program base).2 (machine.load program base).2 := by
  obtain ⟨core, stack, halted, breakpoints, resume⟩ := represents
  unfold Machine.load WordMachine.Machine.load
  split
  · exact ⟨rfl, core, stack, halted, breakpoints, resume⟩
  · rw [core, load_ofCore machine.core (Word.ofInt base) 0 program]
    -- Both stop at the same number, since both refuse exactly what no cell can hold.
    cases failed : (machine.core.memory.loadFrom (Word.ofInt base) 0 program).error? with
    | some error =>
      simp only [Memory.load, failed, Option.isNone_some, Bool.false_eq_true, if_false, false_and]
      exact ⟨rfl, rfl, stack, halted, breakpoints, resume⟩
    | none =>
      simp only [Memory.load, failed, Option.isNone_none, if_true, true_and]
      split
      · refine ⟨rfl, ?_, stack, halted, breakpoints, resume⟩
        exact put_ofCore _ _ .sentinel
      · exact ⟨rfl, rfl, stack, halted, breakpoints, resume⟩

/-- Both machines are at a breakpoint that counts, or neither is. -/
theorem Represents.counts_iff {raw : Machine} {machine : WordMachine.Machine}
    (represents : Represents raw machine) :
    (raw.core.pc ∈ raw.breakpoints ∧ raw.resume ≠ some raw.core.pc) ↔
      (machine.core.registers.pc ∈ machine.breakpoints ∧
        machine.resume ≠ some machine.core.registers.pc) := by
  have pc : raw.core.pc = machine.core.registers.pc.value := by rw [represents.core]; rfl
  rw [pc, represents.breakpoints, represents.resume, List.mem_map_of_injective value_injective,
    ← Option.map_some, ne_eq, (Option.map_injective value_injective).eq_iff]

theorem represents_step (raw : Machine) (machine : WordMachine.Machine)
    (represents : Represents raw machine) :
    raw.step.1 = machine.step.1.isSome ∧ Represents raw.step.2 machine.step.2 := by
  have counts := represents.counts_iff
  obtain ⟨core, stack, halted, breakpoints, resume⟩ := represents
  have pc : raw.core.pc = machine.core.registers.pc.value := by rw [core]; rfl
  have cell : raw.core.cells (Word.ofInt raw.core.pc) =
      (machine.core.memory.fetch machine.core.registers.pc).raw := by
    rw [pc, Word.ofInt_value, core]
    rfl
  unfold Machine.step WordMachine.Machine.step
  simp only [cell, halted, counts]
  cases stopped : machine.stop with
  | some stop =>
    simp only [Option.isSome_some, if_true]
    exact ⟨trivial, core, stack, halted.trans (by rw [stopped]), breakpoints, resume⟩
  | none =>
    simp only [Option.isSome_none, Bool.false_eq_true, if_false]
    split
    -- A breakpoint leaves everything but the note of it.
    · exact ⟨rfl, core, stack, rfl, breakpoints, congrArg some pc⟩
    · cases fetched : machine.core.memory.fetch machine.core.registers.pc with
      | sentinel =>
        rw [Cell.raw, if_pos rfl]
        exact ⟨rfl, core, stack, rfl, breakpoints, rfl⟩
      | word word =>
        rw [Cell.raw, if_neg (Cell.value_ne_sentinelValue word), core, execute_ofCore]
        simp only
        rcases machine.core.execute word with ⟨_ | fault, after⟩
        · exact ⟨rfl, rfl, stack, rfl, breakpoints, rfl⟩
        · exact ⟨rfl, rfl, stack, rfl, breakpoints, rfl⟩

theorem stepUpTo_eq_run (count : Nat) (machine : WordMachine.Machine) :
    (Monitor.stepUpTo count machine).2 = (WordMachine.Machine.run count machine).2 := by
  induction count generalizing machine with
  | zero => rfl
  | succ count ih =>
    unfold Monitor.stepUpTo WordMachine.Machine.run
    rcases machine.step with ⟨_ | reason, after⟩
    · exact ih after
    · rfl

theorem represents_run (budget : Nat) (raw : Machine) (machine : WordMachine.Machine)
    (represents : Represents raw machine) :
    Represents (raw.run budget) (WordMachine.Machine.run budget machine).2 := by
  induction budget generalizing raw machine with
  | zero => exact represents
  | succ budget ih =>
    have stepped := represents_step raw machine represents
    unfold Machine.run WordMachine.Machine.run
    generalize raw.step = rawOutcome at stepped ⊢
    generalize machine.step = outcome at stepped ⊢
    obtain ⟨stops, rawAfter⟩ := rawOutcome
    obtain ⟨_ | reason, after⟩ := outcome
    · obtain ⟨rfl, next⟩ := stepped
      exact ih rawAfter after next
    · obtain ⟨rfl, next⟩ := stepped
      exact next

/-! ### Requests -/

theorem Represents.withCore {raw : Machine} {machine : WordMachine.Machine}
    (represents : Represents raw machine) (core : WordMachine.Core) :
    Represents { raw with core := ofCore core } { machine with core := core } :=
  ⟨rfl, represents.stack, represents.halted, represents.breakpoints, represents.resume⟩

theorem represents_setRegister (raw : Machine) (machine : WordMachine.Machine)
    (represents : Represents raw machine) (name : List Char) (value : Int) :
    Represents (raw.perform (.setRegister name value))
      (Monitor.perform machine (.setRegister name value)).2 := by
  simp only [Machine.perform, Monitor.perform]
  cases Monitor.registerNamed name with
  | error error => exact represents
  | ok register =>
    cases register with
    | general r =>
      simp only [Machine.mapCore, represents.core, writeGeneral_ofCore]
      exact represents.withCore _
    | pc =>
      simp only [Machine.mapCore, represents.core, jump_ofCore]
      exact represents.withCore _
    | sp =>
      simp only [Machine.mapCore, represents.core, setStackPointer_ofCore]
      exact represents.withCore _
    | overflow =>
      simp only [Machine.mapCore, represents.core, setOverflow_ofCore]
      exact represents.withCore _

theorem represents_resolving (raw : Machine) (machine : WordMachine.Machine)
    (represents : Represents raw machine) (code : Int)
    (answer : Location → WordMachine.Core → Monitor.Reply) :
    Represents (raw.perform (.resolve code)) (Monitor.resolving machine code answer).2 := by
  simp only [Machine.perform, Monitor.resolving]
  cases Monitor.modeOfCode code with
  | error error => exact represents
  | ok mode =>
    simp only [Machine.mapCore, represents.core, resolve_ofCore]
    exact represents.withCore _

private theorem storage_of_nowhere (reference : Reference)
    (located : reference.location? = none) : reference.storage = .literal := by
  obtain ⟨storage, index⟩ := reference
  cases storage with
  | literal => rfl
  | _ => cases located

theorem represents_writeReference (raw : Machine) (machine : WordMachine.Machine)
    (represents : Represents raw machine) (reference : Reference) (value : Int) :
    Represents (raw.perform (.writeReference reference value))
      (Monitor.perform machine (.writeReference reference value)).2 := by
  simp only [Machine.perform, Monitor.perform, WordMachine.Core.storeReference]
  cases writable : reference.storage.writable with
  | false => exact represents
  | true =>
    simp only [if_true]
    cases located : reference.location? with
    -- What is no location is a constant, which has been refused.
    | none =>
      rw [storage_of_nowhere reference located] at writable
      cases writable
    | some location =>
      simp only [Machine.mapCore, represents.core, store_ofCore _ reference location located]
      exact represents.withCore _

private theorem map_insert (breakpoints : List Word) (address : Word) :
    (breakpoints.insert address).map Word.value =
      (breakpoints.map Word.value).insert address.value := by
  simp only [List.insert, List.elem_eq_mem, List.mem_map_of_injective value_injective]
  split <;> rfl

private theorem map_remove (breakpoints : List Word) (address : Word) :
    (breakpoints.filter (· != address)).map Word.value =
      (breakpoints.map Word.value).filter (· != address.value) := by
  rw [List.filter_map]
  refine congrArg (List.map Word.value) (List.filter_congr fun word _ => ?_)
  rw [Bool.eq_iff_iff, bne_iff_ne, Function.comp, bne_iff_ne, value_injective.ne_iff]

theorem represents_perform (raw : Machine) (machine : WordMachine.Machine)
    (represents : Represents raw machine) (command : Command) :
    Represents (raw.perform command) (Monitor.perform machine command).2 := by
  cases command with
  | load program base =>
    have loaded := (represents_load raw machine represents program base).2
    simp only [Machine.perform, Monitor.perform]
    generalize machine.load program base = outcome at loaded ⊢
    obtain ⟨_ | error, after⟩ := outcome
    · exact loaded
    · exact loaded
  | step count =>
    have ran := represents_run count raw machine represents
    rw [← stepUpTo_eq_run] at ran
    exact ran
  | run budget => exact represents_run budget raw machine represents
  | reset =>
    simp only [Machine.perform, represents.core, reset_ofCore, represents.stack]
    exact ⟨rfl, represents.stack, rfl, represents.breakpoints, rfl⟩
  | addBreakpoint address =>
    obtain ⟨core, stack, halted, breakpoints, resume⟩ := represents
    refine ⟨core, stack, halted, ?_, resume⟩
    simp only [Machine.perform, breakpoints, cut_eq]
    exact (map_insert _ _).symm
  | removeBreakpoint address =>
    obtain ⟨core, stack, halted, breakpoints, resume⟩ := represents
    refine ⟨core, stack, halted, ?_, resume⟩
    simp only [Machine.perform, breakpoints, cut_eq]
    exact (map_remove _ _).symm
  | setTracing on =>
    obtain ⟨core, stack, halted, breakpoints, resume⟩ := represents
    exact ⟨core, stack, halted, breakpoints, resume⟩
  | getRegister name =>
    simp only [Monitor.perform]
    cases Monitor.registerNamed name <;> exact represents
  | readReference reference =>
    simp only [Monitor.perform]
    cases machine.core.readReference? reference <;> exact represents
  | setRegister name value => exact represents_setRegister raw machine represents name value
  | writeGeneral index value =>
    simp only [Machine.perform, Machine.mapCore, represents.core, writeGeneral_ofCore]
    exact represents.withCore _
  | setSkip pending =>
    simp only [Machine.perform, Machine.mapCore, represents.core, setSkip_ofCore]
    exact represents.withCore _
  | push value =>
    simp only [Machine.perform, Machine.mapCore, represents.core, push_ofCore]
    exact represents.withCore _
  | resetRegisters stack =>
    simp only [Machine.perform, Machine.mapCore, represents.core, reset_ofCore]
    exact represents.withCore _
  | write address value =>
    simp only [Machine.perform, Machine.mapCore, represents.core, write_ofCore]
    exact represents.withCore _
  | placeSentinel address =>
    simp only [Machine.perform, Machine.mapCore, represents.core, placeSentinel_ofCore]
    exact represents.withCore _
  | copyWords words base =>
    simp only [Machine.perform, Machine.mapCore, represents.core,
      load_ofCore _ (Word.ofInt base) 0 words]
    exact represents.withCore _
  | resolve code => exact represents_resolving raw machine represents code _
  | resolveAndRead code => exact represents_resolving raw machine represents code _
  | writeReference reference value =>
    exact represents_writeReference raw machine represents reference value
  | _ => exact represents

theorem represents_performAll (commands : List Command) (raw : Machine)
    (machine : WordMachine.Machine) (represents : Represents raw machine) :
    Represents (raw.performAll commands) (performAll machine commands) := by
  induction commands generalizing raw machine with
  | nil => exact represents
  | cons command rest ih => exact ih _ _ (represents_perform raw machine represents command)

/-! ### Ranges -/

/-- An integer of sixteen bits. -/
def Small (value : Int) : Prop := 0 ≤ value ∧ value ≤ 65535

/-- Everything that a core holds, and everything that can be read from it, is in its range. -/
structure Core.InRange (core : Core) : Prop where
  general : ∀ r, Small (core.general r)
  pc : Small core.pc
  sp : Small core.sp
  overflow : Small core.overflow
  cells : ∀ address, Small (core.cells address) ∨ core.cells address = Cell.sentinelValue
  data : ∀ address, Small (core.readCell address)
  references : ∀ reference, Small (core.read reference)
  operands : ∀ mode, Small ((core.resolve mode).2.read (core.resolve mode).1)

theorem small_value (word : Word) : Small word.value := by
  have bound := word.isLt
  simp only [Small, Word.value]
  omega

private theorem small_raw (cell : Cell) : Small cell.raw ∨ cell.raw = Cell.sentinelValue := by
  cases cell with
  | word word => exact .inl (small_value word)
  | sentinel => exact .inr rfl

private theorem small_read (core : WordMachine.Core) (reference : Reference) :
    Small ((ofCore core).read reference) := by
  cases located : reference.location? with
  | some location =>
    rw [read_ofCore core reference location located]
    exact small_value _
  | none =>
    have constant := storage_of_nowhere reference located
    simp only [Core.read, constant, Small]
    omega

theorem inRange_ofCore (core : WordMachine.Core) : (ofCore core).InRange where
  general r := small_value _
  pc := small_value _
  sp := small_value _
  overflow := small_value _
  cells address := small_raw _
  data address := by
    rw [readCell_ofCore]
    exact small_value _
  references reference := small_read core reference
  operands mode := by
    rw [resolve_ofCore]
    exact small_read _ _

theorem represents_initial (stack : Int) :
    Represents (Machine.initial stack) (WordMachine.Machine.initial (Word.ofInt stack)) := by
  refine ⟨?_, rfl, rfl, rfl, rfl⟩
  rw [Machine.initial, WordMachine.Machine.initial, cut_eq, ofCore]
  simp only [read_initial, Memory.fetch_blank]
  rfl

/-- The machine over integers is built when the machine over words is, and as its image. -/
theorem represents_build (program? : Option (List Int)) (stack : Int) (raw : Machine)
    (built : Machine.build program? stack = some raw) :
    ∃ machine, WordMachine.Machine.build program? stack = .ok machine ∧ Represents raw machine := by
  have initial := represents_initial stack
  cases program? with
  | none =>
    cases built
    exact ⟨_, rfl, initial⟩
  | some program =>
    have loaded := represents_load _ _ initial program 0
    simp only [Machine.build] at built
    simp only [WordMachine.Machine.build, WordMachine.Machine.withProgram]
    generalize (Machine.initial stack).load program 0 = rawOutcome at built loaded
    generalize (WordMachine.Machine.initial (Word.ofInt stack)).load program 0 = outcome at loaded ⊢
    obtain ⟨refused, rawLoaded⟩ := rawOutcome
    obtain ⟨_ | error, after⟩ := outcome
    · obtain ⟨rfl, represents⟩ := loaded
      cases built
      exact ⟨after, rfl, represents⟩
    · obtain ⟨rfl, -⟩ := loaded
      cases built

/-- Whatever is asked of a new machine, and whether or not it is refused, all registers stay words
and all cells words or sentinels, although they could hold any integer; and the machine over words
is the same machine. -/
theorem performAll_inRange (program? : Option (List Int)) (stack : Int) (raw : Machine)
    (built : Machine.build program? stack = some raw) (commands : List Command) :
    (raw.performAll commands).core.InRange ∧
      ∃ machine, WordMachine.Machine.build program? stack = .ok machine ∧
        Represents (raw.performAll commands) (performAll machine commands) := by
  obtain ⟨machine, same, represents⟩ := represents_build program? stack raw built
  have represented := represents_performAll commands raw machine represents
  refine ⟨?_, machine, same, represented⟩
  -- The integers are the values of words, which have no others.
  rw [represented.core]
  exact inRange_ofCore _

/-- Values out of range everywhere, one of which is refused when memory is half filled. -/
theorem performAll_inRange_refused :
    ∃ raw, Machine.build (some [0x7C01, 0x30]) (-1) = some raw ∧
      (raw.performAll [.copyWords [0xFFFF, 0x10000] 0x1FFFF, .push 0x12345, .run 9]).core.InRange :=
  ⟨_, rfl, (performAll_inRange (some [0x7C01, 0x30]) (-1) _ rfl _).1⟩

end Raw

end WordMachine
