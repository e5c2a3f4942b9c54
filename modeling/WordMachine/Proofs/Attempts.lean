import WordMachine.Proofs.Ranges
import WordMachine.Proofs.Steps

/-! Steps over integers in which an operation breaks off where integers have no answer for it. No
machine that can be reached ever breaks off, and what a step answers can be told from the cell at
the program counter and the skip flag. -/
namespace WordMachine.Raw

open Monitor (Command performAll)

/-- What an operation on integers breaks off with. -/
inductive Break
  /-- The number of places of a shift is negative. -/
  | negativeShift
  /-- No operand has the code. -/
  | operandCode (code : Int)
  /-- No small constant has the index. -/
  | noConstant (index : Int)
  /-- No operation has the code. -/
  | noOperation (opcode : Int)

namespace Core

/-! ### Fields and tables -/

def opcodeField (word : Int) : Int := word % 16

def firstField (word : Int) : Int := word / 16 % 64

def secondField (word : Int) : Int := word / 1024 % 64

/-- The binary operations by their codes. -/
def operations : List (Int × BinaryOp) :=
  [(0x1, .set), (0x2, .add), (0x3, .sub), (0x4, .mul), (0x5, .div), (0x6, .mod), (0x7, .shl),
    (0x8, .shr), (0x9, .and), (0xA, .bor), (0xB, .xor)]

/-- The conditions by their codes. -/
def conditions : List (Int × Condition) :=
  [(0xC, .equal), (0xD, .notEqual), (0xE, .greater), (0xF, .common)]

/-! ### Attempts -/

def tryResolve (core : Core) (code : Int) : Except Break (Reference × Core) :=
  if 0 ≤ code ∧ code ≤ 0x3F then .ok (core.resolve (Mode.ofCode (BitVec.ofInt 6 code)))
  else .error (.operandCode code)

def tryRead (core : Core) (reference : Reference) : Except Break Int :=
  if reference.storage = .literal ∧ ¬(-32 ≤ reference.index ∧ reference.index < 32) then
    .error (.noConstant reference.index)
  else .ok (core.read reference)

def tryEvaluate (op : BinaryOp) (a b : Int) : Except Break Arithmetic.Result :=
  match op.evaluate a b with
  | .ok result => .ok result
  | .error .negativeShift => .error .negativeShift

/-- The effect of a binary operation or of a test, found by its code. -/
def tryEffect (core : Core) (opcode : Int) (first second : Reference) :
    Except Break (Option Reason × Core) := do
  let a ← core.tryRead first
  let b ← core.tryRead second
  match conditions.lookup opcode with
  | some condition => return (none, if condition.holds a b then core else core.setSkip true)
  | none =>
    match operations.lookup opcode with
    | none => throw (.noOperation opcode)
    | some op =>
      let result ← tryEvaluate op a b
      if first.storage.writable then return (none, core.storeResult first result)
      else return (some .illegalWrite, core)

/-- An instruction of the extended form, which calls a subroutine or is undefined. -/
def tryExtended (core : Core) (selector code : Int) : Except Break (Option Reason × Core) :=
  if selector ≠ 1 then return (some .illegal, core)
  else do
    let (reference, core) ← core.tryResolve code
    let target ← core.tryRead reference
    if core.skip then return (none, core.setSkip false)
    else return (none, (core.push core.pc).jump target)

/-- An instruction with two operands. -/
def tryPlain (core : Core) (opcode a b : Int) : Except Break (Option Reason × Core) := do
  let (first, core) ← core.tryResolve a
  let (second, core) ← core.tryResolve b
  if core.skip then return (none, core.setSkip false)
  else core.tryEffect opcode first second

def tryExecute (core : Core) (word : Int) : Except Break (Option Reason × Core) :=
  let core := core.jump (core.pc + 1)
  if opcodeField word = 0 then core.tryExtended (firstField word) (secondField word)
  else core.tryPlain (opcodeField word) (firstField word) (secondField word)

/-- The number in the cell at the program counter. -/
def fetched (core : Core) : Int := core.cells (Word.ofInt core.pc)

/-- What a machine that has not stopped does in a step. -/
def attempt (core : Core) : Except Break (Option Reason × Core) :=
  if core.fetched = Cell.sentinelValue then return (some .halt, core)
  else core.tryExecute core.fetched

end Core

/-! ### Attempts succeed -/

theorem fields_eq (word : Word) :
    Core.opcodeField word.value = ((Instruction.ofWord word).opcode.toNat : Int) ∧
      Core.firstField word.value = ((Instruction.ofWord word).a.toNat : Int) ∧
      Core.secondField word.value = ((Instruction.ofWord word).b.toNat : Int) := by
  have packed := (Instruction.ofWord word).toNat_toWord
  rw [Instruction.toWord_ofWord] at packed
  have opcode := (Instruction.ofWord word).opcode.isLt
  have a := (Instruction.ofWord word).a.isLt
  have b := (Instruction.ofWord word).b.isLt
  simp only [Core.opcodeField, Core.firstField, Core.secondField, Word.value, packed]
  omega

theorem tryResolve_ofCore (core : WordMachine.Core) (code : BitVec 6) :
    (ofCore core).tryResolve code.toNat =
      .ok ((core.resolve (Mode.ofCode code)).1.reference,
        ofCore (core.resolve (Mode.ofCode code)).2) := by
  have bound := code.isLt
  have same : BitVec.ofInt 6 code.toNat = code := by simp
  rw [Core.tryResolve, if_pos (by omega), same, resolve_ofCore]

theorem tryRead_ofCore (core : WordMachine.Core) (location : Location) :
    (ofCore core).tryRead location.reference = .ok (core.read location).value := by
  have known : ¬(location.reference.storage = .literal ∧
      ¬(-32 ≤ location.reference.index ∧ location.reference.index < 32)) := by
    rintro ⟨literal, outside⟩
    cases location with
    | literal n =>
      have bound := n.isLt
      simp only [Location.reference] at outside
      omega
    | _ => cases literal
  rw [Core.tryRead, if_neg known, read_reference_ofCore]

/-- Words are no negative numbers of places. -/
theorem tryEvaluate_words (op : BinaryOp) (a b : Word) :
    Core.tryEvaluate op a.value b.value = .ok (op.result a.value b.value) := by
  have positive : ¬(op.isShift = true ∧ b.value < 0) := by
    rw [Word.value]
    omega
  rw [Core.tryEvaluate, BinaryOp.evaluate, if_neg positive]

/-- What carrying out an instruction leaves, the fault told by its reason. -/
def answerOf (outcome : Option Fault × WordMachine.Core) : Option Reason × Core :=
  (outcome.1.map fun fault => (Stop.fault fault).reason, ofCore outcome.2)

theorem tryEffect_combine (core : WordMachine.Core) (op : BinaryOp) (target source : Location) :
    (ofCore core).tryEffect (Operation.binary op).opcode.toNat target.reference source.reference =
      .ok (answerOf (core.combine op target source)) := by
  have condition : Core.conditions.lookup ((Operation.binary op).opcode.toNat : Int) = none := by
    cases op <;> rfl
  have operation : Core.operations.lookup ((Operation.binary op).opcode.toNat : Int) = some op := by
    cases op <;> rfl
  simp only [Core.tryEffect, tryRead_ofCore, condition, operation, bind, Except.bind,
    tryEvaluate_words, storeResult_ofCore]
  unfold WordMachine.Core.combine Location.writable
  cases target.reference.storage.writable <;> rfl

theorem tryEffect_test (core : WordMachine.Core) (condition : Condition)
    (first second : Location) :
    (ofCore core).tryEffect (Operation.conditional condition).opcode.toNat first.reference
        second.reference = .ok (none, ofCore (core.test condition first second)) := by
  have found : Core.conditions.lookup ((Operation.conditional condition).opcode.toNat : Int) =
      some condition := by
    cases condition <;> rfl
  simp only [Core.tryEffect, tryRead_ofCore, found]
  rw [← test_ofCore, Core.test, read_reference_ofCore, read_reference_ofCore]
  rfl

private theorem skip_ofCore (core : WordMachine.Core) :
    (ofCore core).skip = core.registers.skip := rfl

/-- An undefined instruction has the extended form, but does not call a subroutine. -/
private theorem fields_of_undefined (instruction : Instruction)
    (undefined : Operation.ofInstruction? instruction = none) :
    (instruction.opcode.toNat : Int) = 0 ∧ (instruction.a.toNat : Int) ≠ 1 := by
  have extended : instruction.opcode = 0 := by
    by_contra plain
    obtain ⟨⟨operation, defined, -⟩, -⟩ := instruction.plain_cases plain
    rw [undefined] at defined
    cases defined
  refine ⟨by rw [extended]; rfl, fun one => ?_⟩
  have selected : instruction.a = Operation.jsrSelector :=
    BitVec.eq_of_toNat_eq (Int.natCast_inj.mp one)
  have called := (Operation.ofInstruction?_eq_some_iff instruction .jsr).mpr
    ⟨extended.symm, fun _ => selected⟩
  rw [undefined] at called
  cases called

/-- No instruction breaks off on words. -/
theorem tryExecute_ofCore (core : WordMachine.Core) (word : Word) :
    (ofCore core).tryExecute word.value = .ok (answerOf (core.execute word)) := by
  obtain ⟨opcode, first, second⟩ := fields_eq word
  rw [Core.tryExecute, opcode, first, second, jump_next_ofCore]
  simp only [WordMachine.Core.execute]
  -- The operation that the word decodes to tells which of the branches its fields lead to.
  cases defined : Operation.ofInstruction? (Instruction.ofWord word) with
  | none =>
    obtain ⟨extended, other⟩ := fields_of_undefined _ defined
    rw [if_pos extended, Core.tryExtended, if_pos other]
    rfl
  | some operation =>
    obtain ⟨same, selector⟩ := (Operation.ofInstruction?_eq_some_iff _ _).mp defined
    rw [← same]
    cases operation with
    | jsr =>
      have called : ¬((Operation.jsrSelector.toNat : Int) ≠ 1) := by decide
      have back (core : WordMachine.Core) : (ofCore core).pc = core.registers.pc.value := rfl
      have extended : (Operation.jsr.opcode.toNat : Int) = 0 := rfl
      rw [if_pos extended, selector rfl, Core.tryExtended, if_neg called, tryResolve_ofCore]
      simp only [bind, Except.bind, tryRead_ofCore, skip_ofCore, setSkip_ofCore, back, push_ofCore,
        jump_ofCore, Word.ofInt_value]
      split <;> rfl
    | binary op =>
      have plain : ¬((Operation.binary op).opcode.toNat : Int) = 0 := by cases op <;> decide
      rw [if_neg plain, Core.tryPlain, tryResolve_ofCore]
      simp only [bind, Except.bind, tryResolve_ofCore, skip_ofCore, setSkip_ofCore,
        tryEffect_combine]
      split <;> rfl
    | conditional condition =>
      have plain : ¬((Operation.conditional condition).opcode.toNat : Int) = 0 := by
        cases condition <;> decide
      rw [if_neg plain, Core.tryPlain, tryResolve_ofCore]
      simp only [bind, Except.bind, tryResolve_ofCore, skip_ofCore, setSkip_ofCore,
        tryEffect_test]
      split <;> rfl

theorem fetched_ofCore (core : WordMachine.Core) :
    (ofCore core).fetched = (core.memory.fetch core.registers.pc).raw :=
  congrArg (fun address => (core.memory.fetch address).raw) (Word.ofInt_value _)

/-- No step breaks off on words: it answers as the machine over words does. -/
theorem attempt_ofCore (machine : WordMachine.Machine) (running : machine.stop = none)
    (passing : machine.core.registers.pc ∈ machine.breakpoints →
      machine.resume = some machine.core.registers.pc) :
    (ofCore machine.core).attempt = .ok (machine.step.1, ofCore machine.step.2.core) := by
  have counts := machine.not_counts_of_passing passing
  rw [Core.attempt, fetched_ofCore]
  rcases machine.step_cases with ⟨stop, stopped, -⟩ | ⟨-, breaks, fresh, -⟩ |
    ⟨-, -, fetched, stepped⟩ | ⟨word, fault, core, ready, executed, stepped⟩ |
    ⟨word, core, ready, executed, stepped⟩
  · rw [running] at stopped
    cases stopped
  · exact absurd ⟨breaks, fresh⟩ counts
  · rw [fetched, stepped]
    rfl
  · rw [ready.fetched, stepped, Cell.raw, if_neg (Cell.value_ne_sentinelValue word),
      tryExecute_ofCore, executed]
    rfl
  · rw [ready.fetched, stepped, Cell.raw, if_neg (Cell.value_ne_sentinelValue word),
      tryExecute_ofCore, executed]
    rfl

/-! ### Answers -/

namespace Core

/-- The mnemonic of the instruction in the low bits of a number, if it is defined. -/
def mnemonic? (number : Int) : Option String :=
  (Operation.ofInstruction? (Instruction.ofWord (Word.ofInt number))).map Operation.mnemonic

/-- The next instruction, which is not to be skipped, is to store its result in a constant. -/
structure StoresInConstant (core : Core) : Prop where
  settled : core.skip = false
  stores : 1 ≤ opcodeField core.fetched ∧ opcodeField core.fetched ≤ 0xB
  constant : firstField core.fetched = 0x1F ∨
    (0x20 ≤ firstField core.fetched ∧ firstField core.fetched ≤ 0x3F)

end Core

/-- What a step answers is told by the number at the program counter and the skip flag. -/
structure Classified (core : Core) (answer : Option Reason) : Prop where
  halt : answer = some .halt ↔ core.fetched = Cell.sentinelValue
  /-- Whether or not the instruction is to be skipped. -/
  illegal : answer = some .illegal ↔
    core.fetched ≠ Cell.sentinelValue ∧ Core.mnemonic? core.fetched = none
  illegalWrite : answer = some .illegalWrite ↔ core.StoresInConstant
  proceeds : answer = none ↔
    ¬core.fetched = Cell.sentinelValue ∧
      ¬(core.fetched ≠ Cell.sentinelValue ∧ Core.mnemonic? core.fetched = none) ∧
      ¬core.StoresInConstant

private theorem storesInConstant_iff (core : WordMachine.Core) (word : Word)
    (fetched : (ofCore core).fetched = word.value) :
    (ofCore core).StoresInConstant ↔
      core.registers.skip = false ∧ (Instruction.ofWord word).StoresInConstant := by
  obtain ⟨opcode, first, -⟩ := fields_eq word
  have bound := (Instruction.ofWord word).a.isLt
  constructor
  · rintro ⟨settled, stores, constant⟩
    rw [fetched, opcode] at stores
    rw [fetched, first] at constant
    exact ⟨settled, by omega, by omega, by omega⟩
  · rintro ⟨settled, low, high, constant⟩
    refine ⟨settled, ?_, ?_⟩
    · rw [fetched, opcode]
      omega
    · rw [fetched, first]
      omega

theorem classified_of_attempt (core : WordMachine.Core) (answer : Option Reason) (after : Core)
    (answered : (ofCore core).attempt = .ok (answer, after)) :
    Classified (ofCore core) answer := by
  have fetched := fetched_ofCore core
  rw [Core.attempt] at answered
  cases held : core.memory.fetch core.registers.pc with
  | sentinel =>
    have sentinel : (ofCore core).fetched = Cell.sentinelValue := by rw [fetched, held, Cell.raw]
    have safe : ¬(ofCore core).StoresInConstant := by
      rintro ⟨-, ⟨low, -⟩, -⟩
      rw [sentinel] at low
      exact absurd low (by decide)
    rw [if_pos sentinel] at answered
    cases answered
    exact ⟨iff_of_true rfl sentinel, iff_of_false (by simp) fun both => both.1 sentinel,
      iff_of_false (by simp) safe, iff_of_false (by simp) fun all => all.1 sentinel⟩
  | word word =>
    have number : (ofCore core).fetched = word.value := by rw [fetched, held, Cell.raw]
    have defined : Core.mnemonic? (ofCore core).fetched =
        (Operation.ofInstruction? (Instruction.ofWord word)).map Operation.mnemonic := by
      rw [number, Core.mnemonic?, Word.ofInt_value]
    have other : (ofCore core).fetched ≠ Cell.sentinelValue := by
      rw [number]
      exact Cell.value_ne_sentinelValue word
    have stores := storesInConstant_iff core word number
    rw [if_neg other, number, tryExecute_ofCore] at answered
    have answers : answer = (core.execute word).1.map fun fault => (Stop.fault fault).reason :=
      (congrArg Prod.fst (Except.ok.inj answered)).symm
    have legal {operation : Operation}
        (known : Operation.ofInstruction? (Instruction.ofWord word) = some operation) :
        ¬((ofCore core).fetched ≠ Cell.sentinelValue ∧
          Core.mnemonic? (ofCore core).fetched = none) := by
      rw [defined, known]
      simp
    rcases core.execute_fault_cases word with ⟨undefined, faults⟩ |
      ⟨operation, known, settled, constant, target, faults⟩ | ⟨operation, known, safe, proceeds⟩
    · have extended := (fields_of_undefined _ undefined).1
      have safe : ¬(ofCore core).StoresInConstant := by
        intro stored
        have low := (stores.mp stored).2.1
        omega
      have illegal : (ofCore core).fetched ≠ Cell.sentinelValue ∧
          Core.mnemonic? (ofCore core).fetched = none := ⟨other, by rw [defined, undefined]; rfl⟩
      obtain rfl : answer = some .illegal := by rw [answers, faults]; rfl
      exact ⟨iff_of_false (by simp) other, iff_of_true rfl illegal, iff_of_false (by simp) safe,
        iff_of_false (by simp) fun all => all.2.1 illegal⟩
    · have write := stores.mpr ⟨settled, constant⟩
      obtain rfl : answer = some .illegalWrite := by rw [answers, faults]; rfl
      exact ⟨iff_of_false (by simp) other, iff_of_false (by simp) (legal known),
        iff_of_true rfl write, iff_of_false (by simp) fun all => all.2.2 write⟩
    · have safe := mt stores.mp safe
      obtain rfl : answer = none := by rw [answers, proceeds]; rfl
      exact ⟨iff_of_false (by simp) other, iff_of_false (by simp) (legal known),
        iff_of_false (by simp) safe, iff_of_true rfl ⟨other, legal known, safe⟩⟩

/-- In every machine that can be reached and goes on, a step succeeds, and its answer is told by the
number at the program counter and the skip flag: the sentinel halts, an undefined instruction is
illegal even if it is to be skipped, storing in a constant is illegal unless it is to be skipped,
and everything else proceeds. -/
theorem attempt_classified (program? : Option (List Int)) (stack : Int) (raw : Machine)
    (built : Machine.build program? stack = some raw) (commands : List Command)
    (running : (raw.performAll commands).halted = false)
    (passing : (raw.performAll commands).core.pc ∈ (raw.performAll commands).breakpoints →
      (raw.performAll commands).resume = some (raw.performAll commands).core.pc) :
    ∃ start, WordMachine.Machine.build program? stack = .ok start ∧
      Represents (raw.performAll commands) (performAll start commands) ∧
      (raw.performAll commands).core.attempt =
        .ok ((performAll start commands).step.1, ofCore (performAll start commands).step.2.core) ∧
      Classified (raw.performAll commands).core (performAll start commands).step.1 := by
  obtain ⟨start, same, represents⟩ := represents_build program? stack raw built
  have represented := represents_performAll commands raw start represents
  have counts : ¬((performAll start commands).core.registers.pc ∈
        (performAll start commands).breakpoints ∧
      (performAll start commands).resume ≠ some (performAll start commands).core.registers.pc) := by
    rw [← represented.counts_iff]
    exact fun both => both.2 (passing both.1)
  have unstopped : (performAll start commands).stop = none := by
    rw [← Option.not_isSome_iff_eq_none, ← represented.halted, running]
    exact Bool.false_ne_true
  have attempted := attempt_ofCore (performAll start commands) unstopped
    fun breaks => Decidable.not_not.mp fun fresh => counts ⟨breaks, fresh⟩
  refine ⟨start, same, represented, ?_⟩
  rw [represented.core]
  exact ⟨attempted, classified_of_attempt _ _ _ attempted⟩

/-- A machine that has stopped at a breakpoint goes on to store in a constant, after it was reset
because it had stored there before. -/
theorem attempt_classified_past_breakpoint :
    ∃ raw, Machine.build (some [0x3F1]) 0 = some raw ∧ ∃ after,
      (raw.performAll [.run 9, .reset, .addBreakpoint 0, .step 1]).core.attempt =
        .ok (some .illegalWrite, after) := by
  obtain ⟨start, -, -, attempted, classified⟩ := attempt_classified (some [0x3F1]) 0 _ rfl
    [.run 9, .reset, .addBreakpoint 0, .step 1] rfl fun _ => rfl
  rw [classified.illegalWrite.mpr ⟨rfl, by decide, by decide⟩] at attempted
  exact ⟨_, rfl, _, attempted⟩

end WordMachine.Raw
