import WordMachine.Proofs.Assembly.Passes
import WordMachine.Proofs.Loading
import WordMachine.Proofs.Steps

/-! Straight-line programs: when nothing is called and nothing is stored but in registers, every
instruction, carried out or skipped, leads to the next one, and the last one to the sentinel. -/
namespace WordMachine

/-! ### Instructions -/

/-- An operand that is a register other than the program counter. -/
inductive Mode.IsRegister : Mode → Prop
  | general (r : Register) : IsRegister (.register r)
  | stackPointer : IsRegister .stackPointer
  | overflow : IsRegister .overflow

/-- An instruction was passed, with or without its effect: memory is as before, and the program
counter is behind the instruction. -/
structure Passed (before : Core) (instruction : Instruction) (after : Core) : Prop where
  memory : after.memory = before.memory
  pc : after.registers.pc = before.registers.pc + BitVec.ofNat 16 instruction.length

namespace Core

private theorem combine_in_register (core : Core) (op : BinaryOp) (registers : Registers)
    (next : Word) (mode : Mode) (source : Location) (target : mode.IsRegister) :
    ∃ after, core.combine op (mode.location registers next) source = (none, after) ∧
      after.memory = core.memory ∧ after.registers.pc = core.registers.pc := by
  have writable : (mode.location registers next).writable = true := by
    cases target <;> rfl
  refine ⟨_, by rw [combine, if_pos writable], ?_⟩
  generalize op.result _ _ = result
  cases target <;> cases overflow : result.overflow? <;>
    simp only [Mode.location, storeResult, overflow, store, setStackPointer, setOverflow,
      Registers.write, and_self]

/-- A test passes its instruction, and so does an operation that stores in a register. -/
theorem execute_straight (core : Core) (word : Word) (operation : Operation)
    (defined : Operation.ofInstruction? (Instruction.ofWord word) = some operation)
    (noCall : operation ≠ .jsr)
    (stores : ∀ op, operation = .binary op →
      ∃ mode rest, (Instruction.ofWord word).modes = mode :: rest ∧ mode.IsRegister) :
    ∃ after, core.execute word = (none, after) ∧ Passed core (Instruction.ofWord word) after := by
  obtain ⟨locations, resolved, resolves, rfl, executed⟩ :=
    core.execute_of_defined word operation defined
  cases skip : core.registers.skip with
  | true =>
    rw [if_pos skip] at executed
    exact ⟨_, executed, rfl, rfl⟩
  | false =>
    rw [skip, if_neg Bool.false_ne_true] at executed
    cases operation with
    | jsr => exact absurd rfl noCall
    | conditional condition =>
      obtain ⟨pending, tested⟩ := effect_of_conditional _ condition locations
      exact ⟨_, executed.trans tested, rfl, rfl⟩
    | binary op =>
      obtain ⟨mode, rest, modes, register⟩ := stores op rfl
      have pair := (Instruction.ofWord word).modes_of_defined _ defined nofun
      obtain ⟨rfl, rfl⟩ := List.cons.inj (pair.symm.trans modes)
      -- The target is found before the other operand, and is the same register whatever comes.
      rw [pair, resolveAll_pair] at resolves
      obtain ⟨rfl, -⟩ := Prod.mk.inj resolves
      rw [resolve_eq] at executed
      obtain ⟨after, combined, memory, pc⟩ := combine_in_register _ op _ _ _ _ register
      exact ⟨after, executed.trans combined, memory, pc⟩

end Core

namespace Assembly

open WordMachine.Text

/-! ### Statements -/

/-- The spellings of the registers that a straight-line program may store in. -/
inductive NamesRegister (token : List Char) : Prop
  | general (r : Register) (named : upper token = [r.letter])
  | stackPointer (named : upper token = ['S', 'P'])
  | overflow (named : upper token = ['O'])

/-- A statement that calls nothing, and that stores in a register if it stores at all. -/
structure Statement.Straight (statement : Statement) : Prop where
  noCall : statement.mnemonic ≠ Operation.jsr.mnemonic.toList
  stores : ∀ op token, statement.mnemonic = (Operation.binary op).mnemonic.toList →
    statement.operands.head? = some token → NamesRegister token

private theorem isRegister_of_names (labels : Labels) (referable : labels.AllReferable)
    (token : List Char) (mode : Mode) (next : List Word) (names : NamesRegister token)
    (encoded : encodeOperand labels token = .ok (mode, next)) : mode.IsRegister := by
  have unique (other : Mode) (keyword : other.keyword? = some (upper token)) : mode = other := by
    rw [(encodeOperand_iff labels referable token other []).mpr (.keyword keyword)] at encoded
    cases encoded
    rfl
  cases names with
  | general r named =>
    rw [unique (.register r) (by rw [named]; rfl)]
    exact .general r
  | stackPointer named =>
    rw [unique .stackPointer (by rw [named]; rfl)]
    exact .stackPointer
  | overflow named =>
    rw [unique .overflow (by rw [named]; rfl)]
    exact .overflow

/-- Where the words of a straight statement are in memory, the machine passes them. -/
theorem execute_of_straight (labels : Labels) (referable : labels.AllReferable)
    (statement : Statement) (straight : statement.Straight) (words : List Word)
    (encoded : statement.encode labels = .ok words) (core : Core)
    (held : core.memory.Holds core.registers.pc words) :
    ∃ word after, core.memory.fetch core.registers.pc = .word word ∧
      core.execute word = (none, after) ∧ after.memory = core.memory ∧
      after.registers.pc = core.registers.pc + BitVec.ofNat 16 words.length := by
  obtain ⟨instruction, operation, parts, defined, mnemonic, operands, modes, rfl⟩ :=
    encode_ok labels statement words encoded
  have packed := Instruction.ofWord_toWord instruction
  have noCall : operation ≠ .jsr := by
    rintro rfl
    exact straight.noCall mnemonic.symm
  have stores (op : BinaryOp) (same : operation = .binary op) :
      ∃ mode rest, (Instruction.ofWord instruction.toWord).modes = mode :: rest ∧
        mode.IsRegister := by
    have pair := instruction.modes_of_defined operation defined noCall
    rw [packed, pair]
    -- The first operand as written is the first one of the instruction.
    rw [pair] at modes
    cases parts with
    | nil => cases modes
    | cons part parts =>
      obtain ⟨token, tokens, first, -, spelled⟩ := List.forall₂_cons_right_iff.mp operands
      have names := straight.stores op token (by rw [← mnemonic, same]) (by rw [spelled]; rfl)
      obtain ⟨target, -⟩ := List.cons.inj modes
      rw [target]
      exact ⟨_, _, rfl, isRegister_of_names labels referable token part.1 part.2 names first⟩
  obtain ⟨after, executed, memory, pc⟩ :=
    core.execute_straight instruction.toWord operation (by rw [packed, defined]) noCall stores
  refine ⟨_, after, held.1, executed, memory, ?_⟩
  rw [pc, packed, instruction.length_eq, modes, List.length_cons,
    (length_parts labels _ parts operands).2, Nat.add_comm]

/-! ### Programs -/

/-- A machine that stands before straight code with the sentinel behind it runs the code, one step
for each statement, and halts. -/
theorem run_straight (labels : Labels) (referable : labels.AllReferable) (lines : List Line)
    (encodable : Encodable labels lines)
    (straight : ∀ statement ∈ statements lines, statement.Straight) (machine : Machine)
    (running : machine.stop = none) (free : machine.breakpoints = [])
    (held : machine.core.memory.Holds machine.core.registers.pc (code labels lines))
    (ends : machine.core.memory.fetch
      (machine.core.registers.pc + BitVec.ofNat 16 (code labels lines).length) = .sentinel)
    (budget : Nat) (enough : (statements lines).length < budget) :
    ∃ final, Machine.run budget machine = (.halt, final) ∧ final.stop = some .halt ∧
      final.steps = machine.steps + (statements lines).length ∧
      final.core.registers.pc =
        machine.core.registers.pc + BitVec.ofNat 16 (code labels lines).length ∧
      final.core.memory = machine.core.memory := by
  obtain ⟨budget, rfl⟩ := Nat.exists_eq_add_one_of_ne_zero (Nat.ne_zero_of_lt enough)
  -- By induction on the lines that are left: the machine stands where their code begins.
  induction lines generalizing machine budget with
  | nil =>
    rw [code, List.flatMap_nil, List.length_nil, BitVec.add_zero] at ends
    have stepped := machine.step_of_sentinel running (by simp [free]) ends
    exact ⟨{ machine with stop := some .halt, resume := none }, by rw [Machine.run, stepped], rfl,
      rfl, (BitVec.add_zero _).symm, rfl⟩
  | cons line rest ih =>
    obtain ⟨encodableLine, encodableRest⟩ := encodable_cons.mp encodable
    cases holds : line.statement? with
    | none =>
      -- A line without a statement has no code and takes no step.
      have same : code labels (line :: rest) = code labels rest := by
        rw [code_cons, Line.code, holds]
        rfl
      rw [same] at held ends ⊢
      rw [statements_cons, holds, Option.toList_none, List.nil_append] at straight enough ⊢
      exact ih encodableRest straight machine running free held ends budget enough
    | some statement =>
      obtain ⟨words, encoded⟩ := encodableLine statement holds
      have own := line.code_of_encode labels statement words holds encoded
      rw [code_cons, own, Memory.holds_append] at held
      rw [code_cons, own, List.length_append, BitVec.ofNat_add, ← BitVec.add_assoc] at ends ⊢
      rw [statements_cons, holds, Option.toList_some, List.singleton_append] at straight enough ⊢
      obtain ⟨word, after, fetched, executed, memory, pc⟩ :=
        execute_of_straight labels referable statement (straight statement List.mem_cons_self)
          words encoded machine.core held.1
      have stepped := machine.step_of_execute word ⟨running, by simp [free], fetched⟩ after executed
      -- What is left of the code lies where the machine now stands.
      rw [← memory, ← pc] at ends
      rw [← memory, ← pc] at held
      obtain ⟨budget, rfl⟩ := Nat.exists_eq_add_one_of_ne_zero (n := budget) (by
        rw [List.length_cons] at enough
        omega)
      obtain ⟨final, ran, halted, steps, reached, kept⟩ :=
        ih encodableRest (fun other member => straight other (List.mem_cons_of_mem _ member))
          (machine.proceed after) running free held.2 ends budget (by
            rw [List.length_cons] at enough
            omega)
      refine ⟨final, ?_, halted, ?_, ?_, kept.trans memory⟩
      · rw [Machine.run, stepped]
        exact ran
      · have counted : (machine.proceed after).steps = machine.steps + 1 := rfl
        rw [steps, counted, List.length_cons]
        omega
      · rw [reached, ← pc]
        rfl

/-- A straight-line program that leaves room for the sentinel halts there after one step for each
of its statements, with memory as it was loaded, whatever its tests find. -/
theorem assemble_straight_halts (session : Session) (source : List Char) (program : Program)
    (assembled : (session.assemble source).1 = .ok program) (lines : List Line)
    (read : parse source = .ok lines)
    (straight : ∀ statement ∈ statements lines, statement.Straight)
    (short : program.words.length ≤ 65535) (stack : Int) :
    ∃ loaded halted,
      Machine.withProgram (program.words.map Word.value) (Word.ofInt stack) = .ok loaded ∧
      Machine.run Machine.defaultBudget loaded = (.halt, halted) ∧
      halted.stop = some .halt ∧
      halted.steps = (statements lines).length ∧
      halted.core.registers.pc.toNat = program.words.length ∧
      halted.core.memory = loaded.core.memory := by
  obtain ⟨_, known, sound, encodable, words⟩ := assemble_ok session source program assembled
  rw [read] at known
  cases known
  obtain ⟨memory, held, ends, loaded⟩ :=
    Machine.withProgram_words program.words (Word.ofInt stack) (by omega)
  rw [words] at held ends short
  have start (address : Word) : 0 + address = address := BitVec.zero_add _
  have fewer := length_statements_le program.labels lines encodable
  have enough : (statements lines).length < Machine.defaultBudget := by
    rw [Machine.defaultBudget]
    omega
  obtain ⟨halted, ran, stopped, steps, pc, kept⟩ :=
    run_straight program.labels sound.allReferable lines encodable straight
      { Machine.initial (Word.ofInt stack) with
        core := ⟨Registers.initial (Word.ofInt stack), memory⟩ }
      rfl rfl held ((congrArg memory.fetch (start _)).trans (ends (by omega))) _ enough
  refine ⟨_, halted, loaded, ran, stopped, ?_, ?_, kept⟩
  · rw [steps]
    exact Nat.zero_add _
  · rw [pc, words]
    refine (congrArg BitVec.toNat (start _)).trans ?_
    rw [BitVec.toNat_ofNat, Nat.mod_eq_of_lt (by omega)]

/-- A test that does not hold, before an instruction that is skipped and one that is not. -/
theorem assemble_straight_halts_after_skip :
    ∃ program loaded halted,
      assemble ":s IFE [s], PUSH\nMUL o, 0x2 ; skipped\n\nSET SP, POP".toList = .ok program ∧
      Machine.withProgram (program.words.map Word.value) (Word.ofInt (-1)) = .ok loaded ∧
      Machine.run Machine.defaultBudget loaded = (.halt, halted) ∧
      halted.steps = 3 ∧ halted.core.registers.pc.toNat = 5 ∧
      halted.core.memory = loaded.core.memory := by
  have answer : assemble ":s IFE [s], PUSH\nMUL o, 0x2 ; skipped\n\nSET SP, POP".toList =
      .ok ⟨[0x69EC, 0, 0x7DD4, 2, 0x61B1], [(['s'], 0)]⟩ := by decide +kernel
  obtain ⟨loaded, halted, built, ran, -, steps, pc, kept⟩ :=
    assemble_straight_halts Session.initial _ _ answer
      [⟨1, ":s IFE [s], PUSH".toList, some ['s'],
          some ⟨"IFE".toList, ["[s]".toList, "PUSH".toList]⟩⟩,
        ⟨2, "MUL o, 0x2 ; skipped".toList, none,
          some ⟨"MUL".toList, ["o".toList, "0x2".toList]⟩⟩,
        ⟨3, [], none, none⟩,
        ⟨4, "SET SP, POP".toList, none, some ⟨"SET".toList, ["SP".toList, "POP".toList]⟩⟩]
      (by decide +kernel)
      (by
        simp only [statements, List.filterMap_cons, List.filterMap_nil, List.forall_mem_cons]
        refine ⟨⟨by decide, ?_⟩, ⟨by decide, ?_⟩, ⟨by decide, ?_⟩, List.forall_mem_nil _⟩
        · intro op _ test
          cases op <;> exact absurd test (by decide)
        · rintro _ _ - ⟨⟩
          exact .overflow (by decide)
        · rintro _ _ - ⟨⟩
          exact .stackPointer (by decide))
      (by decide) (-1)
  exact ⟨_, loaded, halted, answer, built, ran, steps, pc, kept⟩

end Assembly

end WordMachine
