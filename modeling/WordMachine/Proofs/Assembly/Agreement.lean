import WordMachine.Proofs.Assembly.Passes
import WordMachine.Proofs.Loading

/-! Agreement of the assembler and the machine: wherever the program counter is at a statement of a
loaded program, the machine finds the operation that the statement names, and its operands where
the source text says that they are. -/
namespace WordMachine.Assembly

open WordMachine.Text

/-! ### What operands denote -/

/-- Where the operand forms of the source format are, given the values of the general registers and
the top of the stack before, and the top of the stack after. -/
inductive Denotes (labels : Labels) (values : Register → Word) (top : Word) :
    List Char → Location → Word → Prop
  | register {token : List Char} {r : Register} (named : upper token = [r.letter]) :
      Denotes labels values top token (.register r) top
  | atRegister {token : List Char} {r : Register} (named : upper token = ['[', r.letter, ']']) :
      Denotes labels values top token (.memory (values r)) top
  | pop {token : List Char} (named : upper token = ['P', 'O', 'P']) :
      Denotes labels values top token (.memory top) (top + 1)
  | peek {token : List Char} (named : upper token = ['P', 'E', 'E', 'K']) :
      Denotes labels values top token (.memory top) top
  | push {token : List Char} (named : upper token = ['P', 'U', 'S', 'H']) :
      Denotes labels values top token (.memory (top - 1)) (top - 1)
  | stackPointer {token : List Char} (named : upper token = ['S', 'P']) :
      Denotes labels values top token .stackPointer top
  | programCounter {token : List Char} (named : upper token = ['P', 'C']) :
      Denotes labels values top token .programCounter top
  | overflow {token : List Char} (named : upper token = ['O']) :
      Denotes labels values top token .overflow top
  | immediate {token : List Char} {word : Word} (stands : Stands labels token word) :
      Denotes labels values top token (.immediate word) top
  | address {inner : List Char} {word : Word} (stands : Stands labels inner word) :
      Denotes labels values top ('[' :: inner ++ [']']) (.memory word) top
  | sumRight {value name : List Char} {word : Word} {r : Register}
      (stands : Stands labels value word) (named : upper name = [r.letter]) :
      Denotes labels values top ('[' :: (value ++ '+' :: name) ++ [']'])
        (.memory (word + values r)) top
  | sumLeft {name value : List Char} {word : Word} {r : Register}
      (named : upper name = [r.letter]) (stands : Stands labels value word) :
      Denotes labels values top ('[' :: (name ++ '+' :: value) ++ [']'])
        (.memory (word + values r)) top

/-- Where operands are, one after the other: each finds the stack as the one before left it. -/
inductive DenoteAll (labels : Labels) (values : Register → Word) :
    Word → List (List Char) → List Location → Word → Prop
  | nil {top : Word} : DenoteAll labels values top [] [] top
  | cons {top between last : Word} {token : List Char} {tokens : List (List Char)}
      {location : Location} {locations : List Location}
      (first : Denotes labels values top token location between)
      (others : DenoteAll labels values between tokens locations last) :
      DenoteAll labels values top (token :: tokens) (location :: locations) last

/-! ### One operand -/

private theorem denotes_of_keyword (labels : Labels) (registers : Registers) (token : List Char)
    (mode : Mode) (named : mode.keyword? = some (upper token)) :
    Denotes labels registers.read registers.sp token (mode.location registers 0)
      (registers.sp + mode.stackShift) := by
  have spelled (text : List Char) (keyword : mode.keyword? = some text) : upper token = text :=
    Option.some.inj (named.symm.trans keyword)
  rw [Mode.add_stackShift]
  cases mode with
  | register r => exact .register (spelled _ rfl)
  | atRegister r => exact .atRegister (spelled _ rfl)
  | pop => exact .pop (spelled _ rfl)
  | peek => exact .peek (spelled _ rfl)
  | push => exact .push (spelled _ rfl)
  | stackPointer => exact .stackPointer (spelled _ rfl)
  | programCounter => exact .programCounter (spelled _ rfl)
  | overflow => exact .overflow (spelled _ rfl)
  | _ => cases named

private theorem denotes_of_spells (labels : Labels) (registers : Registers) (token : List Char)
    (mode : Mode) (next : List Word) (spells : Spells labels token mode next) :
    Denotes labels registers.read registers.sp token (mode.location registers (next.headD 0))
      (registers.sp + mode.stackShift) := by
  cases spells with
  | keyword named => exact denotes_of_keyword labels registers token mode named
  | immediate stands =>
    rw [Mode.add_stackShift]
    exact .immediate stands
  | address stands =>
    rw [Mode.add_stackShift]
    exact .address stands
  | sumRight stands named =>
    rw [Mode.add_stackShift]
    exact .sumRight stands named
  | sumLeft named stands =>
    rw [Mode.add_stackShift]
    exact .sumLeft named stands

private theorem spells_of_denotes (labels : Labels) (registers : Registers) (token : List Char)
    (location : Location) (top : Word)
    (denotes : Denotes labels registers.read registers.sp token location top) :
    ∃ mode next, Spells labels token mode next ∧
      location = mode.location registers (next.headD 0) ∧
      top = registers.sp + mode.stackShift := by
  have keyword (mode : Mode) (text : List Char) (known : mode.keyword? = some text)
      (named : upper token = text) : Spells labels token mode [] := .keyword (named ▸ known)
  have settled (mode : Mode) := (mode.add_stackShift registers.sp).symm
  cases denotes with
  | register named => exact ⟨.register _, [], keyword _ _ rfl named, rfl, settled (.register _)⟩
  | atRegister named =>
    exact ⟨.atRegister _, [], keyword _ _ rfl named, rfl, settled (.atRegister _)⟩
  | pop named => exact ⟨.pop, [], keyword _ _ rfl named, rfl, settled .pop⟩
  | peek named => exact ⟨.peek, [], keyword _ _ rfl named, rfl, settled .peek⟩
  | push named => exact ⟨.push, [], keyword _ _ rfl named, rfl, settled .push⟩
  | stackPointer named =>
    exact ⟨.stackPointer, [], keyword _ _ rfl named, rfl, settled .stackPointer⟩
  | programCounter named =>
    exact ⟨.programCounter, [], keyword _ _ rfl named, rfl, settled .programCounter⟩
  | overflow named => exact ⟨.overflow, [], keyword _ _ rfl named, rfl, settled .overflow⟩
  | immediate stands => exact ⟨_, _, .immediate stands, rfl, settled .nextWord⟩
  | address stands => exact ⟨_, _, .address stands, rfl, settled .atNextWord⟩
  | sumRight stands named => exact ⟨_, _, .sumRight stands named, rfl, settled (.indexed _)⟩
  | sumLeft named stands => exact ⟨_, _, .sumLeft named stands, rfl, settled (.indexed _)⟩

/-- An encoded operand denotes what its mode and its next word locate, and nothing else. -/
theorem denotes_iff (labels : Labels) (referable : labels.AllReferable) (registers : Registers)
    (token : List Char) (mode : Mode) (next : List Word)
    (encoded : encodeOperand labels token = .ok (mode, next)) (location : Location) (top : Word) :
    Denotes labels registers.read registers.sp token location top ↔
      location = mode.location registers (next.headD 0) ∧
        top = registers.sp + mode.stackShift := by
  constructor
  · intro denotes
    obtain ⟨other, words, spells, located, moved⟩ :=
      spells_of_denotes labels registers token location top denotes
    rw [(encodeOperand_iff labels referable token other words).mpr spells] at encoded
    cases encoded
    exact ⟨located, moved⟩
  · rintro ⟨rfl, rfl⟩
    exact denotes_of_spells labels registers token mode next
      ((encodeOperand_iff labels referable token mode next).mp encoded)

/-! ### All operands -/

private theorem location_of_holds (core : Core) (mode : Mode) (next : List Word)
    (sized : next.length = mode.nextWords)
    (held : core.memory.Holds core.registers.pc next) :
    mode.location core.registers (core.memory.read core.registers.pc) =
      mode.location core.registers (next.headD 0) := by
  cases next with
  | nil =>
    cases mode with
    | indexed r => cases sized
    | atNextWord | nextWord => cases sized
    -- A mode that takes no word does not look at the one that follows.
    | _ => rfl
  | cons word rest =>
    have read : core.memory.read core.registers.pc = word := by
      rw [Memory.read, held.1, Cell.data]
    rw [read, List.headD_cons]

/-- When the words of encoded operands follow in memory, they are found where they denote. -/
theorem denoteAll_iff (labels : Labels) (referable : labels.AllReferable)
    (tokens : List (List Char)) (parts : List (Mode × List Word))
    (operands : List.Forall₂ (fun token part => encodeOperand labels token = .ok part)
      tokens parts)
    (core : Core) (held : core.memory.Holds core.registers.pc (parts.flatMap Prod.snd))
    (places : List Location) (last : Word) :
    DenoteAll labels core.registers.read core.registers.sp tokens places last ↔
      places = (core.resolveAll (parts.map Prod.fst)).1 ∧
        last = (core.resolveAll (parts.map Prod.fst)).2.registers.sp := by
  induction operands generalizing core places with
  | nil =>
    constructor
    · rintro ⟨⟩
      exact ⟨rfl, rfl⟩
    · rintro ⟨rfl, rfl⟩
      exact .nil
  | @cons token part tokens parts encoded _ ih =>
    obtain ⟨mode, next⟩ := part
    have sized := (length_next labels token mode next encoded).2
    rw [List.flatMap_cons, Memory.holds_append] at held
    have located := location_of_holds core mode next sized held.1
    have one := denotes_iff labels referable core.registers token mode next encoded
    -- The other operands are resolved by a core that has taken the words of this one.
    have others := ih (core.advance mode.nextWords mode.stackShift) (by
      rw [Core.advance_pc, ← sized]
      exact held.2)
    rw [List.map_cons, Core.resolveAll_cons, located]
    constructor
    · intro denotes
      cases denotes with
      | cons first rest =>
        obtain ⟨rfl, rfl⟩ := (one _ _).mp first
        obtain ⟨rfl, rfl⟩ := (others _).mp rest
        exact ⟨rfl, rfl⟩
    · rintro ⟨rfl, rfl⟩
      exact .cons ((one _ _).mpr ⟨rfl, rfl⟩) ((others _).mpr ⟨rfl, rfl⟩)

/-! ### Statements in memory -/

/-- The machine finds a statement at the program counter: the operation that its mnemonic names,
and locations that are exactly what its operands denote. -/
structure Agrees (labels : Labels) (statement : Statement) (core : Core) (word : Word)
    (locations : List Location) (resolved : Core) : Prop where
  fetched : core.memory.fetch core.registers.pc = .word word
  named : ∃ operation, Operation.ofInstruction? (Instruction.ofWord word) = some operation ∧
    operation.mnemonic.toList = statement.mnemonic
  resolves : (core.jump (core.registers.pc + 1)).resolveAll (Instruction.ofWord word).modes =
    (locations, resolved)
  denoted : ∀ places top,
    DenoteAll labels core.registers.read core.registers.sp statement.operands places top ↔
      places = locations ∧ top = resolved.registers.sp

/-- Where the words of a statement are in memory, the machine finds it, and is moved past it. -/
theorem agrees_of_holds (labels : Labels) (referable : labels.AllReferable)
    (statement : Statement) (words : List Word) (encoded : statement.encode labels = .ok words)
    (core : Core) (held : core.memory.Holds core.registers.pc words) :
    ∃ word locations resolved, Agrees labels statement core word locations resolved ∧
      resolved.registers.pc = core.registers.pc + BitVec.ofNat 16 words.length := by
  obtain ⟨instruction, operation, parts, defined, mnemonic, operands, modes, rfl⟩ :=
    encode_ok labels statement words encoded
  obtain ⟨fetched, following⟩ := held
  have packed := Instruction.ofWord_toWord instruction
  have denoted := denoteAll_iff labels referable statement.operands parts operands
    (core.jump (core.registers.pc + 1)) following
  refine ⟨instruction.toWord, _, _, ⟨fetched, ⟨operation, ?_, mnemonic⟩, rfl, ?_⟩, ?_⟩
  · rw [packed, defined]
  · rw [packed, modes]
    exact denoted
  · rw [packed, modes, Core.jump_next, Core.resolveAll_core, Core.advance_advance,
      Core.advance_pc, List.length_cons, (length_parts labels _ parts operands).2, Nat.add_comm]

/-! ### Programs in memory -/

/-- A loaded program whose program counter is at a statement runs that statement: the machine finds
the operation and the operands that the source text names, and its program counter is then at the
next statement, or behind the program when there is none. -/
theorem assemble_agrees (session : Session) (source : List Char) (program : Program)
    (assembled : (session.assemble source).1 = .ok program)
    (front back : List Line) (line : Line) (read : parse source = .ok (front ++ line :: back))
    (statement : Statement) (holds : line.statement? = some statement) (core : Core)
    (loaded : core.memory.Holds 0 program.words)
    (located : core.registers.pc = BitVec.ofNat 16 (code program.labels front).length) :
    ∃ word locations resolved, Agrees program.labels statement core word locations resolved ∧
      (∀ gap rest, back = gap ++ rest → (∀ other ∈ gap, other.statement? = none) →
        resolved.registers.pc =
          BitVec.ofNat 16 (code program.labels (front ++ line :: gap)).length) ∧
      ((∀ other ∈ back, other.statement? = none) →
        resolved.registers.pc = BitVec.ofNat 16 program.words.length) := by
  obtain ⟨lines, known, sound, encodable, words⟩ := assemble_ok session source program assembled
  rw [read] at known
  cases known
  obtain ⟨encoding, encoded⟩ := encodable line (by simp) statement holds
  have own := line.code_of_encode program.labels statement encoding holds encoded
  have held : core.memory.Holds core.registers.pc encoding := by
    have start : (0 : Word) + core.registers.pc = core.registers.pc := BitVec.zero_add _
    -- The words of the statement are those of the program behind the lines before it.
    rw [words, code_append, Memory.holds_append, ← located, start, code_cons, own,
      Memory.holds_append] at loaded
    exact loaded.2.1
  obtain ⟨word, locations, resolved, agrees, moved⟩ :=
    agrees_of_holds program.labels sound.allReferable statement encoding encoded core held
  have following (gap : List Line) (bare : ∀ other ∈ gap, other.statement? = none) :
      resolved.registers.pc =
        BitVec.ofNat 16 (code program.labels (front ++ line :: gap)).length := by
    -- Lines without a statement take no room.
    have empty := code_of_no_statement program.labels gap bare
    rw [code_append, List.length_append, BitVec.ofNat_add, ← located, moved, code_cons, own, empty,
      List.append_nil]
  refine ⟨word, locations, resolved, agrees, fun gap _ _ bare => following gap bare, ?_⟩
  intro bare
  rw [words]
  exact following back bare

/-- The second of two statements, with an operand that takes a word and one that moves the stack. -/
theorem assemble_agrees_second_line :
    ∃ program machine word locations resolved,
      assemble ":s JSR e\n:e SET [s+I], POP\n; end".toList = .ok program ∧
      (Machine.initial 0xFFFF).load (program.words.map Word.value) 0 = (none, machine) ∧
      Agrees program.labels ⟨"SET".toList, ["[s+I]".toList, "POP".toList]⟩ (machine.core.jump 2)
        word locations resolved ∧
      resolved.registers.pc = 4 := by
  have answer : assemble ":s JSR e\n:e SET [s+I], POP\n; end".toList =
      .ok ⟨[0x7C10, 2, 0x6161, 0], [(['s'], 0), (['e'], 2)]⟩ := by decide +kernel
  obtain ⟨memory, held, loaded⟩ :=
    (Machine.initial 0xFFFF).load_words [0x7C10, 2, 0x6161, 0] 0 (by decide)
  obtain ⟨word, locations, resolved, agrees, -, last⟩ :=
    assemble_agrees Session.initial _ _ answer
      [⟨1, ":s JSR e".toList, some ['s'], some ⟨"JSR".toList, [['e']]⟩⟩]
      [⟨3, "; end".toList, none, none⟩]
      ⟨2, ":e SET [s+I], POP".toList, some ['e'],
        some ⟨"SET".toList, ["[s+I]".toList, "POP".toList]⟩⟩
      (by decide +kernel) _ rfl (Core.jump ⟨Registers.initial 0xFFFF, memory⟩ 2) held
      (show (2 : Word) = _ by decide +kernel)
  exact ⟨_, _, word, locations, resolved, answer, loaded, agrees, last (by simp)⟩

end WordMachine.Assembly
