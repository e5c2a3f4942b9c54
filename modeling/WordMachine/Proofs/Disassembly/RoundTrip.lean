import WordMachine.Proofs.Disassembly.Statements

/-! Disassembly and assembly as inverses: the text of a disassembly without data is a source, and
the words assembled from it are those that were taken apart, with the short constants in words of
their own. -/
namespace WordMachine

namespace Disassembly

open Assembly

/-! ### Listings -/

/-- The source that the texts of lines make up. -/
def sourceOf (lines : List String) : List Char := ['\n'].intercalate (lines.map textOf)

/-- A line shows an instruction with a mnemonic at an address. -/
structure Shows (line : String) (address : Word) (mnemonic : List Char) : Prop where
  addressed : addressColumn address <+: line.toList
  named : mnemonic ++ [' '] <+: textOf line

theorem shows_entry (address : Word) (block : Block) (complete : block.Complete) :
    Shows (block.entry address).line address block.statement.mnemonic := by
  obtain ⟨operation, defined⟩ := complete.defined
  refine ⟨?_, ?_⟩
  · rw [Block.entry, defined]
    simp only
    rw [toList_instruction]
    exact List.prefix_append _ _
  · rw [textOf_line address block complete, Statement.text]
    exact ⟨listed block.statement.operands, by simp⟩

/-- The lines of blocks of which the first is at an address. -/
def listing (address : Word) (stream : List Block) : List String :=
  (entriesOf address stream).map Entry.line

theorem disassemble_blocks (stream : List Block) (complete : ∀ block ∈ stream, block.Complete)
    (base : Int) :
    disassemble ((stream.flatMap Block.words).map Word.value) base =
      listing (Word.ofInt base) stream := by
  rw [disassemble, entries_blocks _ stream complete, listing]

/-- The texts of the lines do not tell where the blocks are. -/
theorem map_textOf_listing (address : Word) (stream : List Block)
    (complete : ∀ block ∈ stream, block.Complete) :
    (listing address stream).map textOf = stream.map fun block => block.statement.text := by
  induction stream generalizing address with
  | nil => rfl
  | cons block rest ih =>
    have others := ih (address + BitVec.ofNat 16 block.words.length)
      fun other member => complete other (List.mem_cons_of_mem _ member)
    rw [listing] at others
    rw [listing, entriesOf, List.map_cons, List.map_cons, others,
      textOf_line address block (complete block List.mem_cons_self), List.map_cons]

theorem not_isDataLine_of_listing (address : Word) (stream : List Block)
    (complete : ∀ block ∈ stream, block.Complete) :
    ∀ line ∈ listing address stream, ¬IsDataLine line := by
  intro line member data
  have texts := List.mem_map_of_mem (f := textOf) member
  rw [map_textOf_listing address stream complete] at texts
  obtain ⟨block, present, text⟩ := List.mem_map.mp texts
  obtain ⟨operation, named⟩ := (statement_readable block (complete block present)).named
  rw [IsDataLine, ← text, Statement.text, named] at data
  exact take_mnemonic operation _ data

/-- The texts of the lines are a source of the blocks, written out. -/
theorem assemble_listing (session : Session) (address : Word) (stream : List Block)
    (complete : ∀ block ∈ stream, block.Complete) :
    (session.assemble (sourceOf (listing address stream))).1 =
      .ok ⟨stream.flatMap fun block => block.writtenOut.words, []⟩ := by
  have same : sourceOf (listing address stream) =
      Assembly.source (stream.map Block.statement) := by
    rw [sourceOf, map_textOf_listing address stream complete, Assembly.source, List.map_map]
    rfl
  have readable : ∀ statement ∈ stream.map Block.statement, statement.Readable := by
    intro statement member
    obtain ⟨block, present, rfl⟩ := List.mem_map.mp member
    exact statement_readable block (complete block present)
  have encoded : List.Forall₂ (fun statement words => statement.encode [] = .ok words)
      (stream.map Block.statement) (stream.map fun block => block.writtenOut.words) := by
    rw [List.forall₂_map_left_iff, List.forall₂_map_right_iff, List.forall₂_same]
    exact fun block present => encode_statement block (complete block present)
  rw [same, assemble_source session _ readable _ encoded, List.flatMap_def]

/-! ### Assembled sources -/

private theorem ne_literal_of_encodeOperand (labels : Labels) (text : List Char)
    (mode : Mode) (next : List Word) (encoded : encodeOperand labels text = .ok (mode, next))
    (n : Fin 32) : mode ≠ .literal n := by
  rintro rfl
  unfold encodeOperand at encoded
  simp only at encoded
  split at encoded
  · obtain ⟨same, -⟩ := Prod.mk.inj (Except.ok.inj encoded)
    rcases ofToken_cases text with ⟨mode, keyword, read⟩ | read | ⟨_, -, read⟩ |
      ⟨_, _, _, -, -, read⟩ | ⟨_, _, _, -, -, read⟩
    · rw [read] at same
      cases same
      cases keyword
    all_goals
      rw [read] at same
      cases same
  · cases encoded

private theorem literal_notMem_parts (labels : Labels) (tokens : List (List Char))
    (parts : List (Mode × List Word))
    (operands : List.Forall₂ (fun token part => encodeOperand labels token = .ok part)
      tokens parts) (n : Fin 32) : Mode.literal n ∉ parts.map Prod.fst := by
  induction operands with
  | nil => exact List.not_mem_nil
  | @cons token part tokens parts one _ ih =>
    have other := ne_literal_of_encodeOperand labels token part.1 part.2 one n
    rw [List.map_cons, List.mem_cons, not_or]
    exact ⟨other.symm, ih⟩

/-- The words of a statement are a block, whose statement has the same mnemonic. -/
theorem block_of_encode (labels : Labels) (statement : Statement) (words : List Word)
    (encoded : statement.encode labels = .ok words) :
    ∃ block : Block, block.words = words ∧ block.Complete ∧ block.Unabridged ∧
      block.statement.mnemonic = statement.mnemonic := by
  obtain ⟨instruction, operation, parts, defined, mnemonic, operands, modes, rfl⟩ :=
    encode_ok labels statement words encoded
  refine ⟨⟨instruction, parts.flatMap Prod.snd⟩, rfl, ⟨⟨operation, defined⟩, ?_⟩, ?_, ?_⟩
  · rw [Block.words, List.length_cons, instruction.length_eq, modes,
      (length_parts labels _ parts operands).2, Nat.add_comm]
  · intro n
    rw [modes]
    exact literal_notMem_parts labels _ parts operands n
  · rw [Block.statement, defined]
    exact mnemonic

/-- The code of lines is a stream of blocks, one for each statement. -/
theorem blocks_of_code (labels : Labels) (lines : List Line)
    (encodable : Encodable labels lines) :
    ∃ stream : List Block, code labels lines = stream.flatMap Block.words ∧
      (∀ block ∈ stream, block.Complete ∧ block.Unabridged) ∧
      stream.length = (statements lines).length := by
  induction lines with
  | nil => exact ⟨[], rfl, nofun, rfl⟩
  | cons line rest ih =>
    obtain ⟨own, others⟩ := encodable_cons.mp encodable
    obtain ⟨stream, code, complete, counted⟩ := ih others
    rw [code_cons, statements_cons, code]
    cases holds : line.statement? with
    | none => exact ⟨stream, by rw [Line.code, holds]; rfl, complete, counted⟩
    | some statement =>
      obtain ⟨words, encoded⟩ := own statement holds
      obtain ⟨block, rfl, whole, unabridged, -⟩ := block_of_encode labels statement words encoded
      refine ⟨block :: stream, ?_, ?_, ?_⟩
      · rw [line.code_of_encode labels statement _ holds encoded, List.flatMap_cons]
      · exact List.forall_mem_cons.mpr ⟨⟨whole, unabridged⟩, complete⟩
      · rw [List.length_cons, counted]
        rfl

/-! ### Round trips -/

/-- The words of a stream with the short constants in words of their own. -/
def spelledOut (words : List Word) : List Word :=
  (blocks words).flatMap fun block => block.writtenOut.words

/-- A disassembly lists a program: it has a line for each statement of the source, in order and
where the words of the statement are, and no others. -/
structure Lists (lines : List Line) (program : Program) (report : List String) : Prop where
  clean : ∀ line ∈ report, ¬IsDataLine line
  counted : report.length = (statements lines).length
  shown : ∀ front line back statement, lines = front ++ line :: back →
    line.statement? = some statement →
    ∃ entry, report[(statements front).length]? = some entry ∧
      Shows entry (BitVec.ofNat 16 (code program.labels front).length) statement.mnemonic

private theorem shown_of_split (labels : Labels) (lines front back : List Line)
    (line : Line) (statement : Statement) (whole : lines = front ++ line :: back)
    (holds : line.statement? = some statement) (encodable : Encodable labels lines) :
    ∃ entry, (disassemble ((code labels lines).map Word.value) 0)[
        (statements front).length]? = some entry ∧
      Shows entry (BitVec.ofNat 16 (code labels front).length) statement.mnemonic := by
  subst whole
  obtain ⟨before, rest⟩ := List.forall_mem_append.mp encodable
  obtain ⟨own, after⟩ := encodable_cons.mp rest
  obtain ⟨words, encoded⟩ := own statement holds
  obtain ⟨first, frontCode, wholeFirst, counted⟩ := blocks_of_code labels front before
  obtain ⟨last, backCode, wholeLast, -⟩ := blocks_of_code labels back after
  obtain ⟨block, rfl, wholeBlock, -, mnemonic⟩ := block_of_encode labels statement words encoded
  have complete : ∀ other ∈ first ++ block :: last, other.Complete := by
    intro other member
    rcases List.mem_append.mp member with early | late
    · exact (wholeFirst other early).1
    · rcases List.mem_cons.mp late with rfl | later
      · exact wholeBlock
      · exact (wholeLast other later).1
  -- Before the block are as many others as statements, and they are as long as their code.
  have divided : code labels (front ++ line :: back) =
      (first ++ block :: last).flatMap Block.words := by
    rw [code_append, code_cons, frontCode, backCode,
      line.code_of_encode labels statement _ holds encoded, List.flatMap_append, List.flatMap_cons]
  have start : Word.ofInt 0 + BitVec.ofNat 16 (first.flatMap Block.words).length =
      BitVec.ofNat 16 (code labels front).length := by
    rw [frontCode]
    exact BitVec.zero_add _
  have reached : (entriesOf (Word.ofInt 0) first).length = (statements front).length := by
    rw [length_entriesOf, counted]
  refine ⟨_, ?_, mnemonic ▸ shows_entry _ block wholeBlock⟩
  rw [divided, disassemble_blocks _ complete, listing, entriesOf_append, entriesOf, start,
    List.getElem?_map, ← reached, List.getElem?_append_right (Nat.le_refl _), Nat.sub_self]
  rfl

/-- The text of a disassembly without data is a source of the words that were taken apart, with the
short constants in words of their own, so of the very words if there are none. A disassembly of an
assembled source has no data but a line for each statement, and is a source of the same words. -/
theorem disassemble_reassembles (session : Session) :
    (∀ (words : List Word) (base : Int),
      (∀ line ∈ disassemble (words.map Word.value) base, ¬IsDataLine line) →
      (session.assemble (sourceOf (disassemble (words.map Word.value) base))).1 =
          .ok ⟨spelledOut words, []⟩ ∧
        ((∀ block ∈ blocks words, block.Unabridged) → spelledOut words = words)) ∧
    (∀ (earlier : Session) (source : List Char) (program : Program),
      (earlier.assemble source).1 = .ok program →
      ∃ lines, parse source = .ok lines ∧
        Lists lines program (disassemble (program.words.map Word.value) 0) ∧
        (session.assemble (sourceOf (disassemble (program.words.map Word.value) 0))).1 =
          .ok ⟨program.words, []⟩) := by
  constructor
  · intro words base clean
    have complete := complete_of_entries (Word.ofInt base) words
      fun entry member => clean _ (List.mem_map_of_mem member)
    have whole := flatMap_words_blocks words
    refine ⟨?_, ?_⟩
    · have listed := disassemble_blocks (blocks words) complete base
      rw [whole] at listed
      rw [listed, assemble_listing session _ _ complete, spelledOut]
    · intro unabridged
      rw [spelledOut, flatMap_writtenOut _ fun block member =>
        ⟨complete block member, unabridged block member⟩, whole]
  · intro earlier source program assembled
    obtain ⟨lines, read, -, encodable, words⟩ :=
      assemble_ok earlier source program assembled
    obtain ⟨stream, code, complete, counted⟩ := blocks_of_code program.labels lines encodable
    have whole := fun block member => (complete block member).1
    have listed := disassemble_blocks stream whole 0
    rw [← code, ← words] at listed
    refine ⟨lines, read, ⟨?_, ?_, ?_⟩, ?_⟩
    · rw [listed]
      exact not_isDataLine_of_listing _ stream whole
    · rw [listed, listing, List.length_map, length_entriesOf, counted]
    · intro front line back statement parted holds
      rw [words]
      exact shown_of_split program.labels lines front back line statement parted holds encodable
    · rw [listed, assemble_listing session _ stream whole, flatMap_writtenOut stream complete,
        ← code, words]

/-- A stream across the end of memory with a short constant in each instruction, and a source with
a label, which the text of its disassembly no longer has. -/
theorem disassemble_reassembles_constants :
    assemble (sourceOf (disassemble ([0x8401, 0x5A2C, 0x0005].map Word.value) 0xFFFF)) =
        .ok ⟨[0x7C01, 0x0001, 0x59FC, 0x0002, 0x0005], []⟩ ∧
      ∃ program, assemble ":s SET [s+I], POP\nJSR s".toList = .ok program ∧
        program.labels ≠ [] ∧
        assemble (sourceOf (disassemble (program.words.map Word.value) 0)) =
          .ok ⟨program.words, []⟩ := by
  obtain ⟨streams, sources⟩ := disassemble_reassembles Session.initial
  have answer : assemble ":s SET [s+I], POP\nJSR s".toList =
      .ok ⟨[0x6161, 0, 0x7C10, 0], [(['s'], 0)]⟩ := by decide +kernel
  obtain ⟨again, -⟩ := streams [0x8401, 0x5A2C, 0x0005] 0xFFFF (by decide +kernel)
  have spelled : spelledOut [0x8401, 0x5A2C, 0x0005] =
      [0x7C01, 0x0001, 0x59FC, 0x0002, 0x0005] := by
    decide +kernel
  rw [spelled] at again
  obtain ⟨_, -, -, same⟩ := sources Session.initial _ _ answer
  exact ⟨again, _, answer, List.cons_ne_nil _ _, same⟩

end Disassembly

end WordMachine
