import WordMachine.Disassembly
import WordMachine.Proofs.Resolution
import WordMachine.Proofs.Text.Hexadecimal

/-! Word streams as blocks: an instruction with the words that follow it. Where every block is a
defined instruction with all its words, the disassembly has an entry for each block, and only
there has it no data. -/
namespace WordMachine

namespace Disassembly

/-- An instruction and the words that follow it. -/
structure Block where
  instruction : Instruction
  following : List Word

namespace Block

def words (block : Block) : List Word := block.instruction.toWord :: block.following

/-- The instruction is defined, and none of the words that it takes is missing. -/
structure Complete (block : Block) : Prop where
  defined : ∃ operation, Operation.ofInstruction? block.instruction = some operation
  whole : block.words.length = block.instruction.length

end Block

/-- The blocks of a word stream. The last one can be short of words. -/
def blocks : List Word → List Block
  | [] => []
  | word :: rest =>
    let instruction := Instruction.ofWord word
    let tail := instruction.length - 1
    ⟨instruction, rest.take tail⟩ :: blocks (rest.drop tail)
  termination_by stream => stream.length
  decreasing_by (simp only [List.length_cons, List.length_drop]; omega)

theorem flatMap_words_blocks (stream : List Word) :
    (blocks stream).flatMap Block.words = stream := by
  induction stream using blocks.induct with
  | case1 => simp [blocks]
  | case2 word rest instruction tail ih =>
    rw [blocks, List.flatMap_cons, ih, Block.words, Instruction.toWord_ofWord, List.cons_append,
      List.take_append_drop]

/-! ### Entries -/

/-- The entry of a block at an address. -/
def Block.entry (address : Word) (block : Block) : Entry :=
  match Operation.ofInstruction? block.instruction with
  | some operation =>
    .instruction address operation block.instruction.toWord.value (block.following.map Word.value)
  | none => .data address block.instruction.toWord.value false

/-- The entries of blocks of which the first is at an address. -/
def entriesOf (address : Word) : List Block → List Entry
  | [] => []
  | block :: rest =>
    block.entry address :: entriesOf (address + BitVec.ofNat 16 block.words.length) rest

theorem length_entriesOf (address : Word) (stream : List Block) :
    (entriesOf address stream).length = stream.length := by
  induction stream generalizing address with
  | nil => rfl
  | cons block rest ih => rw [entriesOf, List.length_cons, List.length_cons, ih]

theorem entriesOf_append (address : Word) (front back : List Block) :
    entriesOf address (front ++ back) =
      entriesOf address front ++
        entriesOf (address + BitVec.ofNat 16 (front.flatMap Block.words).length) back := by
  induction front generalizing address with
  | nil => simp [entriesOf]
  | cons block rest ih =>
    rw [List.cons_append, entriesOf, entriesOf, ih, List.flatMap_cons, List.length_append,
      BitVec.ofNat_add, ← BitVec.add_assoc, List.cons_append]

/-- A word that begins no instruction is data. -/
theorem entries_of_undefined (address word : Word) (rest : List Int)
    (undefined : Operation.ofInstruction? (Instruction.ofWord word) = none) :
    entries address (word.value :: rest) =
      .data address word.value false :: entries (address + 1) rest := by
  rw [entries, if_neg (Cell.value_ne_sentinelValue _), Word.ofInt_value]
  simp only [undefined]

/-- So is an instruction that lacks words. -/
theorem entries_of_truncated (address word : Word) (operation : Operation) (rest : List Int)
    (defined : Operation.ofInstruction? (Instruction.ofWord word) = some operation)
    (short : rest.length + 1 < (Instruction.ofWord word).length) :
    entries address (word.value :: rest) =
      .data address word.value true :: entries (address + 1) rest := by
  have few : (rest.take ((Instruction.ofWord word).length - 1)).length <
      (Instruction.ofWord word).length - 1 := by
    rw [List.length_take]
    omega
  rw [entries, if_neg (Cell.value_ne_sentinelValue _), Word.ofInt_value]
  simp only [defined, if_pos few]

theorem entries_of_complete (address : Word) (block : Block) (complete : block.Complete)
    (rest : List Int) :
    entries address (block.words.map Word.value ++ rest) =
      block.entry address :: entries (address + BitVec.ofNat 16 block.words.length) rest := by
  obtain ⟨instruction, following⟩ := block
  obtain ⟨⟨operation, defined⟩, whole⟩ := complete
  have decoded : Instruction.ofWord (Word.ofInt instruction.toWord.value) = instruction := by
    rw [Word.ofInt_value, Instruction.ofWord_toWord]
  have tail : instruction.length - 1 = (following.map Word.value).length := by
    rw [← whole, Block.words, List.length_cons, List.length_map, Nat.add_sub_cancel]
  rw [Block.words, List.map_cons, List.cons_append, entries,
    if_neg (Cell.value_ne_sentinelValue _)]
  simp only [decoded, defined, tail, List.take_left, List.drop_left, Nat.lt_irrefl, if_false]
  rw [Block.entry, defined, List.length_map, List.length_cons, Nat.add_comm 1]

/-- Complete blocks have one entry each. -/
theorem entries_blocks (address : Word) (stream : List Block)
    (complete : ∀ block ∈ stream, block.Complete) :
    entries address ((stream.flatMap Block.words).map Word.value) = entriesOf address stream := by
  induction stream generalizing address with
  | nil => simp [entries, entriesOf]
  | cons block rest ih =>
    have others := fun address =>
      ih address fun other member => complete other (List.mem_cons_of_mem _ member)
    rw [List.flatMap_cons, List.map_append,
      entries_of_complete address block (complete block List.mem_cons_self), others, entriesOf]

/-! ### Lines -/

/-- Where the text of a line begins, behind its address and its words. -/
def textColumn : Nat := 23

/-- The text of a line. -/
def textOf (line : String) : List Char := line.toList.drop textColumn

/-- The address column of a line. -/
def addressColumn (address : Word) : List Char :=
  '$' :: (Hexadecimal.padded 4 address.value).toList ++ [' ', ' ']

/-- A line that shows data and no instruction. -/
def IsDataLine (line : String) : Prop := (textOf line).take 3 = ['D', 'A', 'T']

instance (line : String) : Decidable (IsDataLine line) := inferInstanceAs (Decidable (_ = _))

theorem length_padded_word (word : Word) :
    (Hexadecimal.padded 4 word.value).toList.length = 4 :=
  Hexadecimal.length_padded 4 word.toNat (by decide) word.isLt

theorem length_addressColumn (address : Word) : (addressColumn address).length = 7 := by
  simp only [addressColumn, List.cons_append, List.length_cons, List.length_append,
    length_padded_word, List.length_nil]

/-- Words with a space between neighbours. -/
def wordsText (words : List Word) : String :=
  String.intercalate " " (words.map fun word => Hexadecimal.padded 4 word.value)

theorem length_wordsText (word : Word) (rest : List Word) :
    (wordsText (word :: rest)).toList.length = 5 * rest.length + 4 := by
  induction rest generalizing word with
  | nil => simp only [wordsText, List.map_cons, List.map_nil, String.intercalate_singleton,
      length_padded_word, List.length_nil]
  | cons second others ih =>
    have parted : wordsText (word :: second :: others) =
        Hexadecimal.padded 4 word.value ++ " " ++ wordsText (second :: others) :=
      String.intercalate_cons_cons
    rw [parted, String.toList_append, String.toList_append, List.length_append,
      List.length_append, length_padded_word, ih second, List.length_cons]
    change 4 + 1 + _ = _
    omega

/-- Three words fill the column that shows them. -/
theorem length_filled_wordsText (first : Word) (following : List Word)
    (short : following.length ≤ 2) :
    (Text.filled wordColumn (wordsText (first :: following))).toList.length = wordColumn := by
  rw [String.length_toList, Text.length_filled, ← String.length_toList, length_wordsText,
    wordColumn, Nat.max_eq_left (by omega)]

/-- The characters of a line: an address, words and a text. -/
def columns (address : Word) (words : List Word) (text : List Char) : List Char :=
  addressColumn address ++
    ((Text.filled wordColumn (wordsText words)).toList ++ ([' ', ' '] ++ text))

theorem textOf_of_toList (line : String) (address first : Word) (following : List Word)
    (short : following.length ≤ 2) (text : List Char)
    (whole : line.toList = columns address (first :: following) text) : textOf line = text := by
  rw [textOf, whole, columns, ← List.append_assoc, ← List.append_assoc]
  refine List.drop_left' ?_
  rw [List.length_append, List.length_append, length_addressColumn,
    length_filled_wordsText first following short]
  rfl

theorem toList_instruction (address : Word) (operation : Operation) (word : Word)
    (following : List Word) :
    (Entry.instruction address operation word.value (following.map Word.value)).line.toList =
      columns address (word :: following) (operation.mnemonic ++ " " ++
        operandsText (Instruction.ofWord word) (following.map Word.value)).toList := by
  simp [Entry.line, columns, wordsText, addressColumn, Word.ofInt_value, Function.comp_def]

theorem toList_data (address word : Word) (truncated : Bool) :
    (Entry.data address word.value truncated).line.toList =
      columns address [word] ("DAT 0x" ++ Hexadecimal.padded 4 word.value ++
        if truncated then "  ; truncated" else "").toList := by
  have alone : wordsText [word] = Hexadecimal.padded 4 word.value := String.intercalate_singleton
  have column : (Text.filled wordColumn (wordsText [word])).toList =
      (Hexadecimal.padded 4 word.value).toList ++ (Text.spaces 10).toList := by
    rw [alone, Text.filled, String.toList_ofList, List.rightpad, length_padded_word]
    simp [Text.spaces, wordColumn]
  rw [columns, column]
  simp [Entry.line, addressColumn]

theorem textOf_instruction (address : Word) (operation : Operation) (word : Word)
    (following : List Word) (short : following.length ≤ 2) :
    textOf (Entry.instruction address operation word.value (following.map Word.value)).line =
      (operation.mnemonic ++ " " ++
        operandsText (Instruction.ofWord word) (following.map Word.value)).toList :=
  textOf_of_toList _ address word following short _ (toList_instruction _ _ _ _)

theorem textOf_data (address word : Word) (truncated : Bool) :
    textOf (Entry.data address word.value truncated).line =
      ("DAT 0x" ++ Hexadecimal.padded 4 word.value ++
        if truncated then "  ; truncated" else "").toList :=
  textOf_of_toList _ address word [] (Nat.zero_le 2) _ (toList_data _ _ _)

theorem isDataLine_data (address word : Word) (truncated : Bool) :
    IsDataLine (Entry.data address word.value truncated).line := by
  rw [IsDataLine, textOf_data]
  simp

/-- No mnemonic looks like the mark of data. -/
theorem take_mnemonic (operation : Operation) (rest : List Char) :
    (operation.mnemonic.toList ++ rest).take 3 ≠ ['D', 'A', 'T'] := by
  have all : ∀ operation ∈ Operation.all, operation.mnemonic.toList.length = 3 ∧
      operation.mnemonic.toList ≠ ['D', 'A', 'T'] := by
    decide
  obtain ⟨three, other⟩ := all operation operation.mem_all
  rwa [List.take_left' three]

/-! ### Data -/

/-- A defined instruction that lacks no words begins a complete block. -/
theorem exists_complete (word : Word) (rest : List Word) (operation : Operation)
    (defined : Operation.ofInstruction? (Instruction.ofWord word) = some operation)
    (enough : (Instruction.ofWord word).length ≤ rest.length + 1) :
    Block.Complete ⟨Instruction.ofWord word, rest.take ((Instruction.ofWord word).length - 1)⟩ := by
  have positive := (Instruction.ofWord word).length_eq
  have whole : (rest.take ((Instruction.ofWord word).length - 1)).length + 1 =
      (Instruction.ofWord word).length := by
    rw [List.length_take]
    omega
  exact ⟨⟨operation, defined⟩, whole⟩

/-- Only where a block is not complete are there data. -/
theorem complete_of_entries (address : Word) (stream : List Word)
    (clean : ∀ entry ∈ entries address (stream.map Word.value), ¬IsDataLine entry.line) :
    ∀ block ∈ blocks stream, block.Complete := by
  induction stream using blocks.induct generalizing address with
  | case1 => simp [blocks]
  | case2 word rest instruction tail ih =>
    cases defined : Operation.ofInstruction? (Instruction.ofWord word) with
    | none =>
      rw [List.map_cons, entries_of_undefined address word _ defined] at clean
      exact absurd (isDataLine_data _ _ _) (clean _ List.mem_cons_self)
    | some operation =>
      by_cases short : (rest.map Word.value).length + 1 < (Instruction.ofWord word).length
      · rw [List.map_cons, entries_of_truncated address word operation _ defined short] at clean
        exact absurd (isDataLine_data _ _ _) (clean _ List.mem_cons_self)
      · rw [Nat.not_lt, List.length_map] at short
        have complete := exists_complete word rest operation defined short
        have parted : (word :: rest).map Word.value =
            (Block.words ⟨instruction, rest.take tail⟩).map Word.value ++
              (rest.drop tail).map Word.value := by
          rw [Block.words, Instruction.toWord_ofWord, ← List.map_append, List.cons_append,
            List.take_append_drop]
        rw [parted, entries_of_complete _ _ complete] at clean
        rw [blocks, List.forall_mem_cons]
        -- The entries behind the instruction are those of the blocks behind it.
        exact ⟨complete, ih _ fun entry member => clean entry (List.mem_cons_of_mem _ member)⟩

end Disassembly

end WordMachine
