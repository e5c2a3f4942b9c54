import WordMachine.Proofs.Assembly.Reading
import WordMachine.Proofs.Disassembly.Blocks
import WordMachine.Proofs.Steps

/-! Blocks as statements: the text of a complete block is that of a statement, and the statement is
encoded to the block, with the short constants of its operands in next words of their own. -/
namespace WordMachine

namespace Disassembly

open WordMachine.Text
open Assembly (Statement Token listed isPlain token_of_plain encodeOperand Spells Stands)

/-! ### Operands -/

/-- Operands with their next words, which lie one after the other. -/
def deal : List Mode → List Word → List (Mode × List Word)
  | [], _ => []
  | mode :: rest, words =>
    (mode, words.take mode.nextWords) :: deal rest (words.drop mode.nextWords)

/-- As many words as the operands take are dealt out without a rest. -/
theorem deal_of_length (modes : List Mode) (words : List Word)
    (whole : words.length = (modes.map Mode.nextWords).sum) :
    (deal modes words).map Prod.fst = modes ∧ (deal modes words).flatMap Prod.snd = words ∧
      ∀ operand ∈ deal modes words, operand.2.length = operand.1.nextWords := by
  induction modes generalizing words with
  | nil =>
    have none : words = [] := List.eq_nil_of_length_eq_zero whole
    exact ⟨rfl, none.symm, nofun⟩
  | cons mode rest ih =>
    rw [List.map_cons, List.sum_cons] at whole
    obtain ⟨modes, others, taken⟩ :=
      ih (words.drop mode.nextWords) (by rw [List.length_drop]; omega)
    have own : (words.take mode.nextWords).length = mode.nextWords := by
      rw [List.length_take]
      omega
    rw [deal, List.map_cons, modes, List.flatMap_cons, others, List.take_append_drop,
      List.forall_mem_cons]
    exact ⟨rfl, rfl, own, taken⟩

/-- An operand as the source format writes it. -/
def token (operand : Mode × List Word) : List Char :=
  (operand.1.text (operand.2.headD 0).value).toList

/-- An operand with a short constant in a next word of its own. -/
def writtenOut : Mode × List Word → Mode × List Word
  | (.literal n, _) => (.nextWord, [BitVec.ofNat 16 n])
  | operand => operand

private theorem upper_keyword (mode : Mode) (keyword : List Char)
    (named : mode.keyword? = some keyword) : upper keyword = keyword := by
  cases mode with
  | register r => cases named; cases r <;> decide
  | atRegister r => cases named; cases r <;> decide
  | indexed r => cases named
  | atNextWord | nextWord | literal _ => cases named
  | _ => cases named; decide

private theorem spells_keyword (mode : Mode) (keyword : List Char)
    (named : mode.keyword? = some keyword) : Spells [] keyword mode [] :=
  .keyword (by rw [upper_keyword mode keyword named, named])

theorem token_of_keyword (mode : Mode) (next : List Word) (keyword : List Char)
    (named : mode.keyword? = some keyword) : token (mode, next) = keyword := by
  cases mode with
  | indexed r => cases named
  | atNextWord | nextWord | literal _ => cases named
  | _ =>
    cases named
    exact String.toList_ofList

/-- A number as the source format writes it. -/
private def number (width : Nat) (value : Int) : List Char :=
  '0' :: 'x' :: (Hexadecimal.padded width value).toList

private theorem token_indexed (r : Register) (next : List Word) :
    token (.indexed r, next) =
      '[' :: (number 4 (next.headD 0).value ++ '+' :: [r.letter]) ++ [']'] := by
  simp [token, Mode.text, number]

private theorem token_atNextWord (next : List Word) :
    token (.atNextWord, next) = '[' :: number 4 (next.headD 0).value ++ [']'] := by
  simp [token, Mode.text, number]

private theorem token_nextWord (next : List Word) :
    token (.nextWord, next) = number 4 (next.headD 0).value := by
  simp [token, Mode.text, number]

private theorem token_literal (n : Fin 32) (next : List Word) :
    token (.literal n, next) = number 2 n.val := by
  simp [token, Mode.text, number]

private theorem stands_number (width : Nat) (n : Nat) :
    Stands [] (number width n) (BitVec.ofNat 16 n) := .number (Hexadecimal.read?_padded width n)

private theorem stands_word (word : Word) : Stands [] (number 4 word.value) word := by
  have stands := stands_number 4 word.toNat
  rwa [BitVec.ofNat_toNat, BitVec.setWidth_eq] at stands

private theorem upper_letter (r : Register) : upper [r.letter] = [r.letter] := by
  cases r <;> decide

/-- What the text of an operand is read as has its short constant in a next word. -/
theorem spells_token (mode : Mode) (next : List Word) (whole : next.length = mode.nextWords) :
    Spells [] (token (mode, next)) (writtenOut (mode, next)).1 (writtenOut (mode, next)).2 := by
  cases mode with
  | indexed r =>
    obtain ⟨word, rfl⟩ := List.length_eq_one_iff.mp whole
    rw [token_indexed]
    exact .sumRight (stands_word word) (upper_letter r)
  | atNextWord =>
    obtain ⟨word, rfl⟩ := List.length_eq_one_iff.mp whole
    rw [token_atNextWord]
    exact .address (stands_word word)
  | nextWord =>
    obtain ⟨word, rfl⟩ := List.length_eq_one_iff.mp whole
    rw [token_nextWord]
    exact .immediate (stands_word word)
  | literal n =>
    rw [token_literal]
    exact .immediate (stands_number 2 n.val)
  | _ =>
    obtain rfl := List.eq_nil_of_length_eq_zero whole
    rw [token_of_keyword _ _ _ rfl]
    exact spells_keyword _ _ rfl

private theorem isPlain_of_digit (c : Char) (digit : (digitValue? 16 c).isSome) :
    isPlain c = true := by
  have code := Hexadecimal.toNat_of_isSome_digitValue? c digit
  have solid := Hexadecimal.not_isBlank_of_isSome_digitValue? c digit
  have noComma : c ≠ ',' := by
    rintro rfl
    exact absurd code (by decide)
  have noComment : c ≠ ';' := by
    rintro rfl
    exact absurd code (by decide)
  simp [isPlain, solid, noComma, noComment]

private theorem all_number (width n : Nat) : (number width n).all isPlain = true := by
  have digits := Hexadecimal.isSome_digitValue?_of_read? _ n (Hexadecimal.read?_padded width n)
  rw [number, List.all_cons, List.all_cons, List.all_eq_true.mpr]
  · rfl
  · exact fun c member => isPlain_of_digit c (digits c member)

theorem token_of_mode (mode : Mode) (next : List Word) : Token (token (mode, next)) := by
  have word : (number 4 (next.headD 0).value).all isPlain = true := all_number 4 _
  have keyword (text : List Char) (named : mode.keyword? = some text) (nonempty : text ≠ [])
      (plain : text.all isPlain = true) : Token (token (mode, next)) := by
    rw [token_of_keyword mode next text named]
    exact token_of_plain text nonempty plain
  cases mode with
  | indexed r =>
    have letter : isPlain r.letter = true := by cases r <;> decide
    refine token_of_plain _ (by simp [token_indexed]) ?_
    rw [token_indexed, List.cons_append, List.all_cons, List.all_append, List.all_append, word,
      List.all_cons, List.all_cons, letter]
    decide
  | atNextWord =>
    refine token_of_plain _ (by simp [token_atNextWord]) ?_
    rw [token_atNextWord, List.cons_append, List.all_cons, List.all_append, word]
    decide
  | nextWord =>
    rw [token_nextWord]
    exact token_of_plain _ (List.cons_ne_nil _ _) word
  | literal n =>
    rw [token_literal]
    exact token_of_plain _ (List.cons_ne_nil _ _) (all_number 2 _)
  | register r => exact keyword _ rfl (by simp) (by cases r <;> decide)
  | atRegister r => exact keyword _ rfl (by simp) (by cases r <;> decide)
  | _ => exact keyword _ rfl (by simp) (by decide)

/-! ### Texts -/

/-- The text of an operand shows the first of the words that are left for it, if it takes one. -/
private theorem token_of_taken (mode : Mode) (words : List Word) :
    token (mode, words.take mode.nextWords) =
      (mode.text ((words.map Word.value).getD 0 0)).toList := by
  cases mode <;> cases words <;> rfl

private theorem nextWords_cases (mode : Mode) :
    (mode.nextWords = 0 ∧ ∀ first second, mode.text first = mode.text second) ∨
      mode.nextWords = 1 := by
  cases mode with
  | indexed r => exact .inr rfl
  | atNextWord | nextWord => exact .inr rfl
  | _ => exact .inl ⟨rfl, fun _ _ => rfl⟩

/-- The text of the operands of an instruction lists them with the words dealt to them. -/
theorem operandsText_eq (instruction : Instruction) (following : List Word) :
    (operandsText instruction (following.map Word.value)).toList =
      listed ((deal instruction.modes following).map token) := by
  cases extended : instruction.extended with
  | true =>
    have text : operandsText instruction (following.map Word.value) =
        (Mode.ofCode instruction.b).text ((following.map Word.value).getD 0 0) := by
      simp only [operandsText, operandWords, extended]
      rfl
    rw [text, ← token_of_taken, Instruction.modes, if_pos extended]
    exact List.intercalate_singleton.symm
  | false =>
    have modes : instruction.modes = [Mode.ofCode instruction.a, Mode.ofCode instruction.b] := by
      rw [Instruction.modes, extended, if_neg Bool.false_ne_true]
    have dealt : listed ((deal instruction.modes following).map token) =
        token (Mode.ofCode instruction.a, following.take (Mode.ofCode instruction.a).nextWords) ++
          ", ".toList ++ token (Mode.ofCode instruction.b,
            (following.drop (Mode.ofCode instruction.a).nextWords).take
              (Mode.ofCode instruction.b).nextWords) := by
      simp [modes, deal, listed]
    rw [dealt, token_of_taken, token_of_taken]
    rcases nextWords_cases (Mode.ofCode instruction.a) with ⟨none, same⟩ | one
    · -- The first operand leaves the word to the second.
      have text : operandsText instruction (following.map Word.value) =
          (Mode.ofCode instruction.a).text 0 ++ ", " ++
            (Mode.ofCode instruction.b).text ((following.map Word.value).getD 0 0) := by
        simp only [operandsText, operandWords, extended, none]
        rfl
      rw [text, none, same 0 ((following.map Word.value).getD 0 0), List.drop_zero,
        String.toList_append, String.toList_append]
    · have text : operandsText instruction (following.map Word.value) =
          (Mode.ofCode instruction.a).text ((following.map Word.value).getD 0 0) ++ ", " ++
            (Mode.ofCode instruction.b).text ((following.map Word.value).getD 1 0) := by
        simp only [operandsText, operandWords, extended, one]
        rfl
      have second : ((following.drop 1).map Word.value).getD 0 0 =
          (following.map Word.value).getD 1 0 := by
        simp
      rw [text, one, second, String.toList_append, String.toList_append]

namespace Block

def operands (block : Block) : List (Mode × List Word) :=
  deal block.instruction.modes block.following

/-- The statement that a block is the encoding of. -/
def statement (block : Block) : Statement where
  mnemonic := ((Operation.ofInstruction? block.instruction).map fun operation =>
    operation.mnemonic.toList).getD []
  operands := block.operands.map token

end Block

private theorem modes_ne_nil (instruction : Instruction) : instruction.modes ≠ [] := by
  unfold Instruction.modes
  split <;> exact List.cons_ne_nil _ _

theorem statement_readable (block : Block) (complete : block.Complete) :
    block.statement.Readable := by
  obtain ⟨operation, defined⟩ := complete.defined
  refine ⟨⟨operation, by rw [Block.statement, defined]; rfl⟩, ?_, ?_⟩
  · rw [Block.statement, Block.operands]
    cases modes : block.instruction.modes with
    | nil => exact absurd modes (modes_ne_nil block.instruction)
    | cons mode rest => exact List.cons_ne_nil _ _
  · intro operand member
    obtain ⟨dealt, -, rfl⟩ := List.mem_map.mp member
    exact token_of_mode dealt.1 dealt.2

theorem length_following (block : Block) (complete : block.Complete) :
    block.following.length = (block.instruction.modes.map Mode.nextWords).sum := by
  have whole := complete.whole
  rw [Block.words, List.length_cons, block.instruction.length_eq] at whole
  omega

/-- No instruction has more than two next words. -/
theorem sum_nextWords_le (instruction : Instruction) :
    (instruction.modes.map Mode.nextWords).sum ≤ 2 := by
  have a := nextWords_cases (Mode.ofCode instruction.a)
  have b := nextWords_cases (Mode.ofCode instruction.b)
  rw [Instruction.modes]
  split
  · simp only [List.map_cons, List.map_nil, List.sum_cons, List.sum_nil]
    omega
  · simp only [List.map_cons, List.map_nil, List.sum_cons, List.sum_nil]
    omega

theorem length_following_le (block : Block) (complete : block.Complete) :
    block.following.length ≤ 2 :=
  (length_following block complete).trans_le (sum_nextWords_le block.instruction)

theorem textOf_line (address : Word) (block : Block) (complete : block.Complete) :
    textOf (block.entry address).line = block.statement.text := by
  obtain ⟨operation, defined⟩ := complete.defined
  rw [Block.entry, defined]
  simp only
  rw [textOf_instruction _ _ _ _ (length_following_le block complete), Instruction.ofWord_toWord,
    String.toList_append, operandsText_eq, Statement.text, Block.statement, defined]
  simp [Block.operands]

/-! ### Encodings -/

/-- An instruction with other operands. -/
def withModes (instruction : Instruction) : List Mode → Instruction
  | [b] => { instruction with b := b.code }
  | [a, b] => { instruction with a := a.code, b := b.code }
  | _ => instruction

/-- A block with the short constants of its operands in next words of their own. -/
def Block.writtenOut (block : Block) : Block :=
  let operands := block.operands.map Disassembly.writtenOut
  ⟨withModes block.instruction (operands.map Prod.fst), operands.flatMap Prod.snd⟩

/-- The statement of a block is encoded to the block, written out. -/
theorem encode_statement (block : Block) (complete : block.Complete) :
    block.statement.encode [] = .ok block.writtenOut.words := by
  obtain ⟨operation, defined⟩ := complete.defined
  obtain ⟨opcode, selector⟩ := (Operation.ofInstruction?_eq_some_iff _ _).mp defined
  have whole := length_following block complete
  have encoded : ∀ operand ∈ block.operands,
      encodeOperand [] (token operand) = .ok (writtenOut operand) := by
    intro operand member
    exact (Assembly.encodeOperand_iff [] nofun _ _ _).mpr
      (spells_token operand.1 operand.2 ((deal_of_length _ _ whole).2.2 operand member))
  have mnemonic : block.statement = ⟨operation.mnemonic.toList, block.operands.map token⟩ := by
    rw [Block.statement, defined]
    rfl
  rw [mnemonic, Block.writtenOut]
  -- A call has one operand, every other operation two.
  by_cases call : operation = .jsr
  · subst call
    obtain ⟨b, dealt⟩ : ∃ b, block.operands = [b] :=
      ⟨_, by rw [Block.operands, block.instruction.modes_of_jsr defined]; rfl⟩
    rw [dealt, List.forall_mem_singleton] at encoded
    simp only [dealt, List.map_cons, List.map_nil, List.flatMap_cons, List.flatMap_nil,
      List.append_nil, withModes, Block.words, Assembly.encode_jsr [] _ _ encoded, opcode,
      selector rfl]
  · obtain ⟨a, b, dealt⟩ : ∃ a b, block.operands = [a, b] :=
      ⟨_, _, by rw [Block.operands, block.instruction.modes_of_defined operation defined call]; rfl⟩
    rw [dealt, List.forall_mem_cons, List.forall_mem_singleton] at encoded
    simp only [dealt, List.map_cons, List.map_nil, List.flatMap_cons, List.flatMap_nil,
      List.append_nil, withModes, Block.words, opcode,
      Assembly.encode_plain [] operation call _ _ _ _ encoded.1 encoded.2]

/-- No operand of a block is a short constant. -/
def Block.Unabridged (block : Block) : Prop := ∀ n, Mode.literal n ∉ block.instruction.modes

private theorem withModes_modes (instruction : Instruction) :
    withModes instruction instruction.modes = instruction := by
  unfold Instruction.modes
  split <;> simp only [withModes, Mode.code_ofCode]

theorem writtenOut_of_unabridged (block : Block) (complete : block.Complete)
    (unabridged : block.Unabridged) : block.writtenOut = block := by
  obtain ⟨modes, words, -⟩ := deal_of_length _ _ (length_following block complete)
  have same : block.operands.map writtenOut = block.operands := by
    refine (List.map_congr_left fun operand member => ?_).trans (List.map_id _)
    obtain ⟨mode, next⟩ := operand
    cases mode with
    | literal n =>
      have present := List.mem_map_of_mem (f := Prod.fst) member
      rw [Block.operands, modes] at present
      exact absurd present (unabridged n)
    | _ => rfl
  rw [Block.writtenOut, same, Block.operands, modes, words, withModes_modes]

theorem flatMap_writtenOut (stream : List Block)
    (complete : ∀ block ∈ stream, block.Complete ∧ block.Unabridged) :
    (stream.flatMap fun block => block.writtenOut.words) = stream.flatMap Block.words := by
  refine List.flatMap_congr fun block member => ?_
  obtain ⟨whole, unabridged⟩ := complete block member
  rw [writtenOut_of_unabridged block whole unabridged]

end Disassembly

end WordMachine
