import WordMachine.Proofs.Assembly.Grammar
import WordMachine.Proofs.Disassembly.Blocks

/-! The columns of a line: an address, words in a column of fixed width, and a text. What a line was
made of is read back from its columns. -/
namespace WordMachine.Text

/-- Words with a space between neighbours are read back, whatever white space follows. -/
theorem words_of_spaced (parts : List (List Char)) (gap : List Char)
    (solid : ∀ part ∈ parts, part ≠ [] ∧ Solid part) (blank : Blank gap) :
    words ([' '].intercalate parts ++ gap) = parts := by
  induction parts with
  | nil => exact words_of_blank gap blank
  | cons first others ih =>
    obtain ⟨⟨nonempty, unbroken⟩, rest⟩ := List.forall_mem_cons.mp solid
    have next (behind : List Char) (parted : Parted behind) :
        words (first ++ behind) = first :: words behind :=
      words_of_word [] first behind nofun nonempty unbroken parted
    cases others with
    | nil =>
      rw [List.intercalate_singleton, next gap fun c head => blank c (List.mem_of_mem_head? head),
        words_of_blank gap blank]
    | cons second others =>
      have space : Blank [' '] := List.forall_mem_singleton.mpr (by decide)
      rw [List.intercalate_cons_of_ne_nil (List.cons_ne_nil _ _), List.append_assoc,
        List.append_assoc, next _ fun c head => space c (by simpa using head.symm),
        words_of_blank_append [' '] _ space, ih rest]

end WordMachine.Text

namespace WordMachine.Disassembly

open WordMachine.Text

/-! ### The column of words -/

def printedWord (word : Word) : List Char := (Hexadecimal.padded 4 word.value).toList

theorem solid_printedWord (word : Word) : printedWord word ≠ [] ∧ Solid (printedWord word) := by
  refine ⟨fun empty => ?_, Hexadecimal.not_isBlank_of_mem_padded 4 word.toNat⟩
  have wide := length_padded_word word
  rw [printedWord] at empty
  rw [empty] at wide
  cases wide

theorem toList_filled_wordsText (printed : List Word) :
    (filled wordColumn (wordsText printed)).toList =
      [' '].intercalate (printed.map printedWord) ++
        List.replicate (wordColumn - (wordsText printed).toList.length) ' ' := by
  have parts : (wordsText printed).toList = [' '].intercalate (printed.map printedWord) := by
    rw [wordsText, String.toList_intercalate, List.map_map]
    rfl
  rw [← parts, filled, String.toList_ofList, List.rightpad]

theorem words_filled_wordsText (printed : List Word) :
    words (filled wordColumn (wordsText printed)).toList = printed.map printedWord := by
  rw [toList_filled_wordsText]
  refine words_of_spaced _ _ ?_ ?_
  · exact List.forall_mem_map.mpr fun word _ => solid_printedWord word
  · intro c member
    rw [List.eq_of_mem_replicate member]
    decide

theorem mapM_read?_printedWord (printed : List Word) :
    (printed.map printedWord).mapM Hexadecimal.read? = some (printed.map (·.toNat)) := by
  induction printed with
  | nil => rfl
  | cons word rest ih =>
    have first : Hexadecimal.read? (printedWord word) = some word.toNat :=
      Hexadecimal.read?_padded 4 word.toNat
    rw [List.map_cons, List.mapM_cons, first, ih]
    rfl

/-! ### Reading lines -/

/-- The address that a line shows. -/
def addressOf? (line : String) : Option Nat := Hexadecimal.read? ((line.toList.drop 1).take 4)

/-- The column of a line that shows words, which stands behind the address. -/
def wordsColumn (line : String) : List Char := (line.toList.drop 7).take wordColumn

/-- The words that lines show, in order. -/
def shown? (lines : List String) : Option (List Nat) :=
  (lines.flatMap fun line => words (wordsColumn line)).mapM Hexadecimal.read?

/-- A line shows an address and words. -/
structure ShowsWords (line : String) (address : Word) (shown : List Word) : Prop where
  address : addressOf? line = some address.toNat
  words : words (wordsColumn line) = shown.map printedWord

theorem showsWords_of_toList (line : String) (address first : Word) (following : List Word)
    (short : following.length ≤ 2) (text : List Char)
    (whole : line.toList = columns address (first :: following) text) :
    ShowsWords line address (first :: following) := by
  refine ⟨?_, ?_⟩
  · have digits : (line.toList.drop 1).take 4 = printedWord address := by
      rw [whole, columns, addressColumn, List.cons_append, List.cons_append, List.drop_one,
        List.tail_cons, List.append_assoc]
      exact List.take_left' (length_padded_word address)
    rw [addressOf?, digits]
    exact Hexadecimal.read?_padded 4 address.toNat
  · rw [wordsColumn, whole, columns, List.drop_left' (length_addressColumn address),
      List.take_left' (length_filled_wordsText first following short), words_filled_wordsText]

theorem showsWords_instruction (address : Word) (operation : Operation) (word : Word)
    (following : List Word) (short : following.length ≤ 2) :
    ShowsWords (Entry.instruction address operation word.value (following.map Word.value)).line
      address (word :: following) :=
  showsWords_of_toList _ _ _ _ short _ (toList_instruction _ _ _ _)

theorem showsWords_data (address word : Word) (truncated : Bool) :
    ShowsWords (Entry.data address word.value truncated).line address [word] :=
  showsWords_of_toList _ address word [] (Nat.zero_le 2) _ (toList_data _ _ _)

theorem shown?_of_words (lines : List String) (printed : List Word)
    (shown : (lines.flatMap fun line => words (wordsColumn line)) = printed.map printedWord) :
    shown? lines = some (printed.map (·.toNat)) := by
  rw [shown?, shown, mapM_read?_printedWord]

end WordMachine.Disassembly
