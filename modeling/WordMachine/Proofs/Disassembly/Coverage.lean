import WordMachine.Proofs.Disassembly.Lines
import WordMachine.Proofs.Disassembly.Statements

/-! What a disassembly shows of the words that are taken apart: every one of them, once and in
order. A line stands for an instruction with all its words, or for one word as data; that is a word
which begins no instruction, or, and then the line says so, one whose instruction runs past the
end. -/
namespace WordMachine.Disassembly

open WordMachine.Text

/-! ### Lines -/

/-- A line says that an instruction runs past the end. -/
def Marked (line : String) : Prop := "; truncated".toList <:+ textOf line

/-- What a line shows that stands for a word and the words following it, with others left behind
them. -/
structure Covers (word : Word) (following left : List Word) (line : String) : Prop where
  instruction : ¬IsDataLine line →
    (∃ operation, Operation.ofInstruction? (Instruction.ofWord word) = some operation ∧
      operation.mnemonic.toList ++ [' '] <+: textOf line) ∧
    (word :: following).length = (Instruction.ofWord word).length
  data : IsDataLine line →
    following = [] ∧ ("DAT 0x" ++ Hexadecimal.padded 4 word.value).toList <+: textOf line
  marked_iff : IsDataLine line ∧ Marked line ↔
    (∃ operation, Operation.ofInstruction? (Instruction.ofWord word) = some operation) ∧
      (word :: following ++ left).length < (Instruction.ofWord word).length
  unmarked_iff : IsDataLine line ∧ ¬Marked line ↔
    Operation.ofInstruction? (Instruction.ofWord word) = none

theorem marked_data_iff (address word : Word) (truncated : Bool) :
    Marked (Entry.data address word.value truncated).line ↔ truncated = true := by
  rw [Marked, textOf_data]
  cases truncated with
  | true =>
    refine iff_of_true ⟨("DAT 0x" ++ Hexadecimal.padded 4 word.value ++ "  ").toList, ?_⟩ rfl
    simp
  | false =>
    -- Without the mark the text is too short for it.
    refine iff_of_false (fun suffix => ?_) Bool.false_ne_true
    have short := suffix.length_le
    simp [length_padded_word] at short

private theorem prefix_textOf_data (address word : Word) (truncated : Bool) :
    ("DAT 0x" ++ Hexadecimal.padded 4 word.value).toList <+:
      textOf (Entry.data address word.value truncated).line := by
  rw [textOf_data]
  exact ⟨_, String.toList_append.symm⟩

theorem covers_undefined (address word : Word) (left : List Word)
    (undefined : Operation.ofInstruction? (Instruction.ofWord word) = none) :
    Covers word [] left (Entry.data address word.value false).line := by
  have data := isDataLine_data address word false
  have unmarked := mt (marked_data_iff address word false).mp Bool.false_ne_true
  refine ⟨absurd data, fun _ => ⟨rfl, prefix_textOf_data _ _ _⟩, ?_, ?_⟩
  · refine iff_of_false (fun both => unmarked both.2) ?_
    rintro ⟨⟨operation, defined⟩, -⟩
    cases undefined.symm.trans defined
  · exact iff_of_true ⟨data, unmarked⟩ undefined

theorem covers_truncated (address word : Word) (left : List Word) (operation : Operation)
    (defined : Operation.ofInstruction? (Instruction.ofWord word) = some operation)
    (short : (word :: left).length < (Instruction.ofWord word).length) :
    Covers word [] left (Entry.data address word.value true).line := by
  have data := isDataLine_data address word true
  have marked := (marked_data_iff address word true).mpr rfl
  refine ⟨absurd data, fun _ => ⟨rfl, prefix_textOf_data _ _ _⟩, ?_, ?_⟩
  · exact iff_of_true ⟨data, marked⟩ ⟨⟨operation, defined⟩, short⟩
  · refine iff_of_false (fun both => both.2 marked) ?_
    rw [defined]
    exact Option.some_ne_none _

theorem covers_instruction (address word : Word) (following left : List Word)
    (operation : Operation)
    (defined : Operation.ofInstruction? (Instruction.ofWord word) = some operation)
    (whole : (word :: following).length = (Instruction.ofWord word).length)
    (short : following.length ≤ 2) :
    Covers word following left
      (Entry.instruction address operation word.value (following.map Word.value)).line := by
  have text := textOf_instruction address operation word following short
  have noData :
      ¬IsDataLine (Entry.instruction address operation word.value
        (following.map Word.value)).line := by
    rw [IsDataLine, text, String.toList_append, String.toList_append, List.append_assoc]
    exact take_mnemonic operation _
  refine ⟨fun _ => ⟨⟨operation, defined, ?_⟩, whole⟩, fun data => absurd data noData, ?_, ?_⟩
  · rw [text, String.toList_append, String.toList_append]
    exact List.prefix_append _ _
  · refine iff_of_false (fun both => noData both.1) fun both => ?_
    have longer := both.2
    rw [List.length_append, whole] at longer
    omega
  · refine iff_of_false (fun both => noData both.1) ?_
    rw [defined]
    exact Option.some_ne_none _

/-! ### Lines in a row -/

/-- Lines of which the first is at an address show words, each where the words before it end. -/
inductive Tiles : Word → List Word → List String → Prop
  | nil (address : Word) : Tiles address [] []
  | cons {address word : Word} {following left : List Word} {line : String} {lines : List String}
      (shows : ShowsWords line address (word :: following))
      (covers : Covers word following left line)
      (others : Tiles (address + BitVec.ofNat 16 (following.length + 1)) left lines) :
      Tiles address (word :: following ++ left) (line :: lines)

/-- The first entry of a stream takes words from its front and leaves the others. -/
theorem entries_cons (address word : Word) (rest : List Word) :
    ∃ following left entry, rest = following ++ left ∧
      entries address ((word :: rest).map Word.value) =
        entry :: entries (address + BitVec.ofNat 16 (following.length + 1))
          (left.map Word.value) ∧
      ShowsWords entry.line address (word :: following) ∧
      Covers word following left entry.line := by
  cases defined : Operation.ofInstruction? (Instruction.ofWord word) with
  | none =>
    exact ⟨[], rest, _, rfl, entries_of_undefined address word _ defined,
      showsWords_data address word false, covers_undefined address word rest defined⟩
  | some operation =>
    by_cases short : rest.length + 1 < (Instruction.ofWord word).length
    · exact ⟨[], rest, _, rfl, entries_of_truncated address word operation _ defined
        (by rwa [List.length_map]), showsWords_data address word true,
        covers_truncated address word rest operation defined short⟩
    · have complete := exists_complete word rest operation defined (Nat.not_lt.mp short)
      have few := length_following_le _ complete
      have whole := complete.whole
      have left := (List.take_append_drop ((Instruction.ofWord word).length - 1) rest).symm
      generalize rest.take ((Instruction.ofWord word).length - 1) = following at *
      rw [Block.words, Instruction.toWord_ofWord] at whole
      have first := entries_of_complete address _ complete
        ((rest.drop ((Instruction.ofWord word).length - 1)).map Word.value)
      rw [Block.words, Block.entry, defined, Instruction.toWord_ofWord, ← List.map_append,
        List.cons_append, ← left] at first
      exact ⟨following, _, _, left, first, showsWords_instruction address operation word _ few,
        covers_instruction address word _ _ operation defined whole few⟩

theorem tiles_entries (address : Word) (stream : List Word) :
    Tiles address stream ((entries address (stream.map Word.value)).map Entry.line) := by
  -- What the first entry leaves is shorter, but need not be the tail of the stream.
  induction length : stream.length using Nat.strongRecOn generalizing address stream with
  | ind n ih =>
    cases stream with
    | nil =>
      rw [List.map_nil, entries]
      exact .nil address
    | cons word rest =>
      obtain ⟨following, left, entry, rfl, parted, shows, covers⟩ :=
        entries_cons address word rest
      rw [parted, List.map_cons]
      rw [List.length_cons, List.length_append] at length
      exact .cons shows covers (ih left.length (by omega) _ left rfl)

/-! ### What lines show -/

theorem Tiles.words_shown {address : Word} {stream : List Word} {lines : List String}
    (tiles : Tiles address stream lines) :
    (lines.flatMap fun line => words (wordsColumn line)) = stream.map printedWord := by
  induction tiles with
  | nil => rfl
  | cons shows _ _ ih => rw [List.flatMap_cons, ih, shows.words, ← List.map_append]

theorem Tiles.length_le {address : Word} {stream : List Word} {lines : List String}
    (tiles : Tiles address stream lines) : lines.length ≤ stream.length := by
  induction tiles with
  | nil => exact Nat.le_refl 0
  | cons _ _ _ ih =>
    rw [List.length_cons, List.length_append, List.length_cons]
    omega

/-- A line stands where the words that are shown before it end. -/
theorem Tiles.split {address : Word} {stream : List Word} (front : List String) {line : String}
    {back : List String} (tiles : Tiles address stream (front ++ line :: back)) :
    ∃ covered word following left, stream = covered ++ (word :: following ++ left) ∧
      (front.flatMap fun line => words (wordsColumn line)) = covered.map printedWord ∧
      ShowsWords line (address + BitVec.ofNat 16 covered.length) (word :: following) ∧
      Covers word following left line ∧
      (back.flatMap fun line => words (wordsColumn line)) = left.map printedWord := by
  induction front generalizing address stream with
  | nil =>
    cases tiles with
    | @cons _ word following left _ _ shows covers others =>
      refine ⟨[], word, following, left, rfl, rfl, ?_, covers, others.words_shown⟩
      exact (BitVec.add_zero address).symm ▸ shows
  | cons first front ih =>
    cases tiles with
    | @cons _ head tail _ _ _ shows _ others =>
      obtain ⟨covered, word, following, left, rfl, shown, placed, covers, behind⟩ := ih others
      refine ⟨head :: tail ++ covered, word, following, left, ?_, ?_, ?_, covers, behind⟩
      · exact (List.append_assoc _ _ _).symm
      · rw [List.flatMap_cons, shows.words, shown, List.map_append]
      · rwa [BitVec.add_assoc, ← BitVec.ofNat_add, ← List.length_cons, ← List.length_append]
          at placed

/-! ### Disassemblies -/

/-- A disassembly shows every word that is taken apart, once and in order. Each of its lines is at
the address where the words before it end, and stands for an instruction with all its words or for
one word as data, which is marked exactly if its instruction runs past the end. -/
theorem disassemble_covers (stream : List Word) (base : Int) :
    let lines := disassemble (stream.map Word.value) base
    shown? lines = some (stream.map (·.toNat)) ∧ lines.length ≤ stream.length ∧
    ∀ front line back, lines = front ++ line :: back →
      ∃ covered word following left, stream = covered ++ (word :: following ++ left) ∧
        shown? front = some (covered.map (·.toNat)) ∧
        shown? [line] = some ((word :: following).map (·.toNat)) ∧
        shown? back = some (left.map (·.toNat)) ∧
        addressOf? line = some ((base + covered.length) % 65536).toNat ∧
        Covers word following left line := by
  intro lines
  have tiles : Tiles (Word.ofInt base) stream lines := tiles_entries _ stream
  refine ⟨shown?_of_words _ _ tiles.words_shown, tiles.length_le, ?_⟩
  rintro front line back parted
  rw [parted] at tiles
  obtain ⟨covered, word, following, left, whole, before, shows, covers, behind⟩ :=
    tiles.split front
  refine ⟨covered, word, following, left, whole, shown?_of_words _ _ before,
    shown?_of_words _ _ ?_, shown?_of_words _ _ behind, ?_, covers⟩
  · rw [List.flatMap_singleton, shows.words]
  · rw [shows.address, ← Word.ofInt_add_nat, ← Word.value_ofInt]
    rfl

/-- An instruction, a word that begins none, and an instruction cut off by the end, across the end
of memory. -/
theorem disassemble_covers_cut_off :
    disassemble ([0x7C01, 0x0030, 0x0000, 0x7DE1, 0x1000].map Word.value) (-2) =
        ["$FFFE  7C01 0030       SET A, 0x0030", "$0000  0000            DAT 0x0000"] ++
          "$0001  7DE1            DAT 0x7DE1  ; truncated" ::
            ["$0002  1000            DAT 0x1000"] ∧
      Covers 0x7DE1 [] [0x1000] "$0001  7DE1            DAT 0x7DE1  ; truncated" := by
  have lines : disassemble ([0x7C01, 0x0030, 0x0000, 0x7DE1, 0x1000].map Word.value) (-2) =
      ["$FFFE  7C01 0030       SET A, 0x0030", "$0000  0000            DAT 0x0000"] ++
        "$0001  7DE1            DAT 0x7DE1  ; truncated" ::
          ["$0002  1000            DAT 0x1000"] := by decide +kernel
  have same : Function.Injective (List.map fun word : Word => word.toNat) :=
    List.map_injective_iff.mpr fun _ _ => BitVec.eq_of_toNat_eq
  obtain ⟨-, -, split⟩ :=
    disassemble_covers [0x7C01, 0x0030, 0x0000, 0x7DE1, 0x1000] (-2)
  obtain ⟨covered, word, following, left, -, -, own, behind, -, covers⟩ := split _ _ _ lines
  have shown : shown? ["$0001  7DE1            DAT 0x7DE1  ; truncated"] =
      some (List.map (·.toNat) ([0x7DE1] : List Word)) := by decide +kernel
  have last : shown? ["$0002  1000            DAT 0x1000"] =
      some (List.map (·.toNat) ([0x1000] : List Word)) := by decide +kernel
  cases same (Option.some.inj (own.symm.trans shown))
  cases same (Option.some.inj (behind.symm.trans last))
  exact ⟨lines, covers⟩

end WordMachine.Disassembly
