import WordMachine.Memory
import WordMachine.Proofs.Disassembly.Lines

/-! Dumps of memory. A dump shows the words that it is asked for and no others, eight to a row and
what is left on the last one; each row opens with the address of its first word. Where the addresses
end it goes on at zero. -/
namespace WordMachine.Memory

open WordMachine.Text
open Disassembly (printedWord solid_printedWord length_padded_word)

/-! ### Reading a dump -/

/-- The rows of a dump, of which an empty text has none. -/
def dumpRows (dump : String) : List (List Char) :=
  if dump = "" then [] else dump.toList.splitOn '\n'

/-- The words on a row, which stand behind the address. -/
def wordsOnRow (row : List Char) : List (List Char) := words (row.drop 4)

/-- A text shows so many words of a memory, from an address on, which may be any integer. Words and
addresses have four digits each. -/
structure ShowsWords (memory : Memory) (start : Int) (length : Nat) (dump : String) : Prop where
  rows : (dumpRows dump).length = length ⌈/⌉ 8
  spaced : ∀ row ∈ dumpRows dump,
    row = row.take 4 ++ ([' ', ' '] ++ [' '].intercalate (wordsOnRow row))
  addresses : (dumpRows dump).map (·.take 4) = (List.range (length ⌈/⌉ 8)).map fun row : Nat =>
    Hexadecimal.lowDigits 4 ((start + 8 * row) % 65536).toNat
  filled : (dumpRows dump).map (fun row => (wordsOnRow row).length) =
    (List.range (length ⌈/⌉ 8)).map fun row =>
      if row + 1 = length ⌈/⌉ 8 then length - 8 * (length ⌈/⌉ 8 - 1) else 8
  words : (dumpRows dump).flatMap wordsOnRow = (List.range length).map fun k : Nat =>
    Hexadecimal.lowDigits 4 (memory.read (Word.ofInt (start + k))).toNat
  sentinels : ∀ k : Nat, k < length → memory.fetch (Word.ofInt (start + k)) = .sentinel →
    ((dumpRows dump).flatMap wordsOnRow)[k]? = some ['0', '0', '0', '0']

/-! ### Rows -/

theorem printedWord_eq (word : Word) : printedWord word = Hexadecimal.lowDigits 4 word.toNat :=
  Hexadecimal.toList_padded 4 word.toNat (by decide) word.isLt

theorem toList_dumpRow (memory : Memory) (address : Word) (count : Nat) :
    (memory.dumpRow address count).toList =
      printedWord address ++ ([' ', ' '] ++ [' '].intercalate ((List.range count).map fun k =>
        printedWord (memory.read (address + BitVec.ofNat 16 k)))) := by
  simp [dumpRow, printedWord, String.toList_intercalate, Function.comp_def]

theorem take_dumpRow (memory : Memory) (address : Word) (count : Nat) :
    (memory.dumpRow address count).toList.take 4 = printedWord address := by
  rw [toList_dumpRow]
  exact List.take_left' (length_padded_word address)

theorem wordsOnRow_dumpRow (memory : Memory) (address : Word) (count : Nat) :
    wordsOnRow (memory.dumpRow address count).toList = (List.range count).map fun k =>
      printedWord (memory.read (address + BitVec.ofNat 16 k)) := by
  have width : (printedWord address).length = 4 := length_padded_word address
  have gap : Blank [' ', ' '] :=
    List.forall_mem_cons.mpr ⟨by decide, List.forall_mem_singleton.mpr (by decide)⟩
  rw [wordsOnRow, toList_dumpRow, List.drop_left' width, words_of_blank_append _ _ gap,
    ← List.append_nil ([' '].intercalate _)]
  apply words_of_spaced _ [] _ nofun
  exact List.forall_mem_map.mpr fun k _ => solid_printedWord _

theorem newline_notMem_dumpRow (memory : Memory) (address : Word) (count : Nat) :
    '\n' ∉ (memory.dumpRow address count).toList := by
  have digits (word : Word) : '\n' ∉ printedWord word := fun member => by
    have visible := (solid_printedWord word).2 '\n' member
    cases visible
  have column : '\n' ∉ [' '].intercalate ((List.range count).map fun k =>
      printedWord (memory.read (address + BitVec.ofNat 16 k))) := by
    apply notMem_intercalate _ _ _ (by decide)
    exact List.forall_mem_map.mpr fun k _ => digits _
  rw [toList_dumpRow]
  simp [digits, column]

theorem dumpRow_ne_nil (memory : Memory) (address : Word) (count : Nat) :
    (memory.dumpRow address count).toList ≠ [] := by
  intro empty
  have digits := take_dumpRow memory address count
  rw [empty] at digits
  exact (solid_printedWord address).1 digits.symm

/-- A dump is parted into its rows again at line feeds. -/
theorem dumpRows_dump (memory : Memory) (start : Word) (length : Nat) :
    dumpRows (memory.dump start length) = (List.range (length ⌈/⌉ 8)).map fun row =>
      (memory.dumpRow (start + BitVec.ofNat 16 (8 * row)) (min 8 (length - 8 * row))).toList := by
  generalize rows : (List.range (length ⌈/⌉ 8)).map (fun row =>
    (memory.dumpRow (start + BitVec.ofNat 16 (8 * row)) (min 8 (length - 8 * row))).toList) = texts
  have whole : (memory.dump start length).toList = ['\n'].intercalate texts := by
    rw [← rows, dump, String.toList_intercalate, List.map_map]
    rfl
  have lines : ∀ text ∈ texts, '\n' ∉ text ∧ text ≠ [] := by
    rw [← rows]
    exact List.forall_mem_map.mpr fun row _ =>
      ⟨newline_notMem_dumpRow _ _ _, dumpRow_ne_nil _ _ _⟩
  cases texts with
  | nil =>
    have empty : memory.dump start length = "" := String.toList_inj.mp whole
    rw [dumpRows, if_pos empty]
  | cons first others =>
    have parted : (memory.dump start length).toList.splitOn '\n' = first :: others := by
      rw [whole]
      apply List.splitOn_intercalate _ _ (List.cons_ne_nil _ _)
      exact fun text member => (lines text member).1
    -- The empty text would be parted into a single row, an empty one.
    have visible : memory.dump start length ≠ "" := by
      intro empty
      rw [empty] at parted
      obtain ⟨blank, -⟩ := List.cons.inj parted
      exact (lines first List.mem_cons_self).2 blank.symm
    rw [dumpRows, if_neg visible, parted]

/-- Rows of eight and what is left on the last one make up the whole. -/
theorem flatMap_rows {α : Type} (shown : Nat → α) (length count : Nat) :
    (List.range count).flatMap (fun row => (List.range (min 8 (length - 8 * row))).map fun k =>
      shown (8 * row + k)) = (List.range (min (8 * count) length)).map shown := by
  induction count with
  | zero => simp
  | succ count ih =>
    rw [List.range_succ, List.flatMap_append, ih, List.flatMap_singleton]
    rcases Nat.le_total length (8 * count) with done | short
    · -- Nothing is left for this row.
      have none : length - 8 * count = 0 := by omega
      have all : min (8 * (count + 1)) length = min (8 * count) length := by omega
      simp [none, all]
    · have before : min (8 * count) length = 8 * count := by omega
      have after : min (8 * (count + 1)) length = 8 * count + min 8 (length - 8 * count) := by omega
      rw [before, after, List.range_add, List.map_append, List.map_map]
      rfl

/-- The words on all rows are those from the start on, each where it would be without rows. -/
theorem flatMap_wordsOnRow_dump (memory : Memory) (start : Int) (length : Nat) :
    (dumpRows (memory.dump (Word.ofInt start) length)).flatMap wordsOnRow =
      (List.range length).map fun k : Nat =>
        printedWord (memory.read (Word.ofInt (start + k))) := by
  have all : min (8 * (length ⌈/⌉ 8)) length = length := by
    rw [Nat.ceilDiv_eq_add_pred_div]
    omega
  have place (row k : Nat) : Word.ofInt start + BitVec.ofNat 16 (8 * row) + BitVec.ofNat 16 k =
      Word.ofInt (start + (8 * row + k : Nat)) := by
    rw [← Word.ofInt_add_nat, ← Word.ofInt_add_nat, Int.natCast_add, Int.add_assoc]
  have rows := flatMap_rows (fun k : Nat => printedWord (memory.read (Word.ofInt (start + k))))
    length (length ⌈/⌉ 8)
  rw [all] at rows
  rw [dumpRows_dump, List.flatMap_map, ← rows]
  simp only [wordsOnRow_dumpRow, place]

/-- A dump shows exactly the words that it is asked for, wherever it starts and however many they
are. -/
theorem dump_shows_words (memory : Memory) (start : Int) (length : Nat) :
    ShowsWords memory start length (memory.dump (Word.ofInt start) length) := by
  have parted := dumpRows_dump memory (Word.ofInt start) length
  have words := flatMap_wordsOnRow_dump memory start length
  constructor
  case rows => rw [parted, List.length_map, List.length_range]
  case spaced =>
    intro row member
    rw [parted] at member
    obtain ⟨index, -, rfl⟩ := List.mem_map.mp member
    rw [take_dumpRow, wordsOnRow_dumpRow]
    exact toList_dumpRow _ _ _
  case addresses =>
    rw [parted, List.map_map]
    apply List.map_congr_left
    intro row _
    have address : (Word.ofInt start + BitVec.ofNat 16 (8 * row)).toNat =
        ((start + 8 * row) % 65536).toNat := by
      rw [← Word.ofInt_add_nat, ← Int.toNat_natCast (BitVec.toNat _)]
      exact congrArg Int.toNat (Word.value_ofInt _)
    rw [Function.comp_apply, take_dumpRow, printedWord_eq, address]
  case filled =>
    rw [parted, List.map_map]
    apply List.map_congr_left
    intro row within
    have count := Nat.ceilDiv_eq_add_pred_div length 8
    rw [List.mem_range] at within
    rw [Function.comp_apply, wordsOnRow_dumpRow, List.length_map, List.length_range]
    split <;> omega
  case words =>
    rw [words]
    exact List.map_congr_left fun k _ => printedWord_eq _
  case sentinels =>
    intro k within halts
    have zero : memory.read (Word.ofInt (start + k)) = 0 := by
      rw [read, halts]
      rfl
    rw [words, List.getElem?_map, List.getElem?_range within, Option.map_some, zero,
      printedWord_eq]
    exact congrArg some (Hexadecimal.lowDigits_zero 4)

end WordMachine.Memory
