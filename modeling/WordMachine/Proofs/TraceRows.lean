import Mathlib
import WordMachine.Machine.Trace
import WordMachine.Proofs.Text.Hexadecimal

/-! The rows of a trace. In whatever state the machine is, its row stands under the header bar for
bar, and the registers and the instruction about to run are read back from the columns. -/
namespace WordMachine

namespace Text

theorem intercalate_append (gap : List Char) (parts others : List (List Char))
    (nonempty : parts ≠ []) (follows : others ≠ []) :
    gap.intercalate (parts ++ others) = gap.intercalate parts ++ gap ++ gap.intercalate others := by
  induction parts with
  | nil => contradiction
  | cons first rest ih =>
    cases rest with
    | nil =>
      rw [List.singleton_append, List.intercalate_cons_of_ne_nil follows,
        List.intercalate_singleton]
    | cons second rest =>
      rw [List.cons_append, List.intercalate_cons_of_ne_nil (by simp),
        List.intercalate_cons_of_ne_nil (by simp), ih (by simp)]
      simp only [List.append_assoc]

theorem map_intercalate {α : Type} (change : Char → α) (gap : List Char)
    (parts : List (List Char)) :
    (gap.intercalate parts).map change =
      (gap.map change).intercalate (parts.map (List.map change)) := by
  induction parts with
  | nil => rfl
  | cons first rest ih =>
    cases rest with
    | nil => simp only [List.map_cons, List.map_nil, List.intercalate_singleton]
    | cons second rest =>
      have follows : (second :: rest).map (List.map change) ≠ [] := List.cons_ne_nil _ _
      rw [List.intercalate_cons_of_ne_nil (List.cons_ne_nil second rest), List.map_append,
        List.map_append, ih]
      exact (List.intercalate_cons_of_ne_nil follows).symm

end Text

namespace Trace

open WordMachine.Text

/-! ### Reading a line -/

/-- The columns of a line, which stand between its bars. -/
def columns (line : String) : List (List Char) :=
  (line.toList.splitOn '|').filter fun column => !column.isEmpty

/-- A column shows a number by digits of a fixed width, between two spaces. -/
inductive Shows (width : Nat) : List Char → Nat → Prop
  | digits {digits : List Char} {n : Nat} (wide : digits.length = width)
      (number : Hexadecimal.read? digits = some n) : Shows width (' ' :: digits ++ [' ']) n

/-- A line is as long as another one and has its bars in the same places. -/
structure Aligned (line other : String) : Prop where
  length : line.length = other.length
  bars : ∀ place : Nat, line.toList[place]? = some '|' ↔ other.toList[place]? = some '|'

/-- The numbers in the first twelve columns: the control state and the general registers. -/
def numbers (registers : Registers) : List Nat :=
  [registers.pc.toNat, registers.sp.toNat, registers.overflow.toNat, registers.skip.toNat] ++
    Register.all.toList.map fun register => (registers.read register).toNat

/-- The numbers in the last three columns, when an instruction is about to run. -/
def fields (word : Word) : List Nat :=
  let instruction := Instruction.ofWord word
  [instruction.opcode.toNat, instruction.a.toNat, instruction.b.toNat]

/-- A line shows a core: its registers, and the fields of the instruction about to run or, in their
place, that there is none. -/
structure ShowsCore (line : String) (core : Core) : Prop where
  registers : List.Forall₂ (Shows 4) ((columns line).take 12) (numbers core.registers)
  fields : ∀ word, core.memory.fetch core.registers.pc = .word word →
    List.Forall₂ (Shows 2) ((columns line).drop 12) (fields word)
  halts : (columns line).drop 12 = List.replicate 3 [' ', '-', '-', ' '] ↔
    core.memory.fetch core.registers.pc = .sentinel

/-! ### Columns -/

theorem shows_column (width n : Nat) (positive : 0 < width) (fits : n < 16 ^ width) :
    Shows width (column width n).toList n := by
  have spaced : (column width n).toList = ' ' :: (Hexadecimal.padded width n).toList ++ [' '] := by
    simp [column]
  rw [spaced]
  exact .digits (Hexadecimal.length_padded width n positive fits) (Hexadecimal.read?_padded width n)

theorem Shows.length {width n : Nat} {column : List Char} (shows : Shows width column n) :
    column.length = width + 2 := by
  cases shows with
  | digits wide number => simp [wide]

theorem Shows.noBar {width n : Nat} {column : List Char} (shows : Shows width column n) :
    '|' ∉ column := by
  cases shows with
  | @digits digits _ wide number =>
    have noDigit : '|' ∉ digits := by
      intro member
      have digit := Hexadecimal.isSome_digitValue?_of_read? digits n number '|' member
      exact absurd digit (by decide)
    simp [noDigit]

theorem shows_unique (width : Nat) : Relator.RightUnique (Shows width) := by
  rintro _ n m ⟨wide, number⟩ other
  generalize same : ' ' :: _ ++ [' '] = column at other
  cases other with
  | digits wider another =>
    -- A column between two spaces is the same one in both readings.
    obtain rfl := List.append_cancel_right (List.cons.inj same).2
    exact Option.some.inj (number.symm.trans another)

/-! ### Lines -/

/-- A group of columns: so many, each so wide and without a bar. -/
structure Group (count width : Nat) (columns : List String) : Prop where
  count : columns.length = count
  column : ∀ column ∈ columns, column.toList.length = width ∧ '|' ∉ column.toList

/-- Where the bars of a text are. -/
def bars (text : List Char) : List Bool := text.map (· == '|')

theorem bars_of_noBar (text : List Char) (noBar : '|' ∉ text) :
    bars text = List.replicate text.length false := by
  have none (c : Char) (member : c ∈ text) : (c == '|') = false := by
    rw [beq_eq_false_iff_ne]
    rintro rfl
    exact noBar member
  rw [bars, List.map_congr_left none, List.map_const']

theorem aligned_of_bars (line other : String) (same : bars line.toList = bars other.toList) :
    Aligned line other := by
  constructor
  · have lengths := congrArg List.length same
    simpa only [bars, List.length_map, String.length_toList] using lengths
  · intro place
    have own := congrArg (fun bars => bars[place]? = some true) same
    simpa [bars] using own

theorem Group.ne_nil {count width : Nat} {columns : List String}
    (group : Group (count + 1) width columns) : columns ≠ [] := by
  rintro rfl
  cases group.count

theorem Group.bars {count width : Nat} {columns : List String} (group : Group count width columns) :
    (columns.map String.toList).map bars = List.replicate count (List.replicate width false) := by
  rw [List.map_map, List.eq_replicate_iff, List.length_map]
  refine ⟨group.count, List.forall_mem_map.mpr ?_⟩
  intro column member
  obtain ⟨wide, noBar⟩ := group.column column member
  rw [Function.comp_apply, bars_of_noBar _ noBar, wide]

theorem Group.filter {count width : Nat} {columns : List String}
    (group : Group count (width + 1) columns) :
    (columns.map String.toList).filter (fun column => !column.isEmpty) =
      columns.map String.toList := by
  rw [List.filter_eq_self]
  intro _ shown
  obtain ⟨column, member, rfl⟩ := List.mem_map.mp shown
  have wide := (group.column column member).1
  simp only [Bool.not_eq_true', List.isEmpty_eq_false_iff]
  intro empty
  rw [empty] at wide
  cases wide

/-- A line is parted by single bars, if there is an empty column at either end and two more between
the groups. -/
theorem toList_line (registers fields : List String) (nonempty : registers ≠ [])
    (follows : fields ≠ []) :
    (line registers fields).toList = ['|'].intercalate
      ([[]] ++ registers.map String.toList ++ [[], []] ++ fields.map String.toList ++ [[]]) := by
  rw [intercalate_append _ _ _ (by simp) (by simp), intercalate_append _ _ _ (by simp) (by simpa),
    intercalate_append _ _ _ (by simp) (by simp), intercalate_append _ _ _ (by simp) (by simpa)]
  simp [line, String.toList_intercalate, List.intercalate]

section Groups

variable {count width another narrow : Nat} {registers fields : List String}
  (first : Group (count + 1) (width + 1) registers)
  (last : Group (another + 1) (narrow + 1) fields)
include first last

/-- The columns of a line are those that it was made of. -/
theorem columns_line :
    columns (line registers fields) = registers.map String.toList ++ fields.map String.toList := by
  have noBar : ∀ part ∈ [[]] ++ registers.map String.toList ++ [[], []] ++
      fields.map String.toList ++ [[]], '|' ∉ part := by
    intro part member
    have origin : part = [] ∨ part ∈ registers.map String.toList ∨
        part ∈ fields.map String.toList := by
      simp only [List.mem_append, List.mem_cons, List.not_mem_nil, or_false] at member
      tauto
    rcases origin with rfl | inside | inside
    · exact List.not_mem_nil
    · obtain ⟨column, present, rfl⟩ := List.mem_map.mp inside
      exact (first.column column present).2
    · obtain ⟨column, present, rfl⟩ := List.mem_map.mp inside
      exact (last.column column present).2
  rw [columns, toList_line registers fields first.ne_nil last.ne_nil,
    List.splitOn_intercalate '|' noBar (by simp)]
  -- The empty columns, at the ends and between the groups, are those that are left out.
  simp only [List.filter_append, first.filter, last.filter]
  simp

/-- Where the bars of a line are does not hang on what stands in its columns. -/
theorem bars_line : bars (line registers fields).toList = [true].intercalate
    ([[]] ++ List.replicate (count + 1) (List.replicate (width + 1) false) ++ [[], []] ++
      List.replicate (another + 1) (List.replicate (narrow + 1) false) ++ [[]]) := by
  have parted (parts : List (List Char)) :
      bars (['|'].intercalate parts) = [true].intercalate (parts.map bars) :=
    map_intercalate _ _ _
  rw [toList_line registers fields first.ne_nil last.ne_nil, parted, ← first.bars, ← last.bars]
  simp only [List.map_append]
  rfl

end Groups

/-! ### Header and rows -/

theorem aligned_header (registers fields : List String) (first : Group 12 6 registers)
    (last : Group 3 4 fields) : Aligned (line registers fields) header := by
  have headings : Group 12 6 ((["PC", "SP", "OV", "SKIP"] ++
      Register.all.toList.map fun register => String.singleton register.letter).map (heading 6)) :=
    ⟨rfl, by decide +kernel⟩
  have fieldHeadings : Group 3 4 (["OP", "A", "B"].map (heading 4)) := ⟨rfl, by decide +kernel⟩
  apply aligned_of_bars
  rw [header, bars_line first last, bars_line headings fieldHeadings]

theorem toList_general (registers : Registers) :
    registers.general.toList = Register.all.toList.map registers.read := by
  apply List.ext_getElem
  · simp
  · intro index within _
    rw [Vector.length_toList] at within
    interval_cases index <;> rfl

/-- The columns in which numbers are shown. -/
def numberColumns (width : Nat) (numbers : List Nat) : List String :=
  numbers.map fun n : Nat => column width n

/-- The columns in which a row shows what is in the cell at the program counter. -/
def cellColumns : Cell → List String
  | .sentinel => List.replicate 3 " -- "
  | .word word => numberColumns 2 (fields word)

theorem row_eq (core : Core) :
    row core = line (numberColumns 4 (numbers core.registers))
      (cellColumns (core.memory.fetch core.registers.pc)) := by
  have skip : (if core.registers.skip then 1 else 0 : Int) = core.registers.skip.toNat := by
    cases core.registers.skip <;> rfl
  rw [row]
  simp only [skip, toList_general]
  -- What is left differs in the names of its parts only.
  rfl

section Numbers

variable (width : Nat) (positive : 0 < width) (numbers : List Nat)
  (fit : ∀ n ∈ numbers, n < 16 ^ width)
include positive fit

theorem shows_numbers :
    List.Forall₂ (Shows width) ((numberColumns width numbers).map String.toList) numbers := by
  rw [numberColumns, List.map_map, List.forall₂_map_left_iff, List.forall₂_same]
  intro n member
  exact shows_column width n positive (fit n member)

theorem group_numbers : Group numbers.length (width + 2) (numberColumns width numbers) := by
  refine ⟨List.length_map _, ?_⟩
  intro _ member
  obtain ⟨n, inside, rfl⟩ := List.mem_map.mp member
  have shown := shows_column width n positive (fit n inside)
  exact ⟨shown.length, shown.noBar⟩

end Numbers

theorem numbers_lt (registers : Registers) : ∀ n ∈ numbers registers, n < 16 ^ 4 := by
  have word (w : Word) : w.toNat < 16 ^ 4 := w.isLt
  have flag : registers.skip.toNat < 16 ^ 4 := (Bool.toNat_lt _).trans (by decide)
  intro n member
  rcases List.mem_append.mp member with control | general
  · simp only [List.mem_cons, List.not_mem_nil, or_false] at control
    rcases control with rfl | rfl | rfl | rfl
    · exact word _
    · exact word _
    · exact word _
    · exact flag
  · obtain ⟨register, -, rfl⟩ := List.mem_map.mp general
    exact word _

theorem fields_lt (word : Word) : ∀ n ∈ fields word, n < 16 ^ 2 := by
  simp only [fields, List.forall_mem_cons]
  refine ⟨?_, ?_, ?_, nofun⟩
  · omega
  · omega
  · omega

theorem group_registers (registers : Registers) :
    Group 12 6 (numberColumns 4 (numbers registers)) :=
  group_numbers 4 (by decide) (numbers registers) (numbers_lt registers)

theorem group_cellColumns (cell : Cell) : Group 3 4 (cellColumns cell) := by
  cases cell with
  | sentinel => exact ⟨rfl, by decide +kernel⟩
  | word word => exact group_numbers 2 (by decide) (fields word) (fields_lt word)

theorem columns_row (core : Core) : columns (row core) =
    (numberColumns 4 (numbers core.registers)).map String.toList ++
      (cellColumns (core.memory.fetch core.registers.pc)).map String.toList := by
  rw [row_eq, columns_line (group_registers _) (group_cellColumns _)]

theorem not_shows_dashes (n : Nat) : ¬Shows 2 [' ', '-', '-', ' '] n := by
  intro shows
  generalize dashes : [' ', '-', '-', ' '] = column at shows
  cases shows with
  | @digits digits _ wide number =>
    have spaced : ['-', '-'] ++ [' '] = digits ++ [' '] := (List.cons.inj dashes).2
    rw [← List.append_cancel_right spaced] at number
    cases number

theorem showsCore_row (core : Core) : ShowsCore (row core) core := by
  have twelve : ((numberColumns 4 (numbers core.registers)).map String.toList).length = 12 := by
    rw [List.length_map, (group_registers core.registers).count]
  constructor
  case registers =>
    rw [columns_row, List.take_left' twelve]
    exact shows_numbers 4 (by decide) _ (numbers_lt core.registers)
  case fields =>
    intro word fetched
    rw [columns_row, List.drop_left' twelve, fetched]
    exact shows_numbers 2 (by decide) _ (fields_lt word)
  case halts =>
    rw [columns_row, List.drop_left' twelve]
    cases core.memory.fetch core.registers.pc with
    | sentinel => simp [cellColumns]
    | word word =>
      -- Fields are digits, and dashes are none.
      refine iff_of_false ?_ nofun
      intro dashed
      have shown := shows_numbers 2 (by decide) _ (fields_lt word)
      rw [cellColumns] at dashed
      rw [dashed] at shown
      cases shown with
      | cons first _ => exact not_shows_dashes _ first

/-! ### Reading back -/

theorem numbers_injective : Function.Injective numbers := by
  intro registers other same
  obtain ⟨control, general⟩ := List.append_inj same rfl
  simp only [List.cons.injEq, BitVec.toNat_inj] at control
  obtain ⟨pc, sp, overflow, flag, -⟩ := control
  have skip : registers.skip = other.skip := by
    revert flag
    cases registers.skip <;> cases other.skip <;> simp
  have words : registers.general = other.general := by
    apply Vector.toList_inj.mp
    apply List.map_injective_iff.mpr BitVec.toNat_injective
    rw [toList_general, toList_general, List.map_map, List.map_map]
    exact general
  cases registers
  cases other
  exact (Registers.mk.injEq ..).mpr ⟨words, pc, sp, overflow, skip⟩

theorem fields_injective : Function.Injective fields := by
  intro word other same
  simp only [fields, List.cons.injEq, BitVec.toNat_inj] at same
  obtain ⟨opcode, a, b, -⟩ := same
  have parts : Instruction.ofWord word = Instruction.ofWord other :=
    (Instruction.mk.injEq ..).mpr ⟨opcode, a, b⟩
  rw [← Instruction.toWord_ofWord word, parts, Instruction.toWord_ofWord]

/-- A row holds just the registers and what is in the cell at the program counter. -/
theorem row_eq_row_iff (core other : Core) :
    row core = row other ↔ core.registers = other.registers ∧
      core.memory.fetch core.registers.pc = other.memory.fetch other.registers.pc := by
  constructor
  · intro same
    have own := showsCore_row core
    have others := showsCore_row other
    -- Both cores are read from one row.
    rw [← same] at others
    have registers := numbers_injective
      ((shows_unique 4).forall₂ own.registers others.registers)
    refine ⟨registers, ?_⟩
    cases fetched : core.memory.fetch core.registers.pc with
    | sentinel => exact (others.halts.mp (own.halts.mpr fetched)).symm
    | word word =>
      cases fetches : other.memory.fetch other.registers.pc with
      | sentinel =>
        have halts := own.halts.mp (others.halts.mpr fetches)
        rw [fetched] at halts
        cases halts
      | word another =>
        have shown := (shows_unique 2).forall₂ (own.fields word fetched)
          (others.fields another fetches)
        rw [fields_injective shown]
  · rintro ⟨registers, cell⟩
    rw [row_eq, row_eq, cell, registers]

/-- Every row is aligned with the header and shows its core, so that two cores have the same row
only if they have the same registers and are about to do the same. -/
theorem row_readable (core other : Core) :
    Aligned (row core) header ∧ ShowsCore (row core) core ∧
      (row core = row other ↔ core.registers = other.registers ∧
        core.memory.fetch core.registers.pc = other.memory.fetch other.registers.pc) := by
  refine ⟨?_, showsCore_row core, row_eq_row_iff core other⟩
  rw [row_eq]
  exact aligned_header _ _ (group_registers _) (group_cellColumns _)

end Trace

end WordMachine
