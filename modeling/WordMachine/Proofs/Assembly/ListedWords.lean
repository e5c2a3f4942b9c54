import WordMachine.Proofs.Assembly.Joining
import WordMachine.Proofs.Assembly.Outcomes
import WordMachine.Proofs.Disassembly.Lines
import WordMachine.Proofs.Disassembly.Statements

/-! What a call leaves behind, and what the listing shows of it. The words on the rows of a listing
that bear an address are those that are kept, after every call and wherever it failed; a call that
fails keeps what it had made before the line at fault. -/
namespace WordMachine.Assembly

open WordMachine.Text
open Disassembly (printedWord solid_printedWord toList_filled_wordsText words_filled_wordsText
  mapM_read?_printedWord)

namespace Listing

/-! ### Reading a listing -/

def bearsAddress (row : List Char) : Bool := row.head? == some '$'

/-- The rows of a listing that bear an address. -/
def addressRows (listing : List Char) : List (List Char) :=
  (listing.splitOn '\n').filter bearsAddress

/-- The column of a row that shows words, which stands behind the address. -/
def wordsColumn (row : List Char) : List Char := ((row.dropWhile (· != ' ')).drop 2).take 14

/-- The words that a listing shows on the rows that bear an address, in order. -/
def printed? (listing : String) : Option (List Nat) :=
  ((addressRows listing.toList).flatMap fun row => words (wordsColumn row)).mapM Hexadecimal.read?

/-- What a listing needs to show every word: lines that take one row each and can be told by their
numbers, of which the placed ones are a part in order, with no more words than the column holds. -/
structure Listable (lines : List Line) (placed : List Placed) : Prop where
  numbered : lines.Pairwise fun line other => line.number ≠ other.number
  unbroken : ∀ line ∈ lines, '\n' ∉ line.text
  among : (placed.map (·.line)).Sublist lines
  short : ∀ one ∈ placed, ∃ first following, one.words = first :: following ∧ following.length ≤ 2

/-! ### Rows -/

/-- The columns of a placed row. -/
theorem toList_placedRow (placed : Placed) :
    (placedRow placed).toList =
      ('$' :: (Hexadecimal.padded 4 placed.address).toList) ++
        ([' ', ' '] ++
          ((filled Disassembly.wordColumn (Disassembly.wordsText placed.words)).toList ++
            ([' ', ' '] ++ trim placed.line.text))) := by
  simp [placedRow, Disassembly.wordsText, Disassembly.wordColumn]

/-- Three words fill the column that shows them, and no instruction has more. -/
theorem words_wordsColumn (placed : Placed) (first : Word) (following : List Word)
    (spelled : placed.words = first :: following) (short : following.length ≤ 2) :
    words (wordsColumn (placedRow placed).toList) = placed.words.map printedWord := by
  have address : ∀ c ∈ '$' :: (Hexadecimal.padded 4 placed.address).toList, (c != ' ') = true := by
    refine List.forall_mem_cons.mpr ⟨by decide, fun c member => ?_⟩
    have visible := Hexadecimal.not_isBlank_of_mem_padded 4 placed.address c member
    rw [bne_iff_ne]
    rintro rfl
    cases visible
  have wide := Disassembly.length_filled_wordsText first following short
  have behind (rest : List Char) :
      (([' ', ' '] ++ rest).dropWhile (· != ' ')).drop 2 = rest := rfl
  rw [toList_placedRow, wordsColumn, List.dropWhile_append_of_pos address, behind, spelled,
    ← words_filled_wordsText]
  exact congrArg words (List.take_left' wide)

theorem plainRow?_cases (line : Line) :
    plainRow? line = none ∨
      ∃ row, plainRow? line = some row ∧
        row.toList = List.replicate 23 ' ' ++ trim line.text := by
  unfold plainRow?
  simp only
  split
  · exact .inl rfl
  · exact .inr ⟨_, rfl, by simp [spaces]⟩

/-- Only placed lines have rows that bear an address. -/
theorem addressed_of_rows (lines : List Line) (placed : List Placed)
    (numbered : lines.Pairwise fun line other => line.number ≠ other.number)
    (among : (placed.map (·.line)).Sublist lines) :
    ((rows lines placed).map String.toList).filter bearsAddress =
      placed.map fun one => (placedRow one).toList := by
  have plain (line : Line) : ((plainRow? line).toList.map String.toList).filter bearsAddress =
      [] := by
    rcases plainRow?_cases line with none | ⟨row, some, text⟩
    · rw [none]
      rfl
    · rw [some, Option.toList_some, List.map_singleton, text]
      rfl
  have marked (one : Placed) : bearsAddress (placedRow one).toList = true := by
    rw [toList_placedRow]
    rfl
  induction lines generalizing placed with
  | nil =>
    rw [List.map_eq_nil_iff.mp (List.sublist_nil.mp among)]
    rfl
  | cons line rest ih =>
    obtain ⟨apart, numbered⟩ := List.pairwise_cons.mp numbered
    cases placed with
    | nil =>
      rw [rows, List.map_append, List.filter_append, plain, List.nil_append]
      exact ih [] numbered (List.nil_sublist _)
    | cons one others =>
      rw [List.map_cons] at among
      rw [rows]
      split
      next same =>
        have following : (others.map (·.line)).Sublist rest := by
          cases among with
          -- A placed line further on would have the number of this one.
          | cons _ later => exact absurd same.symm (apart _ (later.mem List.mem_cons_self))
          | cons_cons _ following => exact following
        rw [List.map_cons, List.filter_cons_of_pos (marked one), ih others numbered following,
          List.map_cons]
      next other =>
        have later : ((one :: others).map (·.line)).Sublist rest := by
          cases among with
          | cons _ later => exact later
          | cons_cons _ _ => exact absurd rfl other
        rw [List.map_append, List.filter_append, plain, List.nil_append]
        exact ih (one :: others) numbered later

private theorem row_cases (lines : List Line) (placed : List Placed) (row : String)
    (member : row ∈ rows lines placed) :
    (∃ line ∈ lines, plainRow? line = some row) ∨ ∃ one ∈ placed, row = placedRow one := by
  fun_induction rows lines placed with
  | case1 => cases member
  | case2 line rest ih =>
    rcases List.mem_append.mp member with own | later
    · exact .inl ⟨line, List.mem_cons_self, Option.mem_toList.mp own⟩
    · rcases ih later with ⟨other, inside, plain⟩ | ⟨one, ⟨⟩, -⟩
      exact .inl ⟨other, List.mem_cons_of_mem _ inside, plain⟩
  | case3 line rest one others same ih =>
    rcases List.mem_cons.mp member with rfl | later
    · exact .inr ⟨one, List.mem_cons_self, rfl⟩
    · rcases ih later with ⟨other, inside, plain⟩ | ⟨other, inside, shown⟩
      · exact .inl ⟨other, List.mem_cons_of_mem _ inside, plain⟩
      · exact .inr ⟨other, List.mem_cons_of_mem _ inside, shown⟩
  | case4 line rest one others different ih =>
    rcases List.mem_append.mp member with own | later
    · exact .inl ⟨line, List.mem_cons_self, Option.mem_toList.mp own⟩
    · rcases ih later with ⟨other, inside, plain⟩ | shown
      · exact .inl ⟨other, List.mem_cons_of_mem _ inside, plain⟩
      · exact .inr shown

private theorem newline_notMem_placedRow (placed : Placed) (unbroken : '\n' ∉ placed.line.text) :
    '\n' ∉ (placedRow placed).toList := by
  have solid (text : List Char) (solid : Solid text) : '\n' ∉ text := fun member => by
    have visible := solid '\n' member
    cases visible
  have address := solid _ (Hexadecimal.not_isBlank_of_mem_padded 4 placed.address)
  have column : '\n' ∉ [' '].intercalate (placed.words.map printedWord) :=
    notMem_intercalate '\n' [' '] _ (by decide)
      (List.forall_mem_map.mpr fun word _ => solid _ (solid_printedWord word).2)
  have text : '\n' ∉ trim placed.line.text := mt (mem_of_mem_trim _ _) unbroken
  rw [toList_placedRow, toList_filled_wordsText]
  simp [address, column, text]

/-- Every line has a row of its own. -/
private theorem newline_notMem_row (lines : List Line) (placed : List Placed)
    (listable : Listable lines placed) (row : String)
    (member : row ∈ heading ++ rows lines placed) : '\n' ∉ row.toList := by
  rcases List.mem_append.mp member with head | member
  · have all : ∀ row ∈ heading, '\n' ∉ row.toList := by decide +kernel
    exact all row head
  · rcases row_cases lines placed row member with ⟨line, inside, plain⟩ | ⟨one, inside, rfl⟩
    · have text : '\n' ∉ trim line.text := mt (mem_of_mem_trim _ _) (listable.unbroken line inside)
      rcases plainRow?_cases line with none | ⟨_, some, shown⟩
      · rw [none] at plain
        cases plain
      · cases plain.symm.trans some
        rw [shown]
        simp [text]
    · exact newline_notMem_placedRow one (listable.unbroken one.line
        (listable.among.mem (List.mem_map_of_mem inside)))

/-- A listing is parted into its rows again at line feeds. -/
theorem splitOn_text (lines : List Line) (placed : List Placed)
    (listable : Listable lines placed) :
    (text lines placed).toList.splitOn '\n' =
      heading.map String.toList ++ (rows lines placed).map String.toList := by
  rw [text, String.toList_intercalate, ← List.map_append]
  refine List.splitOn_intercalate '\n' ?_ (by simp [heading])
  exact List.forall_mem_map.mpr (newline_notMem_row lines placed listable)

/-- The words that a listing shows are those of the placed lines. -/
theorem printed?_text (lines : List Line) (placed : List Placed)
    (listable : Listable lines placed) :
    printed? (text lines placed) = some ((wordsOf placed).map (·.toNat)) := by
  have headless : (heading.map String.toList).filter bearsAddress = [] := by decide +kernel
  have shown : ∀ one ∈ placed,
      words (wordsColumn (placedRow one).toList) = one.words.map printedWord := by
    intro one member
    obtain ⟨first, following, spelled, short⟩ := listable.short one member
    exact words_wordsColumn one first following spelled short
  have column : (addressRows (text lines placed).toList).flatMap
      (fun row => words (wordsColumn row)) = (wordsOf placed).map printedWord := by
    rw [addressRows, splitOn_text lines placed listable, List.filter_append, headless,
      List.nil_append, addressed_of_rows lines placed listable.numbered listable.among,
      List.flatMap_map, List.flatMap_congr shown, wordsOf, List.map_flatMap]
  rw [printed?, column, mapM_read?_printedWord]

end Listing

open Listing

/-! ### What is kept -/

private theorem listable_of_parse (source : List Char) (lines : List Line)
    (read : parse source = .ok lines) : Listable lines [] := by
  obtain ⟨numbers, texts⟩ := place_of_parseLines 1 _ lines read
  refine ⟨?_, fun line member => ?_, List.nil_sublist _, nofun⟩
  · have distinct : (lines.map (·.number)).Nodup := numbers ▸ List.nodup_range'
    exact List.pairwise_map.mp distinct
  · refine notMem_of_mem_splitOn '\n' source line.text ?_
    rw [← Text.lines, ← texts]
    exact List.mem_map_of_mem member

theorem short_of_encode (labels : Labels) (statement : Statement) (words : List Word)
    (encoded : statement.encode labels = .ok words) :
    ∃ first following, words = first :: following ∧ following.length ≤ 2 := by
  obtain ⟨instruction, operation, parts, -, -, operands, modes, rfl⟩ :=
    encode_ok labels statement words encoded
  refine ⟨_, _, rfl, ?_⟩
  rw [(length_parts labels _ parts operands).2, ← modes]
  exact Disassembly.sum_nextWords_le instruction

/-- The second pass places some of the lines, in order. -/
theorem placed_of_emitFrom (labels : Labels) (address : Nat) (lines : List Line) :
    ((emitFrom labels address lines).placed.map (·.line)).Sublist lines ∧
      ∀ one ∈ (emitFrom labels address lines).placed,
        ∃ first following, one.words = first :: following ∧ following.length ≤ 2 := by
  induction lines generalizing address with
  | nil => exact ⟨List.nil_sublist _, List.forall_mem_nil _⟩
  | cons line rest ih =>
    rw [emitFrom]
    cases line.statement? with
    | none =>
      obtain ⟨among, short⟩ := ih address
      exact ⟨among.cons line, short⟩
    | some statement =>
      cases encoded : statement.encode labels with
      | error cause =>
        simp only [encoded]
        exact ⟨List.nil_sublist _, List.forall_mem_nil _⟩
      | ok words =>
        simp only [encoded]
        obtain ⟨among, short⟩ := ih (address + words.length)
        exact ⟨among.cons_cons line, List.forall_mem_cons.mpr
          ⟨short_of_encode labels statement words encoded, short⟩⟩

theorem listable_of_emit (source : List Char) (lines : List Line) (labels : Labels)
    (read : parse source = .ok lines) : Listable lines (emit labels lines).placed := by
  obtain ⟨numbered, unbroken, -, -⟩ := listable_of_parse source lines read
  obtain ⟨among, short⟩ := placed_of_emitFrom labels 0 lines
  exact ⟨numbered, unbroken, among, short⟩

/-- After every call the listing has what it needs, also where a source that cannot be read has left
the lines of the one before. -/
theorem listable_of_assemble (session : Session) (source : List Char)
    (listable : Listable session.lines session.placed) :
    Listable (session.assemble source).2.lines (session.assemble source).2.placed := by
  have outcome := session.outcome source
  generalize (session.assemble source).1 = answer, (session.assemble source).2 = after at outcome ⊢
  cases outcome with
  -- The lines are those of an earlier source, of which no line is placed any more.
  | unread _ => exact ⟨listable.numbered, listable.unbroken, List.nil_sublist _, nofun⟩
  | mislabelled read _ => exact listable_of_parse source _ read
  | unencoded read _ _ => exact listable_of_emit source _ _ read
  | assembled read _ _ => exact listable_of_emit source _ _ read

theorem listable_of_assembleAll (session : Session) (sources : List (List Char))
    (listable : Listable session.lines session.placed) :
    Listable (session.assembleAll sources).lines (session.assembleAll sources).placed := by
  induction sources generalizing session with
  | nil => exact listable
  | cons source rest ih => exact ih _ (listable_of_assemble session source listable)

/-- What a call leaves behind, by where it ended. -/
inductive Desk.Leaves (source : List Char) (after : Desk) : Except Error Program → Prop
  | unread {error : Error} (unread : parse source = .error error) (bare : after.words = []) :
      Leaves source after (.error error)
  | mislabelled {lines : List Line} {error : Error} (read : parse source = .ok lines)
      (found : (scan lines).error? = some error) (bare : after.words = []) :
      Leaves source after (.error error)
  /-- All labels are declared, and the statements in front of the one at fault are encoded. -/
  | unencoded {lines front : List Line} {line : Line} {cause : Cause} {blocks : List (List Word)}
      (read : parse source = .ok lines) (scanned : (scan lines).error? = none)
      (labels : after.labels = declared 0 lines)
      (stuck : StuckAt after.labels lines front line cause)
      (encoded : List.Forall₂ (fun statement block => statement.encode after.labels = .ok block)
        (statements front) blocks)
      (words : after.words = blocks.flatten) (counted : after.counter = after.words.length) :
      Leaves source after (.error ⟨cause, line.number, line.text⟩)
  | assembled {program : Program} (labels : after.labels = program.labels)
      (counted : after.counter = after.words.length) : Leaves source after (.ok program)

private theorem leaves_of_assemble (session : Session) (source : List Char) :
    Desk.Leaves source (session.assemble source).2.desk (session.assemble source).1 := by
  have outcome := session.outcome source
  generalize (session.assemble source).1 = answer, (session.assemble source).2 = after at outcome ⊢
  cases outcome with
  | unread unread => exact .unread unread rfl
  | mislabelled read found => exact .mislabelled read found rfl
  | @unencoded lines error read scanned found =>
    obtain ⟨front, line, cause, stuck, rfl⟩ := (emitFrom_error_iff _ 0 lines error).mp found
    obtain ⟨blocks, encoded⟩ := encodings_of_encodable _ front stuck.before
    have kept : wordsOf (emit (scan lines).labels lines).placed = blocks.flatten := by
      rw [emit, emitFrom_of_stuckAt _ 0 lines front line cause stuck,
        wordsOf_emitFrom _ 0 front stuck.before, (code_of_encodings _ front blocks encoded).2]
    exact .unencoded read scanned (declared_of_scan lines scanned) stuck encoded kept rfl
  | assembled _ _ _ => exact .assembled rfl rfl

/-- After every call, whatever it was called with and wherever that failed, the listing shows the
words that are kept. A call that fails in lines or labels keeps none; one that fails at a statement
keeps all labels and the words of the statements in front of it, and has counted those. -/
theorem Desk.assemble_leaves (history : List (List Char)) (source : List Char) :
    let before := Desk.initial.assembleAll history
    let after := (before.assemble source).2
    printed? after.listing = some (after.words.map (·.toNat)) ∧
      Leaves source after (before.assemble source).1 := by
  intro before after
  have reached : before.assemble source = _ := Desk.assemble_reached history source
  have listable := listable_of_assemble _ source
    (listable_of_assembleAll Session.initial history ⟨.nil, nofun, .slnil, nofun⟩)
  simp only [after, reached]
  exact ⟨printed?_text _ _ listable, leaves_of_assemble _ source⟩

/-- A statement at fault behind one that is encoded and before a label that is declared. -/
theorem Desk.assemble_leaves_before_fault :
    ((Desk.initial.assembleAll ["SET A,, B".toList]).assemble
        "SET A, [e]\nJSR\n:e".toList).2.labels = [(['e'], 3)] ∧
      ((Desk.initial.assembleAll ["SET A,, B".toList]).assemble
        "SET A, [e]\nJSR\n:e".toList).2.words = [0x7801, 3] ∧
      printed? ((Desk.initial.assembleAll ["SET A,, B".toList]).assemble
        "SET A, [e]\nJSR\n:e".toList).2.listing = some [0x7801, 3] ∧
      Desk.Leaves "SET A, [e]\nJSR\n:e".toList
        ((Desk.initial.assembleAll ["SET A,, B".toList]).assemble
          "SET A, [e]\nJSR\n:e".toList).2
        (.error ⟨.operandCount .jsr 0, 2, "JSR".toList⟩) := by
  obtain ⟨shown, left⟩ := Desk.assemble_leaves ["SET A,, B".toList] "SET A, [e]\nJSR\n:e".toList
  have kept : ((Desk.initial.assembleAll ["SET A,, B".toList]).assemble
      "SET A, [e]\nJSR\n:e".toList).2.words = [0x7801, 3] := by decide +kernel
  have answer : ((Desk.initial.assembleAll ["SET A,, B".toList]).assemble
      "SET A, [e]\nJSR\n:e".toList).1 = .error ⟨.operandCount .jsr 0, 2, "JSR".toList⟩ := by
    decide +kernel
  rw [kept] at shown
  rw [answer] at left
  exact ⟨by decide +kernel, kept, shown, left⟩

/-- A source that cannot be read leaves the lines of the one before, and no words. -/
example : let after := Desk.initial.assembleAll [":s SET A, [s]".toList, "SET A,, B".toList]
    after.lines.length = 1 ∧ after.counter = 2 ∧ after.words = [] ∧
      printed? after.listing = some [] := by
  decide +kernel

end WordMachine.Assembly
