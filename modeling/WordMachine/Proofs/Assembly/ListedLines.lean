import WordMachine.Proofs.Assembly.ListedWords

/-! What the listing of an assembled source shows: a row for every line that is not blank, in order,
with the line at its end. The rows of instructions, and no others, bear an address and words, which
are those of the instruction in the program. -/
namespace WordMachine.Assembly

open WordMachine.Text
open Disassembly (mapM_read?_printedWord)

namespace Listing

/-- The address of a row that bears one, which ends at the next space. -/
def addressDigits (row : List Char) : List Char := (row.drop 1).takeWhile (· != ' ')

/-- What a row shows of a line behind others, for the labels of the whole source. -/
inductive Shows (labels : Labels) (front : List Line) (line : Line) (row : List Char) : Prop
  | plain (bare : line.statement? = none) (unmarked : bearsAddress row = false)
      (wordless : words (wordsColumn row) = []) (ends : trim line.text <:+ row)
  /-- An instruction stands behind all words of the lines in front. -/
  | instruction {statement : Statement} {encoding : List Word}
      (holds : line.statement? = some statement)
      (encoded : statement.encode labels = .ok encoding) (short : encoding.length ≤ 3)
      (marked : bearsAddress row = true) (wide : 4 ≤ (addressDigits row).length)
      (address : Hexadecimal.read? (addressDigits row) = some (code labels front).length)
      (shown : (words (wordsColumn row)).mapM Hexadecimal.read? = some (encoding.map (·.toNat)))
      (ends : trim line.text <:+ row)

/-- The rows of lines behind others: one for each line that is not blank. -/
inductive ShowsAll (labels : Labels) : List Line → List Line → List (List Char) → Prop
  | nil {front : List Line} : ShowsAll labels front [] []
  | blank {front rest : List Line} {line : Line} {rows : List (List Char)}
      (blank : Blank line.text) (bare : line.statement? = none)
      (others : ShowsAll labels (front ++ [line]) rest rows) :
      ShowsAll labels front (line :: rest) rows
  | visible {front rest : List Line} {line : Line} {row : List Char} {rows : List (List Char)}
      (visible : ¬Blank line.text) (shows : Shows labels front line row)
      (others : ShowsAll labels (front ++ [line]) rest rows) :
      ShowsAll labels front (line :: rest) (row :: rows)

/-! ### Rows -/

theorem shows_placedRow (labels : Labels) (front : List Line) (line : Line) (statement : Statement)
    (encoding : List Word) (holds : line.statement? = some statement)
    (encoded : statement.encode labels = .ok encoding) :
    Shows labels front line (placedRow ⟨line, (code labels front).length, encoding⟩).toList := by
  generalize counted : (code labels front).length = address
  obtain ⟨first, following, rfl, short⟩ := short_of_encode labels statement encoding encoded
  have columns := toList_placedRow ⟨line, address, first :: following⟩
  have words := words_wordsColumn ⟨line, address, first :: following⟩ first following rfl short
  have digits : addressDigits (placedRow ⟨line, address, first :: following⟩).toList =
      (Hexadecimal.padded 4 address).toList := by
    have unbroken : ∀ c ∈ (Hexadecimal.padded 4 address).toList, (c != ' ') = true := by
      intro c member
      have visible := Hexadecimal.not_isBlank_of_mem_padded 4 address c member
      rw [bne_iff_ne]
      rintro rfl
      cases visible
    rw [addressDigits, columns, List.cons_append, List.drop_one, List.tail_cons,
      List.takeWhile_append_of_pos unbroken]
    exact List.append_nil _
  refine .instruction holds encoded (Nat.succ_le_succ short) ?_ ?_ ?_ ?_ ?_
  · rw [columns]
    rfl
  · rw [digits]
    exact Hexadecimal.le_length_padded 4 address
  · rw [digits, counted]
    exact Hexadecimal.read?_padded 4 address
  · rw [words, mapM_read?_printedWord]
  · rw [columns, ← List.append_assoc, ← List.append_assoc, ← List.append_assoc]
    exact List.suffix_append _ _

theorem shows_plainRow (labels : Labels) (front : List Line) (line : Line) (row : String)
    (bare : line.statement? = none) (plain : plainRow? line = some row) :
    Shows labels front line row.toList := by
  rcases plainRow?_cases line with none | ⟨_, some, text⟩
  · rw [none] at plain
    cases plain
  · cases plain.symm.trans some
    rw [text]
    refine .plain bare rfl ?_ (List.suffix_append _ _)
    -- The column of words lies within the spaces in front of the text.
    have column : wordsColumn (List.replicate 23 ' ' ++ trim line.text) =
        List.replicate 14 ' ' := rfl
    rw [column]
    decide

theorem plainRow?_eq_none_iff (line : Line) : plainRow? line = none ↔ Blank line.text := by
  rw [← trim_eq_nil_iff]
  simp [plainRow?]

/-- A line that is not placed has the row of its text. -/
theorem rows_of_unplaced (line : Line) (rest : List Line) (placed : List Placed)
    (apart : ∀ one ∈ placed, one.line.number ≠ line.number) :
    rows (line :: rest) placed = (plainRow? line).toList ++ rows rest placed := by
  cases placed with
  | nil => rfl
  | cons one others => rw [rows, if_neg (apart one List.mem_cons_self)]

/-- The rows for the lines behind others, with what the second pass has placed of them. -/
theorem showsAll_of_emitFrom (labels : Labels) (front lines : List Line)
    (numbered : lines.Pairwise fun line other => line.number ≠ other.number)
    (encodable : Encodable labels lines)
    (silent : ∀ line ∈ lines, Blank line.text → line.statement? = none) :
    ShowsAll labels front lines
      ((rows lines (emitFrom labels (code labels front).length lines).placed).map
        String.toList) := by
  induction lines generalizing front with
  | nil => exact .nil
  | cons line rest ih =>
    obtain ⟨apart, numbered⟩ := List.pairwise_cons.mp numbered
    obtain ⟨own, encodable⟩ := encodable_cons.mp encodable
    obtain ⟨blankSilent, silent⟩ := List.forall_mem_cons.mp silent
    have others := ih (front ++ [line]) numbered encodable silent
    have onwards : (code labels (front ++ [line])).length =
        (code labels front).length + (line.code labels).length := by
      simp [code]
    rw [onwards] at others
    rw [emitFrom]
    cases holds : line.statement? with
    | none =>
      have unplaced : ∀ one ∈ (emitFrom labels (code labels front).length rest).placed,
          one.line.number ≠ line.number := by
        intro one member
        have among := (placed_of_emitFrom labels (code labels front).length rest).1
        exact (apart one.line (among.mem (List.mem_map_of_mem member))).symm
      have wordless : line.code labels = [] := by rw [Line.code, holds]
      rw [wordless, List.length_nil, Nat.add_zero] at others
      simp only [rows_of_unplaced line rest _ unplaced]
      cases plain : plainRow? line with
      | none => exact .blank ((plainRow?_eq_none_iff line).mp plain) holds others
      | some row =>
        have visible : ¬Blank line.text := by
          rw [← plainRow?_eq_none_iff, plain]
          exact Option.some_ne_none row
        exact .visible visible (shows_plainRow labels front line row holds plain) others
    | some statement =>
      obtain ⟨encoding, encoded⟩ := own statement holds
      rw [line.code_of_encode labels statement encoding holds encoded] at others
      have visible : ¬Blank line.text := by
        intro blank
        rw [blankSilent blank] at holds
        cases holds
      simp only [encoded, rows, if_true, List.map_cons]
      exact .visible visible (shows_placedRow labels front line statement encoding holds encoded)
        others

/-- All rows together show the words of all lines. -/
theorem words_of_showsAll (labels : Labels) (front lines : List Line) (rows : List (List Char))
    (shows : ShowsAll labels front lines rows) :
    (rows.flatMap fun row => words (wordsColumn row)).mapM Hexadecimal.read? =
      some ((code labels lines).map (·.toNat)) := by
  induction shows with
  | nil => rfl
  | @blank _ rest line _ _ bare _ ih =>
    have wordless : line.code labels = [] := by rw [Line.code, bare]
    rw [code_cons, wordless, ih, List.nil_append]
  | @visible _ rest line row rows _ shows _ ih =>
    have own : (words (wordsColumn row)).mapM Hexadecimal.read? =
        some ((line.code labels).map (·.toNat)) := by
      cases shows with
      | plain bare _ wordless _ =>
        rw [wordless, Line.code, bare]
        rfl
      | instruction holds encoded _ _ _ _ shown _ =>
        rw [line.code_of_encode labels _ _ holds encoded, shown]
    rw [List.flatMap_cons, List.mapM_append, own, ih, code_cons, List.map_append]
    rfl

end Listing

open Listing

/-! ### Listings -/

/-- The listing of a source that is assembled has two rows of heading and then one for each line
that is not blank, in order; those of instructions bear the address of the instruction in the
program and its words, and all words together are those of the program. -/
theorem assemble_lists_lines (session : Session) (source : List Char) (program : Program)
    (assembled : (session.assemble source).1 = .ok program) :
    ∃ lines rows, parse source = .ok lines ∧ lines.map (·.text) = Text.lines source ∧
      (session.assemble source).2.listing.toList.splitOn '\n' =
        heading.map String.toList ++ rows ∧
      ShowsAll program.labels [] lines rows ∧
      (rows.flatMap fun row => words (wordsColumn row)).mapM Hexadecimal.read? =
        some (program.words.map (·.toNat)) := by
  have outcome := session.outcome source
  rw [assembled] at outcome
  generalize (session.assemble source).2 = after at outcome ⊢
  cases outcome with
  | @assembled lines read scanned emitted =>
    have listable := listable_of_emit source lines (scan lines).labels read
    obtain ⟨encodable, words⟩ := emitFrom_ok (scan lines).labels 0 lines emitted
    have silent : ∀ line ∈ lines, Blank line.text → line.statement? = none := by
      intro line member blank
      have said := parse_of_mem 1 _ lines read line member
      rw [Line.parse_of_blank line.number line.text (blank_withoutComment _ blank)] at said
      exact (congrArg Line.statement? (Except.ok.inj said)).symm
    have shows := showsAll_of_emitFrom (scan lines).labels [] lines listable.numbered encodable
      silent
    have all := words_of_showsAll _ _ _ _ shows
    rw [← words] at all
    exact ⟨lines, _, read, (place_of_parseLines 1 _ lines read).2, splitOn_text _ _ listable,
      shows, all⟩

/-- A source with a label beside an instruction, one behind an instruction that refers to it, and
lines of white space and comments. -/
theorem assemble_lists_lines_of_all_kinds :
    let source := ":s SET A, [e+I] ; go\n \t\n; note\n\n:e JSR s".toList
    ∃ lines rows, assemble source =
        .ok ⟨[0x5801, 2, 0x7C10, 0], [(['s'], 0), (['e'], 2)]⟩ ∧
      parse source = .ok lines ∧
      (Session.initial.assemble source).2.listing.toList.splitOn '\n' =
        heading.map String.toList ++ rows ∧
      ShowsAll [(['s'], 0), (['e'], 2)] [] lines rows ∧ lines.length = 5 ∧ rows.length = 3 := by
  intro source
  have answer : (Session.initial.assemble source).1 =
      .ok ⟨[0x5801, 2, 0x7C10, 0], [(['s'], 0), (['e'], 2)]⟩ := by decide +kernel
  obtain ⟨lines, rows, read, texts, parted, shows, -⟩ :=
    assemble_lists_lines Session.initial source _ answer
  have rowCount : ((Session.initial.assemble source).2.listing.toList.splitOn '\n').length = 5 := by
    decide +kernel
  have lineCount := congrArg List.length texts
  rw [parted, List.length_append] at rowCount
  rw [List.length_map] at lineCount
  exact ⟨lines, rows, answer, read, parted, shows, lineCount.trans (by decide +kernel),
    Nat.add_left_cancel rowCount⟩

end WordMachine.Assembly
