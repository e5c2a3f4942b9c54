import WordMachine.Proofs.Assembly.Passes

/-! Reading statements: one that is written out with a space behind its mnemonic and a comma and a
space between its operands is read back. Sources of such lines alone are assembled when all their
statements can be encoded. -/
namespace WordMachine.Text

/-! ### Words -/

theorem words_append_cons (word rest : List Char) (c : Char)
    (solid : ∀ c ∈ word, isBlank c = false) (nonempty : word ≠ []) (blank : isBlank c = true) :
    words (word ++ c :: rest) = word :: words rest := by
  simp [words, List.splitOnP_append_cons_of_forall_mem solid c blank, nonempty]

theorem words_of_solid (word : List Char) (solid : ∀ c ∈ word, isBlank c = false)
    (nonempty : word ≠ []) : words word = [word] := by
  simp [words, List.splitOnP_eq_singleton solid, nonempty]

theorem dropBlanks_of_solid (text : List Char) (solid : ∀ c ∈ text, isBlank c = false) :
    dropBlanks text = text := by
  simpa [dropBlanks] using solid

/-- Putting parts together adds no characters but those of the gaps. -/
theorem notMem_intercalate (c : Char) (gap : List Char) (parts : List (List Char))
    (apart : c ∉ gap) (absent : ∀ part ∈ parts, c ∉ part) : c ∉ gap.intercalate parts := by
  induction parts with
  | nil => exact List.not_mem_nil
  | cons first others ih =>
    obtain ⟨own, rest⟩ := List.forall_mem_cons.mp absent
    cases others with
    | nil => rwa [List.intercalate_singleton]
    | cons second others =>
      rw [List.intercalate_cons_of_ne_nil (List.cons_ne_nil _ _)]
      simp [own, apart, ih rest]

end WordMachine.Text

namespace WordMachine.Assembly

open WordMachine.Text

/-! ### Tokens -/

/-- What an operand can be written as between commas. -/
structure Token (text : List Char) : Prop where
  nonempty : text ≠ []
  solid : ∀ c ∈ text, isBlank c = false
  noComma : ',' ∉ text
  noComment : ';' ∉ text

/-- What may stand in an operand. -/
def isPlain (c : Char) : Bool := !isBlank c && c != ',' && c != ';'

theorem token_of_plain (text : List Char) (nonempty : text ≠ [])
    (plain : text.all isPlain = true) : Token text := by
  simp only [isPlain, List.all_eq_true, Bool.and_eq_true, bne_iff_ne, Bool.not_eq_true'] at plain
  exact ⟨nonempty, fun c member => (plain c member).1.1, fun member => (plain _ member).1.2 rfl,
    fun member => (plain _ member).2 rfl⟩

/-- Operands with a comma and a space between neighbours. -/
def listed (operands : List (List Char)) : List Char := [',', ' '].intercalate operands

theorem listed_cons_cons (first second : List Char) (others : List (List Char)) :
    listed (first :: second :: others) = (first ++ [',']) ++ ' ' :: listed (second :: others) := by
  simp [listed]

private theorem solid_concat_comma (token : List Char) (solid : ∀ c ∈ token, isBlank c = false) :
    ∀ c ∈ token ++ [','], isBlank c = false := by
  intro c member
  rcases List.mem_append.mp member with inside | comma
  · exact solid c inside
  · rw [List.mem_singleton.mp comma]
    decide

theorem words_listed_ne_nil (first : List Char) (others : List (List Char)) (token : Token first) :
    words (listed (first :: others)) ≠ [] := by
  cases others with
  | nil =>
    rw [listed, List.intercalate_singleton, words_of_solid first token.solid token.nonempty]
    simp
  | cons second others =>
    rw [listed_cons_cons, words_append_cons _ _ ' ' (solid_concat_comma first token.solid)
      (by simp) (by decide)]
    simp

/-- Listed operands have no more white space than parts their words. -/
theorem intercalate_words_listed (operands : List (List Char))
    (tokens : ∀ operand ∈ operands, Token operand) :
    [' '].intercalate (words (listed operands)) = listed operands := by
  induction operands with
  | nil => rfl
  | cons first others ih =>
    have token := tokens first List.mem_cons_self
    cases others with
    | nil =>
      rw [listed, List.intercalate_singleton, words_of_solid first token.solid token.nonempty,
        List.intercalate_singleton]
    | cons second others =>
      have rest := ih fun operand member => tokens operand (List.mem_cons_of_mem _ member)
      have some := words_listed_ne_nil second others (tokens second (by simp))
      rw [listed_cons_cons, words_append_cons _ _ ' ' (solid_concat_comma first token.solid)
        (by simp) (by decide), List.intercalate_cons_of_ne_nil some, rest]
      simp

private theorem listed_eq_commas (first : List Char) (others : List (List Char)) :
    listed (first :: others) = [','].intercalate (first :: others.map (' ' :: ·)) := by
  induction others generalizing first with
  | nil => rfl
  | cons second others ih => simp [listed_cons_cons, ih second]

/-- Listed operands are parted again at their commas. -/
theorem splitOn_listed (operands : List (List Char)) (nonempty : operands ≠ [])
    (tokens : ∀ operand ∈ operands, Token operand) :
    ((listed operands).splitOn ',').map dropBlanks = operands := by
  obtain ⟨first, others, rfl⟩ := List.exists_cons_of_ne_nil nonempty
  have dropped (operand : List Char) (member : operand ∈ first :: others) :
      dropBlanks operand = operand := dropBlanks_of_solid operand (tokens operand member).solid
  -- All parts but the first keep the space behind their comma, which is dropped afterwards.
  have parts : ∀ part ∈ first :: others.map (' ' :: ·), ',' ∉ part := by
    intro part member
    rcases List.mem_cons.mp member with rfl | member
    · exact (tokens part List.mem_cons_self).noComma
    · obtain ⟨operand, other, rfl⟩ := List.mem_map.mp member
      simpa using (tokens operand (List.mem_cons_of_mem _ other)).noComma
  rw [listed_eq_commas, List.splitOn_intercalate ',' parts (List.cons_ne_nil _ _), List.map_cons,
    dropped first List.mem_cons_self, List.map_map]
  congr 1
  refine (List.map_congr_left fun operand other => ?_).trans (List.map_id others)
  exact dropped operand (List.mem_cons_of_mem _ other)

/-! ### Statements -/

/-- A statement as a line writes it. -/
def Statement.text (statement : Statement) : List Char :=
  statement.mnemonic ++ ' ' :: listed statement.operands

/-- A statement that is read back from its text. -/
structure Statement.Readable (statement : Statement) : Prop where
  named : ∃ operation : Operation, statement.mnemonic = operation.mnemonic.toList
  operated : statement.operands ≠ []
  tokens : ∀ operand ∈ statement.operands, Token operand

/-- What a mnemonic is told from. -/
private structure Mnemonic (text : List Char) : Prop where
  nonempty : text ≠ []
  solid : ∀ c ∈ text, isBlank c = false
  noComment : ';' ∉ text
  noColon : text.head? ≠ some ':'
  raised : upper text = text

private theorem mnemonic_of_operation (operation : Operation) :
    Mnemonic operation.mnemonic.toList := by
  have all : ∀ operation ∈ Operation.all, operation.mnemonic.toList ≠ [] ∧
      (operation.mnemonic.toList.all fun c => !isBlank c) = true ∧
      ';' ∉ operation.mnemonic.toList ∧ operation.mnemonic.toList.head? ≠ some ':' ∧
      upper operation.mnemonic.toList = operation.mnemonic.toList := by
    decide
  obtain ⟨nonempty, solid, noComment, noColon, raised⟩ := all operation operation.mem_all
  exact ⟨nonempty, by simpa using solid, noComment, noColon, raised⟩

theorem withoutComment_of_notMem (text : List Char) (noComment : ';' ∉ text) :
    withoutComment text = text := by
  rw [withoutComment, List.takeWhile_eq_self_iff]
  intro c member
  simpa using fun (equal : c = ';') => noComment (equal ▸ member)

private theorem notMem_text (c : Char) (statement : Statement) (noComma : c ≠ ',')
    (noSpace : c ≠ ' ') (mnemonic : c ∉ statement.mnemonic)
    (operands : ∀ operand ∈ statement.operands, c ∉ operand) : c ∉ statement.text := by
  have rest : c ∉ listed statement.operands :=
    notMem_intercalate c [',', ' '] statement.operands (by simp [noComma, noSpace]) operands
  simp [Statement.text, mnemonic, noSpace, rest]

private theorem ofWords_listed (mnemonic : List Char) (raised : upper mnemonic = mnemonic)
    (operands : List (List Char)) (nonempty : operands ≠ [])
    (tokens : ∀ operand ∈ operands, Token operand) :
    Statement.ofWords (mnemonic :: words (listed operands)) = .ok (some ⟨mnemonic, operands⟩) := by
  have collapsed := intercalate_words_listed operands tokens
  have back := splitOn_listed operands nonempty tokens
  have none : ¬operands.any (·.isEmpty) = true := by
    simpa using fun member => (tokens [] member).nonempty rfl
  unfold Statement.ofWords
  split
  next empty => cases empty
  next single =>
    obtain ⟨first, others, rfl⟩ := List.exists_cons_of_ne_nil nonempty
    exact absurd (List.cons.inj single).2
      (words_listed_ne_nil first others (tokens first List.mem_cons_self))
  next same =>
    obtain ⟨rfl, rfl⟩ := List.cons.inj same
    simp only [collapsed, back, if_neg none, raised]

/-- A statement is read back from its text, as the only thing on its line. -/
theorem Line.parse_text (number : Nat) (statement : Statement) (readable : statement.Readable) :
    Line.parse number statement.text = .ok ⟨number, statement.text, none, some statement⟩ := by
  obtain ⟨⟨operation, named⟩, operated, tokens⟩ := readable
  obtain ⟨nonempty, solid, noSemicolon, noColon, raised⟩ := named ▸ mnemonic_of_operation operation
  have noComment := notMem_text ';' statement (by decide) (by decide) noSemicolon
    fun operand member => (tokens operand member).noComment
  have read : parseWords (statement.mnemonic :: words (listed statement.operands)) =
      .ok (none, some statement) := by
    have given := ofWords_listed statement.mnemonic raised statement.operands operated tokens
    unfold parseWords
    split
    next name rest colon =>
      have head := congrArg List.head? (List.cons.inj colon).1
      exact absurd head noColon
    · rw [given]
      rfl
  rw [Line.parse, withoutComment_of_notMem _ noComment, Statement.text,
    words_append_cons _ _ ' ' solid nonempty (by decide), read]

/-! ### Sources -/

/-- A source with a line for each statement. -/
def source (statements : List Statement) : List Char :=
  ['\n'].intercalate (statements.map Statement.text)

private theorem newline_notMem_text (statement : Statement) (readable : statement.Readable) :
    '\n' ∉ statement.text := by
  have blank : isBlank '\n' = true := by decide
  obtain ⟨⟨operation, named⟩, -, tokens⟩ := readable
  have plain := named ▸ mnemonic_of_operation operation
  refine notMem_text '\n' statement (by decide) (by decide) ?_ ?_
  · intro member
    rw [plain.solid '\n' member] at blank
    cases blank
  · intro operand member inside
    rw [(tokens operand member).solid '\n' inside] at blank
    cases blank

private theorem parseLines_texts (number : Nat) (given : List Statement)
    (readable : ∀ statement ∈ given, statement.Readable) :
    ∃ lines, parseLines number (given.map Statement.text) = .ok lines ∧
      statements lines = given ∧ ∀ line ∈ lines, line.label? = none := by
  induction given generalizing number with
  | nil => exact ⟨[], rfl, rfl, nofun⟩
  | cons statement rest ih =>
    have first := Line.parse_text number statement (readable statement List.mem_cons_self)
    obtain ⟨lines, others, same, bare⟩ :=
      ih (number + 1) fun other member => readable other (List.mem_cons_of_mem _ member)
    refine ⟨⟨number, statement.text, none, some statement⟩ :: lines, ?_, ?_, ?_⟩
    · rw [List.map_cons, parseLines, first, others]
      rfl
    · rw [statements_cons, same]
      rfl
    · simpa using bare

theorem parse_source (given : List Statement)
    (readable : ∀ statement ∈ given, statement.Readable) :
    ∃ lines, parse (source given) = .ok lines ∧ statements lines = given ∧
      ∀ line ∈ lines, line.label? = none := by
  cases given with
  -- A source without statements still has a line.
  | nil => exact ⟨[⟨1, [], none, none⟩], rfl, rfl, by simp⟩
  | cons first others =>
    have parted : ∀ text ∈ (first :: others).map Statement.text, '\n' ∉ text := by
      intro text member
      obtain ⟨statement, given, rfl⟩ := List.mem_map.mp member
      exact newline_notMem_text statement (readable statement given)
    rw [parse, lines, source, List.splitOn_intercalate '\n' parted (by simp)]
    exact parseLines_texts 1 _ readable

/-! ### Assembling -/

private theorem scanFrom_unlabelled (labels : Labels) (size : Nat) (lines : List Line)
    (bare : ∀ line ∈ lines, line.label? = none) :
    (scanFrom labels size lines).labels = labels ∧
      (scanFrom labels size lines).error? = none := by
  induction lines generalizing size with
  | nil => exact ⟨rfl, rfl⟩
  | cons line rest ih =>
    have declares : line.declare labels size = .ok labels := by
      simp only [Line.declare, bare line List.mem_cons_self]
    rw [scanFrom, declares]
    exact ih (size + line.size) fun other member => bare other (List.mem_cons_of_mem _ member)

theorem emitFrom_encodable (labels : Labels) (address : Nat) (lines : List Line)
    (encodable : Encodable labels lines) : (emitFrom labels address lines).error? = none := by
  induction lines generalizing address with
  | nil => rfl
  | cons line rest ih =>
    have others := fun address =>
      ih address fun other member => encodable other (List.mem_cons_of_mem _ member)
    cases holds : line.statement? with
    | none =>
      simp only [emitFrom, holds]
      exact others address
    | some statement =>
      obtain ⟨words, encoded⟩ := encodable line List.mem_cons_self statement holds
      simp only [emitFrom, holds, encoded]
      exact others (address + words.length)

/-- A source that can be read is assembled when its labels can be declared and all its statements
can be encoded. -/
theorem assemble_of_encodable (session : Session) (source : List Char) (lines : List Line)
    (read : parse source = .ok lines) (scanned : (scan lines).error? = none)
    (encodable : Encodable (scan lines).labels lines) :
    (session.assemble source).1 =
      .ok ⟨code (scan lines).labels lines, (scan lines).labels⟩ := by
  have emitted := emitFrom_encodable (scan lines).labels 0 lines encodable
  rcases assemble_cases session source with ⟨_, known, -, -, answer⟩ |
    ⟨error, -, unread | ⟨_, known, found | found⟩⟩
  · rw [read] at known
    cases known
    rw [answer, emit, (emitFrom_ok _ 0 lines emitted).2]
  · rw [read] at unread
    cases unread
  · rw [read] at known
    cases known
    rw [scanned] at found
    cases found
  · rw [read] at known
    cases known
    rw [emit, emitted] at found
    cases found

/-- A source without labels is assembled when all its statements can be encoded. -/
theorem assemble_unlabelled (session : Session) (source : List Char) (lines : List Line)
    (read : parse source = .ok lines) (bare : ∀ line ∈ lines, line.label? = none)
    (encodable : Encodable [] lines) :
    (session.assemble source).1 = .ok ⟨code [] lines, []⟩ := by
  obtain ⟨none, scanned⟩ := scanFrom_unlabelled [] 0 lines bare
  have labels : (scan lines).labels = [] := none
  rw [assemble_of_encodable session source lines read scanned (by rwa [labels]), labels]

/-- A source of readable statements is assembled to their words. -/
theorem assemble_source (session : Session) (given : List Statement)
    (readable : ∀ statement ∈ given, statement.Readable) (blocks : List (List Word))
    (encoded : List.Forall₂ (fun statement block => statement.encode [] = .ok block)
      given blocks) :
    (session.assemble (source given)).1 = .ok ⟨blocks.flatten, []⟩ := by
  obtain ⟨lines, read, same, bare⟩ := parse_source given readable
  obtain ⟨encodable, words⟩ := code_of_encodings [] lines blocks (same ▸ encoded)
  rw [assemble_unlabelled session _ lines read bare encodable, words]

end WordMachine.Assembly
