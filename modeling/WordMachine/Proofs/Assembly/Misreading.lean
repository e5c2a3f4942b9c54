import WordMachine.Proofs.Assembly.Grammar

/-! The lines that the grammar has no form for: exactly those whose label is misspelled or lacks its
name, and those in which an operand is missing; a label is looked at before what follows it. -/
namespace WordMachine.Assembly

open WordMachine.Text

namespace Grammar

/-- A statement of which an operand is missing: one part between its commas is white space. -/
inductive Misstated : List Char → Cause → Prop
  | emptyOperand {gap mnemonic rest piece : List Char} (blank : Blank gap)
      (nonempty : mnemonic ≠ []) (solid : Solid mnemonic) (parted : Parted rest)
      (listed : ¬Blank rest) (member : piece ∈ rest.splitOn ',') (missing : Blank piece) :
      Misstated (gap ++ mnemonic ++ rest) (.emptyOperand (collapse rest))

/-- What can be wrong with what a line says without its comment. -/
inductive Misread : List Char → Cause → Prop
  | invalidLabel {gap name rest : List Char} (blank : Blank gap) (solid : Solid name)
      (parted : Parted rest)
      (misspelled : name = [] ∨ ∃ c ∈ name, isWordCharacter c = false) :
      Misread (gap ++ ':' :: name ++ rest) (.invalidLabel (':' :: name))
  | unlabelled {text : List Char} {cause : Cause}
      (noColon : text.find? (!isBlank ·) ≠ some ':') (misstated : Misstated text cause) :
      Misread text cause
  | labelled {gap name rest : List Char} {cause : Cause} (blank : Blank gap)
      (nonempty : name ≠ []) (solid : Solid name) (spelled : ∀ c ∈ name, isWordCharacter c = true)
      (parted : Parted rest) (misstated : Misstated rest cause) :
      Misread (gap ++ ':' :: name ++ rest) cause

/-- A line with something wrong in it before the first semicolon. -/
inductive MisreadLine : List Char → Cause → Prop
  | plain {text : List Char} {cause : Cause} (noComment : ';' ∉ text)
      (misread : Misread text cause) : MisreadLine text cause
  | commented {text comment : List Char} {cause : Cause} (noComment : ';' ∉ text)
      (misread : Misread text cause) : MisreadLine (text ++ ';' :: comment) cause

end Grammar

open Grammar

/-! ### Statements -/

private theorem ofWords_error_iff (mnemonic rest : List Char) (cause : Cause) :
    Statement.ofWords (mnemonic :: words rest) = .error cause ↔
      ¬Blank rest ∧ (∃ piece ∈ rest.splitOn ',', Blank piece) ∧
        cause = .emptyOperand (collapse rest) := by
  have missing : [] ∈ (rest.splitOn ',').map dropBlanks ↔
      ∃ piece ∈ rest.splitOn ',', Blank piece := by
    simp only [List.mem_map, dropBlanks_eq_nil_iff]
  by_cases blank : Blank rest
  · rw [words_of_blank rest blank]
    exact iff_of_false nofun fun form => form.1 blank
  · rw [ofWords_of_listed mnemonic rest blank, ← missing]
    split
    next empty => simp only [blank, empty, Except.error.injEq, not_false_eq_true, true_and, eq_comm]
    next full => exact iff_of_false nofun fun form => full form.2.1

theorem content_error_iff (text : List Char) (cause : Cause) :
    Statement.ofWords (words text) = .error cause ↔ Misstated text cause := by
  constructor
  · intro refused
    rcases blank_or_word text with blank | ⟨gap, word, rest, rfl, blank, nonempty, solid, parted⟩
    · rw [words_of_blank text blank] at refused
      cases refused
    · rw [words_of_word gap word rest blank nonempty solid parted, ofWords_error_iff] at refused
      obtain ⟨listed, ⟨piece, member, missing⟩, rfl⟩ := refused
      exact .emptyOperand blank nonempty solid parted listed member missing
  · rintro ⟨blank, nonempty, solid, parted, listed, member, missing⟩
    rw [words_of_word _ _ _ blank nonempty solid parted, ofWords_error_iff]
    exact ⟨listed, ⟨_, member, missing⟩, rfl⟩

/-! ### Lines -/

private theorem map_pair_eq_error {label? : Option (List Char)}
    {read : Except Cause (Option Statement)} {cause : Cause} :
    read.map (label?, ·) = .error cause ↔ read = .error cause := by
  cases read <;> simp [Except.map]

private theorem misspelled_iff (name : List Char) :
    ¬isLabelName name = true ↔ name = [] ∨ ∃ c ∈ name, isWordCharacter c = false := by
  rw [isLabelName_iff, not_and_or, not_not]
  simp only [not_forall, Bool.not_eq_true, exists_prop]

/-- What cannot be read is what the grammar has no form for. -/
theorem code_error_iff (text : List Char) (cause : Cause) :
    parseWords (words text) = .error cause ↔ Misread text cause := by
  constructor
  · intro refused
    rcases colon_cases text with noColon | ⟨gap, name, rest, rfl, blank, solid, parted⟩
    · rw [parseWords_of_noColon text noColon, map_pair_eq_error, content_error_iff] at refused
      exact .unlabelled noColon refused
    · rw [parseWords_of_colon gap name rest blank solid parted] at refused
      split at refused
      next spelled =>
        obtain ⟨nonempty, wordly⟩ := (isLabelName_iff name).mp spelled
        rw [map_pair_eq_error, content_error_iff] at refused
        exact .labelled blank nonempty solid wordly parted refused
      next misspelled =>
        cases refused
        exact .invalidLabel blank solid parted ((misspelled_iff name).mp misspelled)
  · intro form
    cases form with
    | invalidLabel blank solid parted misspelled =>
      rw [parseWords_of_colon _ _ _ blank solid parted, if_neg ((misspelled_iff _).mpr misspelled)]
    | unlabelled noColon misstated =>
      rw [parseWords_of_noColon text noColon, map_pair_eq_error, content_error_iff]
      exact misstated
    | labelled blank nonempty solid spelled parted misstated =>
      rw [parseWords_of_colon _ _ _ blank solid parted,
        if_pos ((isLabelName_iff _).mpr ⟨nonempty, spelled⟩), map_pair_eq_error, content_error_iff]
      exact misstated

theorem misreadLine_iff (text : List Char) (cause : Cause) :
    MisreadLine text cause ↔ Misread (withoutComment text) cause := by
  constructor
  · intro form
    cases form with
    | plain noComment misread => rwa [(withoutComment_iff _ _).mpr ⟨noComment, .inl rfl⟩]
    | commented noComment misread =>
      rwa [(withoutComment_iff _ _).mpr ⟨noComment, .inr ⟨_, rfl⟩⟩]
  · intro misread
    obtain ⟨noComment, whole⟩ := (withoutComment_iff text _).mp rfl
    generalize withoutComment text = said at misread noComment whole
    rcases whole with rfl | ⟨comment, rfl⟩
    · exact .plain noComment misread
    · exact .commented noComment misread

/-- A line is refused for what the grammar says is wrong with it. -/
theorem parse_line_error_iff (number : Nat) (text : List Char) (error : Error) :
    Line.parse number text = .error error ↔
      ∃ cause, MisreadLine text cause ∧ error = ⟨cause, number, text⟩ := by
  simp only [misreadLine_iff, ← code_error_iff]
  unfold Line.parse
  cases parseWords (words (withoutComment text)) with
  | error cause => simp [eq_comm]
  | ok parts => exact iff_of_false nofun (by rintro ⟨cause, ⟨⟩, -⟩)

/-- The label of a line counts before its operands. -/
example : Line.parse 1 ":a.b SET A,, B".toList =
    .error ⟨.invalidLabel ":a.b".toList, 1, ":a.b SET A,, B".toList⟩ := by decide +kernel

end WordMachine.Assembly
