import Mathlib
import WordMachine.Proofs.Assembly.Reading

/-! The grammar of source lines, said of their characters: a line is read exactly when it has the
form of one. -/
namespace WordMachine.Text

/-- White space alone. -/
def Blank (text : List Char) : Prop := ∀ c ∈ text, isBlank c = true

/-- No white space. -/
def Solid (text : List Char) : Prop := ∀ c ∈ text, isBlank c = false

/-- What can follow a word: nothing, or something that begins with white space. -/
def Parted (text : List Char) : Prop := ∀ c ∈ text.head?, isBlank c = true

/-! ### Words -/

theorem words_of_blank_append (gap text : List Char) (blank : Blank gap) :
    words (gap ++ text) = words text := by
  induction gap with
  | nil => rfl
  | cons c rest ih =>
    have others := ih fun other member => blank other (List.mem_cons_of_mem _ member)
    rw [← others, List.cons_append, words, List.splitOnP_cons_eq_if_modifyHead,
      if_pos (blank c List.mem_cons_self)]
    rfl

theorem words_of_blank (text : List Char) (blank : Blank text) : words text = [] := by
  have whole := words_of_blank_append text [] blank
  rwa [List.append_nil] at whole

/-- The first word of a text reaches up to the next white space. -/
theorem words_of_word (gap word rest : List Char) (blank : Blank gap) (nonempty : word ≠ [])
    (solid : Solid word) (parted : Parted rest) :
    words (gap ++ word ++ rest) = word :: words rest := by
  rw [List.append_assoc, words_of_blank_append gap _ blank]
  cases rest with
  | nil =>
    rw [List.append_nil, words_of_solid word solid nonempty]
    rfl
  | cons c rest =>
    have ends : isBlank c = true := parted c rfl
    have gone := words_of_blank_append [c] rest (by simpa [Blank] using ends)
    rw [words_append_cons word rest c solid nonempty ends, ← gone, List.singleton_append]

private theorem exists_word (text : List Char) :
    ∃ word rest, text = word ++ rest ∧ Solid word ∧ Parted rest := by
  induction text with
  | nil => exact ⟨[], [], rfl, nofun, nofun⟩
  | cons c text ih =>
    by_cases blank : isBlank c = true
    · exact ⟨[], c :: text, rfl, nofun, by simpa [Parted] using blank⟩
    · obtain ⟨word, rest, rfl, solid, parted⟩ := ih
      rw [Bool.not_eq_true] at blank
      exact ⟨c :: word, rest, rfl, List.forall_mem_cons.mpr ⟨blank, solid⟩, parted⟩

/-- A text that is not blank has a first word. -/
theorem blank_or_word (text : List Char) :
    Blank text ∨ ∃ gap word rest, text = gap ++ word ++ rest ∧ Blank gap ∧ word ≠ [] ∧
      Solid word ∧ Parted rest := by
  induction text with
  | nil => exact .inl nofun
  | cons c text ih =>
    by_cases blank : isBlank c = true
    · rcases ih with all | ⟨gap, word, rest, rfl, gaps, first⟩
      · exact .inl (List.forall_mem_cons.mpr ⟨blank, all⟩)
      · exact .inr ⟨c :: gap, word, rest, rfl, List.forall_mem_cons.mpr ⟨blank, gaps⟩, first⟩
    · obtain ⟨word, rest, rfl, solid, parted⟩ := exists_word text
      rw [Bool.not_eq_true] at blank
      exact .inr ⟨[], c :: word, rest, rfl, nofun, List.cons_ne_nil _ _,
        List.forall_mem_cons.mpr ⟨blank, solid⟩, parted⟩

theorem words_eq_nil_iff (text : List Char) : words text = [] ↔ Blank text := by
  constructor
  · intro none
    rcases blank_or_word text with blank | ⟨gap, word, rest, rfl, blank, nonempty, solid, parted⟩
    · exact blank
    · rw [words_of_word gap word rest blank nonempty solid parted] at none
      cases none
  · exact words_of_blank text

/-! ### White space inside a text -/

theorem dropBlanks_cons (c : Char) (text : List Char) :
    dropBlanks (c :: text) = if isBlank c then dropBlanks text else c :: dropBlanks text := by
  simp only [dropBlanks, List.filter_cons]
  cases isBlank c <;> rfl

theorem dropBlanks_eq_nil_iff (text : List Char) : dropBlanks text = [] ↔ Blank text := by
  simp [dropBlanks, Blank]

theorem flatten_words (text : List Char) : (words text).flatten = dropBlanks text := by
  rw [words, List.flatten_filter_not_isEmpty]
  induction text with
  | nil => rfl
  | cons c rest ih =>
    obtain ⟨first, parts, split⟩ :=
      List.exists_cons_of_ne_nil (List.splitOnP_ne_nil isBlank rest)
    rw [List.splitOnP_cons_eq_if_modifyHead, dropBlanks_cons, ← ih, split]
    split <;> rfl

theorem dropBlanks_collapse (text : List Char) :
    dropBlanks ([' '].intercalate (words text)) = dropBlanks text := by
  have apart (parts : List (List Char)) :
      dropBlanks ([' '].intercalate parts) = dropBlanks parts.flatten := by
    induction parts with
    | nil => rfl
    | cons first others ih =>
      cases others with
      | nil => rw [List.intercalate_singleton, List.flatten_singleton]
      | cons second others =>
        rw [List.intercalate_cons_of_ne_nil (List.cons_ne_nil _ _), List.flatten_cons]
        have space : dropBlanks [' '] = [] := by decide
        simp only [dropBlanks, List.filter_append] at ih space ⊢
        rw [ih, space, List.append_nil]
  rw [apart, flatten_words]
  exact List.filter_filter.trans (by simp [dropBlanks])

theorem collapse_ne_nil (text : List Char) (visible : ¬Blank text) : collapse text ≠ [] := by
  intro empty
  have same := dropBlanks_collapse text
  rw [← collapse, empty] at same
  exact visible ((dropBlanks_eq_nil_iff text).mp same.symm)

/-! ### White space at the ends of a text -/

theorem mem_of_mem_trim (text : List Char) (c : Char) (member : c ∈ trim text) : c ∈ text := by
  rw [trim, List.mem_reverse] at member
  have front := (List.dropWhile_sublist isBlank).mem member
  exact (List.dropWhile_sublist isBlank).mem (List.mem_reverse.mp front)

theorem trim_ne_nil (text : List Char) (visible : ¬Blank text) : trim text ≠ [] := by
  intro empty
  simp only [trim, List.reverse_eq_nil_iff, List.dropWhile_eq_nil_iff, List.mem_reverse] at empty
  refine visible fun c member => ?_
  rw [← List.takeWhile_append_dropWhile (p := isBlank) (l := text)] at member
  rcases List.mem_append.mp member with front | back
  · exact List.mem_takeWhile_imp front
  · exact empty c back

theorem trim_eq_nil_iff (text : List Char) : trim text = [] ↔ Blank text := by
  refine ⟨fun empty => by_contra fun visible => trim_ne_nil text visible empty, fun blank => ?_⟩
  have none : text.dropWhile isBlank = [] := List.dropWhile_eq_nil_iff.mpr blank
  rw [trim, none]
  rfl

/-! ### Parts between commas -/

/-- White space does not matter for where a text is parted. -/
theorem map_dropBlanks_splitOn (text : List Char) :
    (text.splitOn ',').map dropBlanks = (dropBlanks text).splitOn ',' := by
  induction text with
  | nil => rfl
  | cons c rest ih =>
    obtain ⟨part, parts, split⟩ := List.exists_cons_of_ne_nil (List.splitOn_ne_nil ',' rest)
    rw [List.splitOn_cons_eq_if_modifyHead, dropBlanks_cons]
    by_cases comma : c = ','
    · have kept : isBlank ',' = false := by decide
      subst comma
      rw [kept, if_neg Bool.false_ne_true, List.splitOn_cons_eq_if_modifyHead, ← ih]
      simp [dropBlanks]
    · have other : ¬(c == ',') = true := by simpa using comma
      rw [if_neg other]
      by_cases blank : isBlank c = true
      · rw [if_pos blank, ← ih, split]
        simp [dropBlanks_cons, blank]
      · rw [if_neg blank, List.splitOn_cons_eq_if_modifyHead, if_neg other, ← ih, split]
        simp [dropBlanks_cons, blank]

theorem notMem_of_mem_splitOn (mark : Char) (text part : List Char)
    (member : part ∈ text.splitOn mark) : mark ∉ part := by
  induction text generalizing part with
  | nil =>
    obtain rfl : part = [] := by simpa using member
    exact List.not_mem_nil
  | cons c rest ih =>
    obtain ⟨first, parts, split⟩ := List.exists_cons_of_ne_nil (List.splitOn_ne_nil mark rest)
    rw [split] at ih
    rw [List.splitOn_cons_eq_if_modifyHead, split] at member
    split at member
    · rcases List.mem_cons.mp member with rfl | later
      · exact List.not_mem_nil
      · exact ih part later
    next other =>
      rcases List.mem_cons.mp member with rfl | later
      · have apart : c ≠ mark := by simpa using other
        simp [apart.symm, ih first List.mem_cons_self]
      · exact ih part (List.mem_cons_of_mem _ later)

end WordMachine.Text

namespace WordMachine.Assembly

open WordMachine.Text

/-! ### The grammar -/

namespace Grammar

/-- What follows a mnemonic: white space alone, or operands parted by commas. White space in an
operand does not count, but there must be something else in it. -/
inductive Operands : List Char → List (List Char) → Prop
  | none {text : List Char} (blank : Blank text) : Operands text []
  | listed {pieces : List (List Char)} (nonempty : pieces ≠ [])
      (noComma : ∀ piece ∈ pieces, ',' ∉ piece) (filled : ∀ piece ∈ pieces, ¬Blank piece) :
      Operands ([','].intercalate pieces) (pieces.map dropBlanks)

/-- A statement, which begins with its mnemonic, or white space alone. -/
inductive Content : List Char → Option Statement → Prop
  | blank {text : List Char} (blank : Blank text) : Content text none
  | statement {gap mnemonic rest : List Char} {operands : List (List Char)} (blank : Blank gap)
      (nonempty : mnemonic ≠ []) (solid : Solid mnemonic) (parted : Parted rest)
      (listed : Operands rest operands) :
      Content (gap ++ mnemonic ++ rest) (some ⟨upper mnemonic, operands⟩)

/-- What a line says without its comment: a label if its first visible character is a colon, and
what follows the label. The name of a label reaches up to the next white space. -/
inductive Code : List Char → Option (List Char) → Option Statement → Prop
  | unlabelled {text : List Char} {statement? : Option Statement}
      (noColon : text.find? (!isBlank ·) ≠ some ':') (content : Content text statement?) :
      Code text none statement?
  | labelled {gap name rest : List Char} {statement? : Option Statement} (blank : Blank gap)
      (nonempty : name ≠ []) (solid : Solid name) (spelled : ∀ c ∈ name, isWordCharacter c = true)
      (parted : Parted rest) (content : Content rest statement?) :
      Code (gap ++ ':' :: name ++ rest) (some name) statement?

/-- A line, of which nothing counts from the first semicolon on. -/
inductive SourceLine : List Char → Option (List Char) → Option Statement → Prop
  | plain {text : List Char} {label? : Option (List Char)} {statement? : Option Statement}
      (noComment : ';' ∉ text) (code : Code text label? statement?) :
      SourceLine text label? statement?
  | commented {text comment : List Char} {label? : Option (List Char)}
      {statement? : Option Statement} (noComment : ';' ∉ text)
      (code : Code text label? statement?) :
      SourceLine (text ++ ';' :: comment) label? statement?

end Grammar

open Grammar

/-! ### Reading lines -/

theorem operands_iff (text : List Char) (operands : List (List Char)) :
    Operands text operands ↔ (Blank text ∧ operands = []) ∨
      (¬Blank text ∧ operands = (text.splitOn ',').map dropBlanks ∧ [] ∉ operands) := by
  have empty (pieces : List (List Char)) :
      [] ∉ pieces.map dropBlanks ↔ ∀ piece ∈ pieces, ¬Blank piece := by
    simp [dropBlanks_eq_nil_iff]
  constructor
  · intro form
    cases form with
    | none blank => exact .inl ⟨blank, rfl⟩
    | @listed pieces nonempty noComma filled =>
      have split := List.splitOn_intercalate ',' noComma nonempty
      refine .inr ⟨fun blank => ?_, by rw [split], (empty pieces).mpr filled⟩
      -- A blank text has a single part, and that one is blank too.
      have single := map_dropBlanks_splitOn ([','].intercalate pieces)
      rw [split, (dropBlanks_eq_nil_iff _).mpr blank] at single
      exact (empty pieces).mpr filled (by rw [single]; exact List.mem_singleton_self [])
  · rintro (⟨blank, rfl⟩ | ⟨-, rfl, filled⟩)
    · exact .none blank
    · have listed := Operands.listed (List.splitOn_ne_nil ',' text) (notMem_of_mem_splitOn ',' text)
        ((empty _).mp filled)
      rwa [List.intercalate_splitOn] at listed

/-- Operands are parted after the words of the line were put together again, which makes no
difference. -/
theorem ofWords_of_listed (mnemonic rest : List Char) (listed : ¬Blank rest) :
    Statement.ofWords (mnemonic :: words rest) =
      if [] ∈ (rest.splitOn ',').map dropBlanks then .error (.emptyOperand (collapse rest))
      else .ok (some ⟨upper mnemonic, (rest.splitOn ',').map dropBlanks⟩) := by
  have parts : (([' '].intercalate (words rest)).splitOn ',').map dropBlanks =
      (rest.splitOn ',').map dropBlanks := by
    rw [map_dropBlanks_splitOn, dropBlanks_collapse, map_dropBlanks_splitOn]
  have filled : (((rest.splitOn ',').map dropBlanks).any (·.isEmpty)) = true ↔
      [] ∈ (rest.splitOn ',').map dropBlanks := by
    rw [List.any_eq_true]
    simp only [List.isEmpty_iff, exists_eq_right]
  unfold Statement.ofWords
  split
  next none => cases none
  next single =>
    exact absurd ((words_eq_nil_iff rest).mp (List.cons.inj single).2) listed
  next same =>
    obtain ⟨rfl, rfl⟩ := List.cons.inj same
    simp only [parts, filled, collapse]

/-- A mnemonic and what follows it are read as the grammar says. -/
theorem ofWords_iff (mnemonic rest : List Char) (statement? : Option Statement) :
    Statement.ofWords (mnemonic :: words rest) = .ok statement? ↔
      ∃ operands, Operands rest operands ∧ statement? = some ⟨upper mnemonic, operands⟩ := by
  simp only [operands_iff]
  by_cases blank : Blank rest
  · rw [words_of_blank rest blank]
    simp only [Statement.ofWords, blank, true_and, not_true_eq_false, false_and, or_false,
      exists_eq_left, Except.ok.injEq]
    exact eq_comm
  · rw [ofWords_of_listed mnemonic rest blank]
    simp only [blank, false_and, not_false_eq_true, true_and, false_or]
    split
    next empty =>
      refine iff_of_false nofun ?_
      rintro ⟨operands, ⟨rfl, full⟩, -⟩
      exact full empty
    next full =>
      rw [Except.ok.injEq]
      constructor
      · rintro rfl
        exact ⟨_, ⟨rfl, full⟩, rfl⟩
      · rintro ⟨operands, ⟨rfl, -⟩, rfl⟩
        rfl

theorem content_iff (text : List Char) (statement? : Option Statement) :
    Statement.ofWords (words text) = .ok statement? ↔ Content text statement? := by
  constructor
  · intro read
    rcases blank_or_word text with blank | ⟨gap, word, rest, rfl, blank, nonempty, solid, parted⟩
    · rw [words_of_blank text blank] at read
      cases read
      exact .blank blank
    · rw [words_of_word gap word rest blank nonempty solid parted, ofWords_iff] at read
      obtain ⟨operands, listed, rfl⟩ := read
      exact .statement blank nonempty solid parted listed
  · intro form
    cases form with
    | blank blank =>
      rw [words_of_blank text blank]
      rfl
    | statement blank nonempty solid parted listed =>
      rw [words_of_word _ _ _ blank nonempty solid parted, ofWords_iff]
      exact ⟨_, listed, rfl⟩

/-! ### Labels -/

/-- The first visible character of a text begins its first word. -/
private theorem find?_of_word (gap word rest : List Char) (c : Char) (blank : Blank gap)
    (visible : isBlank c = false) :
    (gap ++ (c :: word) ++ rest).find? (!isBlank ·) = some c := by
  have none : gap.find? (!isBlank ·) = none := by
    rw [List.find?_eq_none]
    intro other member
    simp [blank other member]
  rw [List.append_assoc, List.find?_append, none, Option.none_or, List.cons_append,
    List.find?_cons_of_pos (by simp [visible])]

private theorem map_pair_eq_ok {label? other? : Option (List Char)}
    {read : Except Cause (Option Statement)} {statement? : Option Statement} :
    read.map (label?, ·) = .ok (other?, statement?) ↔
      other? = label? ∧ read = .ok statement? := by
  cases read with
  | error cause => exact iff_of_false nofun (by rintro ⟨-, ⟨⟩⟩)
  | ok found =>
    simp only [Except.map, Except.ok.injEq, Prod.mk.injEq]
    exact and_congr_left' eq_comm

/-- A line either does not begin with a colon, or with what declares a label. -/
theorem colon_cases (text : List Char) :
    text.find? (!isBlank ·) ≠ some ':' ∨ ∃ gap name rest, text = gap ++ ':' :: name ++ rest ∧
      Blank gap ∧ Solid name ∧ Parted rest := by
  by_cases colon : text.find? (!isBlank ·) = some ':'
  · rcases blank_or_word text with blank | ⟨gap, word, rest, rfl, blank, nonempty, solid, parted⟩
    · have visible := List.find?_some colon
      rw [blank ':' (List.mem_of_find?_eq_some colon)] at visible
      cases visible
    · obtain ⟨c, name, rfl⟩ := List.exists_cons_of_ne_nil nonempty
      obtain ⟨visible, unbroken⟩ := List.forall_mem_cons.mp solid
      rw [find?_of_word gap name rest c blank visible] at colon
      cases colon
      exact .inr ⟨gap, name, rest, rfl, blank, unbroken, parted⟩
  · exact .inl colon

theorem parseWords_of_noColon (text : List Char) (noColon : text.find? (!isBlank ·) ≠ some ':') :
    parseWords (words text) = (Statement.ofWords (words text)).map (none, ·) := by
  rcases blank_or_word text with blank | ⟨gap, word, rest, rfl, blank, nonempty, solid, parted⟩
  · rw [words_of_blank text blank]
    rfl
  · rw [words_of_word gap word rest blank nonempty solid parted]
    unfold parseWords
    split
    next name _ same =>
      obtain ⟨rfl, -⟩ := List.cons.inj same
      exact absurd (find?_of_word gap name rest ':' blank (by decide)) noColon
    · rfl

theorem parseWords_of_colon (gap name rest : List Char) (blank : Blank gap) (solid : Solid name)
    (parted : Parted rest) :
    parseWords (words (gap ++ ':' :: name ++ rest)) =
      if isLabelName name then (Statement.ofWords (words rest)).map (some name, ·)
      else .error (.invalidLabel (':' :: name)) := by
  have declaration : Solid (':' :: name) := List.forall_mem_cons.mpr ⟨by decide, solid⟩
  rw [words_of_word gap (':' :: name) rest blank (List.cons_ne_nil _ _) declaration parted,
    parseWords]

private theorem parseWords_unlabelled (text : List Char) (label? : Option (List Char))
    (statement? : Option Statement) (noColon : text.find? (!isBlank ·) ≠ some ':') :
    parseWords (words text) = .ok (label?, statement?) ↔
      label? = none ∧ Statement.ofWords (words text) = .ok statement? := by
  rw [← map_pair_eq_ok, parseWords_of_noColon text noColon]

private theorem parseWords_labelled (gap name rest : List Char) (label? : Option (List Char))
    (statement? : Option Statement) (blank : Blank gap) (solid : Solid name)
    (parted : Parted rest) :
    parseWords (words (gap ++ ':' :: name ++ rest)) = .ok (label?, statement?) ↔
      isLabelName name = true ∧ label? = some name ∧
        Statement.ofWords (words rest) = .ok statement? := by
  rw [parseWords_of_colon gap name rest blank solid parted, ← map_pair_eq_ok]
  split
  next spelled => rw [eq_true spelled, true_and]
  next misspelled => exact iff_of_false nofun fun both => misspelled both.1

theorem isLabelName_iff (name : List Char) :
    isLabelName name = true ↔ name ≠ [] ∧ ∀ c ∈ name, isWordCharacter c = true := by
  simp [isLabelName]

theorem code_iff (text : List Char) (label? : Option (List Char))
    (statement? : Option Statement) :
    parseWords (words text) = .ok (label?, statement?) ↔ Code text label? statement? := by
  constructor
  · intro read
    rcases colon_cases text with noColon | ⟨gap, name, rest, rfl, blank, solid, parted⟩
    · obtain ⟨rfl, follows⟩ := (parseWords_unlabelled text label? statement? noColon).mp read
      exact .unlabelled noColon ((content_iff text statement?).mp follows)
    · obtain ⟨spelled, rfl, follows⟩ :=
        (parseWords_labelled gap name rest label? statement? blank solid parted).mp read
      obtain ⟨named, wordly⟩ := (isLabelName_iff name).mp spelled
      exact .labelled blank named solid wordly parted ((content_iff rest statement?).mp follows)
  · intro form
    cases form with
    | unlabelled noColon content =>
      exact (parseWords_unlabelled text none statement? noColon).mpr
        ⟨rfl, (content_iff text statement?).mpr content⟩
    | @labelled gap name rest _ blank nonempty solid spelled parted content =>
      exact (parseWords_labelled gap name rest _ statement? blank solid parted).mpr
        ⟨(isLabelName_iff name).mpr ⟨nonempty, spelled⟩, rfl,
          (content_iff rest statement?).mpr content⟩

/-! ### Comments -/

private theorem withoutComment_of_comment (text comment : List Char) (noComment : ';' ∉ text) :
    withoutComment (text ++ ';' :: comment) = text := by
  have before : ∀ c ∈ text, (c != ';') = true := by
    intro c member
    simpa using fun (equal : c = ';') => noComment (equal ▸ member)
  rw [withoutComment, List.takeWhile_append_of_pos before]
  simp

/-- What a line says is all of it, or what stands before its first semicolon. -/
theorem withoutComment_iff (text code : List Char) :
    withoutComment text = code ↔
      ';' ∉ code ∧ (text = code ∨ ∃ comment, text = code ++ ';' :: comment) := by
  constructor
  · rintro rfl
    refine ⟨fun member => ?_, ?_⟩
    · have kept := List.mem_takeWhile_imp member
      simp at kept
    · have whole := List.takeWhile_append_dropWhile (p := (· != ';')) (l := text)
      cases dropped : text.dropWhile (· != ';') with
      | nil =>
        rw [dropped, List.append_nil] at whole
        exact .inl whole.symm
      | cons c comment =>
        have stops := List.head?_dropWhile_not (· != ';') text
        rw [dropped] at stops whole
        obtain rfl : c = ';' := by simpa using stops
        exact .inr ⟨comment, whole.symm⟩
  · rintro ⟨noComment, rfl | ⟨comment, rfl⟩⟩
    · exact withoutComment_of_notMem text noComment
    · exact withoutComment_of_comment code comment noComment

theorem sourceLine_iff (text : List Char) (label? : Option (List Char))
    (statement? : Option Statement) :
    SourceLine text label? statement? ↔ Code (withoutComment text) label? statement? := by
  constructor
  · intro form
    cases form with
    | plain noComment code =>
      rwa [(withoutComment_iff _ _).mpr ⟨noComment, .inl rfl⟩]
    | commented noComment code =>
      rwa [(withoutComment_iff _ _).mpr ⟨noComment, .inr ⟨_, rfl⟩⟩]
  · intro code
    obtain ⟨noComment, whole⟩ := (withoutComment_iff text _).mp rfl
    generalize withoutComment text = said at code noComment whole
    rcases whole with rfl | ⟨comment, rfl⟩
    · exact .plain noComment code
    · exact .commented noComment code

/-- Lines are read as the grammar says. -/
theorem parse_line_iff (number : Nat) (text : List Char) (line : Line) :
    Line.parse number text = .ok line ↔
      line.number = number ∧ line.text = text ∧
        SourceLine text line.label? line.statement? := by
  rw [sourceLine_iff, ← code_iff, Line.parse]
  cases read : parseWords (words (withoutComment text)) with
  | error cause =>
    refine iff_of_false (fun same => ?_) (by rintro ⟨-, -, ⟨⟩⟩)
    cases same
  | ok parts =>
    obtain ⟨label?, statement?⟩ := parts
    obtain ⟨lineNumber, lineText, lineLabel?, lineStatement?⟩ := line
    simp only [Except.ok.injEq, Line.mk.injEq, Prod.mk.injEq, eq_comm]

/-- A line of white space and comments says nothing. -/
theorem Line.parse_of_blank (number : Nat) (text : List Char)
    (blank : Blank (withoutComment text)) :
    Line.parse number text = .ok ⟨number, text, none, none⟩ := by
  rw [Line.parse, words_of_blank _ blank]
  rfl

theorem blank_withoutComment (text : List Char) (blank : Blank text) :
    Blank (withoutComment text) :=
  fun c member => blank c ((List.takeWhile_sublist _).mem member)

/-- Each line is read by itself. -/
theorem parse_of_mem (number : Nat) (texts : List (List Char)) (lines : List Line)
    (read : parseLines number texts = .ok lines) :
    ∀ line ∈ lines, Line.parse line.number line.text = .ok line := by
  induction texts generalizing number lines with
  | nil =>
    cases read
    exact List.forall_mem_nil _
  | cons text rest ih =>
    obtain ⟨line, first, read⟩ := bind_eq_ok _ _ _ read
    obtain ⟨others, following, read⟩ := bind_eq_ok _ _ _ read
    cases read
    obtain ⟨counted, same, -⟩ := (parse_line_iff number text line).mp first
    exact List.forall_mem_cons.mpr ⟨counted ▸ same ▸ first, ih (number + 1) others following⟩

/-- Lines are numbered in order and keep their texts. -/
theorem place_of_parseLines (number : Nat) (texts : List (List Char)) (lines : List Line)
    (read : parseLines number texts = .ok lines) :
    lines.map (·.number) = List.range' number lines.length ∧ lines.map (·.text) = texts := by
  induction texts generalizing number lines with
  | nil =>
    cases read
    exact ⟨rfl, rfl⟩
  | cons text rest ih =>
    obtain ⟨line, first, read⟩ := bind_eq_ok _ _ _ read
    obtain ⟨others, following, read⟩ := bind_eq_ok _ _ _ read
    cases read
    obtain ⟨counted, same, -⟩ := (parse_line_iff number text line).mp first
    obtain ⟨numbers, texts⟩ := ih (number + 1) others following
    rw [List.map_cons, List.map_cons, List.length_cons, List.range'_succ, numbers, texts, counted,
      same]
    exact ⟨rfl, rfl⟩

end WordMachine.Assembly
