import WordMachine.Proofs.Assembly.Correspondence

/-! What in a source is layout: comments, blank lines, the width of gaps, and white space beside the
marks in operands. Sources that differ in nothing else have the same answer. -/
namespace WordMachine.Text

/-! ### Gaps -/

/-- A text with each run of white space turned into one space. -/
def squeeze : List Char → List Char
  | [] => []
  | c :: rest =>
    if isBlank c then
      -- Of a run, the last character stands for all.
      if rest.head?.any isBlank then squeeze rest else ' ' :: squeeze rest
    else c :: squeeze rest

/-- White space parts words wherever it stands. -/
theorem words_append_blank_cons (front back : List Char) (c : Char) (blank : isBlank c = true) :
    words (front ++ c :: back) = words front ++ words back := by
  rw [words, List.splitOnP_append_cons front back blank, List.filter_append]
  rfl

theorem words_append_of_blank (text gap : List Char) (blank : Blank gap) :
    words (text ++ gap) = words text := by
  cases gap with
  | nil => rw [List.append_nil]
  | cons c rest =>
    obtain ⟨first, others⟩ := List.forall_mem_cons.mp blank
    rw [words_append_blank_cons text rest c first, words_of_blank rest others, List.append_nil]

/-- The width of gaps does not matter, whatever stands in front of them. -/
theorem words_append_squeeze (front text : List Char) :
    words (front ++ squeeze text) = words (front ++ text) := by
  induction text generalizing front with
  | nil => rfl
  | cons c rest ih =>
    rw [squeeze]
    by_cases blank : isBlank c = true
    · rw [if_pos blank, words_append_blank_cons front rest c blank]
      split
      next run =>
        -- The run goes on, so that the next character parts the same words.
        obtain ⟨d, others, rfl, next⟩ : ∃ d others, rest = d :: others ∧ isBlank d = true := by
          cases rest with
          | nil => cases run
          | cons d others => exact ⟨d, others, rfl, run⟩
        have gone := words_append_blank_cons [] others d next
        rw [ih, words_append_blank_cons front others d next]
        exact congrArg (words front ++ ·) gone.symm
      · rw [words_append_blank_cons front _ ' ' (by decide)]
        exact congrArg (words front ++ ·) (ih [])
    · rw [if_neg blank, List.append_cons, ih, ← List.append_cons]

theorem words_squeeze (text : List Char) : words (squeeze text) = words text :=
  words_append_squeeze [] text

theorem mem_of_mem_squeeze (text : List Char) (c : Char) (member : c ∈ squeeze text) :
    c = ' ' ∨ c ∈ text := by
  induction text with
  | nil => cases member
  | cons d rest ih =>
    have later (inside : c ∈ squeeze rest) : c = ' ' ∨ c ∈ d :: rest :=
      (ih inside).imp_right (List.mem_cons_of_mem d)
    rw [squeeze] at member
    split at member
    · split at member
      · exact later member
      · exact (List.mem_cons.mp member).elim .inl later
    · rcases List.mem_cons.mp member with rfl | inside
      · exact .inr List.mem_cons_self
      · exact later inside

/-- A text is trimmed by taking white space off its ends. -/
theorem trim_split (text : List Char) :
    ∃ front back, text = front ++ trim text ++ back ∧ Blank front ∧ Blank back := by
  have first := List.takeWhile_append_dropWhile (p := isBlank) (l := text)
  have last := List.takeWhile_append_dropWhile (p := isBlank)
    (l := (text.dropWhile isBlank).reverse)
  refine ⟨text.takeWhile isBlank, ((text.dropWhile isBlank).reverse.takeWhile isBlank).reverse, ?_,
    fun c member => List.mem_takeWhile_imp member, fun c member =>
      List.mem_takeWhile_imp (List.mem_reverse.mp member)⟩
  rw [trim, List.append_assoc, ← List.reverse_append, last, List.reverse_reverse, first]

theorem words_trim (text : List Char) : words (trim text) = words text := by
  obtain ⟨front, back, whole, before, behind⟩ := trim_split text
  rw [congrArg words whole, words_append_of_blank _ back behind,
    words_of_blank_append front _ before]

theorem blank_singleton (c : Char) (blank : isBlank c = true) : Blank [c] :=
  List.forall_mem_singleton.mpr blank

theorem parted_append (gap rest : List Char) (nonempty : gap ≠ []) (blank : Blank gap) :
    Parted (gap ++ rest) := by
  obtain ⟨c, others, rfl⟩ := List.exists_cons_of_ne_nil nonempty
  rintro _ ⟨⟩
  exact blank c List.mem_cons_self

theorem dropBlanks_append (front back : List Char) :
    dropBlanks (front ++ back) = dropBlanks front ++ dropBlanks back :=
  List.filter_append front back

end WordMachine.Text

namespace WordMachine.Assembly

open WordMachine.Text

/-! ### Layout -/

namespace Layout

/-- A line without its comment, with single spaces for gaps and none at its ends. -/
def tidyLine (text : List Char) : List Char := trim (squeeze (withoutComment text))

/-- A source of tidy lines, of which no line is empty. -/
def tidied (source : List Char) : List Char :=
  ['\n'].intercalate (((lines source).map tidyLine).filter (· ≠ []))

/-- The characters of operands beside which white space may stand. -/
def isMark (c : Char) : Bool := c = ',' || c = '[' || c = ']' || c = '+'

/-- A text with more white space beside marks. -/
inductive Spaced : List Char → List Char → Prop
  | nil : Spaced [] []
  | kept (c : Char) {text looser : List Char} (rest : Spaced text looser) :
      Spaced (c :: text) (c :: looser)
  | around {c : Char} {before behind text looser : List Char} (mark : isMark c = true)
      (gap : Blank before) (otherGap : Blank behind) (rest : Spaced text looser) :
      Spaced (c :: text) (before ++ c :: behind ++ looser)

/-- What stands in front of operands: a mnemonic, perhaps behind a label, and the white space that
ends it. -/
inductive Opening : List Char → Prop
  | unlabelled {gap mnemonic : List Char} {space : Char} (blank : Blank gap)
      (nonempty : mnemonic ≠ []) (solid : Solid mnemonic) (noColon : mnemonic.head? ≠ some ':')
      (ends : isBlank space = true) : Opening (gap ++ mnemonic ++ [space])
  | labelled {gap name between mnemonic : List Char} {space : Char} (blank : Blank gap)
      (solidName : Solid name) (apart : between ≠ []) (blankBetween : Blank between)
      (nonempty : mnemonic ≠ []) (solid : Solid mnemonic) (ends : isBlank space = true) :
      Opening (gap ++ ':' :: name ++ between ++ mnemonic ++ [space])

/-- One change to the layout of a line. -/
inductive Loosens : List Char → List Char → Prop
  | spaced {opening operands looser : List Char} (opens : Opening opening)
      (spaced : Spaced operands looser) : Loosens (opening ++ operands) (opening ++ looser)
  | commented (text comment : List Char) : Loosens text (text ++ ';' :: comment)

/-- Lines laid out more loosely: any number of changes to each, and blank lines anywhere. -/
inductive Looser : List (List Char) → List (List Char) → Prop
  | nil : Looser [] []
  | line {text other : List Char} {rest others : List (List Char)}
      (changes : Relation.ReflTransGen Loosens text other) (onwards : Looser rest others) :
      Looser (text :: rest) (other :: others)
  | added {gap other : List Char} {texts others : List (List Char)} (blank : Blank gap)
      (changes : Relation.ReflTransGen Loosens gap other) (onwards : Looser texts others) :
      Looser texts (other :: others)

end Layout

/-- What is wrong, apart from white space in what is quoted. -/
def Cause.condensed : Cause → Cause
  | .emptyOperand operands => .emptyOperand (dropBlanks operands)
  | cause => cause

/-- What is wrong, without the place. -/
def Error.kind (error : Error) : Cause := error.cause.condensed

open Layout

/-! ### Tidy lines -/

theorem reading_tidyLine (text : List Char) : reading (tidyLine text) = reading text := by
  have noComment : ';' ∉ tidyLine text := by
    intro member
    rcases mem_of_mem_squeeze _ _ (mem_of_mem_trim _ _ member) with space | inside
    · cases space
    · exact ((withoutComment_iff text _).mp rfl).1 inside
  rw [reading, reading, withoutComment_of_notMem _ noComment, tidyLine, words_trim, words_squeeze]

/-- A line that is tidied away says nothing. -/
theorem reading_of_tidyLine_eq_nil (text : List Char) (gone : tidyLine text = []) :
    reading text = .ok (none, none) := by
  rw [← reading_tidyLine, gone]
  rfl

theorem notMem_tidyLine (source text : List Char) (member : text ∈ lines source) :
    '\n' ∉ tidyLine text := by
  intro inside
  rcases mem_of_mem_squeeze _ _ (mem_of_mem_trim _ _ inside) with space | inside
  · cases space
  · exact notMem_of_mem_splitOn '\n' source text member ((List.takeWhile_sublist _).mem inside)

/-! ### White space beside marks -/

theorem dropBlanks_of_spaced (text looser : List Char) (spaced : Spaced text looser) :
    dropBlanks looser = dropBlanks text := by
  induction spaced with
  | nil => rfl
  | kept c _ ih => rw [dropBlanks_cons, dropBlanks_cons, ih]
  | @around c before behind text looser _ gap otherGap _ ih =>
    rw [dropBlanks_append, dropBlanks_append, (dropBlanks_eq_nil_iff before).mpr gap,
      List.nil_append, dropBlanks_cons, dropBlanks_cons,
      (dropBlanks_eq_nil_iff behind).mpr otherGap, ih]
    split <;> rfl

theorem withoutComment_append (front back : List Char) (noComment : ';' ∉ front) :
    withoutComment (front ++ back) = front ++ withoutComment back := by
  refine List.takeWhile_append_of_pos fun c member => ?_
  rw [bne_iff_ne]
  rintro rfl
  exact noComment member

/-- Nothing counts that is put behind a comment. -/
theorem withoutComment_append_of_mem (front back : List Char) (comment : ';' ∈ front) :
    withoutComment (front ++ back) = withoutComment front := by
  obtain ⟨said, whole | ⟨rest, whole⟩⟩ := (withoutComment_iff front _).mp rfl
  · rw [← whole] at said
    exact absurd comment said
  · refine (withoutComment_iff _ _).mpr ⟨said, .inr ⟨rest ++ back, ?_⟩⟩
    rw [congrArg (· ++ back) whole, List.append_assoc, List.cons_append]

theorem noComment_of_blank (gap : List Char) (blank : Blank gap) : ';' ∉ gap := by
  intro member
  cases blank ';' member

/-- White space beside marks stays so when a comment is left out. -/
theorem spaced_withoutComment (text looser : List Char) (spaced : Spaced text looser) :
    Spaced (withoutComment text) (withoutComment looser) := by
  induction spaced with
  | nil => exact .nil
  | @kept c text looser _ ih =>
    by_cases comment : c = ';'
    · subst comment
      exact .nil
    · have visible : ';' ∉ [c] := by simpa using Ne.symm comment
      rw [← List.singleton_append, ← List.singleton_append (l := looser),
        withoutComment_append _ _ visible, withoutComment_append _ _ visible]
      exact .kept c ih
  | @around c before behind text looser mark gap otherGap _ ih =>
    have visible : ';' ∉ [c] := by
      rw [List.mem_singleton]
      rintro rfl
      cases mark
    have front : ';' ∉ before ++ c :: behind := by
      simpa [noComment_of_blank before gap, noComment_of_blank behind otherGap] using visible
    rw [← List.singleton_append, withoutComment_append _ _ visible, withoutComment_append _ _ front]
    exact .around mark gap otherGap ih

/-! ### Looser lines -/

private theorem mapError_map {α β : Type} (read : Except Cause α) (f : α → β) :
    (read.map f).mapError Cause.condensed = (read.mapError Cause.condensed).map f := by
  cases read <;> rfl

/-- Operands count by what is left of them without white space. -/
theorem ofWords_of_dropBlanks (mnemonic operands other : List Char)
    (same : dropBlanks operands = dropBlanks other) :
    (Statement.ofWords (mnemonic :: words operands)).mapError Cause.condensed =
      (Statement.ofWords (mnemonic :: words other)).mapError Cause.condensed := by
  by_cases blank : Blank operands
  · have otherBlank : Blank other := by
      rwa [← dropBlanks_eq_nil_iff, ← same, dropBlanks_eq_nil_iff]
    rw [words_of_blank operands blank, words_of_blank other otherBlank]
  · have otherFilled : ¬Blank other := by
      rwa [← dropBlanks_eq_nil_iff, ← same, dropBlanks_eq_nil_iff]
    have condensed (text : List Char) :
        Cause.condensed (.emptyOperand (collapse text)) = .emptyOperand (dropBlanks text) :=
      congrArg Cause.emptyOperand (dropBlanks_collapse text)
    rw [ofWords_of_listed mnemonic operands blank, ofWords_of_listed mnemonic other otherFilled,
      map_dropBlanks_splitOn, map_dropBlanks_splitOn, same]
    split
    · exact congrArg Except.error (by rw [condensed, condensed, same])
    · rfl

theorem parseWords_of_noColon_head (word : List Char) (rest : List (List Char))
    (noColon : word.head? ≠ some ':') :
    parseWords (word :: rest) = (Statement.ofWords (word :: rest)).map (none, ·) := by
  unfold parseWords
  split
  next same =>
    obtain ⟨rfl, -⟩ := List.cons.inj same
    exact absurd rfl noColon
  · rfl

/-- Behind an opening only what is left without white space counts. -/
theorem parseWords_of_opening (opening operands other : List Char) (opens : Opening opening)
    (same : dropBlanks operands = dropBlanks other) :
    (parseWords (words (opening ++ operands))).mapError Cause.condensed =
      (parseWords (words (opening ++ other))).mapError Cause.condensed := by
  have follows (mnemonic : List Char) := ofWords_of_dropBlanks mnemonic operands other same
  -- The words of an opening are its own, since white space ends it.
  cases opens with
  | @unlabelled gap mnemonic space blank nonempty solid noColon ends =>
    have parted (rest : List Char) :
        words (gap ++ mnemonic ++ [space] ++ rest) = mnemonic :: words rest := by
      rw [List.append_assoc _ [space], List.singleton_append, words_append_blank_cons _ _ _ ends,
        words_of_blank_append gap _ blank, words_of_solid mnemonic solid nonempty]
      rfl
    rw [parted, parted, parseWords_of_noColon_head _ _ noColon,
      parseWords_of_noColon_head _ _ noColon, mapError_map, mapError_map, follows]
  | @labelled gap name between mnemonic space blank solidName apart blankBetween nonempty solid
      ends =>
    have declaration : Solid (':' :: name) := List.forall_mem_cons.mpr ⟨by decide, solidName⟩
    have parted (rest : List Char) :
        words (gap ++ ':' :: name ++ between ++ mnemonic ++ [space] ++ rest) =
          (':' :: name) :: mnemonic :: words rest := by
      have whole : gap ++ ':' :: name ++ between ++ mnemonic ++ [space] ++ rest =
          gap ++ ':' :: name ++ (between ++ mnemonic ++ ([space] ++ rest)) := by
        simp only [List.append_assoc]
      have last : Blank [space] := blank_singleton space ends
      have behindName : Parted (between ++ mnemonic ++ ([space] ++ rest)) := by
        rw [List.append_assoc]
        exact parted_append between _ apart blankBetween
      rw [whole, words_of_word gap _ _ blank (List.cons_ne_nil _ _) declaration behindName,
        words_of_word between mnemonic _ blankBetween nonempty solid
          (parted_append [space] rest (List.cons_ne_nil _ _) last),
        words_of_blank_append [space] rest last]
    rw [parted, parted, parseWords, parseWords]
    split
    · rw [mapError_map, mapError_map, follows]
    · rfl

theorem reading_of_loosens (text other : List Char) (change : Loosens text other) :
    (reading other).mapError Cause.condensed = (reading text).mapError Cause.condensed := by
  cases change with
  | @spaced opening operands looser opens spaced =>
    -- What looks like operands may be part of a comment.
    by_cases comment : ';' ∈ opening
    · rw [reading, reading, withoutComment_append_of_mem _ _ comment,
        withoutComment_append_of_mem _ _ comment]
    · rw [reading, reading, withoutComment_append _ _ comment, withoutComment_append _ _ comment]
      exact parseWords_of_opening opening _ _ opens
        (dropBlanks_of_spaced _ _ (spaced_withoutComment operands looser spaced))
  | commented text comment =>
    have none : withoutComment (text ++ ';' :: comment) = withoutComment text := by
      by_cases earlier : ';' ∈ text
      · exact withoutComment_append_of_mem _ _ earlier
      · rw [withoutComment_append _ _ earlier, withoutComment_of_notMem _ earlier]
        exact List.append_nil text
    rw [reading, reading, none]

theorem reading_of_changes (text other : List Char)
    (changes : Relation.ReflTransGen Loosens text other) :
    (reading other).mapError Cause.condensed = (reading text).mapError Cause.condensed := by
  induction changes with
  | refl => rfl
  | tail _ change ih => rw [reading_of_loosens _ _ change, ih]

/-! ### Sources -/

theorem readAlike_of_condensed (number otherNumber : Nat) (text other : List Char)
    (same : (reading other).mapError Cause.condensed = (reading text).mapError Cause.condensed) :
    ReadAlike Error.kind number text otherNumber other := by
  rcases mapError_eq_cases same with
    ⟨part, second, first⟩ | ⟨cause, otherCause, second, first, seen⟩
  · exact .said first second fun _ => rfl
  · exact .unread first second seen.symm

theorem aligned_tidy (number otherNumber : Nat) (texts : List (List Char)) :
    AlignedTexts Error.kind number texts otherNumber ((texts.map tidyLine).filter (· ≠ [])) := by
  induction texts generalizing number otherNumber with
  | nil => exact .nil
  | cons text rest ih =>
    rw [List.map_cons]
    by_cases gone : tidyLine text = []
    · rw [List.filter_cons_of_neg (by simpa using gone)]
      exact .left (reading_of_tidyLine_eq_nil text gone) (ih (number + 1) otherNumber)
    · rw [List.filter_cons_of_pos (by simpa using gone)]
      exact .both (readAlike_of_condensed _ _ _ _ (by rw [reading_tidyLine]))
        (ih (number + 1) (otherNumber + 1))

theorem aligned_tidied (source : List Char) :
    AlignedTexts Error.kind 1 (lines source) 1 (lines (tidied source)) := by
  have aligned (otherNumber : Nat) := aligned_tidy 1 otherNumber (lines source)
  rw [tidied]
  generalize kept : ((lines source).map tidyLine).filter (· ≠ []) = texts at aligned ⊢
  cases texts with
  | nil =>
    -- A text without lines is an empty line.
    exact .right rfl (aligned 2)
  | cons first others =>
    have whole : ∀ text ∈ first :: others, '\n' ∉ text := by
      intro text member
      rw [← kept] at member
      obtain ⟨text, inside, rfl⟩ := List.mem_map.mp (List.mem_filter.mp member).1
      exact notMem_tidyLine source text inside
    rw [lines, lines, List.splitOn_intercalate '\n' whole (List.cons_ne_nil _ _)]
    exact aligned 1

theorem aligned_looser (number otherNumber : Nat) (texts others : List (List Char))
    (looser : Looser texts others) : AlignedTexts Error.kind number texts otherNumber others := by
  induction looser generalizing number otherNumber with
  | nil => exact .nil
  | line changes _ ih =>
    exact .both (readAlike_of_condensed _ _ _ _ (reading_of_changes _ _ changes))
      (ih (number + 1) (otherNumber + 1))
  | @added gap other _ _ blank changes _ ih =>
    refine .right ?_ (ih number (otherNumber + 1))
    have silent : reading gap = .ok (none, none) := by
      rw [reading, words_of_blank _ (blank_withoutComment gap blank)]
      rfl
    have same := reading_of_changes gap other changes
    rw [silent] at same
    rcases mapError_eq_cases same with ⟨part, second, first⟩ | ⟨_, _, _, first, _⟩
    · exact second.trans first.symm
    · cases first

/-- Layout does not count: without its comments, blank lines and wide gaps a source has the same
answer, and so it has with more of them. -/
theorem assemble_any_layout (session : Session) (source : List Char) :
    (session.assemble (tidied source)).1.mapError Error.kind =
        (session.assemble source).1.mapError Error.kind ∧
      ∀ looser, Looser (lines source) (lines looser) →
        (session.assemble looser).1.mapError Error.kind =
          (session.assemble source).1.mapError Error.kind := by
  constructor
  · have aligned := aligned_tidied source
    exact (assemble_of_aligned session session _ _ aligned).symm
  · intro looser more
    have aligned := aligned_looser 1 1 _ _ more
    exact (assemble_of_aligned session session _ _ aligned).symm

/-- A source with white space put around all kinds of marks, and comments on a line that it has and
on one that is new. -/
theorem assemble_any_layout_of_marks :
    let source := "SET A,[e+I]\n:e".toList
    let looser := "\t;note\nSET A ,\t[ e + I ]; two\n:e".toList
    Looser (lines source) (lines looser) ∧
      assemble source = .ok ⟨[0x5801, 2], [(['e'], 2)]⟩ ∧
      (assemble looser).mapError Error.kind = .ok ⟨[0x5801, 2], [(['e'], 2)]⟩ := by
  intro source looser
  have space : Blank [' '] := blank_singleton ' ' (by decide)
  have tab : Blank ['\t'] := blank_singleton '\t' (by decide)
  have none : Blank [] := List.forall_mem_nil _
  have closing : Spaced ['I', ']'] ['I', ' ', ']'] := .kept 'I' (.around rfl space none .nil)
  have operands : Spaced ['A', ',', '[', 'e', '+', 'I', ']']
      ['A', ' ', ',', '\t', '[', ' ', 'e', ' ', '+', ' ', 'I', ' ', ']'] :=
    .kept 'A' (.around rfl space tab (.around rfl none space
      (.kept 'e' (.around rfl space space closing))))
  have opens : Opening "SET ".toList :=
    .unlabelled none (by decide : ['S', 'E', 'T'] ≠ []) (by simp [Solid]; decide) (by decide) rfl
  have first : lines source =
      ["SET ".toList ++ ['A', ',', '[', 'e', '+', 'I', ']'], [':', 'e']] := by decide +kernel
  have second : lines looser =
      [['\t'] ++ ';' :: "note".toList,
        ("SET ".toList ++ ['A', ' ', ',', '\t', '[', ' ', 'e', ' ', '+', ' ', 'I', ' ', ']']) ++
          ';' :: " two".toList, [':', 'e']] := by decide +kernel
  have more : Looser (lines source) (lines looser) := by
    rw [first, second]
    exact .added tab (.single (.commented _ _))
      (.line (.tail (.single (.spaced opens operands)) (.commented _ _)) (.line .refl .nil))
  have answer : assemble source = .ok ⟨[0x5801, 2], [(['e'], 2)]⟩ := by decide +kernel
  refine ⟨more, answer, ?_⟩
  rw [assemble, (assemble_any_layout Session.initial source).2 looser more]
  exact congrArg (Except.mapError Error.kind) answer

end WordMachine.Assembly
