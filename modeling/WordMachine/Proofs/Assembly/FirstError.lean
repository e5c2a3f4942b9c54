import WordMachine.Proofs.Assembly.Faults
import WordMachine.Proofs.Assembly.Misreading
import WordMachine.Proofs.Assembly.Outcomes

/-! Which of the errors of a source is reported, and what is said of its place. Errors that are
found while lines are read come before those of labels, and these before those of statements; among
errors of one kind the first line counts. -/
namespace WordMachine.Assembly

open WordMachine.Text

namespace Grammar

/-- What lines say, each of which has the form of one. -/
def SourceLines (texts : List (List Char)) (parts : List (Option (List Char) × Option Statement)) :
    Prop :=
  List.Forall₂ (fun text part => SourceLine text part.1 part.2) texts parts

/-- The error that counts in a source. Lines are numbered from one. -/
inductive FirstError (source : List Char) : Error → Prop
  /-- The first line that does not have the form of one. -/
  | reading {front back : List (List Char)} {text : List Char}
      {parts : List (Option (List Char) × Option Statement)} {cause : Cause}
      (split : lines source = front ++ text :: back) (readable : SourceLines front parts)
      (misread : MisreadLine text cause) :
      FirstError source ⟨cause, front.length + 1, text⟩
  /-- All lines can be read: the first label that those in front of it or its name forbid. -/
  | labelling {front back : List (Option (List Char) × Option Statement)}
      {part : Option (List Char) × Option Statement} {text name : List Char} {cause : Cause}
      (readable : SourceLines (lines source) (front ++ part :: back))
      (placed : (lines source)[front.length]? = some text)
      (declarable : Declarable (front.filterMap Prod.fst)) (named : part.1 = some name)
      (mislabelled : Mislabelled (front.filterMap Prod.fst) name cause) :
      FirstError source ⟨cause, front.length + 1, text⟩
  /-- All lines can be read and all labels declared: the first statement with something wrong. -/
  | encoding {front back : List (Option (List Char) × Option Statement)}
      {part : Option (List Char) × Option Statement} {text : List Char} {statement : Statement}
      {cause : Cause} (readable : SourceLines (lines source) (front ++ part :: back))
      (placed : (lines source)[front.length]? = some text)
      (declarable : Declarable ((front ++ part :: back).filterMap Prod.fst))
      (complete : ∀ other ∈ front.filterMap Prod.snd,
        Complete ((front ++ part :: back).filterMap Prod.fst) other)
      (stated : part.2 = some statement)
      (misencoded : Misencoded ((front ++ part :: back).filterMap Prod.fst) statement cause) :
      FirstError source ⟨cause, front.length + 1, text⟩

end Grammar

/-- An error tells its place in a source: its line number counts one of the lines, its text is that
line, and its message names the number first and what is at fault in the line last. -/
structure Error.PlacedIn (error : Error) (source : List Char) : Prop where
  first : 1 ≤ error.line
  last : error.line ≤ (lines source).length
  text : (lines source)[error.line - 1]? = some error.text
  token : error.token ≠ []
  message : error.message = "Line " ++ Decimal.written error.line ++ ": " ++
    (error.cause.description ++ (": '" ++ String.ofList error.token ++ "'"))

open Grammar

/-! ### Lines -/

/-- The place of a line that has been read: its number and its text are those in the source. -/
private theorem split_of_parse (source : List Char) (front back : List Line) (line : Line)
    (read : parse source = .ok (front ++ line :: back)) :
    SourceLines (lines source) (front.map Line.part ++ line.part :: back.map Line.part) ∧
      (lines source)[(front.map Line.part).length]? = some line.text ∧
      line.number = (front.map Line.part).length + 1 := by
  have readable := (parseLines_iff 1 (lines source) _).mp ⟨_, read, rfl⟩
  obtain ⟨numbers, texts⟩ := place_of_parseLines 1 (lines source) _ read
  have placed := congrArg (·[front.length]?) texts
  have counted := congrArg (·[front.length]?) numbers
  rw [List.map_append, List.map_cons] at readable
  rw [List.length_map]
  exact ⟨readable, by simpa using placed.symm, by simpa [Nat.add_comm] using counted⟩

private theorem parse_of_split (source : List Char)
    (front back : List (Option (List Char) × Option Statement))
    (part : Option (List Char) × Option Statement) (text : List Char)
    (readable : SourceLines (lines source) (front ++ part :: back))
    (placed : (lines source)[front.length]? = some text) :
    ∃ before line after, parse source = .ok (before ++ line :: after) ∧
      before.map Line.part = front ∧ line.part = part ∧ after.map Line.part = back ∧
      line.number = front.length + 1 ∧ line.text = text := by
  obtain ⟨all, read, same⟩ := (parseLines_iff 1 (lines source) _).mpr readable
  obtain ⟨before, others, rfl, rfl, rest⟩ := List.map_eq_append_iff.mp same
  obtain ⟨line, after, rfl, rfl, rfl⟩ := List.map_eq_cons_iff.mp rest
  obtain ⟨-, found, counted⟩ := split_of_parse source before after line read
  rw [found, Option.some.injEq] at placed
  exact ⟨before, line, after, read, rfl, rfl, rfl, counted, placed⟩

private theorem names_of_parts (lines : List Line) :
    (lines.map Line.part).filterMap Prod.fst = lines.filterMap (·.label?) :=
  List.filterMap_map

private theorem statements_of_parts (lines : List Line) :
    (lines.map Line.part).filterMap Prod.snd = statements lines :=
  List.filterMap_map

/-! ### Sources -/

/-- Where an answer is an error, one part of the work has found it, and those before it none. -/
theorem refused_iff (session : Session) (source : List Char) (error : Error) :
    (session.assemble source).1 = .error error ↔ parse source = .error error ∨
      ∃ lines, parse source = .ok lines ∧ ((scan lines).error? = some error ∨
        (scan lines).error? = none ∧ (emit (scan lines).labels lines).error? = some error) := by
  constructor
  · intro refused
    have outcome := session.outcome source
    rw [refused] at outcome
    generalize (session.assemble source).2 = after at outcome
    cases outcome with
    | unread unread => exact .inl unread
    | mislabelled read found => exact .inr ⟨_, read, .inl found⟩
    | unencoded read scanned found => exact .inr ⟨_, read, .inr ⟨scanned, found⟩⟩
  · rintro (unread | ⟨lines, read, found | ⟨scanned, found⟩⟩)
    · simp only [Session.assemble, unread]
    · simp only [Session.assemble, read, found]
    · simp only [Session.assemble, read, scanned, found]

private theorem unread_iff (source : List Char) (error : Error) :
    parse source = .error error ↔ ∃ front text back parts cause,
      lines source = front ++ text :: back ∧ SourceLines front parts ∧ MisreadLine text cause ∧
        error = ⟨cause, front.length + 1, text⟩ := by
  rw [parse, parseLines_error_iff]
  constructor
  · rintro ⟨front, text, back, before, split, read, found⟩
    obtain ⟨cause, misread, rfl⟩ := (parse_line_error_iff _ text error).mp found
    exact ⟨front, text, back, _, cause, split, (parseLines_iff 1 front _).mp ⟨before, read, rfl⟩,
      misread, by rw [Nat.add_comm]⟩
  · rintro ⟨front, text, back, parts, cause, split, readable, misread, rfl⟩
    obtain ⟨before, read, -⟩ := (parseLines_iff 1 front parts).mpr readable
    exact ⟨front, text, back, before, split, read,
      (parse_line_error_iff _ text _).mpr ⟨cause, misread, by rw [Nat.add_comm]⟩⟩

private theorem mislabelled_iff (lines : List Line) (error : Error)
    (spelled : ∀ line ∈ lines, ∀ name, line.label? = some name → isLabelName name = true) :
    (scan lines).error? = some error ↔ ∃ front line back name cause,
      lines = front ++ line :: back ∧ Declarable (front.filterMap (·.label?)) ∧
        line.label? = some name ∧ Mislabelled (front.filterMap (·.label?)) name cause ∧
        error = ⟨cause, line.number, line.text⟩ := by
  rw [scan, scanFrom_error_iff]
  constructor
  · rintro ⟨front, line, back, rfl, clean, found⟩
    obtain ⟨name, cause, named, faulty, rfl⟩ := (declare_error_iff _ _ line error).mp found
    have before (other : Line) (member : other ∈ front) :=
      spelled other (List.mem_append_left _ member)
    refine ⟨front, line, back, name, cause, rfl, (declarable_iff front before).mpr clean, named, ?_,
      rfl⟩
    -- When the pass came to the line it had declared the labels in front, and no others.
    rw [← labels_of_scan front clean]
    exact (labelFault?_iff _ name (spelled line (by simp) name named) cause).mp faulty
  · rintro ⟨front, line, back, name, cause, rfl, declarable, named, mislabelled, rfl⟩
    have before (other : Line) (member : other ∈ front) :=
      spelled other (List.mem_append_left _ member)
    have clean := (declarable_iff front before).mp declarable
    rw [← labels_of_scan front clean] at mislabelled
    exact ⟨front, line, back, rfl, clean, (declare_error_iff _ _ line _).mpr ⟨name, cause, named,
      (labelFault?_iff _ name (spelled line (by simp) name named) cause).mpr mislabelled, rfl⟩⟩

private theorem unencoded_iff (labels : Labels) (referable : labels.AllReferable)
    (lines : List Line) (error : Error) :
    (emit labels lines).error? = some error ↔ ∃ front line back statement cause,
      lines = front ++ line :: back ∧
        (∀ other ∈ statements front, Complete (labels.map Prod.fst) other) ∧
        line.statement? = some statement ∧ Misencoded (labels.map Prod.fst) statement cause ∧
        error = ⟨cause, line.number, line.text⟩ := by
  simp only [emit, emitFrom_error_iff, ← encodable_iff labels referable,
    ← encode_error_iff labels referable]
  constructor
  · rintro ⟨front, line, cause, ⟨⟨back, split⟩, before, statement, holds, wrong⟩, said⟩
    exact ⟨front, line, back, statement, cause, split, before, holds, wrong, said⟩
  · rintro ⟨front, line, back, statement, cause, split, before, holds, wrong, said⟩
    exact ⟨front, line, cause, ⟨⟨back, split⟩, before, statement, holds, wrong⟩, said⟩

private theorem names_of_split (front back : List Line) (line : Line) :
    (front.map Line.part ++ line.part :: back.map Line.part).filterMap Prod.fst =
      (front ++ line :: back).filterMap (·.label?) := by
  rw [← List.map_cons, ← List.map_append, names_of_parts]

theorem refused_iff_firstError (session : Session) (source : List Char) (error : Error) :
    (session.assemble source).1 = .error error ↔ FirstError source error := by
  rw [refused_iff]
  constructor
  · rintro (unread | ⟨all, read, found⟩)
    · obtain ⟨front, text, back, parts, cause, split, readable, misread, rfl⟩ :=
        (unread_iff source error).mp unread
      exact .reading split readable misread
    · have spelled := label_of_parseLines 1 _ all read
      rcases found with found | ⟨scanned, found⟩
      · obtain ⟨front, line, back, name, cause, rfl, declarable, named, mislabelled, rfl⟩ :=
          (mislabelled_iff all error spelled).mp found
        obtain ⟨readable, placed, counted⟩ := split_of_parse source front back line read
        -- What forbids the label is said of the names in front of it alone.
        rw [← names_of_parts] at declarable mislabelled
        rw [counted]
        exact .labelling readable placed declarable named mislabelled
      · have sound := sound_of_scan all spelled
        obtain ⟨front, line, back, statement, cause, rfl, complete, stated, misencoded, rfl⟩ :=
          (unencoded_iff _ sound.allReferable all error).mp found
        obtain ⟨readable, placed, counted⟩ := split_of_parse source front back line read
        have declarable := (declarable_iff _ spelled).mpr scanned
        -- Operands can mention the labels of all lines, also of those behind.
        rw [labels_of_scan _ scanned, ← names_of_split] at complete misencoded
        rw [← names_of_split] at declarable
        rw [← statements_of_parts] at complete
        rw [counted]
        exact .encoding readable placed declarable complete stated misencoded
  · intro form
    cases form with
    | reading split readable misread =>
      exact .inl ((unread_iff source _).mpr ⟨_, _, _, _, _, split, readable, misread, rfl⟩)
    | @labelling front back part text name cause readable placed declarable named mislabelled =>
      obtain ⟨before, line, after, read, rfl, rfl, rfl, counted, rfl⟩ :=
        parse_of_split source front back part text readable placed
      have spelled := label_of_parseLines 1 _ _ read
      rw [names_of_parts] at declarable mislabelled
      exact .inr ⟨_, read, .inl ((mislabelled_iff _ _ spelled).mpr
        ⟨before, line, after, name, cause, rfl, declarable, named, mislabelled, by rw [counted]⟩)⟩
    | @encoding front back part text statement cause readable placed declarable complete stated
        misencoded =>
      obtain ⟨before, line, after, read, rfl, rfl, rfl, counted, rfl⟩ :=
        parse_of_split source front back part text readable placed
      have spelled := label_of_parseLines 1 _ _ read
      have sound := sound_of_scan _ spelled
      rw [names_of_split] at declarable complete misencoded
      rw [statements_of_parts] at complete
      have scanned := (declarable_iff _ spelled).mp declarable
      rw [← labels_of_scan _ scanned] at complete misencoded
      exact .inr ⟨_, read, .inr ⟨scanned, (unencoded_iff _ sound.allReferable _ _).mpr
        ⟨before, line, after, statement, cause, rfl, complete, stated, misencoded, by
          rw [counted]⟩⟩⟩

/-! ### Places -/

private theorem token_of_misstated (text : List Char) (cause : Cause)
    (misstated : Misstated text cause) :
    ∃ operands, operands ≠ [] ∧ cause = .emptyOperand operands := by
  obtain ⟨-, -, -, -, listed, -, -⟩ := misstated
  exact ⟨_, collapse_ne_nil _ listed, rfl⟩

private theorem token_of_misreadLine (number : Nat) (text : List Char) (cause : Cause)
    (misread : MisreadLine text cause) : (Error.mk cause number text).token ≠ [] := by
  -- A comment is no part of what is at fault.
  have said : ∃ code, Misread code cause := by
    cases misread with
    | plain _ misread => exact ⟨_, misread⟩
    | commented _ misread => exact ⟨_, misread⟩
  obtain ⟨code, misread⟩ := said
  cases misread with
  | invalidLabel => exact List.cons_ne_nil _ _
  | unlabelled _ misstated | labelled _ _ _ _ _ misstated =>
    obtain ⟨operands, nonempty, rfl⟩ := token_of_misstated _ cause misstated
    exact nonempty

/-- A statement has a mnemonic, no operand of it is empty, and its line is not blank. -/
private theorem visible_of_content (text : List Char) (statement : Statement)
    (content : Content text (some statement)) :
    ¬Blank text ∧ statement.mnemonic ≠ [] ∧ [] ∉ statement.operands := by
  cases content with
  | @statement gap mnemonic rest operands _ nonempty solid _ listed =>
    refine ⟨fun blank => ?_, upper_ne_nil mnemonic nonempty, ?_⟩
    · -- The first letter of the mnemonic would be white space.
      obtain ⟨c, others, rfl⟩ := List.exists_cons_of_ne_nil nonempty
      have white := blank c (by simp)
      rw [solid c List.mem_cons_self] at white
      cases white
    · rcases (operands_iff rest operands).mp listed with ⟨-, rfl⟩ | ⟨-, -, filled⟩
      · exact List.not_mem_nil
      · exact filled

private theorem visible_of_sourceLine (text : List Char) (label? : Option (List Char))
    (statement : Statement) (line : SourceLine text label? (some statement)) :
    ¬Blank text ∧ statement.mnemonic ≠ [] ∧ [] ∉ statement.operands := by
  have code (said : List Char) (code : Code said label? (some statement)) :
      ¬Blank said ∧ statement.mnemonic ≠ [] ∧ [] ∉ statement.operands := by
    cases code with
    | unlabelled _ content => exact visible_of_content said statement content
    | labelled _ _ _ _ _ content =>
      obtain ⟨visible, spelled⟩ := visible_of_content _ statement content
      exact ⟨fun blank => visible fun c member => blank c (List.mem_append_right _ member), spelled⟩
  cases line with
  | plain _ said => exact code text said
  | commented _ said =>
    obtain ⟨visible, spelled⟩ := code _ said
    exact ⟨fun blank => visible fun c member => blank c (List.mem_append_left _ member), spelled⟩

private theorem named_of_sourceLine (text name : List Char) (statement? : Option Statement)
    (line : SourceLine text (some name) statement?) : name ≠ [] := by
  cases line with
  | plain _ code | commented _ code =>
    cases code with
    | labelled _ nonempty _ _ _ _ => exact nonempty

private theorem sourceLine_at (texts : List (List Char))
    (front back : List (Option (List Char) × Option Statement))
    (part : Option (List Char) × Option Statement) (text : List Char)
    (readable : SourceLines texts (front ++ part :: back))
    (placed : texts[front.length]? = some text) : SourceLine text part.1 part.2 := by
  obtain ⟨inside, rfl⟩ := List.getElem?_eq_some_iff.mp placed
  simpa using readable.get inside (by simp)

private theorem token_of_mislabelled (names : List (List Char)) (name text : List Char) (line : Nat)
    (cause : Cause) (nonempty : name ≠ []) (mislabelled : Mislabelled names name cause) :
    (Error.mk cause line text).token ≠ [] := by
  cases mislabelled <;> exact nonempty

private theorem token_of_misencoded (names : List (List Char)) (statement : Statement)
    (text : List Char) (line : Nat) (cause : Cause) (visible : ¬Blank text)
    (named : statement.mnemonic ≠ []) (filled : [] ∉ statement.operands)
    (misencoded : Misencoded names statement cause) : (Error.mk cause line text).token ≠ [] := by
  cases misencoded with
  | mnemonic _ => exact named
  -- The whole line is at fault when the number of its operands is.
  | count _ _ => exact trim_ne_nil text visible
  | operand _ _ split _ _ =>
    rintro rfl
    exact filled (by simp [split])

private theorem placedIn_of_token (source text : List Char) (index : Nat) (cause : Cause)
    (placed : (lines source)[index]? = some text)
    (token : (Error.mk cause (index + 1) text).token ≠ []) :
    (Error.mk cause (index + 1) text).PlacedIn source := by
  obtain ⟨inside, -⟩ := List.getElem?_eq_some_iff.mp placed
  refine ⟨Nat.le_add_left 1 index, inside, placed, token, ?_⟩
  rw [Error.message, if_neg (Nat.succ_ne_zero index), if_neg (by simpa using token)]

/-- An error that counts tells its place. -/
theorem placedIn_of_firstError (source : List Char) (error : Error)
    (first : FirstError source error) : error.PlacedIn source := by
  cases first with
  | reading split readable misread =>
    exact placedIn_of_token _ _ _ _ (by simp [split]) (token_of_misreadLine _ _ _ misread)
  | labelling readable placed declarable named mislabelled =>
    have line := sourceLine_at _ _ _ _ _ readable placed
    rw [named] at line
    exact placedIn_of_token _ _ _ _ placed
      (token_of_mislabelled _ _ _ _ _ (named_of_sourceLine _ _ _ line) mislabelled)
  | encoding readable placed declarable complete stated misencoded =>
    have line := sourceLine_at _ _ _ _ _ readable placed
    rw [stated] at line
    obtain ⟨visible, mnemonic, filled⟩ := visible_of_sourceLine _ _ _ line
    exact placedIn_of_token _ _ _ _ placed
      (token_of_misencoded _ _ _ _ _ visible mnemonic filled misencoded)

/-! ### Answers -/

theorem placed_of_refused (session : Session) (source : List Char) (error : Error)
    (refused : (session.assemble source).1 = .error error) (early : error.cause.phase ≠ .encoding) :
    (session.assemble source).2.placed = [] := by
  have outcome := session.outcome source
  rw [refused] at outcome
  generalize (session.assemble source).2 = after at outcome ⊢
  cases outcome with
  | unread _ | mislabelled _ _ => rfl
  | unencoded _ _ found => exact absurd (phase_of_emitFrom _ 0 _ error found) early

/-- Of all that is wrong with a source, whatever was assembled before, the first misread line is
reported; when all lines can be read, the first mislabelled one, and no word has been encoded then;
and when all labels can be declared, the first line whose statement cannot be encoded. The error
tells the line by number and text, and names what is at fault there. -/
theorem Desk.assemble_reports_first_error (history : List (List Char)) (source : List Char) :
    let desk := Desk.initial.assembleAll history
    (∀ error, (desk.assemble source).1 = .error error ↔ FirstError source error) ∧
      ∀ error, FirstError source error → error.PlacedIn source ∧
        (error.cause.phase ≠ .encoding →
          (desk.assemble source).2.words = [] ∧ (desk.assemble source).2.placed = []) := by
  intro desk
  have reached : desk.assemble source = _ := Desk.assemble_reached history source
  rw [reached]
  refine ⟨refused_iff_firstError _ source, fun error first => ?_⟩
  refine ⟨placedIn_of_firstError source error first, fun early => ?_⟩
  have refused :=
    (refused_iff_firstError (Session.initial.assembleAll history) source error).mpr first
  have bare := placed_of_refused _ source error refused early
  exact ⟨congrArg wordsOf bare, bare⟩

/-- A label declared twice is reported, whatever is wrong with statements before it and behind. -/
theorem Desk.assemble_reports_first_error_of_many :
    FirstError "FOO\n:s\n:S SET A, x\n:s SET\n:pop".toList
        ⟨.duplicateLabel ['s'], 4, ":s SET".toList⟩ ∧
      (Error.mk (.duplicateLabel ['s']) 4 ":s SET".toList).PlacedIn
        "FOO\n:s\n:S SET A, x\n:s SET\n:pop".toList ∧
      (Error.mk (.duplicateLabel ['s']) 4 ":s SET".toList).message =
        "Line 4: Duplicate label: 's'" ∧
      ((Desk.initial.assembleAll ["JSR s\n:s SET A,, B".toList]).assemble
        "FOO\n:s\n:S SET A, x\n:s SET\n:pop".toList).2.words = [] := by
  have answer : ((Desk.initial.assembleAll ["JSR s\n:s SET A,, B".toList]).assemble
      "FOO\n:s\n:S SET A, x\n:s SET\n:pop".toList).1 =
        .error ⟨.duplicateLabel ['s'], 4, ":s SET".toList⟩ := by decide +kernel
  obtain ⟨reported, placed⟩ := Desk.assemble_reports_first_error
    ["JSR s\n:s SET A,, B".toList] "FOO\n:s\n:S SET A, x\n:s SET\n:pop".toList
  have first := (reported _).mp answer
  obtain ⟨inside, early⟩ := placed _ first
  exact ⟨first, inside, by decide +kernel, (early (by decide)).1⟩

end WordMachine.Assembly
