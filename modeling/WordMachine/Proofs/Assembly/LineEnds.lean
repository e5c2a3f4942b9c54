import WordMachine.Proofs.Assembly.Outcomes
import WordMachine.Proofs.Assembly.Spacing
import WordMachine.Proofs.Text.Utf8

/-! Line ends. A source whose lines end in a carriage return and a line feed says the same as one
with line feeds alone, and in a file any of the three ways to end a line does. -/
namespace WordMachine.Text

/-- A text with a given mark for every line feed. -/
def withLineEnds (mark text : List Char) : List Char :=
  text.flatMap fun c => if c = '\n' then mark else [c]

/-- What can end a line in a file. -/
def lineEnds : List (List Char) := [['\n'], ['\r', '\n'], ['\r']]

/-- A line that may have a carriage return at its end. -/
def Returned (text other : List Char) : Prop := other = text ∨ other = text ++ ['\r']

/-! ### Files -/

theorem withLineEnds_cons (mark : List Char) (c : Char) (rest : List Char) :
    withLineEnds mark (c :: rest) =
      (if c = '\n' then mark else [c]) ++ withLineEnds mark rest :=
  List.flatMap_cons

theorem unifyLineEnds_cons_of_ne (c : Char) (rest : List Char) (other : c ≠ '\r') :
    unifyLineEnds (c :: rest) = c :: unifyLineEnds rest := by
  simp [unifyLineEnds, other]

theorem unifyLineEnds_return (rest : List Char) (lone : '\n' ∉ rest) :
    unifyLineEnds ('\r' :: rest) = '\n' :: unifyLineEnds rest := by
  cases rest with
  | nil => rfl
  | cons c rest =>
    have other : c ≠ '\n' := by
      rintro rfl
      exact lone List.mem_cons_self
    simp [unifyLineEnds, other]

theorem notMem_withLineEnds_return (text : List Char) : '\n' ∉ withLineEnds ['\r'] text := by
  induction text with
  | nil => exact List.not_mem_nil
  | cons c rest ih =>
    rw [withLineEnds_cons]
    split
    · simp [ih]
    next other => simp [ih, Ne.symm other]

/-- All ways to end a line come to the same. -/
theorem unifyLineEnds_withLineEnds (mark text : List Char) (known : mark ∈ lineEnds)
    (plain : '\r' ∉ text) : unifyLineEnds (withLineEnds mark text) = text := by
  induction text with
  | nil => rfl
  | cons c rest ih =>
    rw [List.mem_cons, not_or] at plain
    obtain ⟨other, plain⟩ := plain
    rw [withLineEnds_cons]
    split
    next ends =>
      subst ends
      simp only [lineEnds, List.mem_cons, List.not_mem_nil, or_false] at known
      rcases known with rfl | rfl | rfl
      · exact (unifyLineEnds_cons_of_ne '\n' _ (Ne.symm other)).trans (congrArg _ (ih plain))
      · exact congrArg ('\n' :: ·) (ih plain)
      · exact (unifyLineEnds_return _ (notMem_withLineEnds_return rest)).trans
          (congrArg _ (ih plain))
    · rw [List.singleton_append, unifyLineEnds_cons_of_ne c _ (Ne.symm other), ih plain]

/-! ### Lines -/

/-- The last line keeps its end; every other one gets a carriage return before it is parted. -/
theorem forall₂_lines (text : List Char) :
    List.Forall₂ Returned (lines text) (lines (withLineEnds ['\r', '\n'] text)) := by
  induction text with
  | nil => exact .cons (.inl rfl) .nil
  | cons c rest ih =>
    rw [withLineEnds_cons]
    simp only [lines] at ih ⊢
    split
    next ends =>
      subst ends
      exact .cons (.inr rfl) ih
    next other =>
      -- The character goes to the first line on both sides.
      have kept : ¬(c == '\n') = true := by simpa using other
      rw [List.singleton_append, List.splitOn_cons_eq_if_modifyHead,
        List.splitOn_cons_eq_if_modifyHead, if_neg kept, if_neg kept]
      generalize rest.splitOn '\n' = first at ih
      generalize (withLineEnds ['\r', '\n'] rest).splitOn '\n' = second at ih
      cases ih with
      | nil => exact .nil
      | cons same others =>
        exact .cons (same.imp (congrArg (c :: ·)) (congrArg (c :: ·))) others

theorem trim_append_of_blank (text gap : List Char) (blank : Blank gap) :
    trim (text ++ gap) = trim text := by
  have none : gap.dropWhile isBlank = [] := List.dropWhile_eq_nil_iff.mpr blank
  rw [trim, trim, List.dropWhile_append]
  split
  next empty => rw [none, List.isEmpty_iff.mp empty]
  next visible =>
    rw [List.reverse_append, List.dropWhile_append_of_pos fun c member =>
      blank c (List.mem_reverse.mp member)]

end WordMachine.Text

namespace WordMachine.Assembly

open WordMachine.Text

/-- An error as it is told: what is wrong, in which line, and the wording. -/
def Error.report (error : Error) : Cause × Nat × String := (error.cause, error.line, error.message)

/-! ### Reading -/

theorem trim_of_returned (text other : List Char) (returned : Returned text other) :
    trim other = trim text := by
  rcases returned with rfl | rfl
  · rfl
  · exact trim_append_of_blank text _ (blank_singleton '\r' (by decide))

/-- A carriage return is white space, or part of the comment. -/
theorem reading_of_returned (text other : List Char) (returned : Returned text other) :
    reading other = reading text := by
  rcases returned with rfl | rfl
  · rfl
  · by_cases comment : ';' ∈ text
    · rw [reading, reading, withoutComment_append_of_mem _ _ comment]
    · have last : withoutComment ['\r'] = ['\r'] := rfl
      rw [reading, reading, withoutComment_append _ _ comment,
        withoutComment_of_notMem _ comment, last,
        words_append_of_blank _ _ (blank_singleton '\r' (by decide))]

/-- Of the text of a line a report shows no more than is left when it is trimmed. -/
theorem report_of_trim (cause : Cause) (number : Nat) (text other : List Char)
    (same : trim other = trim text) :
    Error.report ⟨cause, number, text⟩ = Error.report ⟨cause, number, other⟩ := by
  have token : Error.token ⟨cause, number, text⟩ = Error.token ⟨cause, number, other⟩ := by
    cases cause with
    | operandCount _ _ => exact same.symm
    | _ => rfl
  simp only [Error.report, Error.message, token]

theorem aligned_of_returned (number : Nat) (texts others : List (List Char))
    (returned : List.Forall₂ Returned texts others) :
    AlignedTexts Error.report number texts number others := by
  induction returned generalizing number with
  | nil => exact .nil
  | @cons text other _ _ same _ ih =>
    have blamed (cause : Cause) := report_of_trim cause number text other
      (trim_of_returned text other same)
    refine .both ?_ (ih (number + 1))
    cases read : reading text with
    | ok part => exact .said read ((reading_of_returned text other same).trans read) blamed
    | error cause =>
      exact .unread read ((reading_of_returned text other same).trans read) (blamed cause)

/-! ### Listings -/

/-- Lines that look alike: with the same number and parts, and texts that show the same. -/
structure Line.Alike (line other : Line) : Prop where
  number : line.number = other.number
  part : line.part = other.part
  shown : trim line.text = trim other.text

/-- Lines that look alike with the same words at the same address. -/
structure Placed.Alike (placed other : Placed) : Prop where
  line : placed.line.Alike other.line
  address : placed.address = other.address
  words : placed.words = other.words

theorem parseLines_of_returned (number : Nat) (texts others : List (List Char))
    (returned : List.Forall₂ Returned texts others) (lines otherLines : List Line)
    (read : parseLines number texts = .ok lines)
    (otherRead : parseLines number others = .ok otherLines) :
    List.Forall₂ Line.Alike lines otherLines := by
  induction returned generalizing number lines otherLines with
  | nil =>
    cases read
    cases otherRead
    exact .nil
  | @cons text other _ _ same _ ih =>
    obtain ⟨line, first, read⟩ := bind_eq_ok _ _ _ read
    obtain ⟨rest, following, read⟩ := bind_eq_ok _ _ _ read
    obtain ⟨otherLine, second, otherRead⟩ := bind_eq_ok _ _ _ otherRead
    obtain ⟨otherRest, otherFollowing, otherRead⟩ := bind_eq_ok _ _ _ otherRead
    cases read
    cases otherRead
    refine .cons ?_ (ih (number + 1) rest otherRest following otherFollowing)
    have said := reading_of_returned text other same
    cases heard : reading text with
    | ok part =>
      rw [Line.parse_of_reading_ok number text part heard] at first
      rw [Line.parse_of_reading_ok number other part (said.trans heard)] at second
      cases first
      cases second
      exact ⟨rfl, rfl, (trim_of_returned text other same).symm⟩
    | error cause =>
      rw [Line.parse_of_reading_error number text cause heard] at first
      cases first

theorem emitFrom_of_alike (labels : Labels) (address : Nat) (lines others : List Line)
    (alike : List.Forall₂ Line.Alike lines others) :
    List.Forall₂ Placed.Alike (emitFrom labels address lines).placed
      (emitFrom labels address others).placed := by
  induction alike generalizing address with
  | nil => exact .nil
  | @cons line other _ _ same _ ih =>
    obtain ⟨-, holds⟩ := Prod.mk.inj same.part
    simp only [emitFrom, holds]
    split
    · exact ih address
    · split
      · exact .nil
      next words _ => exact .cons ⟨same, rfl, rfl⟩ (ih (address + words.length))

theorem placedRow_of_alike (placed other : Placed) (alike : placed.Alike other) :
    Listing.placedRow placed = Listing.placedRow other := by
  rw [Listing.placedRow, Listing.placedRow, alike.address, alike.words, alike.line.shown]

theorem rows_of_alike (lines others : List Line) (placed otherPlaced : List Placed)
    (alike : List.Forall₂ Line.Alike lines others)
    (placedAlike : List.Forall₂ Placed.Alike placed otherPlaced) :
    Listing.rows lines placed = Listing.rows others otherPlaced := by
  induction alike generalizing placed otherPlaced with
  | nil => rfl
  | @cons line other _ _ same _ ih =>
    have plain : Listing.plainRow? line = Listing.plainRow? other := by
      rw [Listing.plainRow?, Listing.plainRow?, same.shown]
    cases placedAlike with
    | nil => rw [Listing.rows, Listing.rows, plain, ih [] [] .nil]
    | @cons one otherOne rest otherRest first onwards =>
      rw [Listing.rows, Listing.rows, plain, same.number, first.line.number,
        placedRow_of_alike one otherOne first, ih _ _ onwards, ih _ _ (.cons first onwards)]

/-- The listing shows the lines that were last read, with the words that were placed. -/
theorem listing_of_assemble (session : Session) (source : List Char) :
    (session.assemble source).2.listing =
      match parse source with
      | .error _ => Listing.text session.lines []
      | .ok lines => Listing.text lines
        (if (scan lines).error?.isNone then (emit (scan lines).labels lines).placed else []) := by
  have outcome := session.outcome source
  generalize (session.assemble source).1 = answer at outcome
  generalize (session.assemble source).2 = after at outcome ⊢
  cases outcome with
  | unread unread => rw [unread]; rfl
  | mislabelled read found => simp only [read, found]; rfl
  | unencoded read scanned _ => simp only [read, scanned]; rfl
  | assembled read scanned _ => simp only [read, scanned]; rfl

theorem listing_of_returned (session : Session) (source other : List Char)
    (returned : List.Forall₂ Returned (Text.lines source) (Text.lines other)) :
    (session.assemble source).2.listing = (session.assemble other).2.listing := by
  rw [listing_of_assemble, listing_of_assemble]
  have together : ReadTogether Error.report (parse source) (parse other) :=
    parseLines_of_aligned (aligned_of_returned 1 _ _ returned)
  -- The listing needs more than the answer: texts that show the same, line by line.
  have alike := parseLines_of_returned 1 _ _ returned
  change ∀ lines others, parse source = .ok lines → parse other = .ok others → _ at alike
  generalize parse source = first at together alike
  generalize parse other = second at together alike
  cases together with
  | unread => rfl
  | @read lines others aligned =>
    have alike := alike lines others rfl rfl
    obtain ⟨labels, -, scanned⟩ := scan_of_aligned lines others aligned
    have stopped : (scan lines).error?.isNone = (scan others).error?.isNone := by
      rw [← Option.isNone_map (f := Error.report), scanned, Option.isNone_map]
    simp only [labels, stopped, Listing.text]
    split
    · have placed := emitFrom_of_alike (scan others).labels 0 lines others alike
      rw [emit, emit, rows_of_alike lines others _ _ alike placed]
    · rw [rows_of_alike lines others [] [] alike .nil]

/-! ### Sources -/

/-- A source with carriage returns at the ends of its lines has the same answer and the same
listing. Read from a file, it has any of the line ends and is assembled as the text itself. -/
theorem assemble_any_line_ends (session : Session) (source : List Char) :
    (session.assemble (withLineEnds ['\r', '\n'] source)).1.mapError Error.report =
        (session.assemble source).1.mapError Error.report ∧
      (session.assemble (withLineEnds ['\r', '\n'] source)).2.listing =
        (session.assemble source).2.listing ∧
      ('\r' ∉ source → ∀ mark ∈ lineEnds,
        (readSource (Utf8.encode (withLineEnds mark source))).map assemble =
          .ok (assemble source)) := by
  have returned := forall₂_lines source
  refine ⟨?_, ?_, fun plain mark known => ?_⟩
  · exact (assemble_of_aligned session session _ _ (aligned_of_returned 1 _ _ returned)).symm
  · exact (listing_of_returned session _ _ returned).symm
  · rw [readSource, Utf8.decode_encode]
    exact congrArg (fun text => Except.ok (assemble text))
      (unifyLineEnds_withLineEnds mark source known plain)

/-- A label in front of a comment, an operand at the end of a line, and a blank line, in a file with
carriage returns alone. -/
theorem assemble_any_line_ends_of_return :
    let source := ":e ;x\n\tSET A, [e+I]\n\nJSR e".toList
    let program : Program := ⟨[0x5801, 0, 0x7C10, 0], [(['e'], 0)]⟩
    assemble source = .ok program ∧
      (readSource (Utf8.encode (withLineEnds ['\r'] source))).map assemble = .ok (.ok program) := by
  intro source program
  have answer : assemble source = .ok program := by decide +kernel
  have plain : '\r' ∉ source := by decide
  obtain ⟨-, -, fromFile⟩ := assemble_any_line_ends Session.initial source
  refine ⟨answer, ?_⟩
  rw [fromFile plain ['\r'] (by decide), answer]

end WordMachine.Assembly
