import WordMachine.Proofs.Assembly.Acceptance

/-! Sources whose lines say the same. Lines that say nothing may stand anywhere among them; the
answer is then the same program, or an error of which the same is to be seen. -/
namespace WordMachine.Assembly

open WordMachine.Text

/-- What a text says as a line, or why it cannot be read. -/
def reading (text : List Char) : Except Cause (Option (List Char) × Option Statement) :=
  parseWords (words (withoutComment text))

theorem Line.parse_of_reading_ok (number : Nat) (text : List Char)
    (part : Option (List Char) × Option Statement) (read : reading text = .ok part) :
    Line.parse number text = .ok ⟨number, text, part.1, part.2⟩ := by
  rw [reading] at read
  rw [Line.parse, read]

theorem Line.parse_of_reading_error (number : Nat) (text : List Char) (cause : Cause)
    (unread : reading text = .error cause) :
    Line.parse number text = .error ⟨cause, number, text⟩ := by
  rw [reading] at unread
  rw [Line.parse, unread]

theorem mapError_eq_cases {ε β α : Type} {view : ε → β} {first second : Except ε α}
    (same : first.mapError view = second.mapError view) :
    (∃ value, first = .ok value ∧ second = .ok value) ∨
      ∃ error other, first = .error error ∧ second = .error other ∧ view error = view other := by
  cases first with
  | ok value =>
    cases second with
    | ok other =>
      cases same
      exact .inl ⟨value, rfl, rfl⟩
    | error other => cases same
  | error error =>
    cases second with
    | ok other => cases same
    | error other => exact .inr ⟨error, other, rfl, rfl, Except.error.inj same⟩

section
variable {β : Type} (view : Error → β)

/-- Errors of any one cause look alike at two places. -/
def BlamedAlike (number : Nat) (text : List Char) (otherNumber : Nat) (other : List Char) : Prop :=
  ∀ cause, view ⟨cause, number, text⟩ = view ⟨cause, otherNumber, other⟩

/-- Texts that say the same as lines with given numbers, or cannot be read for reasons that look
alike. -/
inductive ReadAlike (number : Nat) (text : List Char) (otherNumber : Nat) (other : List Char) :
    Prop
  | said {part : Option (List Char) × Option Statement} (first : reading text = .ok part)
      (second : reading other = .ok part) (blamed : BlamedAlike view number text otherNumber other)
  | unread {cause otherCause : Cause} (first : reading text = .error cause)
      (second : reading other = .error otherCause)
      (seen : view ⟨cause, number, text⟩ = view ⟨otherCause, otherNumber, other⟩)

/-- Texts that are read alike one by one, except for those that say nothing. The first of each side
has a given number. -/
inductive AlignedTexts : Nat → List (List Char) → Nat → List (List Char) → Prop
  | nil {number otherNumber : Nat} : AlignedTexts number [] otherNumber []
  | left {number otherNumber : Nat} {text : List Char} {rest others : List (List Char)}
      (silent : reading text = .ok (none, none))
      (onwards : AlignedTexts (number + 1) rest otherNumber others) :
      AlignedTexts number (text :: rest) otherNumber others
  | right {number otherNumber : Nat} {other : List Char} {texts others : List (List Char)}
      (silent : reading other = .ok (none, none))
      (onwards : AlignedTexts number texts (otherNumber + 1) others) :
      AlignedTexts number texts otherNumber (other :: others)
  | both {number otherNumber : Nat} {text other : List Char} {rest others : List (List Char)}
      (same : ReadAlike view number text otherNumber other)
      (onwards : AlignedTexts (number + 1) rest (otherNumber + 1) others) :
      AlignedTexts number (text :: rest) otherNumber (other :: others)

/-- Lines with the same parts one by one, except for those that have none. -/
inductive AlignedLines : List Line → List Line → Prop
  | nil : AlignedLines [] []
  | left {line : Line} {rest others : List Line} (silent : line.part = (none, none))
      (onwards : AlignedLines rest others) : AlignedLines (line :: rest) others
  | right {other : Line} {lines others : List Line} (silent : other.part = (none, none))
      (onwards : AlignedLines lines others) : AlignedLines lines (other :: others)
  | both {line other : Line} {rest others : List Line} (same : line.part = other.part)
      (blamed : BlamedAlike view line.number line.text other.number other.text)
      (onwards : AlignedLines rest others) : AlignedLines (line :: rest) (other :: others)

variable {view}

/-! ### Errors that look alike -/

theorem map_eq_cases {first second : Option Error} (same : first.map view = second.map view) :
    (first = none ∧ second = none) ∨
      ∃ error other, first = some error ∧ second = some other ∧ view error = view other := by
  cases first with
  | none =>
    cases second with
    | none => exact .inl ⟨rfl, rfl⟩
    | some other => cases same
  | some error =>
    cases second with
    | none => cases same
    | some other => exact .inr ⟨error, other, rfl, rfl, Option.some.inj same⟩

/-! ### Reading -/

/-- One more line that can be read does not change which error comes after it. -/
theorem parseLines_cons_ok (number : Nat) (text : List Char) (rest : List (List Char))
    (line : Line) (read : Line.parse number text = .ok line) :
    parseLines number (text :: rest) = (parseLines (number + 1) rest).map (line :: ·) := by
  rw [parseLines, read]
  cases parseLines (number + 1) rest <;> rfl

theorem parseLines_cons_error (number : Nat) (text : List Char) (rest : List (List Char))
    (error : Error) (unread : Line.parse number text = .error error) :
    parseLines number (text :: rest) = .error error := by
  rw [parseLines, unread]
  rfl

/-- Aligned texts are read as aligned lines, or neither side is read. -/
inductive ReadTogether (view : Error → β) :
    Except Error (List Line) → Except Error (List Line) → Prop
  | read {lines others : List Line} (aligned : AlignedLines view lines others) :
      ReadTogether view (.ok lines) (.ok others)
  | unread {error other : Error} (seen : view error = view other) :
      ReadTogether view (.error error) (.error other)

theorem ReadTogether.map {first second : Except Error (List Line)} {f g : List Line → List Line}
    (together : ReadTogether view first second)
    (keeps : ∀ {lines others}, AlignedLines view lines others →
      AlignedLines view (f lines) (g others)) :
    ReadTogether view (first.map f) (second.map g) := by
  cases together with
  | read aligned => exact .read (keeps aligned)
  | unread seen => exact .unread seen

theorem parseLines_of_aligned {number otherNumber : Nat} {texts others : List (List Char)}
    (aligned : AlignedTexts view number texts otherNumber others) :
    ReadTogether view (parseLines number texts) (parseLines otherNumber others) := by
  induction aligned with
  | nil => exact .read .nil
  | @left number otherNumber text rest others silent _ ih =>
    -- The other side stays where it is.
    have more := ih.map (f := (⟨number, text, none, none⟩ :: ·)) (g := id) (.left rfl)
    rw [parseLines_cons_ok number text rest _ (Line.parse_of_reading_ok number text _ silent)]
    rwa [Except.map_id] at more
  | @right number otherNumber other texts others silent _ ih =>
    have more := ih.map (f := id) (g := (⟨otherNumber, other, none, none⟩ :: ·)) (.right rfl)
    rw [parseLines_cons_ok otherNumber other others _
      (Line.parse_of_reading_ok otherNumber other _ silent)]
    rwa [Except.map_id] at more
  | @both number otherNumber text other rest others same _ ih =>
    cases same with
    | said first second blamed =>
      rw [parseLines_cons_ok number text rest _ (Line.parse_of_reading_ok number text _ first),
        parseLines_cons_ok otherNumber other others _
          (Line.parse_of_reading_ok otherNumber other _ second)]
      exact ih.map (.both rfl blamed)
    | unread first second seen =>
      rw [parseLines_cons_error number text rest _
          (Line.parse_of_reading_error number text _ first),
        parseLines_cons_error otherNumber other others _
          (Line.parse_of_reading_error otherNumber other _ second)]
      exact .unread seen

/-! ### The two passes -/

/-- A line without parts declares nothing and takes no words. -/
theorem scanFrom_cons_of_silent (labels : Labels) (size : Nat) (line : Line) (rest : List Line)
    (silent : line.part = (none, none)) :
    scanFrom labels size (line :: rest) = scanFrom labels size rest := by
  obtain ⟨unlabelled, bare⟩ := Prod.mk.inj silent
  have declares : line.declare labels size = .ok labels := by rw [Line.declare, unlabelled]
  have empty : line.size = 0 := by rw [Line.size, bare]
  rw [scanFrom, declares]
  simp only [empty, Nat.add_zero]

theorem emitFrom_cons_of_silent (labels : Labels) (address : Nat) (line : Line)
    (rest : List Line) (silent : line.part = (none, none)) :
    emitFrom labels address (line :: rest) = emitFrom labels address rest := by
  obtain ⟨-, bare⟩ := Prod.mk.inj silent
  simp only [emitFrom, bare]

/-- A line declares what its parts say, and errors in it look like those in a line with the same
parts. -/
theorem declare_of_same (labels : Labels) (address : Nat) (line other : Line)
    (same : line.part = other.part)
    (blamed : BlamedAlike view line.number line.text other.number other.text) :
    (line.declare labels address).mapError view = (other.declare labels address).mapError view := by
  obtain ⟨named, -⟩ := Prod.mk.inj same
  simp only [Line.declare, named]
  split
  · rfl
  · split
    · exact congrArg Except.error (blamed _)
    · rfl

theorem scanFrom_of_aligned (labels : Labels) (size : Nat) (lines others : List Line)
    (aligned : AlignedLines view lines others) :
    (scanFrom labels size lines).labels = (scanFrom labels size others).labels ∧
      (scanFrom labels size lines).size = (scanFrom labels size others).size ∧
      (scanFrom labels size lines).error?.map view =
        (scanFrom labels size others).error?.map view := by
  -- A line that only one side has leaves the labels and the count of that side alone.
  induction aligned generalizing labels size with
  | nil => exact ⟨rfl, rfl, rfl⟩
  | left silent _ ih =>
    rw [scanFrom_cons_of_silent labels size _ _ silent]
    exact ih labels size
  | right silent _ ih =>
    rw [scanFrom_cons_of_silent labels size _ _ silent]
    exact ih labels size
  | @both line other rest others same blamed _ ih =>
    have declared := declare_of_same labels size line other same blamed
    have counted : line.size = other.size := by
      simp only [Line.size, (Prod.mk.inj same).2]
    rw [scanFrom, scanFrom]
    rcases mapError_eq_cases declared with
      ⟨after, first, second⟩ | ⟨error, blame, first, second, seen⟩
    · rw [first, second, counted]
      exact ih after (size + other.size)
    · rw [first, second]
      exact ⟨rfl, rfl, congrArg some seen⟩

theorem scan_of_aligned (lines others : List Line) (aligned : AlignedLines view lines others) :
    (scan lines).labels = (scan others).labels ∧ (scan lines).size = (scan others).size ∧
      (scan lines).error?.map view = (scan others).error?.map view :=
  scanFrom_of_aligned [] 0 lines others aligned

theorem emitFrom_of_aligned (labels : Labels) (address : Nat) (lines others : List Line)
    (aligned : AlignedLines view lines others) :
    wordsOf (emitFrom labels address lines).placed =
        wordsOf (emitFrom labels address others).placed ∧
      (emitFrom labels address lines).error?.map view =
        (emitFrom labels address others).error?.map view := by
  induction aligned generalizing address with
  | nil => exact ⟨rfl, rfl⟩
  | left silent _ ih =>
    rw [emitFrom_cons_of_silent labels address _ _ silent]
    exact ih address
  | right silent _ ih =>
    rw [emitFrom_cons_of_silent labels address _ _ silent]
    exact ih address
  | @both line other rest others same blamed _ ih =>
    obtain ⟨-, holds⟩ := Prod.mk.inj same
    simp only [emitFrom, holds]
    split
    · exact ih address
    next statement _ =>
      split
      next cause _ => exact ⟨rfl, congrArg some (blamed cause)⟩
      next words _ =>
        obtain ⟨placed, errors⟩ := ih (address + words.length)
        refine ⟨?_, errors⟩
        simp only [wordsOf, List.flatMap_cons] at placed ⊢
        rw [placed]

/-! ### The answer -/

/-- Sources of aligned lines have the same answer, whatever was assembled before each. -/
theorem assemble_of_aligned (session later : Session) (source other : List Char)
    (aligned : AlignedTexts view 1 (lines source) 1 (lines other)) :
    (session.assemble source).1.mapError view = (later.assemble other).1.mapError view := by
  have together : ReadTogether view (parse source) (parse other) := parseLines_of_aligned aligned
  unfold Session.assemble
  generalize parse source = first at together
  generalize parse other = second at together
  cases together with
  | unread seen => exact congrArg Except.error seen
  | @read lines others aligned =>
    obtain ⟨labels, size, scanned⟩ := scan_of_aligned lines others aligned
    obtain ⟨words, emitted⟩ : wordsOf (emit (scan others).labels lines).placed =
          wordsOf (emit (scan others).labels others).placed ∧
        (emit (scan others).labels lines).error?.map view =
          (emit (scan others).labels others).error?.map view :=
      emitFrom_of_aligned (scan others).labels 0 lines others aligned
    simp only [labels, size, words]
    rcases map_eq_cases scanned with ⟨first, second⟩ | ⟨error, blame, first, second, seen⟩
    · rcases map_eq_cases emitted with ⟨third, fourth⟩ | ⟨error, blame, third, fourth, seen⟩
      · simp only [first, second, third, fourth]
        -- The words are as many on both sides, whatever the first pass has counted.
        by_cases counted : (wordsOf (emit (scan others).labels others).placed).length =
            (scan others).size
        · simp only [if_pos counted]
        · simp only [if_neg counted]
      · simp only [first, second, third, fourth]
        exact congrArg Except.error seen
    · simp only [first, second]
      exact congrArg Except.error seen

end

end WordMachine.Assembly
