import WordMachine.Assembly.Session

/-! Errors and the parts of the work in which they are found: a cause tells whether the lines were
being read, labelled or encoded. -/
namespace WordMachine.Assembly

theorem bind_eq_ok {ε α β : Type} (x : Except ε α) (f : α → Except ε β) (result : β)
    (returned : x >>= f = .ok result) : ∃ value, x = .ok value ∧ f value = .ok result := by
  cases x with
  | error error => cases returned
  | ok value => exact ⟨value, rfl, returned⟩

theorem bind_eq_error {ε α β : Type} (x : Except ε α) (f : α → Except ε β) (error : ε)
    (failed : x >>= f = .error error) :
    x = .error error ∨ ∃ value, x = .ok value ∧ f value = .error error := by
  cases x with
  | error first =>
    cases failed
    exact .inl rfl
  | ok value => exact .inr ⟨value, rfl, failed⟩

theorem map_eq_ok {ε α β : Type} (x : Except ε α) (f : α → β) (result : β)
    (returned : x.map f = .ok result) : ∃ value, x = .ok value ∧ f value = result := by
  cases x with
  | error error => cases returned
  | ok value => exact ⟨value, rfl, Except.ok.inj returned⟩

theorem map_eq_error {ε α β : Type} (x : Except ε α) (f : α → β) (error : ε)
    (failed : x.map f = .error error) : x = .error error := by
  cases x with
  | error first =>
    cases failed
    rfl
  | ok value => cases failed

/-- The part of the work in which an error is found. -/
inductive Phase
  | reading | labelling | encoding | counting
  deriving DecidableEq

/-- The part of the work that a cause belongs to. -/
def Cause.phase : Cause → Phase
  | .invalidLabel _ | .emptyOperand _ => .reading
  | .duplicateLabel _ | .keywordLabel _ | .numberLabel _ => .labelling
  | .unknownMnemonic _ | .operandCount _ _ | .unknownOperand _ => .encoding
  | .miscounted _ _ => .counting

/-! ### Reading -/

private theorem phase_of_ofWords (words : List (List Char)) (cause : Cause)
    (failed : Statement.ofWords words = .error cause) : cause.phase = .reading := by
  unfold Statement.ofWords at failed
  split at failed
  · cases failed
  · cases failed
  · simp only at failed
    split at failed
    · cases failed
      rfl
    · cases failed

private theorem phase_of_parseWords (words : List (List Char)) (cause : Cause)
    (failed : parseWords words = .error cause) : cause.phase = .reading := by
  unfold parseWords at failed
  split at failed
  · split at failed
    · exact phase_of_ofWords _ cause (map_eq_error _ _ cause failed)
    · cases failed
      rfl
  · exact phase_of_ofWords _ cause (map_eq_error _ _ cause failed)

theorem Line.phase_of_parse (number : Nat) (text : List Char) (error : Error)
    (failed : Line.parse number text = .error error) : error.cause.phase = .reading := by
  unfold Line.parse at failed
  split at failed
  · cases failed
  next cause wrong =>
    cases failed
    exact phase_of_parseWords _ cause wrong

theorem phase_of_parseLines (number : Nat) (texts : List (List Char)) (error : Error)
    (failed : parseLines number texts = .error error) : error.cause.phase = .reading := by
  induction texts generalizing number with
  | nil => cases failed
  | cons text rest ih =>
    rcases bind_eq_error _ _ _ failed with first | ⟨line, -, failed⟩
    · exact Line.phase_of_parse number text error first
    · rcases bind_eq_error _ _ _ failed with later | ⟨lines, -, failed⟩
      · exact ih (number + 1) later
      · cases failed

/-! ### Labelling -/

private theorem phase_of_labelFault? (labels : Labels) (name : List Char) (cause : Cause)
    (faulty : labelFault? labels name = some cause) : cause.phase = .labelling := by
  unfold labelFault? at faulty
  split at faulty
  · cases faulty
    rfl
  · split at faulty
    · cases faulty
      rfl
    · split at faulty
      · cases faulty
        rfl
      · cases faulty

theorem Line.phase_of_declare (labels : Labels) (address : Nat) (line : Line) (error : Error)
    (failed : line.declare labels address = .error error) : error.cause.phase = .labelling := by
  unfold Line.declare at failed
  split at failed
  · cases failed
  next name named =>
    split at failed
    next cause faulty =>
      cases failed
      exact phase_of_labelFault? labels name cause faulty
    · cases failed

theorem phase_of_scanFrom (labels : Labels) (size : Nat) (lines : List Line) (error : Error)
    (failed : (scanFrom labels size lines).error? = some error) :
    error.cause.phase = .labelling := by
  induction lines generalizing labels size with
  | nil => cases failed
  | cons line rest ih =>
    unfold scanFrom at failed
    split at failed
    next first declares =>
      cases failed
      exact line.phase_of_declare labels size error declares
    next after declares => exact ih after (size + line.size) failed

/-! ### Encoding -/

private theorem phase_of_encodeOperand (labels : Labels) (token : List Char) (cause : Cause)
    (failed : encodeOperand labels token = .error cause) : cause.phase = .encoding := by
  unfold encodeOperand at failed
  simp only at failed
  split at failed
  · cases failed
  · cases failed
    rfl

theorem phase_of_encode (labels : Labels) (statement : Statement) (cause : Cause)
    (failed : statement.encode labels = .error cause) : cause.phase = .encoding := by
  unfold Statement.encode at failed
  split at failed
  · cases failed
    rfl
  · split at failed
    next target _ =>
      rcases bind_eq_error _ _ _ failed with second | ⟨part, -, failed⟩
      · exact phase_of_encodeOperand labels target cause second
      · cases failed
    · cases failed
      rfl
  · split at failed
    next first last _ =>
      rcases bind_eq_error _ _ _ failed with one | ⟨part, -, failed⟩
      · exact phase_of_encodeOperand labels first cause one
      · rcases bind_eq_error _ _ _ failed with two | ⟨part, -, failed⟩
        · exact phase_of_encodeOperand labels last cause two
        · cases failed
    · cases failed
      rfl

theorem phase_of_emitFrom (labels : Labels) (address : Nat) (lines : List Line) (error : Error)
    (failed : (emitFrom labels address lines).error? = some error) :
    error.cause.phase = .encoding := by
  induction lines generalizing address with
  | nil => cases failed
  | cons line rest ih =>
    unfold emitFrom at failed
    split at failed
    · exact ih address failed
    next statement holds =>
      split at failed
      next cause wrong =>
        cases failed
        exact phase_of_encode labels statement cause wrong
      next words encoded => exact ih (address + words.length) failed

end WordMachine.Assembly
