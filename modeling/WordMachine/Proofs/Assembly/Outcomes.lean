import WordMachine.Proofs.Assembly.History
import WordMachine.Proofs.Assembly.Reading

/-! How a call can end. Each part of the work goes through the lines in order and stops at the first
one that it cannot deal with, with what it has made of those in front. -/
namespace WordMachine.Assembly

/-! ### Where the parts of the work stop -/

theorem parseLines_error_iff (number : Nat) (texts : List (List Char)) (error : Error) :
    parseLines number texts = .error error ↔
      ∃ front text back lines, texts = front ++ text :: back ∧
        parseLines number front = .ok lines ∧
        Line.parse (number + front.length) text = .error error := by
  constructor
  · intro refused
    induction texts generalizing number with
    | nil => cases refused
    | cons text rest ih =>
      rcases bind_eq_error _ _ _ refused with first | ⟨line, read, refused⟩
      · exact ⟨[], text, rest, [], rfl, rfl, first⟩
      · -- The rest is numbered from the next line on.
        rcases bind_eq_error _ _ _ refused with later | ⟨lines, -, refused⟩
        · obtain ⟨front, other, back, lines, rfl, others, found⟩ := ih (number + 1) later
          refine ⟨text :: front, other, back, line :: lines, rfl, ?_, ?_⟩
          · rw [parseLines, read, others]
            rfl
          · rwa [List.length_cons, Nat.add_comm front.length, ← Nat.add_assoc]
        · cases refused
  · rintro ⟨front, text, back, lines, rfl, read, found⟩
    induction front generalizing number lines with
    | nil =>
      rw [List.nil_append, parseLines]
      exact congrArg (· >>= _) found
    | cons other rest ih =>
      obtain ⟨line, first, read⟩ := bind_eq_ok _ _ _ read
      obtain ⟨others, following, -⟩ := bind_eq_ok _ _ _ read
      rw [List.length_cons, Nat.add_comm rest.length, ← Nat.add_assoc] at found
      rw [List.cons_append, parseLines, first, ih (number + 1) others following found]
      rfl

theorem scanFrom_error_iff (labels : Labels) (size : Nat) (lines : List Line) (error : Error) :
    (scanFrom labels size lines).error? = some error ↔
      ∃ front line back, lines = front ++ line :: back ∧
        (scanFrom labels size front).error? = none ∧
        line.declare (scanFrom labels size front).labels (scanFrom labels size front).size =
          .error error := by
  constructor
  · intro refused
    induction lines generalizing labels size with
    | nil => cases refused
    | cons line rest ih =>
      cases declares : line.declare labels size with
      | error first =>
        rw [scanFrom, declares] at refused
        cases refused
        exact ⟨[], line, rest, rfl, rfl, declares⟩
      | ok after =>
        rw [scanFrom, declares] at refused
        -- The rest starts from the labels and the count that this line leaves.
        obtain ⟨front, other, back, rfl, clean, found⟩ := ih after (size + line.size) refused
        refine ⟨line :: front, other, back, rfl, ?_⟩
        rw [scanFrom, declares]
        exact ⟨clean, found⟩
  · rintro ⟨front, line, back, rfl, clean, found⟩
    induction front generalizing labels size with
    | nil =>
      rw [List.nil_append, scanFrom]
      simp only [scanFrom] at found
      rw [found]
    | cons other rest ih =>
      rw [scanFrom] at clean found
      rw [List.cons_append, scanFrom]
      cases declares : other.declare labels size with
      | error first =>
        rw [declares] at clean
        cases clean
      | ok after =>
        rw [declares] at clean found
        exact ih after (size + other.size) clean found

/-- Lines that can be encoded are placed in front of those that follow. -/
theorem emitFrom_append (labels : Labels) (address : Nat) (front back : List Line)
    (encodable : Encodable labels front) :
    emitFrom labels address (front ++ back) =
      ⟨(emitFrom labels address front).placed ++
          (emitFrom labels (address + (code labels front).length) back).placed,
        (emitFrom labels (address + (code labels front).length) back).error?⟩ := by
  induction front generalizing address with
  | nil => rfl
  | cons line rest ih =>
    obtain ⟨first, others⟩ := encodable_cons.mp encodable
    rw [List.cons_append, emitFrom, emitFrom, code_cons, List.length_append, ← Nat.add_assoc]
    cases holds : line.statement? with
    | none =>
      have bare : line.code labels = [] := by rw [Line.code, holds]
      simp only [ih address others, bare, List.length_nil, Nat.add_zero]
    | some statement =>
      obtain ⟨words, encoded⟩ := first statement holds
      rw [line.code_of_encode labels statement words holds encoded]
      simp only [encoded, ih _ others, List.cons_append]

/-- The first line with a statement that cannot be encoded, behind lines that all can. -/
structure StuckAt (labels : Labels) (lines front : List Line) (line : Line) (cause : Cause) :
    Prop where
  split : ∃ back, lines = front ++ line :: back
  before : Encodable labels front
  wrong : ∃ statement, line.statement? = some statement ∧ statement.encode labels = .error cause

theorem encodable_or_stuckAt (labels : Labels) (lines : List Line) :
    Encodable labels lines ∨ ∃ front line cause, StuckAt labels lines front line cause := by
  induction lines with
  | nil => exact .inl nofun
  | cons line rest ih =>
    by_cases wrong : ∃ statement cause, line.statement? = some statement ∧
        statement.encode labels = .error cause
    · obtain ⟨statement, cause, holds, wrong⟩ := wrong
      exact .inr ⟨[], line, cause, ⟨rest, rfl⟩, nofun, statement, holds, wrong⟩
    · -- A line without a statement has nothing in it to be encoded.
      have first : ∀ statement, line.statement? = some statement →
          ∃ words, statement.encode labels = .ok words := by
        intro statement holds
        cases encoded : statement.encode labels with
        | error cause => exact absurd ⟨statement, cause, holds, encoded⟩ wrong
        | ok words => exact ⟨words, rfl⟩
      rcases ih with others | ⟨front, other, cause, ⟨back, rfl⟩, before, stuck⟩
      · exact .inl (encodable_cons.mpr ⟨first, others⟩)
      · exact .inr ⟨line :: front, other, cause, ⟨back, rfl⟩, encodable_cons.mpr ⟨first, before⟩,
          stuck⟩

/-- The second pass leaves what it has placed when it stops. -/
theorem emitFrom_of_stuckAt (labels : Labels) (address : Nat) (lines front : List Line)
    (line : Line) (cause : Cause) (stuck : StuckAt labels lines front line cause) :
    emitFrom labels address lines =
      ⟨(emitFrom labels address front).placed, some ⟨cause, line.number, line.text⟩⟩ := by
  obtain ⟨⟨back, rfl⟩, before, statement, holds, wrong⟩ := stuck
  rw [emitFrom_append labels address front _ before]
  simp only [emitFrom, holds, wrong, List.append_nil]

theorem wordsOf_emitFrom (labels : Labels) (address : Nat) (lines : List Line)
    (encodable : Encodable labels lines) :
    wordsOf (emitFrom labels address lines).placed = code labels lines :=
  (emitFrom_ok labels address lines (emitFrom_encodable labels address lines encodable)).2

theorem emitFrom_error_iff (labels : Labels) (address : Nat) (lines : List Line) (error : Error) :
    (emitFrom labels address lines).error? = some error ↔
      ∃ front line cause, StuckAt labels lines front line cause ∧
        error = ⟨cause, line.number, line.text⟩ := by
  constructor
  · intro refused
    rcases encodable_or_stuckAt labels lines with encodable | ⟨front, line, cause, stuck⟩
    · rw [emitFrom_encodable labels address lines encodable] at refused
      cases refused
    · rw [emitFrom_of_stuckAt labels address lines front line cause stuck] at refused
      exact ⟨front, line, cause, stuck, (Option.some.inj refused).symm⟩
  · rintro ⟨front, line, cause, stuck, rfl⟩
    rw [emitFrom_of_stuckAt labels address lines front line cause stuck]

/-! ### Calls -/

/-- How a call ends and what it leaves: at a line that cannot be read, at a label that cannot be
declared, at a statement that cannot be encoded, or with a program. -/
inductive Outcome (session : Session) (source : List Char) : Except Error Program → Session → Prop
  | unread {error : Error} (unread : parse source = .error error) :
      Outcome session source (.error error) ⟨session.lines, [], session.counter, []⟩
  | mislabelled {lines : List Line} {error : Error} (read : parse source = .ok lines)
      (found : (scan lines).error? = some error) :
      Outcome session source (.error error) ⟨lines, (scan lines).labels, (scan lines).size, []⟩
  | unencoded {lines : List Line} {error : Error} (read : parse source = .ok lines)
      (scanned : (scan lines).error? = none)
      (found : (emit (scan lines).labels lines).error? = some error) :
      Outcome session source (.error error)
        ⟨lines, (scan lines).labels, (wordsOf (emit (scan lines).labels lines).placed).length,
          (emit (scan lines).labels lines).placed⟩
  | assembled {lines : List Line} (read : parse source = .ok lines)
      (scanned : (scan lines).error? = none)
      (emitted : (emit (scan lines).labels lines).error? = none) :
      Outcome session source
        (.ok ⟨wordsOf (emit (scan lines).labels lines).placed, (scan lines).labels⟩)
        ⟨lines, (scan lines).labels, (wordsOf (emit (scan lines).labels lines).placed).length,
          (emit (scan lines).labels lines).placed⟩

theorem Session.outcome (session : Session) (source : List Char) :
    Outcome session source (session.assemble source).1 (session.assemble source).2 := by
  unfold assemble
  split
  next error unread => exact .unread unread
  next lines read =>
    simp only
    split
    next error found => exact .mislabelled read found
    next scanned =>
      split
      next error found => exact .unencoded read scanned found
      next emitted =>
        -- The two passes count the same words, so that the last check never fails.
        have counted := (layout_of_passes source lines read scanned emitted).counted
        rw [if_pos counted]
        exact .assembled read scanned emitted

/-- What a used assembler answers and leaves is said of the session that it keeps. -/
theorem Desk.assemble_reached (history : List (List Char)) (source : List Char) :
    (Desk.initial.assembleAll history).assemble source =
      (((Session.initial.assembleAll history).assemble source).1,
        ((Session.initial.assembleAll history).assemble source).2.desk) := by
  change (Session.initial.desk.assembleAll history).assemble source = _
  rw [assembleAll_desk, assemble_desk]

end WordMachine.Assembly
