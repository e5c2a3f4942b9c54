import WordMachine.Proofs.Assembly.Acceptance

/-! What can be wrong with labels and statements that have been read: a label is refused for the
first of three faults, and a statement for its mnemonic before the number of its operands, and for
that before the first operand of none of the operand forms. -/
namespace WordMachine.Assembly

open WordMachine.Text

namespace Grammar

/-- What forbids a label behind others of given names. -/
inductive Mislabelled (names : List (List Char)) (name : List Char) : Cause → Prop
  | duplicate (known : name ∈ names) : Mislabelled names name (.duplicateLabel name)
  | keyword (fresh : name ∉ names) (named : IsRegister name ∨ IsKeyword name) :
      Mislabelled names name (.keywordLabel name)
  | number (fresh : name ∉ names) (other : ¬(IsRegister name ∨ IsKeyword name))
      (number : IsNumber name) : Mislabelled names name (.numberLabel name)

/-- What is wrong with a statement: its mnemonic, the number of its operands, or the first operand
that has none of the operand forms. -/
inductive Misencoded (names : List (List Char)) (statement : Statement) : Cause → Prop
  | mnemonic (unknown : ∀ operation : Operation, operation.mnemonic.toList ≠ statement.mnemonic) :
      Misencoded names statement (.unknownMnemonic statement.mnemonic)
  | count {operation : Operation} (named : operation.mnemonic.toList = statement.mnemonic)
      (miscounted : statement.operands.length ≠ operation.operandCount) :
      Misencoded names statement (.operandCount operation statement.operands.length)
  | operand {operation : Operation} {front back : List (List Char)} {token : List Char}
      (named : operation.mnemonic.toList = statement.mnemonic)
      (counted : statement.operands.length = operation.operandCount)
      (split : statement.operands = front ++ token :: back)
      (fine : ∀ operand ∈ front, IsOperand names operand) (unknown : ¬IsOperand names token) :
      Misencoded names statement (.unknownOperand token)

end Grammar

open Grammar

/-! ### Labels -/

theorem labelFault?_iff (labels : Labels) (name : List Char) (spelled : isLabelName name = true)
    (cause : Cause) :
    labelFault? labels name = some cause ↔ Mislabelled (labels.map Prod.fst) name cause := by
  have known := isSome_lookup_iff labels name
  have keyword : (Mode.ofKeyword? (upper name)).isSome = true ↔
      IsRegister name ∨ IsKeyword name := by
    rw [← not_iff_not, Option.not_isSome_iff_eq_none, ofKeyword?_eq_none_iff name spelled, not_or]
  have number : (Hexadecimal.readMarked? name).isSome = true ↔ IsNumber name := by
    rw [isNumber_iff, Option.isSome_iff_exists]
  constructor
  · intro faulty
    unfold labelFault? at faulty
    split at faulty
    next old =>
      cases faulty
      exact .duplicate (known.mp old)
    next fresh =>
      have fresh := mt known.mpr fresh
      split at faulty
      next named =>
        cases faulty
        exact .keyword fresh (keyword.mp named)
      next other =>
        split at faulty
        next digits =>
          cases faulty
          exact .number fresh (mt keyword.mpr other) (number.mp digits)
        · cases faulty
  · intro form
    unfold labelFault?
    cases form with
    | duplicate old => rw [if_pos (known.mpr old)]
    | keyword fresh named => rw [if_neg (mt known.mp fresh), if_pos (keyword.mpr named)]
    | number fresh other digits =>
      rw [if_neg (mt known.mp fresh), if_neg (mt keyword.mp other), if_pos (number.mpr digits)]

theorem declare_error_iff (labels : Labels) (address : Nat) (line : Line) (error : Error) :
    line.declare labels address = .error error ↔
      ∃ name cause, line.label? = some name ∧ labelFault? labels name = some cause ∧
        error = ⟨cause, line.number, line.text⟩ := by
  unfold Line.declare
  cases line.label? with
  | none => exact iff_of_false nofun (by rintro ⟨name, cause, ⟨⟩, -⟩)
  | some name =>
    simp only [Option.some.injEq, exists_and_left, exists_eq_left']
    cases labelFault? labels name with
    | none => exact iff_of_false nofun (by rintro ⟨cause, ⟨⟩, -⟩)
    | some cause => simp [eq_comm]

/-! ### Statements -/

private theorem mnemonic_injective (one other : Operation)
    (same : one.mnemonic.toList = other.mnemonic.toList) : one = other :=
  Option.some.inj ((ofMnemonic?_mnemonic one).symm.trans (same ▸ ofMnemonic?_mnemonic other))

private theorem encodeOperand_error_iff (labels : Labels) (referable : labels.AllReferable)
    (token : List Char) (cause : Cause) : encodeOperand labels token = .error cause ↔
      ¬IsOperand (labels.map Prod.fst) token ∧ cause = .unknownOperand token := by
  rw [isOperand_iff labels referable]
  unfold encodeOperand
  simp only
  cases (Operand.ofToken token).words? labels with
  | none => simp [eq_comm]
  | some words => exact iff_of_false nofun fun wrong => wrong.1 ⟨_, rfl⟩

private theorem isOperand_of_ok (labels : Labels) (referable : labels.AllReferable)
    (token : List Char) (part : Mode × List Word)
    (encoded : encodeOperand labels token = .ok part) :
    IsOperand (labels.map Prod.fst) token :=
  (isOperand_iff labels referable token).mpr ⟨part, encoded⟩

private theorem misencoded_of_encode (labels : Labels) (referable : labels.AllReferable)
    (statement : Statement) (cause : Cause) (refused : statement.encode labels = .error cause) :
    Misencoded (labels.map Prod.fst) statement cause := by
  unfold Statement.encode at refused
  split at refused
  next unknown =>
    cases refused
    refine .mnemonic fun operation named => ?_
    rw [← named, ofMnemonic?_mnemonic] at unknown
    cases unknown
  next known =>
    have named := ofMnemonic?_eq_some _ _ known
    split at refused
    next target spelled =>
      rcases bind_eq_error _ _ _ refused with only | ⟨part, -, refused⟩
      · obtain ⟨unknown, rfl⟩ := (encodeOperand_error_iff labels referable _ _).mp only
        have alone : statement.operands = [] ++ target :: [] := spelled
        exact .operand named (by rw [spelled]; rfl) alone nofun unknown
      · cases refused
    next other =>
      cases refused
      exact .count named fun single => (List.length_eq_one_iff.mp single).elim other
  next operation call known =>
    have named := ofMnemonic?_eq_some _ _ known
    have two : operation.operandCount = 2 := by
      cases operation with
      | jsr => exact absurd rfl call
      | _ => rfl
    split at refused
    next first last spelled =>
      have counted : statement.operands.length = operation.operandCount := by rw [spelled, two]; rfl
      rcases bind_eq_error _ _ _ refused with one | ⟨part, one, refused⟩
      · obtain ⟨unknown, rfl⟩ := (encodeOperand_error_iff labels referable _ _).mp one
        have ahead : statement.operands = [] ++ first :: [last] := spelled
        exact .operand named counted ahead nofun unknown
      · rcases bind_eq_error _ _ _ refused with other | ⟨part, -, refused⟩
        · obtain ⟨unknown, rfl⟩ := (encodeOperand_error_iff labels referable _ _).mp other
          have behind : statement.operands = [first] ++ last :: [] := spelled
          -- The second operand is looked at only when the first has one of the forms.
          have fine := isOperand_of_ok labels referable first _ one
          exact .operand named counted behind (List.forall_mem_singleton.mpr fine) unknown
        · cases refused
    next other =>
      cases refused
      refine .count named fun pair => ?_
      obtain ⟨first, last, spelled⟩ := List.length_eq_two.mp (pair.trans two)
      exact other first last spelled

private theorem not_misencoded_of_ok (labels : Labels) (referable : labels.AllReferable)
    (statement : Statement) (words : List Word) (encoded : statement.encode labels = .ok words)
    (cause : Cause) : ¬Misencoded (labels.map Prod.fst) statement cause := by
  obtain ⟨⟨operation, mnemonic, counted⟩, operands⟩ :=
    (encode_ok_iff labels statement).mp ⟨words, encoded⟩
  intro form
  cases form with
  | mnemonic unknown => exact unknown operation mnemonic
  | count named miscounted =>
    rw [mnemonic_injective _ operation (named.trans mnemonic.symm)] at miscounted
    exact miscounted counted
  | @operand _ front back token _ _ split _ unknown =>
    obtain ⟨part, encoded⟩ := operands token (by simp [split])
    exact unknown (isOperand_of_ok labels referable token part encoded)

/-- Only one thing is wrong with a statement. -/
private theorem misencoded_unique (names : List (List Char)) (statement : Statement)
    (cause other : Cause) (one : Misencoded names statement cause)
    (two : Misencoded names statement other) : cause = other := by
  classical
  -- The first operand of none of the forms is what a search for one finds.
  have found (front back : List (List Char)) (token : List Char)
      (split : statement.operands = front ++ token :: back)
      (fine : ∀ operand ∈ front, IsOperand names operand) (unknown : ¬IsOperand names token) :
      statement.operands.find? (fun operand => decide (¬IsOperand names operand)) = some token :=
    List.find?_eq_some_iff_append.mpr
      ⟨decide_eq_true unknown, front, back, split, fun operand member => by
        simpa using fine operand member⟩
  cases one with
  | mnemonic unknown =>
    cases two with
    | mnemonic _ => rfl
    | count named _ => exact absurd named (unknown _)
    | operand named _ _ _ _ => exact absurd named (unknown _)
  | count named miscounted =>
    cases two with
    | mnemonic unknown => exact absurd named (unknown _)
    | count also _ => rw [mnemonic_injective _ _ (named.trans also.symm)]
    | operand also counted _ _ _ =>
      rw [mnemonic_injective _ _ (named.trans also.symm)] at miscounted
      exact absurd counted miscounted
  | operand named counted split fine unknown =>
    cases two with
    | mnemonic unknown => exact absurd named (unknown _)
    | count also miscounted =>
      rw [mnemonic_injective _ _ (also.trans named.symm)] at miscounted
      exact absurd counted miscounted
    | operand _ _ splitAlso fineAlso unknownAlso =>
      rw [Option.some.inj ((found _ _ _ split fine unknown).symm.trans
        (found _ _ _ splitAlso fineAlso unknownAlso))]

/-- A statement is refused for the one thing that is wrong with it. -/
theorem encode_error_iff (labels : Labels) (referable : labels.AllReferable)
    (statement : Statement) (cause : Cause) : statement.encode labels = .error cause ↔
      Misencoded (labels.map Prod.fst) statement cause := by
  refine ⟨misencoded_of_encode labels referable statement cause, fun form => ?_⟩
  -- What is wrong with the statement cannot be encoded, and is the one thing that is reported.
  cases encoded : statement.encode labels with
  | ok words =>
    exact absurd form (not_misencoded_of_ok labels referable statement words encoded cause)
  | error other =>
    rw [misencoded_unique _ statement other cause
      (misencoded_of_encode labels referable statement other encoded) form]

end WordMachine.Assembly
