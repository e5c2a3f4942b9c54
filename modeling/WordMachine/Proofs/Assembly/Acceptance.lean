import Mathlib
import WordMachine.Proofs.Assembly.Grammar
import WordMachine.Proofs.Steps
import WordMachine.Proofs.Text.UpperCase

/-! Which sources are assembled: exactly those of which every line has the form of one, whose labels
can be told from each other and from all other operands, and whose statements have as many operands
as they need, each of one of the operand forms. -/
namespace WordMachine.Assembly

open WordMachine.Text

namespace Grammar

/-! ### Words of the source format -/

/-- The mnemonics of the operations with two operands. -/
def mnemonics : List String :=
  ["SET", "ADD", "SUB", "MUL", "DIV", "MOD", "SHL", "SHR", "AND", "BOR", "XOR",
    "IFE", "IFN", "IFG", "IFB"]

/-- What stands for a place on the stack or a register that is not a general one. -/
def keywords : List String := ["POP", "PEEK", "PUSH", "SP", "PC", "O"]

/-- The name of a general register, in any letter case. -/
def IsRegister (text : List Char) : Prop := ∃ r : Register, upper text = [r.letter]

/-- A keyword, in any letter case. -/
def IsKeyword (text : List Char) : Prop := upper text ∈ keywords.map String.toList

/-- A digit of base sixteen, in either case. -/
def IsDigit (c : Char) : Prop :=
  ('0' ≤ c ∧ c ≤ '9') ∨ ('a' ≤ c ∧ c ≤ 'f') ∨ ('A' ≤ c ∧ c ≤ 'F')

/-- A number: the mark of its base, then one or more digits. -/
inductive IsNumber : List Char → Prop
  | marked {mark : Char} {digits : List Char} (base : mark = 'x' ∨ mark = 'X')
      (nonempty : digits ≠ []) (digital : ∀ c ∈ digits, IsDigit c) :
      IsNumber ('0' :: mark :: digits)

/-- A number, or a label of some that are declared. -/
inductive IsConstant (names : List (List Char)) : List Char → Prop
  | number {text : List Char} (number : IsNumber text) : IsConstant names text
  | label {name : List Char} (declared : name ∈ names) : IsConstant names name

/-- The operand forms, for the labels that are declared. -/
inductive IsOperand (names : List (List Char)) : List Char → Prop
  | register {token : List Char} (named : IsRegister token) : IsOperand names token
  | atRegister {token : List Char} {r : Register} (named : upper token = ['[', r.letter, ']']) :
      IsOperand names token
  | keyword {token : List Char} (named : IsKeyword token) : IsOperand names token
  | immediate {token : List Char} (constant : IsConstant names token) : IsOperand names token
  | address {inner : List Char} (constant : IsConstant names inner) :
      IsOperand names ('[' :: inner ++ [']'])
  | sumRight {value name : List Char} (constant : IsConstant names value)
      (named : IsRegister name) : IsOperand names ('[' :: (value ++ '+' :: name) ++ [']'])
  | sumLeft {name value : List Char} (named : IsRegister name)
      (constant : IsConstant names value) : IsOperand names ('[' :: (name ++ '+' :: value) ++ [']'])

/-! ### Sources -/

/-- Labels that can be declared together. -/
structure Declarable (names : List (List Char)) : Prop where
  distinct : names.Nodup
  noRegister : ∀ name ∈ names, ¬IsRegister name
  noKeyword : ∀ name ∈ names, ¬IsKeyword name
  noNumber : ∀ name ∈ names, ¬IsNumber name

/-- A statement with the operands that its mnemonic asks for. -/
structure Complete (names : List (List Char)) (statement : Statement) : Prop where
  counted : (statement.mnemonic ∈ mnemonics.map String.toList ∧ statement.operands.length = 2) ∨
    (statement.mnemonic = "JSR".toList ∧ statement.operands.length = 1)
  operands : ∀ operand ∈ statement.operands, IsOperand names operand

/-- A source whose lines have labels and statements of the right form. -/
structure WellFormed (source : List Char)
    (parts : List (Option (List Char) × Option Statement)) : Prop where
  lines : List.Forall₂ (fun text part => SourceLine text part.1 part.2) (lines source) parts
  labels : Declarable (parts.filterMap Prod.fst)
  statements : ∀ statement ∈ parts.filterMap Prod.snd,
    Complete (parts.filterMap Prod.fst) statement

end Grammar

open Grammar

/-! ### Operands -/

theorem isDigit_iff (c : Char) : IsDigit c ↔ (digitValue? 16 c).isSome := by
  have ordered (low high : Char) : low ≤ high ↔ low.toNat ≤ high.toNat := Iff.rfl
  have ends : '0'.toNat = 0x30 ∧ '9'.toNat = 0x39 ∧ 'a'.toNat = 0x61 ∧ 'f'.toNat = 0x66 ∧
      'A'.toNat = 0x41 ∧ 'F'.toNat = 0x46 := by decide
  simp only [IsDigit, ordered, ends]
  constructor
  · intro range
    have below (value : Nat) (small : value < 16) :
        ((some value).filter (fun digit => decide (digit < 16))).isSome = true := by simp [small]
    unfold digitValue?
    simp only [ordered, ends]
    split
    · exact below _ (by omega)
    · split
      · exact below _ (by omega)
      · split
        · exact below _ (by omega)
        · omega
  · intro digit
    have ranges := Hexadecimal.toNat_of_isSome_digitValue? c digit
    omega

theorem isNumber_iff (text : List Char) :
    IsNumber text ↔ ∃ n, Hexadecimal.readMarked? text = some n := by
  constructor
  · rintro ⟨base, nonempty, digital⟩
    obtain ⟨n, read⟩ := Hexadecimal.read?_of_isSome_digitValue? _ nonempty fun c member =>
      (isDigit_iff c).mp (digital c member)
    rcases base with rfl | rfl <;> exact ⟨n, read⟩
  · rintro ⟨n, written⟩
    obtain ⟨mark, digits, rfl, base, digital⟩ := digits_of_readMarked? text n written
    refine .marked base ?_ fun c member => (isDigit_iff c).mpr (digital c member)
    rintro rfl
    rcases base with rfl | rfl <;> cases written

theorem isConstant_iff (labels : Labels) (text : List Char) :
    IsConstant (labels.map Prod.fst) text ↔ ∃ word, Stands labels text word := by
  constructor
  · intro constant
    cases constant with
    | number number =>
      obtain ⟨n, written⟩ := (isNumber_iff text).mp number
      exact ⟨_, .number written⟩
    | label declared =>
      cases known : labels.lookup text with
      | none => exact absurd declared (notMem_of_lookup_eq_none labels text known)
      | some address => exact ⟨_, .label known⟩
  · rintro ⟨word, stands⟩
    cases stands with
    | number written => exact .number ((isNumber_iff text).mpr ⟨_, written⟩)
    | label declared =>
      obtain ⟨front, back, rfl, -⟩ := List.lookup_eq_some_iff.mp declared
      exact .label (by simp)

/-- The modes that have keywords are those of registers, with brackets or without, and of what
keywords stand for. -/
private theorem keyword_cases (text : List Char) :
    (∃ mode : Mode, mode.keyword? = some text) ↔ (∃ r : Register, text = [r.letter]) ∨
      (∃ r : Register, text = ['[', r.letter, ']']) ∨ text ∈ keywords.map String.toList := by
  constructor
  · rintro ⟨mode, keyword⟩
    cases mode with
    | register r => exact .inl ⟨r, (Option.some.inj keyword).symm⟩
    | atRegister r => exact .inr (.inl ⟨r, (Option.some.inj keyword).symm⟩)
    -- Modes that take a next word, and small constants, have none.
    | indexed r => cases keyword
    | atNextWord | nextWord | literal _ => cases keyword
    | _ =>
      cases keyword
      exact .inr (.inr (by decide))
  · rintro (⟨r, rfl⟩ | ⟨r, rfl⟩ | listed)
    · exact ⟨.register r, rfl⟩
    · exact ⟨.atRegister r, rfl⟩
    · have all : ∀ text ∈ keywords.map String.toList, ∃ mode ∈ Mode.named,
          mode.keyword? = some text := by decide
      obtain ⟨mode, -, keyword⟩ := all text listed
      exact ⟨mode, keyword⟩

theorem isOperand_iff (labels : Labels) (referable : labels.AllReferable) (token : List Char) :
    IsOperand (labels.map Prod.fst) token ↔ ∃ part, encodeOperand labels token = .ok part := by
  have spelled : (∃ part, encodeOperand labels token = .ok part) ↔
      ∃ mode next, Spells labels token mode next := by
    simp only [Prod.exists, encodeOperand_iff labels referable]
  rw [spelled]
  constructor
  · intro form
    cases form with
    | register named =>
      obtain ⟨mode, keyword⟩ := (keyword_cases (upper token)).mpr (.inl named)
      exact ⟨mode, [], .keyword keyword⟩
    | atRegister named =>
      obtain ⟨mode, keyword⟩ := (keyword_cases (upper token)).mpr (.inr (.inl ⟨_, named⟩))
      exact ⟨mode, [], .keyword keyword⟩
    | keyword named =>
      obtain ⟨mode, keyword⟩ := (keyword_cases (upper token)).mpr (.inr (.inr named))
      exact ⟨mode, [], .keyword keyword⟩
    | immediate constant =>
      obtain ⟨word, stands⟩ := (isConstant_iff labels token).mp constant
      exact ⟨_, _, .immediate stands⟩
    | address constant =>
      obtain ⟨word, stands⟩ := (isConstant_iff labels _).mp constant
      exact ⟨_, _, .address stands⟩
    | sumRight constant named =>
      obtain ⟨word, stands⟩ := (isConstant_iff labels _).mp constant
      obtain ⟨r, named⟩ := named
      exact ⟨_, _, .sumRight stands named⟩
    | sumLeft named constant =>
      obtain ⟨word, stands⟩ := (isConstant_iff labels _).mp constant
      obtain ⟨r, named⟩ := named
      exact ⟨_, _, .sumLeft named stands⟩
  · rintro ⟨mode, next, spells⟩
    cases spells with
    | keyword named =>
      rcases (keyword_cases (upper token)).mp ⟨mode, named⟩ with named | ⟨r, named⟩ | named
      · exact .register named
      · exact .atRegister named
      · exact .keyword named
    | immediate stands => exact .immediate ((isConstant_iff labels _).mpr ⟨_, stands⟩)
    | address stands => exact .address ((isConstant_iff labels _).mpr ⟨_, stands⟩)
    | sumRight stands named =>
      exact .sumRight ((isConstant_iff labels _).mpr ⟨_, stands⟩) ⟨_, named⟩
    | sumLeft named stands =>
      exact .sumLeft ⟨_, named⟩ ((isConstant_iff labels _).mpr ⟨_, stands⟩)

/-! ### Labels -/

/-- A name of word characters is a keyword only without brackets. -/
theorem ofKeyword?_eq_none_iff (name : List Char) (spelled : isLabelName name = true) :
    Mode.ofKeyword? (upper name) = none ↔ ¬IsRegister name ∧ ¬IsKeyword name := by
  have noBracket (r : Register) : upper name ≠ ['[', r.letter, ']'] := by
    intro bracketed
    simp only [isLabelName, Bool.and_eq_true, List.all_eq_true] at spelled
    have inside := mem_of_mem_upper name '[' (by decide) (by decide) (by simp [bracketed])
    exact absurd (spelled.2 '[' inside) (by decide +kernel)
  have keyword : Mode.ofKeyword? (upper name) ≠ none ↔ ∃ mode : Mode,
      mode.keyword? = some (upper name) := by
    simp only [Option.ne_none_iff_exists', ofKeyword?_eq_some_iff]
  rw [← not_or, ← not_iff_not, not_not, ← ne_eq, keyword, keyword_cases]
  constructor
  · rintro (register | ⟨r, bracketed⟩ | keyword)
    · exact .inl register
    · exact absurd bracketed (noBracket r)
    · exact .inr keyword
  · rintro (register | keyword)
    · exact .inl register
    · exact .inr (.inr keyword)

private theorem labelFault?_of_fresh (labels : Labels) (name : List Char)
    (fresh : name ∉ labels.map Prod.fst) (noKeyword : Mode.ofKeyword? (upper name) = none)
    (noNumber : Hexadecimal.readMarked? name = none) : labelFault? labels name = none := by
  have unknown : labels.lookup name = none :=
    Option.not_isSome_iff_eq_none.mp (mt (isSome_lookup_iff labels name).mp fresh)
  simp only [labelFault?, unknown, noKeyword, noNumber, Option.isSome_none, Bool.false_eq_true,
    if_false]

/-- The first pass finds no error in lines with distinct labels, none of which is a keyword or a
number. -/
theorem scanFrom_clean (labels : Labels) (size : Nat) (lines : List Line)
    (distinct : (labels.map Prod.fst ++ lines.filterMap (·.label?)).Nodup)
    (fine : ∀ name ∈ lines.filterMap (·.label?),
      Mode.ofKeyword? (upper name) = none ∧ Hexadecimal.readMarked? name = none) :
    (scanFrom labels size lines).error? = none := by
  induction lines generalizing labels size with
  | nil => rfl
  | cons line rest ih =>
    cases named : line.label? with
    | none =>
      rw [List.filterMap_cons_none named] at distinct fine
      have declares : line.declare labels size = .ok labels := by simp only [Line.declare, named]
      rw [scanFrom, declares]
      exact ih labels (size + line.size) distinct fine
    | some name =>
      rw [List.filterMap_cons_some named] at distinct fine
      obtain ⟨⟨noKeyword, noNumber⟩, others⟩ := List.forall_mem_cons.mp fine
      -- The labels declared so far are those in front of this one.
      have fresh : name ∉ labels.map Prod.fst := fun member =>
        (List.nodup_append.mp distinct).2.2 name member name List.mem_cons_self rfl
      have declares : line.declare labels size = .ok (labels ++ [(name, size)]) := by
        simp only [Line.declare, named, labelFault?_of_fresh labels name fresh noKeyword noNumber]
      rw [scanFrom, declares]
      exact ih _ (size + line.size) (by simpa using distinct) others

/-! ### Statements -/

private theorem encode_of_operands (labels : Labels) (operation : Operation)
    (operands : List (List Char)) (counted : operands.length = operation.operandCount)
    (encoded : ∀ operand ∈ operands, ∃ part, encodeOperand labels operand = .ok part) :
    ∃ words, Statement.encode labels ⟨operation.mnemonic.toList, operands⟩ = .ok words := by
  by_cases call : operation = .jsr
  · subst call
    obtain ⟨target, rfl⟩ := List.length_eq_one_iff.mp counted
    obtain ⟨part, one⟩ := encoded target (by simp)
    exact ⟨_, encode_jsr labels target part one⟩
  · have two : operation.operandCount = 2 := by
      cases operation with
      | jsr => exact absurd rfl call
      | _ => rfl
    obtain ⟨first, last, rfl⟩ := List.length_eq_two.mp (counted.trans two)
    obtain ⟨a, one⟩ := encoded first (by simp)
    obtain ⟨b, other⟩ := encoded last (by simp)
    exact ⟨_, encode_plain labels operation call first last a b one other⟩

private theorem encoded_of_forall₂ (labels : Labels) (tokens : List (List Char))
    (parts : List (Mode × List Word))
    (all : List.Forall₂ (fun token part => encodeOperand labels token = .ok part) tokens parts) :
    ∀ token ∈ tokens, ∃ part, encodeOperand labels token = .ok part := by
  induction all with
  | nil => exact nofun
  | cons one _ ih => exact List.forall_mem_cons.mpr ⟨⟨_, one⟩, ih⟩

/-- A statement is encoded exactly when its mnemonic names an operation and its operands are as many
as that one has and can all be encoded. -/
theorem encode_ok_iff (labels : Labels) (statement : Statement) :
    (∃ words, statement.encode labels = .ok words) ↔
      (∃ operation : Operation, operation.mnemonic.toList = statement.mnemonic ∧
        statement.operands.length = operation.operandCount) ∧
      ∀ operand ∈ statement.operands, ∃ part, encodeOperand labels operand = .ok part := by
  constructor
  · rintro ⟨words, encoded⟩
    obtain ⟨instruction, operation, parts, defined, mnemonic, operands, modes, -⟩ :=
      encode_ok labels statement words encoded
    refine ⟨⟨operation, mnemonic, ?_⟩, encoded_of_forall₂ labels _ parts operands⟩
    rw [← instruction.length_modes operation defined, modes, List.length_map, operands.length_eq]
  · rintro ⟨⟨operation, mnemonic, counted⟩, encoded⟩
    obtain ⟨_, operands⟩ := statement
    obtain rfl := mnemonic
    exact encode_of_operands labels operation operands counted encoded

private theorem counted_iff (mnemonic : List Char) (count : Nat) :
    (∃ operation : Operation, operation.mnemonic.toList = mnemonic ∧
        count = operation.operandCount) ↔
      (mnemonic ∈ mnemonics.map String.toList ∧ count = 2) ∨
        (mnemonic = "JSR".toList ∧ count = 1) := by
  constructor
  · rintro ⟨operation, rfl, rfl⟩
    have all : ∀ operation ∈ Operation.all,
        (operation.mnemonic.toList ∈ mnemonics.map String.toList ∧ operation.operandCount = 2) ∨
          (operation.mnemonic.toList = "JSR".toList ∧ operation.operandCount = 1) := by
      decide
    exact all operation operation.mem_all
  · rintro (⟨listed, rfl⟩ | ⟨rfl, rfl⟩)
    · have all : ∀ mnemonic ∈ mnemonics.map String.toList, ∃ operation ∈ Operation.all,
          operation.mnemonic.toList = mnemonic ∧ 2 = operation.operandCount := by
        decide
      obtain ⟨operation, -, named⟩ := all mnemonic listed
      exact ⟨operation, named⟩
    · exact ⟨.jsr, rfl, rfl⟩

theorem complete_iff (labels : Labels) (referable : labels.AllReferable) (statement : Statement) :
    Complete (labels.map Prod.fst) statement ↔
      ∃ words, statement.encode labels = .ok words := by
  rw [encode_ok_iff, counted_iff]
  simp only [← isOperand_iff labels referable]
  exact ⟨fun form => ⟨form.counted, form.operands⟩, fun both => ⟨both.1, both.2⟩⟩

/-! ### Lines -/

/-- What a line says. -/
def Line.part (line : Line) : Option (List Char) × Option Statement :=
  (line.label?, line.statement?)

theorem parseLines_iff (number : Nat) (texts : List (List Char))
    (parts : List (Option (List Char) × Option Statement)) :
    (∃ lines, parseLines number texts = .ok lines ∧ lines.map Line.part = parts) ↔
      List.Forall₂ (fun text part => SourceLine text part.1 part.2) texts parts := by
  induction texts generalizing number parts with
  | nil =>
    rw [List.forall₂_nil_left_iff]
    exact ⟨by rintro ⟨lines, ⟨⟩, rfl⟩; rfl, by rintro rfl; exact ⟨[], rfl, rfl⟩⟩
  | cons text rest ih =>
    constructor
    · rintro ⟨lines, read, rfl⟩
      obtain ⟨line, first, read⟩ := bind_eq_ok _ _ _ read
      obtain ⟨others, following, read⟩ := bind_eq_ok _ _ _ read
      cases read
      exact .cons ((parse_line_iff number text line).mp first).2.2
        ((ih (number + 1) _).mp ⟨others, following, rfl⟩)
    · intro forms
      cases forms with
      | @cons _ part _ parts form forms =>
        obtain ⟨lines, following, rfl⟩ := (ih (number + 1) parts).mpr forms
        have first := (parse_line_iff number text ⟨number, text, part.1, part.2⟩).mpr
          ⟨rfl, rfl, form⟩
        refine ⟨⟨number, text, part.1, part.2⟩ :: lines, ?_, rfl⟩
        rw [parseLines, first, following]
        rfl

/-! ### Sources -/

theorem labels_of_scan (lines : List Line) (scanned : (scan lines).error? = none) :
    (scan lines).labels.map Prod.fst = lines.filterMap (·.label?) := by
  rw [declared_of_scan lines scanned, map_fst_declared]

/-- The first pass accepts the labels that can be declared together. -/
theorem declarable_iff (lines : List Line)
    (spelled : ∀ line ∈ lines, ∀ name, line.label? = some name → isLabelName name = true) :
    Declarable (lines.filterMap (·.label?)) ↔ (scan lines).error? = none := by
  have numberless (name : List Char) :
      ¬IsNumber name ↔ Hexadecimal.readMarked? name = none := by
    rw [isNumber_iff, ← Option.ne_none_iff_exists', not_not]
  constructor
  · intro declarable
    refine scanFrom_clean [] 0 lines declarable.distinct fun name member => ?_
    obtain ⟨line, inside, named⟩ := List.mem_filterMap.mp member
    exact ⟨(ofKeyword?_eq_none_iff name (spelled line inside name named)).mpr
      ⟨declarable.noRegister name member, declarable.noKeyword name member⟩,
      (numberless name).mp (declarable.noNumber name member)⟩
  · intro scanned
    have sound := sound_of_scan lines spelled
    rw [← labels_of_scan lines scanned]
    have referable : ∀ name ∈ (scan lines).labels.map Prod.fst, Referable name :=
      List.forall_mem_map.mpr sound.referable
    have noKeyword (name : List Char) (member : name ∈ (scan lines).labels.map Prod.fst) :=
      (ofKeyword?_eq_none_iff name (referable name member).spelled).mp
        (referable name member).noKeyword
    exact ⟨sound.distinct, fun name member => (noKeyword name member).1,
      fun name member => (noKeyword name member).2,
      fun name member => (numberless name).mpr (referable name member).noNumber⟩

/-- The second pass accepts the statements that are complete. -/
theorem encodable_iff (labels : Labels) (referable : labels.AllReferable) (lines : List Line) :
    Encodable labels lines ↔
      ∀ statement ∈ statements lines, Complete (labels.map Prod.fst) statement := by
  simp only [complete_iff labels referable, statements, List.mem_filterMap, forall_exists_index,
    and_imp]
  exact ⟨fun encodable statement line member holds => encodable line member statement holds,
    fun complete line member statement holds => complete statement line member holds⟩

/-- A source is assembled exactly when it can be read and both passes accept its lines. -/
theorem exists_program_iff (session : Session) (source : List Char) :
    (∃ program, (session.assemble source).1 = .ok program) ↔ ∃ lines, parse source = .ok lines ∧
      (scan lines).error? = none ∧ Encodable (scan lines).labels lines := by
  constructor
  · rintro ⟨program, assembled⟩
    rcases assemble_cases session source with
      ⟨lines, read, scanned, emitted, -⟩ | ⟨error, refused, -⟩
    · exact ⟨lines, read, scanned, (passes_ok source lines read emitted).2.1⟩
    · rw [refused] at assembled
      cases assembled
  · rintro ⟨lines, read, scanned, encodable⟩
    exact ⟨_, assemble_of_encodable session source lines read scanned encodable⟩

/-- What was read is well formed exactly when both passes accept it. -/
theorem wellFormed_iff (source : List Char) (lines : List Line) (read : parse source = .ok lines) :
    WellFormed source (lines.map Line.part) ↔
      (scan lines).error? = none ∧ Encodable (scan lines).labels lines := by
  have spelled := label_of_parseLines 1 _ lines read
  have names : (lines.map Line.part).filterMap Prod.fst = lines.filterMap (·.label?) :=
    List.filterMap_map
  have said : (lines.map Line.part).filterMap Prod.snd = statements lines := List.filterMap_map
  have sound := sound_of_scan lines spelled
  constructor
  · rintro ⟨-, declarable, complete⟩
    rw [names] at declarable complete
    rw [said] at complete
    have scanned := (declarable_iff lines spelled).mp declarable
    refine ⟨scanned, (encodable_iff _ sound.allReferable lines).mpr ?_⟩
    rwa [labels_of_scan lines scanned]
  · rintro ⟨scanned, encodable⟩
    refine ⟨(parseLines_iff 1 _ _).mp ⟨lines, read, rfl⟩, ?_, ?_⟩
    · rw [names]
      exact (declarable_iff lines spelled).mpr scanned
    · rw [said, names, ← labels_of_scan lines scanned]
      exact (encodable_iff _ sound.allReferable lines).mp encodable

/-- A source is assembled exactly when it is well formed, whatever was assembled before. -/
theorem assemble_ok_iff (session : Session) (source : List Char) :
    (∃ program, (session.assemble source).1 = .ok program) ↔
      ∃ parts, WellFormed source parts := by
  rw [exists_program_iff]
  constructor
  · rintro ⟨lines, read, accepted⟩
    exact ⟨_, (wellFormed_iff source lines read).mpr accepted⟩
  · rintro ⟨parts, wellFormed⟩
    obtain ⟨lines, read, rfl⟩ := (parseLines_iff 1 _ parts).mpr wellFormed.lines
    exact ⟨lines, read, (wellFormed_iff source lines read).mp wellFormed⟩

/-- A sum of two registers has no value. -/
example : (assemble "SET A, [A+B]".toList).toOption = none := by decide +kernel

end WordMachine.Assembly
