import Mathlib.Data.List.Forall2
import WordMachine.Assembly.Session
import WordMachine.Proofs.Assembly.Operands
import WordMachine.Proofs.Assembly.Phases
import WordMachine.Proofs.Resolution

/-! Agreement of the two passes: sizes counted from spelling alone are the lengths of the encodings,
so that the addresses given to labels before anything is encoded are the right ones. -/
namespace WordMachine.Assembly

open WordMachine.Text

/-! ### Statements -/

theorem ofMnemonic?_eq_some (text : List Char) (operation : Operation)
    (found : Operation.ofMnemonic? text = some operation) : operation.mnemonic.toList = text := by
  simpa using List.find?_some found

theorem ofMnemonic?_mnemonic (operation : Operation) :
    Operation.ofMnemonic? operation.mnemonic.toList = some operation := by
  cases operation with
  | binary op => cases op <;> decide
  | conditional condition => cases condition <;> decide
  | jsr => decide

private theorem modes_of_ne_jsr (operation : Operation) (a b : Mode) (other : operation ≠ .jsr) :
    (Instruction.mk operation.opcode a.code b.code).modes = [a, b] := by
  have plain := mt (Operation.opcode_eq_zero_iff operation).mp other
  rw [(Instruction.plain_cases ⟨operation.opcode, a.code, b.code⟩ plain).2, Mode.ofCode_code,
    Mode.ofCode_code]

private theorem modes_jsr (b : Mode) :
    (Instruction.mk Operation.jsr.opcode Operation.jsrSelector b.code).modes = [b] := by
  change [Mode.ofCode b.code] = [b]
  rw [Mode.ofCode_code]

/-- Everything that encoding a statement does: its mnemonic names the operation of the instruction
word, its operands give the modes, and their next words follow in the same order. -/
theorem encode_ok (labels : Labels) (statement : Statement) (words : List Word)
    (encoded : statement.encode labels = .ok words) :
    ∃ instruction operation parts,
      Operation.ofInstruction? instruction = some operation ∧
      operation.mnemonic.toList = statement.mnemonic ∧
      List.Forall₂ (fun token part => encodeOperand labels token = .ok part)
        statement.operands parts ∧
      instruction.modes = parts.map Prod.fst ∧
      words = instruction.toWord :: parts.flatMap Prod.snd := by
  unfold Statement.encode at encoded
  split at encoded
  · cases encoded
  next known =>
    have mnemonic := ofMnemonic?_eq_some _ _ known
    split at encoded
    next target spelled =>
      obtain ⟨⟨b, nextB⟩, second, encoded⟩ := bind_eq_ok _ _ _ encoded
      cases encoded
      refine ⟨_, _, [(b, nextB)],
        (Operation.ofInstruction?_eq_some_iff _ _).mpr ⟨rfl, fun _ => rfl⟩, mnemonic, ?_,
        modes_jsr b, ?_⟩
      · rw [spelled]
        exact .cons second .nil
      · simp
    · cases encoded
  next operation other known =>
    have mnemonic := ofMnemonic?_eq_some _ _ known
    split at encoded
    next first last spelled =>
      obtain ⟨⟨a, nextA⟩, one, encoded⟩ := bind_eq_ok _ _ _ encoded
      obtain ⟨⟨b, nextB⟩, two, encoded⟩ := bind_eq_ok _ _ _ encoded
      cases encoded
      refine ⟨_, _, [(a, nextA), (b, nextB)],
        (Operation.ofInstruction?_eq_some_iff _ _).mpr ⟨rfl, fun same => absurd same other⟩,
        mnemonic, ?_, modes_of_ne_jsr operation a b other, ?_⟩
      · rw [spelled]
        exact .cons one (.cons two .nil)
      · simp
    · cases encoded

theorem encode_jsr (labels : Labels) (target : List Char) (b : Mode × List Word)
    (encoded : encodeOperand labels target = .ok b) :
    Statement.encode labels ⟨Operation.jsr.mnemonic.toList, [target]⟩ =
      .ok ((Instruction.mk Operation.jsr.opcode Operation.jsrSelector b.1.code).toWord :: b.2) := by
  simp only [Statement.encode, ofMnemonic?_mnemonic, encoded]
  rfl

theorem encode_plain (labels : Labels) (operation : Operation) (noCall : operation ≠ .jsr)
    (first last : List Char) (a b : Mode × List Word)
    (one : encodeOperand labels first = .ok a) (two : encodeOperand labels last = .ok b) :
    Statement.encode labels ⟨operation.mnemonic.toList, [first, last]⟩ =
      .ok ((Instruction.mk operation.opcode a.1.code b.1.code).toWord :: (a.2 ++ b.2)) := by
  cases operation with
  | jsr => exact absurd rfl noCall
  | _ =>
    simp only [Statement.encode, ofMnemonic?_mnemonic, one, two]
    rfl

/-- The next words of encoded operands are as many as their spelling promised, which is what their
modes take. -/
theorem length_parts (labels : Labels) (tokens : List (List Char))
    (parts : List (Mode × List Word))
    (operands : List.Forall₂ (fun token part => encodeOperand labels token = .ok part)
      tokens parts) :
    (parts.flatMap Prod.snd).length =
        tokens.foldr (fun token words => (Operand.ofToken token).size + words) 0 ∧
      (parts.flatMap Prod.snd).length = ((parts.map Prod.fst).map Mode.nextWords).sum := by
  induction operands with
  | nil => exact ⟨rfl, rfl⟩
  | @cons token part tokens parts one _ ih =>
    obtain ⟨spelled, taken⟩ := length_next labels token part.1 part.2 one
    simp only [List.flatMap_cons, List.length_append, List.map_cons, List.sum_cons, List.foldr_cons]
    exact ⟨by rw [spelled, ih.1], by rw [taken, ih.2]⟩

theorem length_encode (labels : Labels) (statement : Statement) (words : List Word)
    (encoded : statement.encode labels = .ok words) : words.length = statement.size := by
  obtain ⟨instruction, operation, parts, -, -, operands, -, rfl⟩ :=
    encode_ok labels statement words encoded
  rw [List.length_cons, (length_parts labels _ parts operands).1, Statement.size, Nat.add_comm]

/-! ### Lines -/

/-- The words that a line encodes to: none for a line without a statement. -/
def Line.code (labels : Labels) (line : Line) : List Word :=
  match line.statement? with
  | none => []
  | some statement => (statement.encode labels).toOption.getD []

/-- The words that lines encode to, in order. -/
def code (labels : Labels) (lines : List Line) : List Word := lines.flatMap (Line.code labels)

/-- Every statement of the lines can be encoded. -/
def Encodable (labels : Labels) (lines : List Line) : Prop :=
  ∀ line ∈ lines, ∀ statement, line.statement? = some statement →
    ∃ words, statement.encode labels = .ok words

theorem encodable_cons {labels : Labels} {line : Line} {rest : List Line} :
    Encodable labels (line :: rest) ↔
      (∀ statement, line.statement? = some statement →
        ∃ words, statement.encode labels = .ok words) ∧ Encodable labels rest :=
  List.forall_mem_cons

theorem code_cons (labels : Labels) (line : Line) (rest : List Line) :
    code labels (line :: rest) = line.code labels ++ code labels rest :=
  List.flatMap_cons

theorem code_append (labels : Labels) (front back : List Line) :
    code labels (front ++ back) = code labels front ++ code labels back :=
  List.flatMap_append

theorem code_of_no_statement (labels : Labels) (lines : List Line)
    (bare : ∀ line ∈ lines, line.statement? = none) : code labels lines = [] := by
  rw [code, List.flatMap_eq_nil_iff]
  intro line member
  simp only [Line.code, bare line member]

theorem Line.code_of_encode (labels : Labels) (line : Line) (statement : Statement)
    (words : List Word) (holds : line.statement? = some statement)
    (encoded : statement.encode labels = .ok words) : line.code labels = words := by
  simp only [Line.code, holds, encoded, Except.toOption, Option.getD_some]

theorem Line.length_code (labels : Labels) (line : Line)
    (encodable : ∀ statement, line.statement? = some statement →
      ∃ words, statement.encode labels = .ok words) :
    (line.code labels).length = line.size := by
  cases holds : line.statement? with
  | none => simp only [Line.code, Line.size, holds, List.length_nil]
  | some statement =>
    obtain ⟨words, encoded⟩ := encodable statement holds
    rw [line.code_of_encode labels statement words holds encoded,
      length_encode labels statement words encoded]
    simp only [Line.size, holds]

theorem length_code (labels : Labels) (lines : List Line) (encodable : Encodable labels lines) :
    (code labels lines).length = (lines.map Line.size).sum := by
  induction lines with
  | nil => rfl
  | cons line rest ih =>
    have first := line.length_code labels (encodable line List.mem_cons_self)
    have others := ih fun line member => encodable line (List.mem_cons_of_mem _ member)
    rw [code_cons, List.length_append, first, others, List.map_cons, List.sum_cons]

/-- The statements of lines, in order. -/
def statements (lines : List Line) : List Statement := lines.filterMap (·.statement?)

theorem statements_cons (line : Line) (rest : List Line) :
    statements (line :: rest) = line.statement?.toList ++ statements rest := by
  cases holds : line.statement? <;> simp [statements, holds]

/-- Lines whose statements have encodings are encoded to these. -/
theorem code_of_encodings (labels : Labels) (lines : List Line) (blocks : List (List Word))
    (encoded : List.Forall₂ (fun statement block => statement.encode labels = .ok block)
      (statements lines) blocks) :
    Encodable labels lines ∧ code labels lines = blocks.flatten := by
  induction lines generalizing blocks with
  | nil =>
    cases encoded
    exact ⟨nofun, rfl⟩
  | cons line rest ih =>
    rw [statements_cons] at encoded
    cases holds : line.statement? with
    | none =>
      rw [holds] at encoded
      obtain ⟨encodable, words⟩ := ih blocks encoded
      refine ⟨encodable_cons.mpr ⟨by rw [holds]; nofun, encodable⟩, ?_⟩
      rw [code_cons, Line.code, holds, words]
      rfl
    | some statement =>
      rw [holds] at encoded
      cases encoded with
      | @cons _ block _ blocks own others =>
        obtain ⟨encodable, words⟩ := ih blocks others
        refine ⟨encodable_cons.mpr ⟨?_, encodable⟩, ?_⟩
        · rw [holds]
          rintro _ ⟨⟩
          exact ⟨block, own⟩
        · rw [code_cons, line.code_of_encode labels statement block holds own, words,
            List.flatten_cons]

/-- Every statement takes a word. -/
theorem length_statements_le (labels : Labels) (lines : List Line)
    (encodable : Encodable labels lines) :
    (statements lines).length ≤ (code labels lines).length := by
  induction lines with
  | nil => exact Nat.le_refl 0
  | cons line rest ih =>
    have others := ih fun other member => encodable other (List.mem_cons_of_mem _ member)
    rw [code_cons, statements_cons, List.length_append, List.length_append]
    cases holds : line.statement? with
    | none => exact Nat.add_le_add (Nat.zero_le _) others
    | some statement =>
      obtain ⟨words, encoded⟩ := encodable line List.mem_cons_self statement holds
      obtain ⟨_, _, _, -, -, -, -, rfl⟩ := encode_ok labels statement words encoded
      rw [line.code_of_encode labels statement _ holds encoded, List.length_cons]
      exact Nat.add_le_add (Nat.le_add_left 1 _) others

/-! ### The first pass -/

/-- The labels that lines declare when the first of them begins at an address. -/
def declared (address : Nat) : List Line → Labels
  | [] => []
  | line :: rest => (line.label?.map (·, address)).toList ++ declared (address + line.size) rest

theorem declare_ok (labels after : Labels) (address : Nat) (line : Line)
    (declares : line.declare labels address = .ok after) :
    after = labels ++ (line.label?.map (·, address)).toList ∧
      ∀ name, line.label? = some name → labelFault? labels name = none := by
  unfold Line.declare at declares
  split at declares
  next bare =>
    cases declares
    simp [bare]
  next name named =>
    split at declares
    · cases declares
    next sound =>
      cases declares
      simp [named, sound]

/-- Everything that a first pass without an error does. -/
theorem scanFrom_ok (labels : Labels) (size : Nat) (lines : List Line)
    (clean : (scanFrom labels size lines).error? = none) :
    scanFrom labels size lines =
      ⟨labels ++ declared size lines, size + (lines.map Line.size).sum, none⟩ := by
  induction lines generalizing labels size with
  | nil => simp [scanFrom, declared]
  | cons line rest ih =>
    unfold scanFrom at clean ⊢
    split at clean
    · cases clean
    next after declares =>
      -- The labels found so far and the address are what the rest of the lines starts from.
      rw [ih after (size + line.size) clean, (declare_ok labels after size line declares).1]
      simp [declared, Nat.add_assoc]

/-- Labels of different names, each of which can be referred to. -/
structure Labels.Sound (labels : Labels) : Prop where
  distinct : (labels.map Prod.fst).Nodup
  referable : ∀ entry ∈ labels, Referable entry.1

theorem Labels.Sound.allReferable {labels : Labels} (sound : labels.Sound) :
    labels.AllReferable := by
  intro name address found
  obtain ⟨front, back, rfl, -⟩ := List.lookup_eq_some_iff.mp found
  exact sound.referable (name, address) (by simp)

theorem notMem_of_lookup_eq_none (labels : Labels) (name : List Char)
    (absent : labels.lookup name = none) : name ∉ labels.map Prod.fst := by
  intro member
  obtain ⟨entry, present, rfl⟩ := List.mem_map.mp member
  have differs := List.lookup_eq_none_iff.mp absent entry present
  simp at differs

theorem isSome_lookup_iff (labels : Labels) (name : List Char) :
    (labels.lookup name).isSome = true ↔ name ∈ labels.map Prod.fst := by
  rw [← not_iff_not, Option.not_isSome_iff_eq_none]
  refine ⟨notMem_of_lookup_eq_none labels name, fun fresh => ?_⟩
  rw [List.lookup_eq_none_iff]
  intro entry member
  simpa using fun (same : name = entry.1) => fresh (same ▸ List.mem_map_of_mem member)

theorem labelFault?_eq_none (labels : Labels) (name : List Char)
    (fine : labelFault? labels name = none) :
    labels.lookup name = none ∧ Mode.ofKeyword? (upper name) = none ∧
      Hexadecimal.readMarked? name = none := by
  unfold labelFault? at fine
  split at fine
  · cases fine
  next fresh =>
    split at fine
    · cases fine
    next noKeyword =>
      split at fine
      · cases fine
      next noNumber =>
        exact ⟨Option.not_isSome_iff_eq_none.mp fresh, Option.not_isSome_iff_eq_none.mp noKeyword,
          Option.not_isSome_iff_eq_none.mp noNumber⟩

/-- A line that declares its label keeps the labels sound. -/
theorem sound_of_declare (labels after : Labels) (address : Nat) (line : Line)
    (spelled : ∀ name, line.label? = some name → isLabelName name = true)
    (declares : line.declare labels address = .ok after) (sound : labels.Sound) :
    after.Sound := by
  obtain ⟨rfl, fine⟩ := declare_ok labels after address line declares
  cases named : line.label? with
  | none => simpa using sound
  | some name =>
    obtain ⟨fresh, noKeyword, noNumber⟩ := labelFault?_eq_none labels name (fine name named)
    constructor
    · -- The name was looked up before it was declared.
      have apart := notMem_of_lookup_eq_none labels name fresh
      rw [Option.map_some, Option.toList_some, List.map_append]
      refine List.nodup_append.mpr ⟨sound.distinct, by simp, ?_⟩
      intro old member new single equal
      obtain rfl := List.mem_singleton.mp single
      exact apart (equal ▸ member)
    · intro entry member
      simp only [Option.map_some, Option.toList_some, List.mem_append,
        List.mem_singleton] at member
      rcases member with old | rfl
      · exact sound.referable entry old
      · exact ⟨spelled name named, noKeyword, noNumber⟩

theorem sound_of_scanFrom (labels : Labels) (size : Nat) (lines : List Line)
    (spelled : ∀ line ∈ lines, ∀ name, line.label? = some name → isLabelName name = true)
    (sound : labels.Sound) : (scanFrom labels size lines).labels.Sound := by
  induction lines generalizing labels size with
  | nil => exact sound
  | cons line rest ih =>
    unfold scanFrom
    split
    · exact sound
    next after declares =>
      have first := sound_of_declare labels after size line (spelled line List.mem_cons_self)
        declares sound
      have others : ∀ other ∈ rest, ∀ name, other.label? = some name → isLabelName name = true :=
        fun other member => spelled other (List.mem_cons_of_mem _ member)
      exact ih after (size + line.size) others first

theorem sound_of_scan (lines : List Line)
    (spelled : ∀ line ∈ lines, ∀ name, line.label? = some name → isLabelName name = true) :
    (scan lines).labels.Sound :=
  sound_of_scanFrom [] 0 lines spelled ⟨List.nodup_nil, nofun⟩

/-- A first pass without an error leaves the labels that the lines declare. -/
theorem declared_of_scan (lines : List Line) (scanned : (scan lines).error? = none) :
    (scan lines).labels = declared 0 lines := by
  rw [scan, scanFrom_ok [] 0 lines scanned, List.nil_append]

theorem Line.label_of_parse (number : Nat) (text : List Char) (line : Line)
    (read : Line.parse number text = .ok line) (name : List Char)
    (named : line.label? = some name) : isLabelName name = true := by
  unfold Line.parse at read
  split at read
  next label? statement? parsed =>
    cases read
    simp only at named
    subst named
    unfold parseWords at parsed
    split at parsed
    · split at parsed
      next fine =>
        obtain ⟨_, -, same⟩ := map_eq_ok _ _ _ parsed
        cases same
        exact fine
      · cases parsed
    · obtain ⟨_, -, same⟩ := map_eq_ok _ _ _ parsed
      cases same
  · cases read

theorem label_of_parseLines (number : Nat) (texts : List (List Char)) (lines : List Line)
    (read : parseLines number texts = .ok lines) :
    ∀ line ∈ lines, ∀ name, line.label? = some name → isLabelName name = true := by
  induction texts generalizing number lines with
  | nil =>
    cases read
    intro line member
    cases member
  | cons text rest ih =>
    obtain ⟨line, first, read⟩ := bind_eq_ok _ _ _ read
    obtain ⟨others, following, read⟩ := bind_eq_ok _ _ _ read
    cases read
    intro other member
    rcases List.mem_cons.mp member with rfl | member
    · exact other.label_of_parse number text first
    · exact ih (number + 1) others following other member

theorem map_fst_declared (address : Nat) (lines : List Line) :
    (declared address lines).map Prod.fst = lines.filterMap (·.label?) := by
  induction lines generalizing address with
  | nil => rfl
  | cons line rest ih =>
    rw [declared, List.map_append, ih, List.filterMap_cons]
    cases line.label? <;> rfl

theorem declared_append (address : Nat) (front back : List Line) :
    declared address (front ++ back) =
      declared address front ++ declared (address + (front.map Line.size).sum) back := by
  induction front generalizing address with
  | nil => simp [declared]
  | cons line rest ih => simp [declared, ih, Nat.add_assoc]

theorem mem_declared (address : Nat) (front back : List Line) (line : Line) (name : List Char)
    (named : line.label? = some name) :
    (name, address + (front.map Line.size).sum) ∈ declared address (front ++ line :: back) := by
  simp [declared_append, declared, named]

private theorem lookup_of_mem (labels : Labels) (distinct : (labels.map Prod.fst).Nodup)
    (name : List Char) (address : Nat) (member : (name, address) ∈ labels) :
    labels.lookup name = some address := by
  induction labels with
  | nil => cases member
  | cons entry rest ih =>
    rw [List.map_cons, List.nodup_cons] at distinct
    rcases List.mem_cons.mp member with rfl | member
    · simp
    · have differs : name ≠ entry.1 := by
        rintro rfl
        exact distinct.1 (List.mem_map.mpr ⟨_, member, rfl⟩)
      rw [List.lookup_cons, beq_eq_false_iff_ne.mpr differs]
      exact ih distinct.2 member

/-! ### The second pass -/

/-- Everything that a second pass without an error does. -/
theorem emitFrom_ok (labels : Labels) (address : Nat) (lines : List Line)
    (clean : (emitFrom labels address lines).error? = none) :
    Encodable labels lines ∧
      wordsOf (emitFrom labels address lines).placed = code labels lines := by
  induction lines generalizing address with
  | nil => exact ⟨nofun, rfl⟩
  | cons line rest ih =>
    unfold emitFrom at clean ⊢
    split at clean
    next bare =>
      obtain ⟨encodable, words⟩ := ih address clean
      refine ⟨encodable_cons.mpr ⟨by rw [bare]; nofun, encodable⟩, ?_⟩
      rw [words, code_cons, Line.code, bare]
      rfl
    next statement holds =>
      split at clean
      · cases clean
      next encoding encoded =>
        obtain ⟨encodable, words⟩ := ih (address + encoding.length) clean
        refine ⟨encodable_cons.mpr ⟨?_, encodable⟩, ?_⟩
        · rw [holds]
          rintro _ ⟨⟩
          exact ⟨encoding, encoded⟩
        · rw [wordsOf, List.flatMap_cons]
          rw [wordsOf] at words
          rw [words, code_cons, line.code_of_encode labels statement encoding holds encoded]

/-! ### Both passes -/

/-- The operand forms in which a label is mentioned. -/
inductive Mentions (name : List Char) : List Char → Prop
  | bare : Mentions name name
  | bracketed : Mentions name ('[' :: name ++ [']'])
  | sumRight {index : List Char} {r : Register} (named : upper index = [r.letter]) :
      Mentions name ('[' :: (name ++ '+' :: index) ++ [']'])
  | sumLeft {index : List Char} {r : Register} (named : upper index = [r.letter]) :
      Mentions name ('[' :: (index ++ '+' :: name) ++ [']'])

/-- Where everything of a source is in the program assembled from it. -/
structure Layout (lines : List Line) (program : Program) : Prop where
  words : program.words = code program.labels lines
  names : program.labels.map Prod.fst = lines.filterMap (·.label?)
  distinct : (program.labels.map Prod.fst).Nodup
  /-- A label stands for the number of words encoded before its own line. -/
  addresses : ∀ front line back name, lines = front ++ line :: back → line.label? = some name →
    program.labels.lookup name = some (code program.labels front).length
  counted : program.words.length = (scan lines).size
  /-- The instruction word is followed by the next words of the operands, in order, and those of an
  operand that mentions a label are the address of the label. -/
  operands : ∀ line ∈ lines, ∀ statement, line.statement? = some statement →
    ∃ first nexts, statement.encode program.labels = .ok (first :: nexts.flatten) ∧
      List.Forall₂ (fun token next =>
        (∃ mode, encodeOperand program.labels token = .ok (mode, next)) ∧
        ∀ name address, Mentions name token → program.labels.lookup name = some address →
          next = [BitVec.ofNat 16 address]) statement.operands nexts

theorem next_of_mentions (labels : Labels) (referable : labels.AllReferable)
    (token name : List Char) (address : Nat) (mode : Mode) (next : List Word)
    (mentions : Mentions name token) (declared : labels.lookup name = some address)
    (encoded : encodeOperand labels token = .ok (mode, next)) :
    next = [BitVec.ofNat 16 address] := by
  have stands : Stands labels name (BitVec.ofNat 16 address) := .label declared
  have spells : ∃ mode, Spells labels token mode [BitVec.ofNat 16 address] := by
    cases mentions with
    | bare => exact ⟨_, .immediate stands⟩
    | bracketed => exact ⟨_, .address stands⟩
    | sumRight named => exact ⟨_, .sumRight stands named⟩
    | sumLeft named => exact ⟨_, .sumLeft named stands⟩
  obtain ⟨other, spells⟩ := spells
  rw [(encodeOperand_iff labels referable token other _).mpr spells] at encoded
  cases encoded
  rfl

private theorem operands_of_encodable (labels : Labels) (referable : labels.AllReferable)
    (statement : Statement) (words : List Word) (encoded : statement.encode labels = .ok words) :
    ∃ first nexts, statement.encode labels = .ok (first :: nexts.flatten) ∧
      List.Forall₂ (fun token next =>
        (∃ mode, encodeOperand labels token = .ok (mode, next)) ∧
        ∀ name address, Mentions name token → labels.lookup name = some address →
          next = [BitVec.ofNat 16 address]) statement.operands nexts := by
  obtain ⟨instruction, operation, parts, -, -, operands, -, rfl⟩ :=
    encode_ok labels statement words encoded
  refine ⟨instruction.toWord, parts.map Prod.snd, ?_, ?_⟩
  · rw [encoded, List.flatMap_def]
  · rw [List.forall₂_map_right_iff]
    refine operands.imp fun token part one => ⟨⟨part.1, one⟩, ?_⟩
    intro name address mentions declared
    exact next_of_mentions labels referable token name address part.1 part.2 mentions declared one

/-- Two passes without an error leave sound labels, with which every statement is encoded. -/
theorem passes_ok (source : List Char) (lines : List Line) (read : parse source = .ok lines)
    (emitted : (emit (scan lines).labels lines).error? = none) :
    (scan lines).labels.Sound ∧ Encodable (scan lines).labels lines ∧
      wordsOf (emit (scan lines).labels lines).placed = code (scan lines).labels lines := by
  have sound := sound_of_scan lines (label_of_parseLines 1 _ lines read)
  exact ⟨sound, emitFrom_ok (scan lines).labels 0 lines emitted⟩

/-- Two passes without an error lay a source out, and count the same words. -/
theorem layout_of_passes (source : List Char) (lines : List Line)
    (read : parse source = .ok lines) (scanned : (scan lines).error? = none)
    (emitted : (emit (scan lines).labels lines).error? = none) :
    Layout lines ⟨wordsOf (emit (scan lines).labels lines).placed, (scan lines).labels⟩ := by
  obtain ⟨sound, encodable, words⟩ := passes_ok source lines read emitted
  have labelled := declared_of_scan lines scanned
  -- The words before a line are as many as had been counted when its label was declared.
  have parted (front back : List Line) (whole : lines = front ++ back) :
      (code (scan lines).labels front).length = (front.map Line.size).sum :=
    length_code _ front fun line member =>
      encodable line (whole ▸ List.mem_append_left back member)
  refine ⟨words, ?_, sound.distinct, ?_, ?_, ?_⟩
  · simp only [labelled, map_fst_declared]
  · intro front line back name whole named
    apply lookup_of_mem _ sound.distinct
    rw [parted front (line :: back) whole, labelled, whole]
    simpa using mem_declared 0 front back line name named
  · change (wordsOf (emit _ lines).placed).length = (scanFrom [] 0 lines).size
    rw [words, parted lines [] (List.append_nil lines).symm, scanFrom_ok [] 0 lines scanned,
      Nat.zero_add]
  · intro line member statement holds
    obtain ⟨encoding, encoded⟩ := encodable line member statement holds
    exact operands_of_encodable _ sound.allReferable statement encoding encoded

/-! ### The answer -/

/-- A source is assembled when it can be read and neither pass finds an error; the count of the
first pass is then never contradicted by the second. -/
theorem assemble_cases (session : Session) (source : List Char) :
    (∃ lines, parse source = .ok lines ∧ (scan lines).error? = none ∧
      (emit (scan lines).labels lines).error? = none ∧
      (session.assemble source).1 =
        .ok ⟨wordsOf (emit (scan lines).labels lines).placed, (scan lines).labels⟩) ∨
    (∃ error, (session.assemble source).1 = .error error ∧
      (parse source = .error error ∨ ∃ lines, parse source = .ok lines ∧
        ((scan lines).error? = some error ∨
          (emit (scan lines).labels lines).error? = some error))) := by
  unfold Session.assemble
  split
  next error unread => exact .inr ⟨error, rfl, .inl unread⟩
  next lines read =>
    simp only
    split
    next error found => exact .inr ⟨error, rfl, .inr ⟨lines, read, .inl found⟩⟩
    next scanned =>
      split
      next error found => exact .inr ⟨error, rfl, .inr ⟨lines, read, .inr found⟩⟩
      next emitted =>
        have counted := (layout_of_passes source lines read scanned emitted).counted
        rw [if_pos counted]
        exact .inl ⟨lines, read, scanned, emitted, rfl⟩

theorem assemble_ok (session : Session) (source : List Char) (program : Program)
    (assembled : (session.assemble source).1 = .ok program) :
    ∃ lines, parse source = .ok lines ∧ Labels.Sound program.labels ∧
      Encodable program.labels lines ∧ program.words = code program.labels lines := by
  rcases assemble_cases session source with
    ⟨lines, read, scanned, emitted, answer⟩ | ⟨error, answer, -⟩
  · rw [answer] at assembled
    cases assembled
    exact ⟨lines, read, passes_ok source lines read emitted⟩
  · rw [answer] at assembled
    cases assembled

/-- The labels of a program are those that the lines declare. -/
theorem labels_of_assemble (session : Session) (source : List Char) (program : Program)
    (assembled : (session.assemble source).1 = .ok program) (lines : List Line)
    (read : parse source = .ok lines) : program.labels = declared 0 lines := by
  rcases assemble_cases session source with
    ⟨_, known, scanned, -, answer⟩ | ⟨error, answer, -⟩
  · rw [read] at known
    cases known
    rw [answer] at assembled
    cases assembled
    exact declared_of_scan lines scanned
  · rw [answer] at assembled
    cases assembled

/-- Of every source that is assembled, the words are the encodings of its statements in order, and
each label is the number of words encoded before it, wherever it is mentioned. The passes never
count differently. -/
theorem assemble_layout (session : Session) (source : List Char) :
    (∀ program, (session.assemble source).1 = .ok program →
      ∃ lines, parse source = .ok lines ∧ Layout lines program) ∧
    (∀ error, (session.assemble source).1 = .error error →
      ∀ emitted counted, error.cause ≠ .miscounted emitted counted) := by
  rcases assemble_cases session source with
    ⟨lines, read, scanned, emitted, answer⟩ | ⟨error, answer, found⟩
  · rw [answer]
    refine ⟨?_, nofun⟩
    rintro program ⟨⟩
    exact ⟨lines, read, layout_of_passes source lines read scanned emitted⟩
  · rw [answer]
    refine ⟨nofun, ?_⟩
    rintro _ ⟨⟩ emitted counted same
    -- No pass finds an error of this kind: each has its own.
    have phase : error.cause.phase = .counting := by rw [same]; rfl
    rcases found with unread | ⟨lines, -, mislabelled | unencoded⟩
    · rw [phase_of_parseLines 1 _ error unread] at phase
      cases phase
    · rw [phase_of_scanFrom [] 0 lines error mislabelled] at phase
      cases phase
    · rw [phase_of_emitFrom _ 0 lines error unencoded] at phase
      cases phase

/-- A source with a forward and a backward reference, and a label on a line of its own. -/
theorem assemble_layout_both_ways :
    ∃ program lines, assemble ":s SET PC, [e+I]\n:e\nJSR s".toList = .ok program ∧
      parse ":s SET PC, [e+I]\n:e\nJSR s".toList = .ok lines ∧ Layout lines program := by
  have answer : assemble ":s SET PC, [e+I]\n:e\nJSR s".toList =
      .ok ⟨[0x59C1, 2, 0x7C10, 0], [(['s'], 0), (['e'], 2)]⟩ := by decide +kernel
  obtain ⟨lines, read, layout⟩ := (assemble_layout Session.initial _).1 _ answer
  exact ⟨_, lines, answer, read, layout⟩

end WordMachine.Assembly
