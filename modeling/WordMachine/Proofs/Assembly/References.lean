import WordMachine.Proofs.Assembly.Joining

/-! References to labels. Whatever name a source may declare, an operand can refer to it in each of
the forms that there are, and the name is taken for nothing else; a statement that does so can be
added to the source, and nothing that was there changes. -/
namespace WordMachine.Text

/-! ### White space -/

def blankCodes : List Nat :=
  blankRanges.flatMap fun range => List.range' range.1 (range.2 + 1 - range.1)

/-- A property of all white space is checked character by character. -/
theorem of_isBlank (P : Char → Prop) (all : ∀ code ∈ blankCodes, P (Char.ofNat code)) (c : Char)
    (blank : isBlank c = true) : P c := by
  obtain ⟨range, member, low, high⟩ := (inRanges_iff _ _).mp blank
  have listed : c.toNat ∈ blankCodes := by
    refine List.mem_flatMap.mpr ⟨range, member, ?_⟩
    rw [List.mem_range'_1]
    omega
  have holds := all c.toNat listed
  rwa [Char.ofNat_toNat] at holds

theorem not_isBlank_of_isWordCharacter (c : Char) (wordly : isWordCharacter c = true) :
    isBlank c = false := by
  by_contra blank
  rw [Bool.not_eq_false] at blank
  have other := of_isBlank (isWordCharacter · = false) (by decide +kernel) c blank
  rw [wordly] at other
  cases other

theorem upperCharacter_of_isBlank (c : Char) (blank : isBlank c = true) :
    upperCharacter c = [c] :=
  of_isBlank (fun c => upperCharacter c = [c]) (by decide +kernel) c blank

end WordMachine.Text

namespace WordMachine.Assembly

open WordMachine.Text

/-! ### References -/

/-- The operands that refer to a label, and their codes. -/
inductive Refers (name : List Char) : List Char → Nat → Prop
  | immediate : Refers name name 0x1F
  | address : Refers name ('[' :: name ++ [']']) 0x1E
  | sumRight {index : List Char} {r : Register} (named : upper index = [r.letter]) :
      Refers name ('[' :: (name ++ '+' :: index) ++ [']']) (0x10 + r.index)
  | sumLeft {index : List Char} {r : Register} (named : upper index = [r.letter]) :
      Refers name ('[' :: (index ++ '+' :: name) ++ [']']) (0x10 + r.index)

/-- A name that is taken for a label and for nothing else. -/
structure Uncaptured (name : List Char) : Prop where
  noKeyword : Mode.ofKeyword? (upper name) = none
  noNumber : Hexadecimal.readMarked? name = none
  noRegister : Operand.register? name = none
  refers : ∀ token code, Refers name token code →
    (Operand.ofToken token).value? = some (.label name) ∧
      (Operand.ofToken token).mode.code = BitVec.ofNat 6 code

theorem uncaptured_of_referable (name : List Char) (referable : Referable name) :
    Uncaptured name := by
  have plain := unmistakable_of_referable name referable
  have value : Value.ofText name = .label name := by simp only [Value.ofText, referable.noNumber]
  refine ⟨referable.noKeyword, referable.noNumber, register?_eq_none name referable.noKeyword, ?_⟩
  intro token code refers
  cases refers with
  | immediate =>
    rw [ofToken_immediate name plain, value]
    exact ⟨rfl, rfl⟩
  | address =>
    rw [ofToken_address name plain, value]
    exact ⟨rfl, rfl⟩
  | sumRight named =>
    rw [ofToken_sumRight name _ _ plain named, value]
    exact ⟨rfl, rfl⟩
  | sumLeft named =>
    rw [ofToken_sumLeft _ name _ named plain, value]
    exact ⟨rfl, rfl⟩

/-! ### Spelling -/

theorem isPlain_of_isWordCharacter (c : Char) (wordly : isWordCharacter c = true) :
    isPlain c = true := by
  have solid := not_isBlank_of_isWordCharacter c wordly
  have noComma : c ≠ ',' := by
    rintro rfl
    exact absurd wordly (by decide +kernel)
  have noComment : c ≠ ';' := by
    rintro rfl
    exact absurd wordly (by decide +kernel)
  simp [isPlain, solid, noComma, noComment]

/-- What parts words, operands and comments is no letter, in any case. -/
private theorem upperCharacter_of_not_isPlain (c : Char) (parts : isPlain c = false) :
    upperCharacter c = [c] := by
  have cases : isBlank c = true ∨ c = ',' ∨ c = ';' := by
    rw [← Bool.not_eq_true] at parts
    by_contra other
    simp only [not_or, Bool.not_eq_true] at other
    exact parts (by simp [isPlain, other])
  rcases cases with blank | rfl | rfl
  · exact upperCharacter_of_isBlank c blank
  · decide
  · decide

private theorem all_isPlain_of_register (index : List Char) (r : Register)
    (named : upper index = [r.letter]) : index.all isPlain = true := by
  have letter : isPlain r.letter = true := by cases r <;> decide
  rw [List.all_eq_true]
  intro c member
  by_contra parts
  rw [Bool.not_eq_true] at parts
  -- A mark would stand in the upper-case form too, and that is the letter alone.
  have raised : c ∈ upper index :=
    List.mem_flatMap.mpr ⟨c, member, by simp [upperCharacter_of_not_isPlain c parts]⟩
  rw [named, List.mem_singleton] at raised
  rw [raised, letter] at parts
  cases parts

theorem token_of_refers (name token : List Char) (code : Nat) (spelled : isLabelName name = true)
    (refers : Refers name token code) : Token token := by
  obtain ⟨nonempty, wordly⟩ := (isLabelName_iff name).mp spelled
  have plain : name.all isPlain = true :=
    List.all_eq_true.mpr fun c member => isPlain_of_isWordCharacter c (wordly c member)
  have marks : isPlain '[' = true ∧ isPlain '+' = true ∧ isPlain ']' = true := by decide
  cases refers with
  | immediate => exact token_of_plain name nonempty plain
  | address => exact token_of_plain _ (List.cons_ne_nil _ _) (by simp [marks, plain])
  | sumRight named =>
    have index := all_isPlain_of_register _ _ named
    exact token_of_plain _ (List.cons_ne_nil _ _) (by simp [marks, plain, index])
  | sumLeft named =>
    have index := all_isPlain_of_register _ _ named
    exact token_of_plain _ (List.cons_ne_nil _ _) (by simp [marks, plain, index])

/-! ### Statements behind a source -/

theorem declared_unlabelled (address : Nat) (lines : List Line)
    (bare : ∀ line ∈ lines, line.label? = none) : declared address lines = [] := by
  have names := map_fst_declared address lines
  rwa [List.filterMap_eq_nil_iff.mpr bare, List.map_eq_nil_iff] at names

/-- A statement behind a source that is assembled changes nothing before it. -/
theorem assemble_behind (session again : Session) (source : List Char) (program : Program)
    (assembled : (session.assemble source).1 = .ok program) (statement : Statement)
    (readable : statement.Readable) (words : List Word)
    (encoded : statement.encode program.labels = .ok words) :
    (again.assemble (source ++ '\n' :: statement.text)).1 =
      .ok ⟨program.words ++ words, program.labels⟩ := by
  obtain ⟨lines, read, sound, encodable, whole⟩ := assemble_ok session source program assembled
  have labels := labels_of_assemble session source program assembled lines read
  obtain ⟨last, readLast, said, bare⟩ :=
    parse_source [statement] (List.forall_mem_singleton.mpr readable)
  rw [Assembly.source, List.map_singleton, List.intercalate_singleton] at readLast
  obtain ⟨all, readAll, same⟩ := parse_join source statement.text lines last read readLast
  have declares : declared 0 all = program.labels := by
    rw [declared_of_part 0 all _ same, declared_append, declared_unlabelled _ last bare,
      List.append_nil, labels]
  have together : statements all = statements lines ++ [statement] := by
    have parts := congrArg (List.filterMap Prod.snd) same
    rw [List.filterMap_map, List.filterMap_map, List.filterMap_append] at parts
    exact parts.trans (congrArg (statements lines ++ ·) said)
  obtain ⟨blocks, encodings⟩ := encodings_of_encodable program.labels lines encodable
  have flat := (code_of_encodings program.labels lines blocks encodings).2
  have answer := assemble_of_encodings again _ all program.labels (blocks ++ [words]) readAll
    declares sound (together ▸ List.rel_append encodings (.cons encoded .nil))
  rwa [List.flatten_append, List.flatten_singleton, ← flat, ← whole] at answer

/-- The instruction that loads an operand into the first register. -/
private def load (token : List Char) : Statement :=
  ⟨(Operation.binary .set).mnemonic.toList, [['A'], token]⟩

private theorem load_readable (token : List Char) (plain : Token token) :
    (load token).Readable := by
  refine ⟨⟨_, rfl⟩, List.cons_ne_nil _ _, ?_⟩
  have register : Token ['A'] := token_of_plain _ (List.cons_ne_nil _ _) (by decide)
  exact List.forall_mem_cons.mpr ⟨register, List.forall_mem_singleton.mpr plain⟩

/-- Every label that a source declares is taken for nothing else, and a statement with any of the
operands that refer to it can be added to the source: its next word is the address of the label. -/
theorem assemble_reference (session again : Session) (source : List Char) (program : Program)
    (assembled : (session.assemble source).1 = .ok program) (name : List Char) (address : Nat)
    (declared : program.labels.lookup name = some address) :
    Uncaptured name ∧
    ∀ token code, Refers name token code →
      (again.assemble (source ++ "\nSET A, ".toList ++ token)).1 =
        .ok ⟨program.words ++ [(Instruction.mk 0x1 0x00 (BitVec.ofNat 6 code)).toWord,
          BitVec.ofNat 16 address], program.labels⟩ := by
  obtain ⟨_, -, sound, -, -⟩ := assemble_ok session source program assembled
  have referable := sound.allReferable name address declared
  have uncaptured := uncaptured_of_referable name referable
  refine ⟨uncaptured, fun token code refers => ?_⟩
  obtain ⟨holds, coded⟩ := uncaptured.refers token code refers
  have first : encodeOperand program.labels ['A'] = .ok (.register .a, []) := rfl
  have known : (Value.label name).word? program.labels = some (BitVec.ofNat 16 address) := by
    rw [Value.word?, declared, Option.map_some]
  have second := encodeOperand_of_value program.labels token _ _ holds known
  have encoded := encode_plain program.labels (.binary .set) (by decide) _ _ _ _ first second
  have plain := token_of_refers name token code referable.spelled refers
  have answer := assemble_behind session again source program assembled (load token)
    (load_readable token plain) _ encoded
  rw [coded] at answer
  have text : '\n' :: (load token).text = "\nSET A, ".toList ++ token := by
    simp [load, Statement.text, listed, Operation.mnemonic]
  rw [List.append_assoc, ← text]
  exact answer

/-- A label that would be a number in upper case, with a register spelled by a letter whose upper
case it is. -/
theorem assemble_reference_in_other_case :
    Uncaptured "0x\uFB00".toList ∧
      assemble (":0x\uFB00 SET PC, 0x\uFB00".toList ++ "\nSET A, ".toList ++
          "[\u0131+0x\uFB00]".toList) =
        .ok ⟨[0x7DC1, 0] ++ [0x5801, 0], [("0x\uFB00".toList, 0)]⟩ := by
  have answer : assemble ":0x\uFB00 SET PC, 0x\uFB00".toList =
      .ok ⟨[0x7DC1, 0], [("0x\uFB00".toList, 0)]⟩ := by decide +kernel
  obtain ⟨uncaptured, refer⟩ :=
    assemble_reference Session.initial Session.initial _ _ answer "0x\uFB00".toList 0 rfl
  have register : upper ['\u0131'] = [Register.i.letter] := by decide +kernel
  exact ⟨uncaptured, refer _ _ (.sumLeft register)⟩

end WordMachine.Assembly
