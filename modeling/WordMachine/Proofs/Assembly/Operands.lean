import Mathlib.Data.List.TakeWhile
import WordMachine.Assembly.Encoding
import WordMachine.Proofs.Text.Hexadecimal

/-! Soundness and completeness of operand encoding: a token is encoded exactly when it has one of
the operand forms, and then as that form says. -/
namespace WordMachine.Assembly

open WordMachine.Text

/-- A name that stands for itself in every operand: spelled like a label, no keyword in any letter
case and no number. -/
structure Referable (name : List Char) : Prop where
  spelled : isLabelName name = true
  noKeyword : Mode.ofKeyword? (upper name) = none
  noNumber : Hexadecimal.readMarked? name = none

/-- Labels all of which can be referred to. -/
def Labels.AllReferable (labels : Labels) : Prop :=
  ∀ name address, labels.lookup name = some address → Referable name

/-- The words that numbers and declared labels stand for. -/
inductive Stands (labels : Labels) : List Char → Word → Prop
  | number {text : List Char} {n : Nat} (written : Hexadecimal.readMarked? text = some n) :
      Stands labels text (BitVec.ofNat 16 n)
  | label {name : List Char} {address : Nat} (declared : labels.lookup name = some address) :
      Stands labels name (BitVec.ofNat 16 address)

/-- The operand forms of the source format, with the addressing mode and the next words of each. -/
inductive Spells (labels : Labels) : List Char → Mode → List Word → Prop
  | keyword {token : List Char} {mode : Mode} (named : mode.keyword? = some (upper token)) :
      Spells labels token mode []
  | immediate {token : List Char} {word : Word} (stands : Stands labels token word) :
      Spells labels token .nextWord [word]
  | address {inner : List Char} {word : Word} (stands : Stands labels inner word) :
      Spells labels ('[' :: inner ++ [']']) .atNextWord [word]
  | sumRight {value name : List Char} {word : Word} {r : Register}
      (stands : Stands labels value word) (named : upper name = [r.letter]) :
      Spells labels ('[' :: (value ++ '+' :: name) ++ [']']) (.indexed r) [word]
  | sumLeft {name value : List Char} {word : Word} {r : Register}
      (named : upper name = [r.letter]) (stands : Stands labels value word) :
      Spells labels ('[' :: (name ++ '+' :: value) ++ [']']) (.indexed r) [word]

/-! ### Keywords and registers -/

theorem register?_eq_some_iff (text : List Char) (r : Register) :
    Operand.register? text = some r ↔ upper text = [r.letter] :=
  Register.ofName?_eq_some_iff _ _

theorem ofKeyword?_eq_some_iff (text : List Char) (mode : Mode) :
    Mode.ofKeyword? text = some mode ↔ mode.keyword? = some text :=
  ⟨Mode.keyword?_of_ofKeyword? text mode, Mode.ofKeyword?_of_keyword? text mode⟩

/-- Every register name is a keyword. -/
theorem register?_eq_none (text : List Char) (noKeyword : Mode.ofKeyword? (upper text) = none) :
    Operand.register? text = none := by
  cases found : Operand.register? text with
  | none => rfl
  | some r =>
    have keyword : Mode.ofKeyword? (upper text) = some (.register r) := by
      rw [ofKeyword?_eq_some_iff, (register?_eq_some_iff text r).mp found]
      rfl
    rw [noKeyword] at keyword
    cases keyword

private theorem plus_notMem_keyword (mode : Mode) (text : List Char)
    (keyword : mode.keyword? = some text) : '+' ∉ text := by
  cases mode with
  | register r => cases keyword; cases r <;> decide
  | atRegister r => cases keyword; cases r <;> decide
  | indexed r => simp [Mode.keyword?] at keyword
  | atNextWord | nextWord | literal _ => simp [Mode.keyword?] at keyword
  | _ => cases keyword; decide

private theorem zero_ne_keyword_head (mode : Mode) (rest : List Char) :
    mode.keyword? ≠ some ('0' :: rest) := by
  intro keyword
  cases mode with
  | register r => cases r <;> cases keyword
  | atRegister r => cases keyword
  | indexed r => simp [Mode.keyword?] at keyword
  | atNextWord | nextWord | literal _ => simp [Mode.keyword?] at keyword
  | _ => cases keyword

/-- The only keywords in brackets are the registers. -/
private theorem bracketed_keyword (mode : Mode) (inner : List Char)
    (keyword : mode.keyword? = some ('[' :: inner ++ [']'])) :
    ∃ r : Register, inner = [r.letter] := by
  cases mode with
  | atRegister r =>
    refine ⟨r, ?_⟩
    have equal : [r.letter] ++ [']'] = inner ++ [']'] := by simpa [Mode.keyword?] using keyword
    exact (List.append_cancel_right equal).symm
  | register r => cases r <;> simp [Mode.keyword?, Register.letter] at keyword
  | _ => simp [Mode.keyword?] at keyword

theorem upper_cons_of_ascii (c : Char) (text : List Char) (same : upperCharacter c = [c]) :
    upper (c :: text) = c :: upper text := by
  simp [upper, same]

theorem upper_bracketed (inner : List Char) :
    upper ('[' :: inner ++ [']']) = '[' :: upper inner ++ [']'] := by
  rw [List.cons_append, upper_cons_of_ascii '[' _ (by decide), upper_append]
  rfl

theorem plus_mem_upper (text : List Char) (member : '+' ∈ text) : '+' ∈ upper text := by
  rw [upper, List.mem_flatMap]
  exact ⟨'+', member, by decide⟩

/-! ### Values -/

theorem digits_of_readMarked? (text : List Char) (n : Nat)
    (written : Hexadecimal.readMarked? text = some n) :
    ∃ mark digits, text = '0' :: mark :: digits ∧ (mark = 'x' ∨ mark = 'X') ∧
      ∀ c ∈ digits, (digitValue? 16 c).isSome := by
  unfold Hexadecimal.readMarked? at written
  split at written
  · exact ⟨'x', _, rfl, .inl rfl, Hexadecimal.isSome_digitValue?_of_read? _ n written⟩
  · exact ⟨'X', _, rfl, .inr rfl, Hexadecimal.isSome_digitValue?_of_read? _ n written⟩
  · cases written

/-- What the text of a value can be told from: it holds no plus sign, opens no bracket and is no
keyword. -/
structure Unmistakable (text : List Char) : Prop where
  noPlus : '+' ∉ text
  noBracket : Operand.inBrackets? text = none
  noKeyword : Mode.ofKeyword? (upper text) = none

private theorem unmistakable_of_number (text : List Char) (n : Nat)
    (written : Hexadecimal.readMarked? text = some n) : Unmistakable text := by
  obtain ⟨mark, digits, rfl, marks, digital⟩ := digits_of_readMarked? text n written
  refine ⟨?_, rfl, ?_⟩
  · intro member
    rcases List.mem_cons.mp member with zero | member
    · cases zero
    · rcases List.mem_cons.mp member with isMark | member
      · rcases marks with rfl | rfl <;> cases isMark
      · exact absurd (digital '+' member) (by decide)
  · cases found : Mode.ofKeyword? (upper ('0' :: mark :: digits)) with
    | none => rfl
    | some mode =>
      rw [ofKeyword?_eq_some_iff, upper_cons_of_ascii '0' _ (by decide)] at found
      exact absurd found (zero_ne_keyword_head mode _)

theorem unmistakable_of_referable (name : List Char) (referable : Referable name) :
    Unmistakable name := by
  obtain ⟨spelled, noKeyword, -⟩ := referable
  simp only [isLabelName, Bool.and_eq_true, List.all_eq_true] at spelled
  refine ⟨?_, ?_, noKeyword⟩
  · intro member
    exact absurd (spelled.2 '+' member) (by decide +kernel)
  · cases name with
    | nil => rfl
    | cons c rest =>
      have wordly := spelled.2 c List.mem_cons_self
      have differs : c ≠ '[' := by
        rintro rfl
        exact absurd wordly (by decide +kernel)
      unfold Operand.inBrackets?
      split
      next equal => cases equal; exact absurd rfl differs
      · rfl

private theorem unmistakable_of_stands (labels : Labels) (referable : labels.AllReferable)
    (text : List Char) (word : Word) (stands : Stands labels text word) : Unmistakable text := by
  cases stands with
  | number written => exact unmistakable_of_number text _ written
  | label declared => exact unmistakable_of_referable text (referable _ _ declared)

/-- Reading a value as a number first is right, because no number is a label. -/
theorem word?_ofText_iff (labels : Labels) (referable : labels.AllReferable) (text : List Char)
    (word : Word) : (Value.ofText text).word? labels = some word ↔ Stands labels text word := by
  constructor
  · intro known
    unfold Value.ofText at known
    split at known
    next n written =>
      cases known
      exact .number written
    · simp only [Value.word?, Option.map_eq_some_iff] at known
      obtain ⟨address, declared, rfl⟩ := known
      exact .label declared
  · intro stands
    cases stands with
    | number written => simp [Value.ofText, written, Value.word?]
    | label declared =>
      simp [Value.ofText, (referable _ _ declared).noNumber, Value.word?, declared]

/-! ### Brackets -/

theorem inBrackets?_eq_some_iff (token inner : List Char) :
    Operand.inBrackets? token = some inner ↔ token = '[' :: inner ++ [']'] := by
  constructor
  · intro found
    unfold Operand.inBrackets? at found
    split at found
    next rest =>
      simp only [Option.ite_none_right_eq_some, List.getLast?_eq_some_iff, Option.some.injEq]
        at found
      obtain ⟨⟨front, rfl⟩, dropped⟩ := found
      rw [List.dropLast_concat] at dropped
      rw [dropped, List.cons_append]
    · cases found
  · rintro rfl
    simp [Operand.inBrackets?]

private theorem takeWhile_plus (left right : List Char) (noPlus : '+' ∉ left) :
    (left ++ '+' :: right).takeWhile (· != '+') = left ∧
      (left ++ '+' :: right).dropWhile (· != '+') = '+' :: right := by
  have before : ∀ c ∈ left, (c != '+') = true := by
    intro c member
    simpa using fun (equal : c = '+') => noPlus (equal ▸ member)
  constructor
  · rw [List.takeWhile_append_of_pos before]
    simp
  · rw [List.dropWhile_append_of_pos before]
    simp

/-! ### Tokens -/

private theorem bracketed_not_keyword (inner : List Char)
    (differs : ∀ r : Register, upper inner ≠ [r.letter]) :
    Mode.ofKeyword? (upper ('[' :: inner ++ [']'])) = none := by
  cases found : Mode.ofKeyword? (upper ('[' :: inner ++ [']'])) with
  | none => rfl
  | some mode =>
    rw [ofKeyword?_eq_some_iff, upper_bracketed] at found
    obtain ⟨r, equal⟩ := bracketed_keyword mode _ found
    exact absurd equal (differs r)

private theorem sum_not_keyword (left right : List Char) :
    Mode.ofKeyword? (upper ('[' :: (left ++ '+' :: right) ++ [']'])) = none := by
  cases found : Mode.ofKeyword? (upper ('[' :: (left ++ '+' :: right) ++ [']'])) with
  | none => rfl
  | some mode =>
    rw [ofKeyword?_eq_some_iff] at found
    exact absurd (plus_mem_upper _ (by simp)) (plus_notMem_keyword mode _ found)

private theorem ofToken_bracketed (inner : List Char)
    (noKeyword : Mode.ofKeyword? (upper ('[' :: inner ++ [']'])) = none) :
    Operand.ofToken ('[' :: inner ++ [']']) = Operand.ofBracketed inner := by
  simp only [Operand.ofToken, noKeyword, (inBrackets?_eq_some_iff _ inner).mpr rfl]

private theorem letter_ne_of_noKeyword (text : List Char)
    (noKeyword : Mode.ofKeyword? (upper text) = none) (r : Register) : upper text ≠ [r.letter] := by
  intro equal
  have none := register?_eq_none text noKeyword
  rw [(register?_eq_some_iff text r).mpr equal] at none
  cases none

theorem ofToken_immediate (token : List Char) (plain : Unmistakable token) :
    Operand.ofToken token = .immediate (Value.ofText token) := by
  simp only [Operand.ofToken, plain.noKeyword, plain.noBracket]

theorem ofToken_address (inner : List Char) (plain : Unmistakable inner) :
    Operand.ofToken ('[' :: inner ++ [']']) = .address (Value.ofText inner) := by
  rw [ofToken_bracketed inner
    (bracketed_not_keyword inner (letter_ne_of_noKeyword inner plain.noKeyword))]
  have whole : inner.dropWhile (· != '+') = [] := by
    rw [List.dropWhile_eq_nil_iff]
    intro c member
    simpa using fun (equal : c = '+') => plain.noPlus (equal ▸ member)
  simp only [Operand.ofBracketed, whole]

theorem ofToken_sumRight (value name : List Char) (r : Register)
    (plain : Unmistakable value) (named : upper name = [r.letter]) :
    Operand.ofToken ('[' :: (value ++ '+' :: name) ++ [']']) =
      .indexed (Value.ofText value) r := by
  rw [ofToken_bracketed _ (sum_not_keyword value name)]
  obtain ⟨left, right⟩ := takeWhile_plus value name plain.noPlus
  simp only [Operand.ofBracketed, left, right, (register?_eq_some_iff name r).mpr named]

theorem ofToken_sumLeft (name value : List Char) (r : Register)
    (named : upper name = [r.letter]) (plain : Unmistakable value) :
    Operand.ofToken ('[' :: (name ++ '+' :: value) ++ [']']) =
      .indexed (Value.ofText value) r := by
  have noPlus : '+' ∉ name := by
    intro member
    have letter := plus_mem_upper name member
    rw [named, List.mem_singleton] at letter
    cases r <;> cases letter
  rw [ofToken_bracketed _ (sum_not_keyword name value)]
  obtain ⟨left, right⟩ := takeWhile_plus name value noPlus
  -- The right side is no register, or else the left one would not be looked at.
  simp only [Operand.ofBracketed, left, right, register?_eq_none value plain.noKeyword,
    (register?_eq_some_iff name r).mpr named]

theorem encodeOperand_of_value (labels : Labels) (token : List Char) (value : Value) (word : Word)
    (holds : (Operand.ofToken token).value? = some value)
    (known : value.word? labels = some word) :
    encodeOperand labels token = .ok ((Operand.ofToken token).mode, [word]) := by
  simp only [encodeOperand, Operand.words?, holds, known, Option.map_some]

private theorem encodeOperand_of_stands (labels : Labels) (referable : labels.AllReferable)
    (token text : List Char) (operand : Operand) (word : Word) (stands : Stands labels text word)
    (read : Operand.ofToken token = operand) (holds : operand.value? = some (Value.ofText text)) :
    encodeOperand labels token = .ok (operand.mode, [word]) := by
  subst read
  have known := (word?_ofText_iff labels referable text word).mpr stands
  exact encodeOperand_of_value labels token _ word holds known

private theorem encodeOperand_of_spells (labels : Labels) (referable : labels.AllReferable)
    (token : List Char) (mode : Mode) (next : List Word) (spells : Spells labels token mode next) :
    encodeOperand labels token = .ok (mode, next) := by
  have plain := unmistakable_of_stands labels referable
  cases spells with
  | keyword named =>
    have read : Operand.ofToken token = .keyword mode := by
      simp only [Operand.ofToken, (ofKeyword?_eq_some_iff _ _).mpr named]
    simp only [encodeOperand, read, Operand.words?, Operand.value?, Operand.mode]
  | immediate stands =>
    have read := ofToken_immediate _ (plain _ _ stands)
    exact encodeOperand_of_stands labels referable _ _ _ _ stands read rfl
  | address stands =>
    have read := ofToken_address _ (plain _ _ stands)
    exact encodeOperand_of_stands labels referable _ _ _ _ stands read rfl
  | sumRight stands named =>
    have read := ofToken_sumRight _ _ _ (plain _ _ stands) named
    exact encodeOperand_of_stands labels referable _ _ _ _ stands read rfl
  | sumLeft named stands =>
    have read := ofToken_sumLeft _ _ _ named (plain _ _ stands)
    exact encodeOperand_of_stands labels referable _ _ _ _ stands read rfl

/-- At a plus sign, what stands before it and after it. -/
private theorem split_at_plus (inner right : List Char) (c : Char)
    (dropped : inner.dropWhile (· != '+') = c :: right) :
    inner = inner.takeWhile (· != '+') ++ '+' :: right := by
  have plus : c = '+' := by
    have stops := List.head?_dropWhile_not (· != '+') inner
    simpa [dropped] using stops
  conv => lhs; rw [← List.takeWhile_append_dropWhile (p := (· != '+')) (l := inner)]
  rw [dropped, plus]

/-- What the operand read from a token says of the token's spelling. -/
theorem ofToken_cases (token : List Char) :
    (∃ mode, mode.keyword? = some (upper token) ∧ Operand.ofToken token = .keyword mode) ∨
    Operand.ofToken token = .immediate (Value.ofText token) ∨
    (∃ inner, token = '[' :: inner ++ [']'] ∧
      Operand.ofToken token = .address (Value.ofText inner)) ∨
    (∃ value name r, token = '[' :: (value ++ '+' :: name) ++ [']'] ∧ upper name = [r.letter] ∧
      Operand.ofToken token = .indexed (Value.ofText value) r) ∨
    (∃ name value r, token = '[' :: (name ++ '+' :: value) ++ [']'] ∧ upper name = [r.letter] ∧
      Operand.ofToken token = .indexed (Value.ofText value) r) := by
  unfold Operand.ofToken
  split
  next mode keyword => exact .inl ⟨mode, (ofKeyword?_eq_some_iff _ _).mp keyword, rfl⟩
  · right
    split
    next inner brackets =>
      right
      obtain rfl := (inBrackets?_eq_some_iff token inner).mp brackets
      unfold Operand.ofBracketed
      simp only
      split
      · exact .inl ⟨inner, rfl, rfl⟩
      next c right dropped =>
        have whole := split_at_plus inner right c dropped
        split
        next r named =>
          refine .inr (.inl ⟨_, right, r, ?_, (register?_eq_some_iff right r).mp named, rfl⟩)
          rw [← whole]
        next r _ named =>
          refine .inr (.inr ⟨_, right, r, ?_, (register?_eq_some_iff _ r).mp named, rfl⟩)
          rw [← whole]
        · exact .inl ⟨inner, rfl, rfl⟩
    · exact .inl rfl

private theorem spells_of_value (labels : Labels) (referable : labels.AllReferable)
    (token text : List Char) (mode : Mode) (operand : Operand) (next : List Word)
    (read : Operand.ofToken token = operand) (holds : operand.value? = some (Value.ofText text))
    (encoded : encodeOperand labels token = .ok (mode, next))
    (form : ∀ word, Stands labels text word → Spells labels token operand.mode [word]) :
    Spells labels token mode next := by
  simp only [encodeOperand, read, Operand.words?, holds] at encoded
  cases known : (Value.ofText text).word? labels with
  | none => simp only [known, Option.map_none, reduceCtorEq] at encoded
  | some word =>
    simp only [known, Option.map_some, Except.ok.injEq, Prod.mk.injEq] at encoded
    obtain ⟨rfl, rfl⟩ := encoded
    exact form word ((word?_ofText_iff labels referable text word).mp known)

private theorem spells_of_encodeOperand (labels : Labels) (referable : labels.AllReferable)
    (token : List Char) (mode : Mode) (next : List Word)
    (encoded : encodeOperand labels token = .ok (mode, next)) : Spells labels token mode next := by
  rcases ofToken_cases token with ⟨named, keyword, read⟩ | read | ⟨inner, rfl, read⟩ |
    ⟨value, name, r, rfl, named, read⟩ | ⟨name, value, r, rfl, named, read⟩
  · simp only [encodeOperand, read, Operand.words?, Operand.value?, Except.ok.injEq,
      Prod.mk.injEq] at encoded
    obtain ⟨rfl, rfl⟩ := encoded
    exact .keyword keyword
  · exact spells_of_value labels referable token token mode _ next read rfl encoded
      fun _ stands => .immediate stands
  · exact spells_of_value labels referable _ inner mode _ next read rfl encoded
      fun _ stands => .address stands
  · exact spells_of_value labels referable _ value mode _ next read rfl encoded
      fun _ stands => .sumRight stands named
  · exact spells_of_value labels referable _ value mode _ next read rfl encoded
      fun _ stands => .sumLeft named stands

/-- Operands are encoded exactly as the operand forms say, whatever the order in which the forms
are tried. -/
theorem encodeOperand_iff (labels : Labels) (referable : labels.AllReferable)
    (token : List Char) (mode : Mode) (next : List Word) :
    encodeOperand labels token = .ok (mode, next) ↔ Spells labels token mode next :=
  ⟨spells_of_encodeOperand labels referable token mode next,
    encodeOperand_of_spells labels referable token mode next⟩

private theorem nextWords_of_keyword (mode : Mode) (text : List Char)
    (keyword : mode.keyword? = some text) : mode.nextWords = 0 := by
  cases mode with
  | indexed r => simp [Mode.keyword?] at keyword
  | atNextWord | nextWord => simp [Mode.keyword?] at keyword
  | _ => rfl

private theorem nextWords_ofToken (token : List Char) :
    (Operand.ofToken token).mode.nextWords = (Operand.ofToken token).size := by
  rcases ofToken_cases token with ⟨mode, keyword, read⟩ | read | ⟨_, -, read⟩ |
    ⟨_, _, _, -, -, read⟩ | ⟨_, _, _, -, -, read⟩
  · rw [read]
    exact nextWords_of_keyword mode _ keyword
  all_goals rw [read]; rfl

/-- An operand has as many next words as its spelling promised, which is what its mode takes. -/
theorem length_next (labels : Labels) (token : List Char) (mode : Mode) (next : List Word)
    (encoded : encodeOperand labels token = .ok (mode, next)) :
    next.length = (Operand.ofToken token).size ∧ next.length = mode.nextWords := by
  unfold encodeOperand at encoded
  simp only at encoded
  split at encoded
  next words resolved =>
    cases encoded
    have sized := Operand.length_of_words? labels _ next resolved
    exact ⟨sized, sized.trans (nextWords_ofToken token).symm⟩
  · cases encoded

end WordMachine.Assembly
