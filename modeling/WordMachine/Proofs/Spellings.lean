import WordMachine.CommandLine.Command
import WordMachine.Proofs.Assembly.Acceptance
import WordMachine.Proofs.Assembly.LineEnds

/-! Spellings of numbers in base sixteen. However a number is spelled, the command line and the
assembler read it back; they differ in the marks that they ask for, and the assembler keeps what
fits into a word. -/
namespace WordMachine

open WordMachine.Text

namespace Text

theorem isAlphanum_iff (c : Char) :
    c.isAlphanum = true ↔ (0x30 ≤ c.toNat ∧ c.toNat ≤ 0x39) ∨ (0x41 ≤ c.toNat ∧ c.toNat ≤ 0x5A) ∨
      (0x61 ≤ c.toNat ∧ c.toNat ≤ 0x7A) := by
  simp [Char.isAlphanum, Char.isAlpha, Char.isUpper, Char.isLower, Char.isDigit,
    UInt32.le_iff_toNat_le]
  omega

/-- Nothing is taken off the ends of a text that holds nothing to take off. -/
theorem strip_of_none (p : Char → Bool) (text : List Char) (none : ∀ c ∈ text, p c = false) :
    ((text.dropWhile p).reverse.dropWhile p).reverse = text := by
  have kept (part : List Char) (within : part ⊆ text) : part.dropWhile p = part := by
    apply List.dropWhile_eq_self_iff.mpr
    intro nonempty
    simp [none _ (within (List.getElem_mem nonempty))]
  rw [kept text (List.Subset.refl text),
    kept text.reverse fun c member => List.mem_reverse.mp member, List.reverse_reverse]

/-- A text without white space is what is left when white space around it is taken off. -/
theorem trim_around (before text after : List Char) (blankBefore : Blank before)
    (solid : Solid text) (blankAfter : Blank after) : trim (before ++ text ++ after) = text := by
  rw [trim_append_of_blank _ _ blankAfter, trim, List.dropWhile_append_of_pos blankBefore]
  exact strip_of_none isBlank text solid

theorem dropBlanks_around (before text after : List Char) (blankBefore : Blank before)
    (solid : Solid text) (blankAfter : Blank after) :
    dropBlanks (before ++ text ++ after) = text := by
  rw [dropBlanks_append, dropBlanks_append, (dropBlanks_eq_nil_iff before).mpr blankBefore,
    (dropBlanks_eq_nil_iff after).mpr blankAfter, dropBlanks_of_solid text solid, List.nil_append,
    List.append_nil]

end Text

namespace Hexadecimal

/-- A text spells a number: it is the digits of the number, in either case, behind any number of
zeros. -/
def Spells (text : List Char) (n : Nat) : Prop :=
  ∃ zeros, text.map Char.toLower = List.replicate zeros '0' ++ Nat.toDigits 16 n

/-! ### Letter case -/

/-- A change of letter case keeps the values of digits, because only ASCII letters have a case
here. -/
private theorem digitValue?_of_letters (change : Char → Char)
    (ascii : ∀ code < 128,
      digitValue? 16 (change (Char.ofNat code)) = digitValue? 16 (Char.ofNat code))
    (other : ∀ c : Char, c.isAlpha = false → change c = c) (c : Char) :
    digitValue? 16 (change c) = digitValue? 16 c := by
  cases letter : c.isAlpha with
  | false => rw [other c letter]
  | true =>
    have code := (isAlphanum_iff c).mp (by simp [Char.isAlphanum, letter])
    have own := ascii c.toNat (by omega)
    rwa [Char.ofNat_toNat] at own

theorem digitValue?_toLower (c : Char) : digitValue? 16 c.toLower = digitValue? 16 c := by
  apply digitValue?_of_letters Char.toLower (by decide +kernel)
  intro c other
  apply Char.toLower_eq_of_not_isUpper
  simp only [Char.isAlpha, Bool.or_eq_false_iff] at other
  simp [other.1]

theorem digitValue?_toUpper (c : Char) : digitValue? 16 c.toUpper = digitValue? 16 c := by
  apply digitValue?_of_letters Char.toUpper (by decide +kernel)
  intro c other
  apply Char.toUpper_eq_of_not_isLower
  simp only [Char.isAlpha, Bool.or_eq_false_iff] at other
  simp [other.2]

theorem read?_map (change : Char → Char) (text : List Char)
    (kept : ∀ c, digitValue? 16 (change c) = digitValue? 16 c) :
    read? (text.map change) = read? text := by
  have same : digitValue? 16 ∘ change = digitValue? 16 := funext kept
  rw [read?, read?, List.mapM_map, same, List.isEmpty_map]

theorem Spells.read {text : List Char} {n : Nat} (spelled : Spells text n) :
    read? text = some n := by
  obtain ⟨zeros, lowered⟩ := spelled
  -- Numbers are written in capitals, and spellings are compared in small letters.
  have digits : read? (Nat.toDigits 16 n) = some n := by
    rw [← read?_map Char.toUpper _ digitValue?_toUpper]
    exact read?_upperDigits n
  rw [← read?_map Char.toLower _ digitValue?_toLower, lowered]
  exact read?_replicate_append zeros _ n digits

theorem isAlphanum_of_isSome_digitValue? (c : Char) (digit : (digitValue? 16 c).isSome) :
    c.isAlphanum = true := by
  have code := toNat_of_isSome_digitValue? c digit
  rw [isAlphanum_iff]
  omega

theorem isAlphanum_of_read? (digits : List Char) (n : Nat) (number : read? digits = some n) :
    ∀ c ∈ digits, c.isAlphanum = true := by
  intro c member
  have digit := isSome_digitValue?_of_read? digits n number c member
  exact isAlphanum_of_isSome_digitValue? c digit

end Hexadecimal

/-! ### Numerals -/

namespace Numeral

/-- One or more digits without low lines between them are read as they stand. -/
theorem digits?_of_read? (text : List Char) (n : Nat) (read : Hexadecimal.read? text = some n) :
    ∃ values, digits? 16 text = some values ∧ ofDigits 16 values = n := by
  have noLowLine : '_' ∉ text := by
    intro member
    have digit := Hexadecimal.isSome_digitValue?_of_read? text n read '_' member
    exact absurd digit (by decide)
  have group : text.splitOn '_' = [text] := by
    have single := List.splitOn_intercalate '_' (List.forall_mem_singleton.mpr noLowLine)
      (List.cons_ne_nil text [])
    rwa [List.intercalate_singleton] at single
  simp only [Hexadecimal.read?, Option.ite_none_left_eq_some, Option.map_eq_some_iff] at read
  obtain ⟨nonempty, values, all, number⟩ := read
  refine ⟨values, ?_, number⟩
  simp [digits?, group, nonempty, all]

section Ordinary

variable (text : List Char) (ordinary : ∀ c ∈ text, c.isAlphanum = true)
include ordinary

theorem map_plain_of_ordinary : text.map plain = text := by
  conv_rhs => rw [← List.map_id text]
  apply List.map_congr_left
  intro c member
  have code := (isAlphanum_iff c).mp (ordinary c member)
  exact if_pos (by omega)

theorem unpad_of_ordinary : unpad text = text := by
  apply strip_of_none
  intro c member
  have code := (isAlphanum_iff c).mp (ordinary c member)
  -- The space and the controls that are padding come before all letters and digits.
  have noSpace : c ≠ ' ' := by
    rintro rfl
    exact absurd code (by decide)
  simp only [isPadding, Bool.or_eq_false_iff, beq_eq_false_iff_ne, Bool.and_eq_false_iff,
    decide_eq_false_iff_not]
  exact ⟨noSpace, by omega⟩

theorem sign_of_ordinary : sign text = (false, text) := by
  unfold sign
  split
  · exact absurd (ordinary '-' List.mem_cons_self) (by decide)
  · exact absurd (ordinary '+' List.mem_cons_self) (by decide)
  · rfl

/-- Letters and digits are read from the first to the last one. -/
theorem read_of_spelling (spelled : List Char) (n : Nat)
    (spells : spelling .hexadecimal text = (16, spelled))
    (number : Hexadecimal.read? spelled = some n) : Numeral.read .hexadecimal text = .ok n := by
  obtain ⟨values, all, rfl⟩ := digits?_of_read? spelled n number
  simp [Numeral.read, map_plain_of_ordinary text ordinary, unpad_of_ordinary text ordinary,
    sign_of_ordinary text ordinary, spells, all]

end Ordinary

section Digits

variable (digits : List Char) (n : Nat) (number : Hexadecimal.read? digits = some n)
include number

theorem read_digits : Numeral.read .hexadecimal digits = .ok n := by
  have digital := Hexadecimal.isSome_digitValue?_of_read? digits n number
  have ordinary := Hexadecimal.isAlphanum_of_read? digits n number
  apply read_of_spelling digits ordinary digits n _ number
  unfold spelling
  split
  next => contradiction
  next letter rest _ =>
    -- A digit may follow the zero, but no mark.
    have digit := digital letter (by simp)
    have noMark : ¬(letter = 'x' ∨ letter = 'X') := by
      rintro (rfl | rfl)
      · exact absurd digit (by decide)
      · exact absurd digit (by decide)
    rw [if_neg noMark]
  next => rfl
  next => contradiction
  next => contradiction

theorem read_marked (mark : Char) (base : mark = 'x' ∨ mark = 'X') :
    Numeral.read .hexadecimal ('0' :: mark :: digits) = .ok n := by
  have digital := Hexadecimal.isSome_digitValue?_of_read? digits n number
  have ordinary := Hexadecimal.isAlphanum_of_read? digits n number
  have marked : mark.isAlphanum = true := by rcases base with rfl | rfl <;> decide
  have whole : ∀ c ∈ '0' :: mark :: digits, c.isAlphanum = true :=
    List.forall_mem_cons.mpr ⟨rfl, List.forall_mem_cons.mpr ⟨marked, ordinary⟩⟩
  apply read_of_spelling ('0' :: mark :: digits) whole digits n _ number
  have following : afterMark digits = digits := by
    unfold afterMark
    split
    · exact absurd (digital '_' List.mem_cons_self) (by decide)
    · rfl
  simp [spelling, base, following]

end Digits

end Numeral

/-! ### The two readers -/

/-- A spelled number holds no white space, whatever mark is in front of it. -/
theorem Hexadecimal.solid_of_spells (digits : List Char) (n : Nat) (spelled : Spells digits n)
    (mark : List Char) (marks : mark ∈ [[], ['0', 'x'], ['0', 'X'], ['$']]) :
    Solid (mark ++ digits) := by
  have marked : ∀ mark ∈ [[], ['0', 'x'], ['0', 'X'], ['$']], ∀ c ∈ mark, isBlank c = false := by
    simp [isBlank, inRanges, blankRanges]
  have digital : Solid digits := fun c member =>
    not_isBlank_of_isSome_digitValue? c
      (isSome_digitValue?_of_read? digits n spelled.read c member)
  exact List.forall_mem_append.mpr ⟨marked mark marks, digital⟩

namespace CommandLine

/-- Behind any of its marks, or behind none, the command line reads a spelled number. -/
theorem readHexadecimal_of_spells (digits : List Char) (n : Nat)
    (spelled : Hexadecimal.Spells digits n) (before after : List Char)
    (blankBefore : Blank before) (blankAfter : Blank after) (mark : List Char)
    (marks : mark ∈ [[], ['0', 'x'], ['0', 'X'], ['$']]) :
    readHexadecimal (before ++ (mark ++ digits) ++ after) = .ok n := by
  have number := spelled.read
  have digital := Hexadecimal.isSome_digitValue?_of_read? digits n number
  have solid := Hexadecimal.solid_of_spells digits n spelled mark marks
  rw [readHexadecimal, trim_around before _ after blankBefore solid blankAfter]
  simp only [List.mem_cons, List.not_mem_nil, or_false] at marks
  rcases marks with rfl | rfl | rfl | rfl
  · -- No digit is taken for the dollar sign.
    rw [List.nil_append]
    split
    · exact absurd (digital '$' List.mem_cons_self) (by decide)
    · exact Numeral.read_digits digits n number
  · exact Numeral.read_marked digits n number 'x' (.inl rfl)
  · exact Numeral.read_marked digits n number 'X' (.inr rfl)
  · exact Numeral.read_digits digits n number

end CommandLine

namespace Assembly

/-- The word that the assembler reads in a text, if the text is a number. -/
def literal? (text : List Char) : Option Word :=
  (Hexadecimal.readMarked? text).map (BitVec.ofNat 16)

/-- The word of a text is that of the number, or else that of the label. -/
theorem word?_ofText (labels : Labels) (text : List Char) :
    (Value.ofText text).word? labels =
      (literal? text).or ((labels.lookup text).map (BitVec.ofNat 16)) := by
  unfold Value.ofText literal?
  cases Hexadecimal.readMarked? text with
  | none => rfl
  | some n => rfl

theorem literal?_eq_none_iff (text : List Char) :
    literal? text = none ↔ ¬Grammar.IsNumber text := by
  rw [literal?, Option.map_eq_none_iff, isNumber_iff, ← Option.ne_none_iff_exists', not_not]

theorem literal?_of_spells (digits : List Char) (n : Nat) (spelled : Hexadecimal.Spells digits n)
    (mark : List Char) (marks : mark ∈ [['0', 'x'], ['0', 'X']]) :
    literal? (mark ++ digits) = some (BitVec.ofNat 16 n) := by
  have number := spelled.read
  simp only [List.mem_cons, List.not_mem_nil, or_false] at marks
  rcases marks with rfl | rfl
  · exact congrArg (Option.map (BitVec.ofNat 16)) number
  · exact congrArg (Option.map (BitVec.ofNat 16)) number

/-- Every spelling of a number is read back as that number. The command line takes it with one of
three marks or with none, and with white space around; the assembler, which has dropped white space
before it reads, takes it with one of two marks, cuts it to a word, and takes nothing else for a
number. -/
theorem readers_invert_spellings :
    (∀ n digits before after, Hexadecimal.Spells digits n → Blank before → Blank after →
      (∀ mark ∈ [[], ['0', 'x'], ['0', 'X'], ['$']],
        CommandLine.readHexadecimal (before ++ (mark ++ digits) ++ after) = .ok n) ∧
      ∀ mark ∈ [['0', 'x'], ['0', 'X']],
        dropBlanks (before ++ (mark ++ digits) ++ after) = mark ++ digits ∧
          ∃ word, literal? (mark ++ digits) = some word ∧ word.toNat = n % 65536) ∧
    (∀ text, Solid text → ¬Grammar.IsNumber text → literal? text = none) ∧
    ∀ labels text, (Value.ofText text).word? labels =
      (literal? text).or ((labels.lookup text).map (BitVec.ofNat 16)) := by
  refine ⟨?_, fun text _ other => (literal?_eq_none_iff text).mpr other, word?_ofText⟩
  intro n digits before after spelled blankBefore blankAfter
  refine ⟨CommandLine.readHexadecimal_of_spells digits n spelled before after blankBefore
    blankAfter, ?_⟩
  intro mark marks
  have solid := Hexadecimal.solid_of_spells digits n spelled mark (by simp at marks ⊢; tauto)
  exact ⟨dropBlanks_around before _ after blankBefore solid blankAfter, _,
    literal?_of_spells digits n spelled mark marks, BitVec.toNat_ofNat n 16⟩

/-- A number of more than sixteen bits, with digits in both cases behind a zero, and a text with a
low line between its digits. -/
theorem readers_invert_spellings_wide :
    Hexadecimal.Spells ['0', '1', '2', 'a', 'B', 'c'] 0x12ABC ∧ Blank [' ', '\t'] ∧
      CommandLine.readHexadecimal [' ', '\t', '$', '0', '1', '2', 'a', 'B', 'c'] = .ok 0x12ABC ∧
      (∃ word, literal? ['0', 'X', '0', '1', '2', 'a', 'B', 'c'] = some word ∧
        word.toNat = 0x2ABC) ∧
      literal? ['0', 'x', '1', '_', '2'] = none := by
  obtain ⟨spellings, others, -⟩ := readers_invert_spellings
  have spelled : Hexadecimal.Spells ['0', '1', '2', 'a', 'B', 'c'] 0x12ABC := ⟨1, by decide⟩
  have blank : Blank [' ', '\t'] :=
    List.forall_mem_cons.mpr ⟨by decide, List.forall_mem_singleton.mpr (by decide)⟩
  obtain ⟨lenient, strict⟩ := spellings 0x12ABC _ _ [] spelled blank nofun
  refine ⟨spelled, blank, lenient ['$'] (by simp), (strict ['0', 'X'] (by simp)).2, ?_⟩
  apply others
  · simp [Solid, isBlank, inRanges, blankRanges]
  · rintro ⟨-, -, digital⟩
    exact absurd (digital '_' (by simp)) (by simp [Grammar.IsDigit])

end Assembly

end WordMachine
