import WordMachine.Proofs.Assembly.RawAssembler
import WordMachine.Proofs.Loading
import WordMachine.Proofs.Ranges

/-! The binary form. Words and byte sequences of even length correspond to each other, the numbers
that have a binary form are the words, and whatever is assembled has one. -/
namespace WordMachine

namespace Word

theorem exactly?_value (word : Word) : exactly? word.value = some word :=
  (exactly?_eq_some_iff word.value word).mpr rfl

theorem small_iff (value : Int) : Raw.Small value ↔ ∃ word : Word, word.value = value := by
  constructor
  · rintro ⟨low, high⟩
    refine ⟨Word.ofInt value, ?_⟩
    rw [value_ofInt]
    omega
  · rintro ⟨word, rfl⟩
    exact Raw.small_value word

theorem exactly?_eq_none_iff (value : Int) : exactly? value = none ↔ ¬Raw.Small value := by
  rw [small_iff, Option.eq_none_iff_forall_not_mem, not_exists]
  exact forall_congr' fun word => not_congr (exactly?_eq_some_iff value word)

end Word

namespace Binary

/-! ### Words and bytes -/

theorem toWord_bytes (word : Word) :
    toWord (UInt8.ofNat (word.toNat % 256)) (UInt8.ofNat (word.toNat / 256)) = word := by
  have bound := word.isLt
  apply BitVec.eq_of_toNat_eq
  simp only [toWord, BitVec.toNat_ofNat, UInt8.toNat_ofNat']
  omega

theorem ofWord_toWord (low high : UInt8) : ofWord (toWord low high) = [low, high] := by
  have first := low.toNat_lt
  have second := high.toNat_lt
  simp only [ofWord, toWord, BitVec.toNat_ofNat, List.cons.injEq, and_true]
  constructor
  · apply UInt8.toNat_inj.mp
    rw [UInt8.toNat_ofNat']
    omega
  · apply UInt8.toNat_inj.mp
    rw [UInt8.toNat_ofNat']
    omega

theorem encode_cons (word : Word) (rest : List Word) :
    encode (word :: rest) = ofWord word ++ encode rest :=
  List.flatMap_cons

theorem decodePairs_encode (words : List Word) : decodePairs (encode words) = words := by
  induction words with
  | nil => rfl
  | cons word rest ih =>
    rw [encode_cons, ofWord, List.cons_append, List.cons_append, List.nil_append, decodePairs,
      toWord_bytes, ih]

theorem encode_decodePairs (bytes : List UInt8) (even : bytes.length % 2 = 0) :
    encode (decodePairs bytes) = bytes := by
  induction bytes using decodePairs.induct with
  | case1 low high rest ih =>
    have others : rest.length % 2 = 0 := by
      simp only [List.length_cons] at even
      omega
    rw [decodePairs, encode_cons, ofWord_toWord, ih others]
    rfl
  | case2 bytes short =>
    -- Of the sequences without a pair only the empty one is even.
    match bytes, even, short with
    | [], _, _ => rfl
    | low :: high :: rest, _, short => exact absurd rfl (short low high rest)

theorem decode_encode (words : List Word) : decode (encode words) = .ok words := by
  have even : (encode words).length % 2 = 0 := by
    rw [length_encode]
    omega
  rw [decode, if_pos even, decodePairs_encode]

/-! ### Numbers -/

theorem encodeExactly?_values (words : List Word) :
    encodeExactly? (words.map Word.value) = some (encode words) := by
  have exact : (words.map Word.value).mapM Word.exactly? = some words := by
    induction words with
    | nil => rfl
    | cons word rest ih => simp [List.mapM_cons, Word.exactly?_value, ih]
  rw [encodeExactly?, exact]
  rfl

/-- Numbers that are small are the values of words. -/
theorem exists_words (values : List Int) (small : ∀ value ∈ values, Raw.Small value) :
    ∃ words : List Word, words.map Word.value = values := by
  induction values with
  | nil => exact ⟨[], rfl⟩
  | cons value rest ih =>
    obtain ⟨word, rfl⟩ := (Word.small_iff value).mp (small value List.mem_cons_self)
    obtain ⟨words, rfl⟩ := ih fun other member => small other (List.mem_cons_of_mem _ member)
    exact ⟨word :: words, rfl⟩

theorem encodeExactly?_eq_none_iff (values : List Int) :
    encodeExactly? values = none ↔ ∃ value ∈ values, ¬Raw.Small value := by
  constructor
  · intro refused
    by_contra small
    push Not at small
    obtain ⟨words, rfl⟩ := exists_words values small
    rw [encodeExactly?_values] at refused
    cases refused
  · -- One number that is no word is enough, wherever it stands.
    rintro ⟨value, member, large⟩
    have refused := (Word.exactly?_eq_none_iff value).mpr large
    rw [encodeExactly?, Option.map_eq_none_iff]
    induction values with
    | nil => cases member
    | cons first rest ih =>
      rw [List.mapM_cons]
      rcases List.mem_cons.mp member with rfl | later
      · rw [refused]
        rfl
      · rw [ih later]
        cases Word.exactly? first <;> rfl

/-- The low byte of a word comes first. -/
theorem bytes_of_encode (words : List Word) :
    (encode words).map (fun byte => (byte.toNat : Int)) =
      (words.map Word.value).flatMap fun value => [value % 256, value / 256] := by
  induction words with
  | nil => rfl
  | cons word rest ih =>
    have bound := word.isLt
    rw [encode_cons, List.map_append, ih, List.map_cons, List.flatMap_cons]
    congr 1
    simp only [ofWord, List.map_cons, List.map_nil, UInt8.toNat_ofNat', Word.value,
      List.cons.injEq, and_true]
    omega

/-! ### Assembled programs -/

open Assembly (assemble)

/-- The numbers that a source is assembled to are words. -/
theorem numbers_of_assemble (source : List Char) (program : Program)
    (assembled : assemble source = .ok program) :
    ∃ numbers, Raw.assemble? source = some numbers ∧
      numbers.map Int.ofNat = program.words.map Word.value := by
  refine ⟨program.words.map BitVec.toNat, ?_, ?_⟩
  · rw [Raw.assemble?_eq, assembled]
    rfl
  · rw [List.map_map]
    rfl

theorem le_of_numbers (numbers : List Nat) (words : List Word)
    (same : numbers.map Int.ofNat = words.map Word.value) : ∀ n ∈ numbers, n ≤ 65535 := by
  intro n member
  have present : Int.ofNat n ∈ words.map Word.value := same ▸ List.mem_map_of_mem member
  obtain ⟨word, -, value⟩ := List.mem_map.mp present
  have bound := (Raw.small_value word).2
  rw [value] at bound
  exact Int.ofNat_le.mp bound

/-- Words are turned into bytes and back without a change, and so are bytes in pairs; nothing else
is turned at all. Every number that a source is assembled to is a word, so that a program always has
a binary form, and can be loaded if it fits into memory. -/
theorem binaryForm :
    (∀ values : List Int, (∀ value ∈ values, Raw.Small value) →
      ∃ bytes words, encodeExactly? values = some bytes ∧ bytes.length = 2 * values.length ∧
        bytes.map (fun byte => (byte.toNat : Int)) =
          values.flatMap (fun value => [value % 256, value / 256]) ∧
        decode bytes = .ok words ∧ words.map Word.value = values) ∧
    (∀ bytes : List UInt8, bytes.length % 2 = 0 →
      ∃ words, decode bytes = .ok words ∧ encodeExactly? (words.map Word.value) = some bytes) ∧
    (∀ bytes : List UInt8, bytes.length % 2 = 1 → decode bytes = .error ⟨bytes.length⟩) ∧
    (∀ values : List Int,
      encodeExactly? values = none ↔ ∃ value ∈ values, ¬Raw.Small value) ∧
    (∀ source program, assemble source = .ok program →
      ∃ numbers bytes, Raw.assemble? source = some numbers ∧
        numbers.map Int.ofNat = program.words.map Word.value ∧ (∀ n ∈ numbers, n ≤ 65535) ∧
        encodeExactly? (numbers.map Int.ofNat) = some bytes ∧
        (numbers.length ≤ 65536 → ∀ (machine : Machine) (base : Int),
          (machine.load (numbers.map Int.ofNat) base).1 = none)) := by
  refine ⟨?_, ?_, ?_, encodeExactly?_eq_none_iff, ?_⟩
  · intro values small
    obtain ⟨words, rfl⟩ := exists_words values small
    refine ⟨encode words, words, encodeExactly?_values words, ?_, bytes_of_encode words,
      decode_encode words, rfl⟩
    rw [length_encode, List.length_map]
  · intro bytes even
    refine ⟨decodePairs bytes, if_pos even, ?_⟩
    rw [encodeExactly?_values, encode_decodePairs bytes even]
  · intro bytes odd
    apply if_neg
    omega
  · intro source program assembled
    obtain ⟨numbers, raw, same⟩ := numbers_of_assemble source program assembled
    refine ⟨numbers, encode program.words, raw, same, le_of_numbers numbers program.words same,
      same ▸ encodeExactly?_values program.words, ?_⟩
    intro fits machine base
    have counted : program.words.length = numbers.length := by
      simpa using congrArg List.length same.symm
    -- What is loaded are words, and there are no more of them than cells.
    obtain ⟨memory, -, loaded⟩ := machine.load_words program.words base (counted ▸ fits)
    rw [same, loaded]

/-- Words at the ends of the range, a literal of more than four digits and a label. -/
theorem binaryForm_ends :
    (∃ bytes, encodeExactly? [0, 65535] = some bytes ∧ bytes.length = 4) ∧
      (∃ words, decode [1, 2, 3, 4] = .ok words ∧
        encodeExactly? (words.map Word.value) = some [1, 2, 3, 4]) ∧
      decode [1, 2, 3] = .error ⟨3⟩ ∧ encodeExactly? [65536] = none ∧
      ∃ numbers, Raw.assemble? "SET [0x1FFFE+A], e\n:e".toList = some numbers ∧
        numbers.map Int.ofNat = [0x7D01, 0xFFFE, 3] := by
  obtain ⟨words, bytes, odd, others, programs⟩ := binaryForm
  obtain ⟨pairs, _, written, length, -⟩ := words [0, 65535] (by simp [Raw.Small])
  have assembled : assemble "SET [0x1FFFE+A], e\n:e".toList =
      .ok ⟨[0x7D01, 0xFFFE, 3], [(['e'], 3)]⟩ := by decide +kernel
  obtain ⟨numbers, _, raw, same, -⟩ := programs _ _ assembled
  exact ⟨⟨pairs, written, length⟩, bytes [1, 2, 3, 4] rfl, odd [1, 2, 3] rfl,
    (others [65536]).mpr ⟨65536, by simp [Raw.Small]⟩, numbers, raw, same⟩

end Binary

end WordMachine
