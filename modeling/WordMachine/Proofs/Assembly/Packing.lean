import WordMachine.Proofs.Arithmetic.Laws
import WordMachine.Proofs.Assembly.RawAssembler

/-! Instruction words over integers. Three integers are packed by masks and shifts, and an integer
is taken apart by them; either undoes the other, but for the bits that no field has room for. The
assembler shifts without masking and still packs the same words, because no code that it knows is
wider than its field. -/
namespace WordMachine

namespace TwosComplement

/-- The low bits that a number lacks and the rest of its division make up the mask. -/
private theorem lacking_add_mod (m width : Nat) :
    ((2 ^ width - 1) ^^^ ((2 ^ width - 1) &&& m)) + m % 2 ^ width = 2 ^ width - 1 := by
  have rest : (2 ^ width - 1) &&& m = m % 2 ^ width := by
    rw [Nat.and_comm, Nat.and_two_pow_sub_one_eq_mod]
  have shared : (2 ^ width - 1) &&& (m % 2 ^ width) = m % 2 ^ width := by
    rw [← rest, ← Nat.and_assoc, Nat.and_self]
  have whole : (2 ^ width - 1) ||| (m % 2 ^ width) = 2 ^ width - 1 := by
    rw [← rest]
    apply Nat.eq_of_testBit_eq
    intro i
    simp only [Nat.testBit_or, Nat.testBit_and]
    cases (2 ^ width - 1).testBit i <;> rfl
  rw [rest, Nat.add_comm]
  calc m % 2 ^ width + ((2 ^ width - 1) ^^^ (m % 2 ^ width))
      = ((2 ^ width - 1) &&& (m % 2 ^ width)) + ((2 ^ width - 1) ^^^ (m % 2 ^ width)) := by
        rw [shared]
    _ = 2 ^ width - 1 := by rw [and_add_xor, whole]

/-- A mask of low bits leaves the rest of a division, also of a negative integer. -/
theorem and_mask (value : Int) (width : Nat) :
    and value ((2 ^ width - 1 : Nat) : Int) = value % 2 ^ width := by
  have positive : 0 < 2 ^ width := Nat.two_pow_pos width
  cases value with
  | ofNat m =>
    change ((m &&& (2 ^ width - 1) : Nat) : Int) = (m : Int) % 2 ^ width
    rw [Nat.and_two_pow_sub_one_eq_mod, Int.natCast_emod]
    norm_cast
  | negSucc m =>
    change (((2 ^ width - 1) ^^^ ((2 ^ width - 1) &&& m) : Nat) : Int) = _
    have lacking := lacking_add_mod m width
    generalize (2 ^ width - 1) ^^^ ((2 ^ width - 1) &&& m) = bits at lacking
    rw [Int.negSucc_emod m (by exact_mod_cast positive)]
    zify [positive] at lacking
    omega

end TwosComplement

namespace Raw

open WordMachine.Assembly

/-! ### Fields -/

/-- The fields of an instruction as integers, which need not fit. -/
@[ext]
structure Fields where
  opcode : Int
  a : Int
  b : Int

/-- Every field fits. -/
structure Fields.InRange (fields : Fields) : Prop where
  opcode : 0 ≤ fields.opcode ∧ fields.opcode < 16
  a : 0 ≤ fields.a ∧ fields.a < 64
  b : 0 ≤ fields.b ∧ fields.b < 64

/-- What is left of fields when the bits that do not fit are dropped. -/
def Fields.cut (fields : Fields) : Fields := ⟨fields.opcode % 16, fields.a % 64, fields.b % 64⟩

theorem Fields.inRange_cut (fields : Fields) : fields.cut.InRange :=
  ⟨⟨Int.emod_nonneg _ (by decide), Int.emod_lt_of_pos _ (by decide)⟩,
    ⟨Int.emod_nonneg _ (by decide), Int.emod_lt_of_pos _ (by decide)⟩,
    ⟨Int.emod_nonneg _ (by decide), Int.emod_lt_of_pos _ (by decide)⟩⟩

/-- The integer in which fields stand side by side, each with the bits that fit. -/
def pack (fields : Fields) : Int :=
  TwosComplement.or
    (TwosComplement.or (TwosComplement.and fields.opcode 0xF)
      (TwosComplement.and fields.a 0x3F <<< (4 : Nat)))
    (TwosComplement.and fields.b 0x3F <<< (10 : Nat))

/-- The fields that stand in an integer. -/
def unpack (word : Int) : Fields :=
  ⟨TwosComplement.and word 0xF, TwosComplement.and (word >>> (4 : Nat)) 0x3F,
    TwosComplement.and (word >>> (10 : Nat)) 0x3F⟩

theorem unpack_eq (word : Int) :
    unpack word = ⟨word % 16, word / 16 % 64, word / 1024 % 64⟩ := by
  have masked (shift : Nat) :
      TwosComplement.and (word >>> shift) 0x3F = word / (2 ^ shift : Nat) % 64 := by
    rw [← Int.shiftRight_eq_div_pow]
    exact TwosComplement.and_mask _ 6
  exact Fields.ext (TwosComplement.and_mask word 4) (masked 4) (masked 10)

/-- Numbers that fit do not overlap where they are shifted to. -/
theorem or_shifted (opcode a b : Nat) (first : opcode < 16) (second : a < 64) :
    opcode ||| a <<< 4 ||| b <<< 10 = opcode + 16 * a + 1024 * b := by
  have low : a <<< 4 ||| opcode = a <<< 4 + opcode :=
    (Nat.shiftLeft_add_eq_or_of_lt (i := 4) first a).symm
  have both : a <<< 4 + opcode < 2 ^ 10 := by
    rw [Nat.shiftLeft_eq]
    omega
  rw [Nat.or_comm, Nat.or_comm opcode, low, ← Nat.shiftLeft_add_eq_or_of_lt both,
    Nat.shiftLeft_eq, Nat.shiftLeft_eq]
  omega

theorem pack_eq (fields : Fields) :
    pack fields = fields.cut.opcode + 16 * fields.cut.a + 1024 * fields.cut.b := by
  have opcode : TwosComplement.and fields.opcode 0xF = fields.cut.opcode :=
    TwosComplement.and_mask fields.opcode 4
  have a : TwosComplement.and fields.a 0x3F = fields.cut.a := TwosComplement.and_mask fields.a 6
  have b : TwosComplement.and fields.b 0x3F = fields.cut.b := TwosComplement.and_mask fields.b 6
  rw [pack, opcode, a, b]
  -- What is left of the fields are natural numbers, on which the bits are those of the places.
  obtain ⟨first, second, third⟩ := fields.inRange_cut
  lift fields.cut.opcode to Nat using first.1 with o
  lift fields.cut.a to Nat using second.1 with l
  lift fields.cut.b to Nat using third.1 with r
  change ((o ||| l <<< 4 ||| r <<< 10 : Nat) : Int) = _
  rw [or_shifted o l r (by omega) (by omega)]
  norm_cast

theorem Fields.cut_of_inRange (fields : Fields) (fits : fields.InRange) : fields.cut = fields := by
  obtain ⟨opcode, a, b⟩ := fits
  exact Fields.ext (Int.emod_eq_of_lt opcode.1 opcode.2) (Int.emod_eq_of_lt a.1 a.2)
    (Int.emod_eq_of_lt b.1 b.2)

theorem inRange_unpack (word : Int) : (unpack word).InRange := by
  rw [unpack_eq]
  exact Fields.inRange_cut ⟨word, word / 16, word / 1024⟩

theorem unpack_pack (fields : Fields) : unpack (pack fields) = fields.cut := by
  obtain ⟨opcode, a, b⟩ := fields.inRange_cut
  rw [unpack_eq, pack_eq]
  ext <;> simp only <;> omega

theorem pack_unpack (word : Int) : pack (unpack word) = word % 65536 := by
  rw [pack_eq, Fields.cut_of_inRange _ (inRange_unpack word), unpack_eq]
  simp only
  omega

/-! ### Instructions -/

/-- The fields of an instruction. -/
def fieldsOf (instruction : Instruction) : Fields :=
  ⟨instruction.opcode.toNat, instruction.a.toNat, instruction.b.toNat⟩

theorem toWord_ofFields (fields : Fields) :
    (Instruction.ofFields fields.opcode fields.a fields.b).toWord.value = pack fields := by
  rw [Word.value, Instruction.toNat_toWord, pack_eq]
  simp only [Instruction.ofFields, BitVec.toNat_ofInt, Fields.cut]
  omega

theorem fieldsOf_ofWord (word : Int) :
    fieldsOf (Instruction.ofWord (Word.ofInt word)) = unpack word := by
  have value := Word.value_ofInt word
  rw [← Instruction.toWord_ofWord (Word.ofInt word)] at value
  generalize Instruction.ofWord (Word.ofInt word) = instruction at value
  have opcode := instruction.opcode.isLt
  have a := instruction.a.isLt
  have b := instruction.b.isLt
  rw [Word.value, Instruction.toNat_toWord] at value
  rw [unpack_eq]
  ext <;> simp only [fieldsOf] <;> omega

/-! ### Statements -/

/-- The fields that a statement spells: the code of its operation and those of its operands. A call
has the code zero, and its selector in the place of the first operand. -/
inductive Spelled : Statement → Fields → Prop
  | call (target : List Char) :
    Spelled ⟨"JSR".toList, [target]⟩ ⟨0, 1, modeCode (Operand.ofToken target).mode⟩
  | plain (operation : Operation) (noCall : operation ≠ .jsr) (first second : List Char) :
    Spelled ⟨operation.mnemonic.toList, [first, second]⟩
      ⟨operationCode operation, modeCode (Operand.ofToken first).mode,
        modeCode (Operand.ofToken second).mode⟩

theorem operationCode_lt (operation : Operation) : operationCode operation < 16 := by
  rw [operationCode_eq]
  exact operation.opcode.isLt

theorem modeCode_lt (mode : Mode) : modeCode mode < 64 := by
  rw [modeCode_eq]
  exact mode.code.isLt

/-- Codes that are shifted into their places without being cut to the fields are packed, because
they fit. -/
theorem shifted_eq_pack (opcode a b : Nat) (first : opcode < 16) (second : a < 64)
    (third : b < 64) : ((opcode ||| a <<< 4 ||| b <<< 10 : Nat) : Int) = pack ⟨opcode, a, b⟩ := by
  have fits : Fields.InRange ⟨opcode, a, b⟩ := ⟨by simp; omega, by simp; omega, by simp; omega⟩
  rw [or_shifted opcode a b first second, pack_eq, Fields.cut_of_inRange _ fits]
  norm_cast

theorem code_of_encodeOperand? (labels : Labels) (token : List Char) (part : Nat × List Nat)
    (encoded : encodeOperand? labels token = some part) :
    part.1 = modeCode (Operand.ofToken token).mode := by
  unfold encodeOperand? at encoded
  simp only at encoded
  split at encoded
  · cases encoded
    rfl
  · obtain ⟨n, -, rfl⟩ := Option.map_eq_some_iff.mp encoded
    rfl

/-- The first number of a statement packs the fields that the statement spells. -/
theorem packed_of_encode? (labels : Labels) (statement : Statement) (numbers : List Nat)
    (encoded : encode? labels statement = some numbers) :
    ∃ fields first next, Spelled statement fields ∧ numbers = first :: next ∧
      (first : Int) = pack fields := by
  obtain ⟨mnemonic, operands⟩ := statement
  unfold encode? at encoded
  simp only at encoded
  split at encoded
  · cases encoded
  next known =>
    obtain rfl := ofMnemonic?_eq_some _ _ known
    split at encoded
    next target =>
      obtain ⟨⟨b, next⟩, one, encoded⟩ := Option.bind_eq_some_iff.mp encoded
      cases encoded
      obtain rfl := code_of_encodeOperand? labels target _ one
      refine ⟨_, _, _, .call target, rfl, ?_⟩
      have packed := shifted_eq_pack 0 1 (modeCode (Operand.ofToken target).mode) (by decide)
        (by decide) (modeCode_lt _)
      rwa [Nat.zero_or] at packed
    · cases encoded
  next operation other known =>
    obtain rfl := ofMnemonic?_eq_some _ _ known
    split at encoded
    next first second =>
      obtain ⟨⟨a, nextA⟩, one, encoded⟩ := Option.bind_eq_some_iff.mp encoded
      obtain ⟨⟨b, nextB⟩, two, encoded⟩ := Option.bind_eq_some_iff.mp encoded
      cases encoded
      obtain rfl := code_of_encodeOperand? labels first _ one
      obtain rfl := code_of_encodeOperand? labels second _ two
      exact ⟨_, _, _, .plain operation other first second, rfl,
        shifted_eq_pack _ _ _ (operationCode_lt operation) (modeCode_lt _) (modeCode_lt _)⟩
    · cases encoded

/-- Every line that the second pass has encoded has a statement, of which it bears the words. -/
theorem encoded_of_placed (labels : Labels) (address : Nat) (lines : List Line) (placed : Placed)
    (member : placed ∈ (emitFrom labels address lines).placed) :
    ∃ statement, placed.line.statement? = some statement ∧
      statement.encode labels = .ok placed.words := by
  fun_induction emitFrom labels address lines with
  | case1 => cases member
  | case2 _ _ _ _ ih => exact ih member
  | case3 => cases member
  | case4 address line rest statement holds words encoded emission ih =>
    rcases List.mem_cons.mp member with rfl | later
    · exact ⟨statement, holds, encoded⟩
    · exact ih later

/-- Packing drops the bits that do not fit, and taking apart finds the fields again; so an integer
is packed again to its low sixteen bits, and fields that fit are packed to different integers unless
they are the same. Instructions are packed and taken apart in this way, and the first word of every
line that is encoded packs the fields that its statement spells. -/
theorem packing_inverts :
    (∀ word, pack (unpack word) = word % 65536 ∧ (unpack word).InRange) ∧
    (∀ fields, unpack (pack fields) = fields.cut) ∧
    (∀ fields others, fields.InRange → others.InRange → pack fields = pack others →
      fields = others) ∧
    (∀ fields, (Instruction.ofFields fields.opcode fields.a fields.b).toWord.value = pack fields) ∧
    (∀ word, fieldsOf (Instruction.ofWord (Word.ofInt word)) = unpack word) ∧
    (∀ labels lines, ∀ placed ∈ (emit labels lines).placed, ∃ statement fields first next,
      placed.line.statement? = some statement ∧ Spelled statement fields ∧
        placed.words = first :: next ∧ first.value = pack fields) := by
  refine ⟨fun word => ⟨pack_unpack word, inRange_unpack word⟩, unpack_pack, ?_, toWord_ofFields,
    fieldsOf_ofWord, ?_⟩
  · intro fields others fits fit same
    rw [← fields.cut_of_inRange fits, ← others.cut_of_inRange fit, ← unpack_pack, ← unpack_pack,
      same]
  · intro labels lines placed member
    obtain ⟨statement, holds, encoded⟩ := encoded_of_placed labels 0 lines placed member
    -- The words are the numbers that are made without cutting anything.
    have numbers : encode? labels statement = some (placed.words.map BitVec.toNat) := by
      rw [encode?_eq, encoded]
      rfl
    obtain ⟨fields, number, rest, spelled, parts, packed⟩ :=
      packed_of_encode? labels statement _ numbers
    obtain ⟨first, next, words, rfl, -⟩ := List.map_eq_cons_iff.mp parts
    exact ⟨statement, fields, first, next, holds, spelled, words, packed⟩

/-- A negative integer with the first two fields full, and a call of a declared label. -/
theorem packing_inverts_call :
    let line : Line := ⟨1, "JSR e".toList, none, some ⟨"JSR".toList, ["e".toList]⟩⟩
    unpack (-64513) = ⟨0xF, 0x3F, 0⟩ ∧
      ⟨line, 0, [0x7C10, 2]⟩ ∈ (emit [("e".toList, 2)] [line]).placed ∧
      (0x7C10 : Word).value = pack ⟨0, 1, 0x1F⟩ := by
  intro line
  obtain ⟨words, -, injective, -, -, lines⟩ := packing_inverts
  constructor
  · refine injective _ _ (words _).2 ⟨by decide, by decide, by decide⟩ ?_
    rw [(words _).1]
    rfl
  · have member : ⟨line, 0, [0x7C10, 2]⟩ ∈ (emit [("e".toList, 2)] [line]).placed := by
      decide +kernel
    refine ⟨member, ?_⟩
    obtain ⟨statement, fields, first, next, holds, spelled, parts, packed⟩ := lines _ _ _ member
    cases holds
    cases parts
    generalize called : Statement.mk "JSR".toList ["e".toList] = statement at spelled
    cases spelled with
    | call target =>
      cases called
      exact packed
    | plain => cases (Statement.mk.inj called).2

end Raw

end WordMachine
