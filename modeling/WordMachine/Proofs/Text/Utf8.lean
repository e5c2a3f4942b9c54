import WordMachine.Text.Utf8

/-! Text that is read back from its bytes. -/
namespace WordMachine.Utf8

/-! ### Reading one byte -/

theorem toNat_byte (n : Nat) (small : n < 256) : (UInt8.ofNat n).toNat = n :=
  UInt8.toNat_ofNat_of_lt' small

/-- The first byte of a character of more than one. -/
theorem decodeFrom_first (position first : Nat) (done : List Char) (rest : List UInt8)
    (promise : Lead) (small : first < 256) (begins : lead? first = some promise)
    (owes : promise.owed ≠ 0) :
    decodeFrom position done .between (UInt8.ofNat first :: rest) =
      decodeFrom (position + 1) done (.inside position (UInt8.ofNat first) promise) rest := by
  rw [decodeFrom, toNat_byte first small, begins]
  simp only [if_neg owes]

/-- A byte after which more are owed. -/
theorem decodeFrom_next (position start code owed : Nat) (first : UInt8) (done : List Char)
    (rest : List UInt8) (promise : Lead) (owes : promise.owed = owed + 2)
    (known : promise.code = code / 64) (low : promise.low ≤ code % 64 + 128)
    (high : code % 64 + 128 ≤ promise.high) :
    decodeFrom position done (.inside start first promise)
        (UInt8.ofNat (code % 64 + 128) :: rest) =
      decodeFrom (position + 1) done
        (.inside start first ⟨owed + 1, 0x80, 0xBF, code⟩) rest := by
  have whole : promise.code * 64 + (code % 64 + 128 - 0x80) = code := by omega
  have further : promise.owed ≠ 1 := by omega
  have left : promise.owed - 1 = owed + 1 := by omega
  rw [decodeFrom, toNat_byte (code % 64 + 128) (by omega), if_pos ⟨low, high⟩]
  simp only [whole, if_neg further, left]

/-- The last byte of a character. -/
theorem decodeFrom_last (position start code : Nat) (first : UInt8) (done : List Char)
    (rest : List UInt8) (promise : Lead) (owes : promise.owed = 1)
    (known : promise.code = code / 64) (low : promise.low ≤ code % 64 + 128)
    (high : code % 64 + 128 ≤ promise.high) :
    decodeFrom position done (.inside start first promise)
        (UInt8.ofNat (code % 64 + 128) :: rest) =
      decodeFrom (position + 1) (Char.ofNat code :: done) .between rest := by
  have whole : promise.code * 64 + (code % 64 + 128 - 0x80) = code := by omega
  rw [decodeFrom, toNat_byte (code % 64 + 128) (by omega), if_pos ⟨low, high⟩]
  simp only [whole, owes, if_true]

/-! ### First bytes -/

/-- What a first byte promises of a code point whose upper part is known, so that a second byte is
let through. -/
structure Promises (first owed code second : Nat) (promise : Lead) : Prop where
  begins : lead? first = some promise
  owed : promise.owed = owed
  code : promise.code = code
  low : promise.low ≤ second
  high : second ≤ promise.high

theorem promises_two (code : Nat) (wide : 0x80 ≤ code) (narrow : code < 0x800) :
    ∃ promise, Promises (code / 64 + 192) 1 (code / 64) (code % 64 + 128) promise := by
  have begins : lead? (code / 64 + 192) = some ⟨1, 0x80, 0xBF, code / 64⟩ := by
    simp only [lead?, if_neg (show ¬code / 64 + 192 < 0x80 by omega),
      if_neg (show ¬code / 64 + 192 < 0xC2 by omega),
      if_pos (show code / 64 + 192 < 0xE0 by omega), Nat.add_sub_cancel]
  exact ⟨_, begins, rfl, rfl, by dsimp; omega, by dsimp; omega⟩

/-- The bounds on the second byte of three keep no character out that takes three. -/
theorem promises_three (code : Nat) (wide : 0x800 ≤ code) (narrow : code < 0x10000)
    (whole : ¬(0xD800 ≤ code ∧ code < 0xE000)) :
    ∃ promise, Promises (code / 4096 + 224) 2 (code / 4096) (code / 64 % 64 + 128) promise := by
  have first : ¬code / 4096 + 224 < 0x80 ∧ ¬code / 4096 + 224 < 0xC2 ∧
      ¬code / 4096 + 224 < 0xE0 := by omega
  -- The narrow bounds are those of the lowest first byte and of the one that surrogates have.
  by_cases lowest : code / 4096 + 224 = 0xE0
  · have begins : lead? (code / 4096 + 224) = some ⟨2, 0xA0, 0xBF, 0⟩ := by rw [lowest]; rfl
    exact ⟨_, begins, rfl, by dsimp; omega, by dsimp; omega, by dsimp; omega⟩
  · by_cases split : code / 4096 + 224 = 0xED
    · have begins : lead? (code / 4096 + 224) = some ⟨2, 0x80, 0x9F, 0xD⟩ := by rw [split]; rfl
      exact ⟨_, begins, rfl, by dsimp; omega, by dsimp; omega, by dsimp; omega⟩
    · have begins : lead? (code / 4096 + 224) = some ⟨2, 0x80, 0xBF, code / 4096⟩ := by
        simp only [lead?, first, if_neg lowest, if_neg split,
          if_pos (show code / 4096 + 224 < 0xF0 by omega), Nat.add_sub_cancel, if_false]
      exact ⟨_, begins, rfl, rfl, by dsimp; omega, by dsimp; omega⟩

theorem promises_four (code : Nat) (wide : 0x10000 ≤ code) (narrow : code < 0x110000) :
    ∃ promise, Promises (code / 262144 + 240) 3 (code / 262144) (code / 4096 % 64 + 128)
      promise := by
  -- Here they are those of the lowest and of the highest first byte.
  by_cases lowest : code / 262144 + 240 = 0xF0
  · have begins : lead? (code / 262144 + 240) = some ⟨3, 0x90, 0xBF, 0⟩ := by rw [lowest]; rfl
    exact ⟨_, begins, rfl, by dsimp; omega, by dsimp; omega, by dsimp; omega⟩
  · by_cases highest : code / 262144 + 240 = 0xF4
    · have begins : lead? (code / 262144 + 240) = some ⟨3, 0x80, 0x8F, 4⟩ := by rw [highest]; rfl
      exact ⟨_, begins, rfl, by dsimp; omega, by dsimp; omega, by dsimp; omega⟩
    · have three : ¬code / 262144 + 240 < 0x80 ∧ ¬code / 262144 + 240 < 0xC2 ∧
          ¬code / 262144 + 240 < 0xE0 ∧ ¬code / 262144 + 240 = 0xE0 ∧
          ¬code / 262144 + 240 = 0xED ∧ ¬code / 262144 + 240 < 0xF0 := by omega
      have begins : lead? (code / 262144 + 240) = some ⟨3, 0x80, 0xBF, code / 262144⟩ := by
        simp only [lead?, three, if_neg lowest,
          if_pos (show code / 262144 + 240 < 0xF4 by omega), Nat.add_sub_cancel, if_false]
      exact ⟨_, begins, rfl, rfl, by dsimp; omega, by dsimp; omega⟩

/-! ### Characters -/

/-- The bytes of a character are read as that character. -/
theorem decodeFrom_character (position : Nat) (done : List Char) (c : Char) (rest : List UInt8) :
    ∃ onwards, decodeFrom position done .between (String.utf8EncodeChar c ++ rest) =
      decodeFrom onwards (c :: done) .between rest := by
  have valid : c.val.toNat < 0xD800 ∨ (0xDFFF < c.val.toNat ∧ c.val.toNat < 0x110000) := c.valid
  have back : Char.ofNat c.val.toNat = c := Char.ofNat_toNat c
  simp only [String.utf8EncodeChar]
  generalize c.val.toNat = code at valid back ⊢
  subst back
  -- One case for each number of bytes, in which they are read one after the other.
  by_cases one : code ≤ 127
  · have begins : lead? code = some ⟨0, 0x80, 0xBF, code⟩ := if_pos (Nat.lt_succ_of_le one)
    refine ⟨position + 1, ?_⟩
    rw [if_pos one, List.singleton_append, decodeFrom, toNat_byte code (by omega), begins]
    rfl
  · rw [if_neg one]
    by_cases two : code ≤ 2047
    · obtain ⟨promise, first⟩ := promises_two code (by omega) (by omega)
      refine ⟨position + 1 + 1, ?_⟩
      rw [if_pos two, Nat.mod_eq_of_lt (show code / 64 < 32 by omega), List.cons_append,
        List.singleton_append,
        decodeFrom_first _ _ _ _ promise (by omega) first.begins (by rw [first.owed]; decide),
        decodeFrom_last _ _ code _ _ _ promise first.owed first.code first.low first.high]
    · rw [if_neg two]
      by_cases three : code ≤ 65535
      · obtain ⟨promise, first⟩ := promises_three code (by omega) (by omega) (by omega)
        refine ⟨position + 1 + 1 + 1, ?_⟩
        rw [if_pos three, Nat.mod_eq_of_lt (show code / 4096 < 16 by omega), List.cons_append,
          List.cons_append, List.singleton_append,
          decodeFrom_first _ _ _ _ promise (by omega) first.begins (by rw [first.owed]; decide),
          decodeFrom_next _ _ (code / 64) 0 _ _ _ promise first.owed
            (first.code.trans (Nat.div_div_eq_div_mul code 64 64).symm) first.low first.high,
          decodeFrom_last _ _ code _ _ _ _ rfl rfl (by dsimp; omega) (by dsimp; omega)]
      · obtain ⟨promise, first⟩ := promises_four code (by omega) (by omega)
        refine ⟨position + 1 + 1 + 1 + 1, ?_⟩
        rw [if_neg three, Nat.mod_eq_of_lt (show code / 262144 < 8 by omega), List.cons_append,
          List.cons_append, List.cons_append, List.singleton_append,
          decodeFrom_first _ _ _ _ promise (by omega) first.begins (by rw [first.owed]; decide),
          decodeFrom_next _ _ (code / 4096) 1 _ _ _ promise first.owed
            (first.code.trans (Nat.div_div_eq_div_mul code 4096 64).symm) first.low first.high,
          decodeFrom_next _ _ (code / 64) 0 _ _ _ _ rfl
            (Nat.div_div_eq_div_mul code 64 64).symm (by dsimp; omega) (by dsimp; omega),
          decodeFrom_last _ _ code _ _ _ _ rfl rfl (by dsimp; omega) (by dsimp; omega)]

theorem decodeFrom_encode (position : Nat) (done text : List Char) :
    decodeFrom position done .between (encode text) = .ok (done.reverse ++ text) := by
  induction text generalizing position done with
  | nil => rw [List.append_nil]; rfl
  | cons c rest ih =>
    obtain ⟨onwards, read⟩ := decodeFrom_character position done c (encode rest)
    rw [encode, List.flatMap_cons, ← encode, read, ih, List.reverse_cons, List.append_assoc]
    rfl

/-- The bytes of a text are read as that text. -/
theorem decode_encode (text : List Char) : decode (encode text) = .ok text :=
  decodeFrom_encode 0 [] text

end WordMachine.Utf8
