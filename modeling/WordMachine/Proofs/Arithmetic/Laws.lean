import WordMachine.Proofs.Arithmetic.Wide

/-! Laws of arithmetic. Shifts are products and quotients by powers of two, quotient and rest make
up what was divided, differences undo sums, and the bits of two words add up as the bits they have
in common and those that one of them has. -/
namespace WordMachine

/-! ### Bits -/

/-- The bits that two numbers have in common and those that one of them has are all their bits. -/
theorem TwosComplement.and_add_xor (a b : Nat) : (a &&& b) + (a ^^^ b) = a ||| b := by
  induction a using Nat.strongRecOn generalizing b with
  | _ a ih =>
    rcases Nat.eq_zero_or_pos a with rfl | positive
    · simp
    · have halves := ih (a / 2) (Nat.div_lt_self positive (by decide)) (b / 2)
      rw [← Nat.and_div_two, ← Nat.xor_div_two, ← Nat.or_div_two] at halves
      -- Of two last bits never both are counted, so that nothing is carried into the halves.
      have last : (a &&& b) % 2 + (a ^^^ b) % 2 = (a ||| b) % 2 := by
        rw [Nat.and_mod_two_pow (n := 1), Nat.xor_mod_two_pow (n := 1),
          Nat.or_mod_two_pow (n := 1)]
        rcases Nat.mod_two_eq_zero_or_one a with first | first <;>
          rcases Nat.mod_two_eq_zero_or_one b with second | second <;>
          simp [first, second]
      omega

namespace BinaryOp

open Arithmetic

/-- An operation yields a value, whatever it does to the overflow register. -/
def Yields (op : BinaryOp) (a b value : Int) : Prop :=
  ∃ overflow?, op.evaluate a b = .ok ⟨value, overflow?⟩

theorem yields_result (op : BinaryOp) (plain : op.isShift = false) (a b : Int) :
    op.Yields a b (op.result a b).value :=
  ⟨(op.result a b).overflow?,
    op.evaluate_eq a b fun shift => absurd shift (Bool.eq_false_iff.mp plain)⟩

/-! ### Shifts -/

theorem evaluate_shl (a b : Int) (places : 0 ≤ b) :
    BinaryOp.shl.evaluate a b = BinaryOp.mul.evaluate a (2 ^ b.toNat) := by
  rw [evaluate_of_wide .shl rfl _ _ fun _ => places, evaluate_of_wide .mul rfl _ _ nofun]
  rfl

theorem evaluate_shr (a b : Int) (places : 0 ≤ b) :
    BinaryOp.shr.evaluate a b = BinaryOp.div.evaluate a (2 ^ b.toNat) := by
  have divisor : (2 : Int) ^ b.toNat ≠ 0 := pow_ne_zero _ (by decide)
  rw [evaluate_of_wide .shr rfl _ _ fun _ => places, evaluate_of_wide .div rfl _ _ nofun, exact,
    exact, if_neg divisor, Int.cast_pow]
  rfl

/-! ### Quotients and rests -/

theorem low_modEq (exact : Int) : low exact ≡ exact [ZMOD 65536] := Int.mod_modEq exact 65536

theorem low_eq (exact : Int) (small : Raw.Small exact) : low exact = exact :=
  Int.emod_eq_of_lt small.1 (Int.lt_add_one_of_le small.2)

theorem value_div (a b : Int) (divisor : b ≠ 0) :
    (BinaryOp.div.result a b).value = low (a.fdiv b) := by
  rw [result, if_neg divisor]
  rfl

theorem value_mod (a b : Int) (divisor : b ≠ 0) :
    (BinaryOp.mod.result a b).value = low (a.fmod b) := by
  rw [result, if_neg divisor]
  rfl

theorem div_mod_modEq (a b : Int) (divisor : b ≠ 0) :
    (BinaryOp.div.result a b).value * b + (BinaryOp.mod.result a b).value ≡ a [ZMOD 65536] := by
  rw [value_div a b divisor, value_mod a b divisor]
  calc low (a.fdiv b) * b + low (a.fmod b)
      ≡ a.fdiv b * b + a.fmod b [ZMOD 65536] :=
        ((low_modEq _).mul_right b).add (low_modEq _)
    _ = a := by rw [Int.mul_comm, Int.mul_fdiv_add_fmod]

/-- On words quotient and rest lose nothing. -/
theorem div_mod_eq (a b : Int) (divisor : b ≠ 0) (first : Raw.Small a) (second : Raw.Small b) :
    (BinaryOp.div.result a b).value * b + (BinaryOp.mod.result a b).value = a ∧
      (BinaryOp.mod.result a b).value < b := by
  have positive : 0 < b := lt_of_le_of_ne second.1 divisor.symm
  have rest : a.fmod b < b := Int.fmod_lt_of_pos a positive
  have quotientSmall : Raw.Small (a.fdiv b) := by
    rw [Int.fdiv_eq_ediv_of_nonneg a second.1]
    exact small_quotient a b first second.1
  have restSmall : Raw.Small (a.fmod b) :=
    ⟨Int.fmod_nonneg_of_pos a positive, (Int.le_of_lt rest).trans second.2⟩
  rw [value_div a b divisor, value_mod a b divisor, low_eq _ quotientSmall, low_eq _ restSmall,
    Int.mul_comm, Int.mul_fdiv_add_fmod]
  exact ⟨rfl, rest⟩

/-! ### Sums and bits of words -/

theorem sub_add (a b : Int) (first : Raw.Small a) :
    (BinaryOp.sub.result (BinaryOp.add.result a b).value b).value = a := by
  -- The carry of the sum is lost, but `a` is a word and needs sixteen bits only.
  have undone : low (a + b) - b ≡ a + b - b [ZMOD 65536] := (low_modEq (a + b)).sub_right b
  rw [add_sub_cancel_right] at undone
  exact Eq.trans undone (low_eq a first)

theorem bor_eq_and_add_xor (a b : Int) (first : Raw.Small a) (second : Raw.Small b) :
    (BinaryOp.bor.result a b).value =
      (BinaryOp.and.result a b).value + (BinaryOp.xor.result a b).value := by
  obtain ⟨left, rfl⟩ := (Word.small_iff a).mp first
  obtain ⟨right, rfl⟩ := (Word.small_iff b).mp second
  have small (bits : Nat) (bound : bits < 2 ^ 16) : low bits = bits :=
    low_eq bits ⟨Int.natCast_nonneg bits, by omega⟩
  change low ((left.toNat ||| right.toNat : Nat) : Int) =
    ((left.toNat &&& right.toNat : Nat) : Int) + low ((left.toNat ^^^ right.toNat : Nat) : Int)
  rw [small _ (Nat.or_lt_two_pow left.isLt right.isLt),
    small _ (Nat.xor_lt_two_pow left.isLt right.isLt), ← Int.natCast_add,
    TwosComplement.and_add_xor]

/-! ### Tests -/

/-- Of two numbers one is the greater, or they are equal. -/
theorem count_holds (a b : Int) :
    [Condition.greater.holds a b, Condition.greater.holds b a, Condition.equal.holds a b].count
      true = 1 := by
  simp only [Condition.holds]
  rcases lt_trichotomy a b with less | rfl | more
  · simp [less, less.le, less.ne]
  · simp
  · simp [more, more.le, more.ne']

/-- How operations that are carried out apart from each other agree. Shifting is multiplying and
dividing by a power of two, with the same overflow. Quotient and rest make up the dividend as far as
words go, and on words entirely. On words a difference undoes a sum, and the bits of both are those
that they share and those in which they differ. Exactly one of three tests holds. -/
theorem evaluate_laws (a b : Int) :
    (0 ≤ b → BinaryOp.shl.evaluate a b = BinaryOp.mul.evaluate a (2 ^ b.toNat) ∧
      BinaryOp.shr.evaluate a b = BinaryOp.div.evaluate a (2 ^ b.toNat)) ∧
    (b ≠ 0 → ∃ quotient rest, BinaryOp.div.Yields a b quotient ∧ BinaryOp.mod.Yields a b rest ∧
      quotient * b + rest ≡ a [ZMOD 65536] ∧
      (Raw.Small a → Raw.Small b → quotient * b + rest = a ∧ rest < b)) ∧
    (Raw.Small a → Raw.Small b →
      (∃ sum, BinaryOp.add.Yields a b sum ∧ BinaryOp.sub.Yields sum b a) ∧
      ∃ shared differing, BinaryOp.and.Yields a b shared ∧ BinaryOp.xor.Yields a b differing ∧
        BinaryOp.bor.Yields a b (shared + differing)) ∧
    Condition.equal.holds a b = !Condition.notEqual.holds a b ∧
    [Condition.greater.holds a b, Condition.greater.holds b a, Condition.equal.holds a b].count
      true = 1 := by
  refine ⟨fun places => ⟨evaluate_shl a b places, evaluate_shr a b places⟩, fun divisor => ?_,
    fun first second => ⟨?_, ?_⟩, (Bool.not_not _).symm, count_holds a b⟩
  · exact ⟨_, _, yields_result .div rfl a b, yields_result .mod rfl a b,
      div_mod_modEq a b divisor, div_mod_eq a b divisor⟩
  · have undone := yields_result .sub rfl (BinaryOp.add.result a b).value b
    rw [sub_add a b first] at undone
    exact ⟨_, yields_result .add rfl a b, undone⟩
  · have bits := yields_result .bor rfl a b
    rw [bor_eq_and_add_xor a b first second] at bits
    exact ⟨_, _, yields_result .and rfl a b, yields_result .xor rfl a b, bits⟩

/-- A negative dividend and divisor far out of range, shifts by more places than a word has, and
words with all bits. -/
theorem evaluate_laws_at_limits :
    BinaryOp.shr.evaluate (-70000) 40 = BinaryOp.div.evaluate (-70000) (2 ^ 40) ∧
    (∃ quotient rest, BinaryOp.div.Yields (-70001) (-3) quotient ∧
      BinaryOp.mod.Yields (-70001) (-3) rest ∧ quotient * (-3) + rest ≡ -70001 [ZMOD 65536]) ∧
    ∃ sum, BinaryOp.add.Yields 65535 65535 sum ∧ BinaryOp.sub.Yields sum 65535 65535 := by
  obtain ⟨shifts, -⟩ := evaluate_laws (-70000) 40
  obtain ⟨-, divided, -⟩ := evaluate_laws (-70001) (-3)
  obtain ⟨-, -, words, -⟩ := evaluate_laws 65535 65535
  have large : Raw.Small 65535 := ⟨by decide, by decide⟩
  obtain ⟨quotient, rest, down, left, makeUp, -⟩ := divided (by decide)
  exact ⟨(shifts (by decide)).2, ⟨quotient, rest, down, left, makeUp⟩, (words large large).1⟩

end BinaryOp

end WordMachine
