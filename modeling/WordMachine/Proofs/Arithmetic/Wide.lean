import Mathlib.Data.Int.ModEq
import Mathlib.Data.Rat.Floor
import WordMachine.Proofs.BinaryForm
import WordMachine.Proofs.Operations

/-! Wide results. The operations that set the overflow register yield both halves of their exact
result, on integers of any size and sign; on words nothing but a borrow, and what is shifted out
further than the upper half, is lost. -/
namespace WordMachine

/-! ### Halves -/

namespace Arithmetic

/-- Two words that are the halves of an exact result, as far as two words go. -/
structure Halves (exact result overflow : Int) : Prop where
  smallResult : Raw.Small result
  smallOverflow : Raw.Small overflow
  congruent : 65536 * overflow + result ≡ exact [ZMOD 2 ^ 32]

theorem high_eq (exact : Int) : high exact = exact / 65536 % 65536 := by
  rw [high, Int.shiftRight_eq_div_pow]
  rfl

theorem halves_wide (exact : Int) : Halves exact (low exact) (high exact) where
  smallResult := by
    simp only [Raw.Small, low]
    omega
  smallOverflow := by
    simp only [Raw.Small, high_eq]
    omega
  congruent := by
    simp only [Int.ModEq, low, high_eq]
    omega

/-- The halves of a number below two to the thirty-second make it up. -/
theorem whole_of_lt (exact : Int) (lower : 0 ≤ exact) (upper : exact < 4294967296) :
    65536 * high exact + low exact = exact := by
  simp only [low, high_eq]
  omega

theorem high_eq_zero (exact : Int) (small : Raw.Small exact) : high exact = 0 := by
  obtain ⟨lower, upper⟩ := small
  rw [high_eq]
  omega

end Arithmetic

namespace BinaryOp

open Arithmetic

/-! ### Exact results -/

/-- Whether an operation yields both halves of its exact result. -/
def isWide : BinaryOp → Bool
  | .add | .sub | .mul | .div | .shl | .shr => true
  | _ => false

/-- The exact result of an operation that yields both halves. A quotient goes down to the next
integer. -/
def exact (op : BinaryOp) (a b : Int) : Int :=
  match op with
  | .add => a + b
  | .sub => a - b
  | .mul => a * b
  | .div => if b = 0 then 0 else ⌊(a / b : ℚ)⌋
  | .shl => a * 2 ^ b.toNat
  | .shr => ⌊(a / 2 ^ b.toNat : ℚ)⌋
  | _ => 0

theorem floor_div (a b : Int) : ⌊(a / b : ℚ)⌋ = a.fdiv b := by
  -- The floor of a quotient is at hand for a natural divisor.
  have natural (a : Int) (n : Nat) : ⌊(a / (n : Int) : ℚ)⌋ = a.fdiv n := by
    rw [Int.fdiv_eq_ediv_of_nonneg _ (Int.natCast_nonneg n)]
    exact Rat.floor_intCast_div_natCast a n
  obtain ⟨n, rfl | rfl⟩ := b.eq_nat_or_neg
  · exact natural a n
  · -- Both signs are turned, so that the divisor is a natural number again.
    rw [Int.cast_neg, div_neg, ← neg_div, ← Int.cast_neg, natural, ← Int.neg_fdiv_neg, neg_neg]

theorem floor_shift (a : Int) (places : Nat) : ⌊(a / 2 ^ places : ℚ)⌋ = a >>> places := by
  rw [Int.shiftRight_eq_div_pow, ← Rat.floor_intCast_div_natCast]
  push_cast
  rfl

theorem result_of_wide (op : BinaryOp) (wide : op.isWide = true) (a b : Int) :
    op.result a b = .wide (op.exact a b) := by
  cases op with
  | div =>
    rw [result, exact, floor_div]
    split <;> rfl
  | shl => rw [result, exact, Int.shiftLeft_eq]
  | shr => rw [result, exact, floor_shift]
  | add | sub | mul => rfl
  | _ => cases wide

theorem evaluate_eq (op : BinaryOp) (a b : Int) (places : op.isShift = true → 0 ≤ b) :
    op.evaluate a b = .ok (op.result a b) :=
  if_neg fun negative => absurd (places negative.1) (Int.not_le.mpr negative.2)

theorem evaluate_of_wide (op : BinaryOp) (wide : op.isWide = true) (a b : Int)
    (places : op.isShift = true → 0 ≤ b) :
    op.evaluate a b = .ok (.wide (op.exact a b)) := by
  rw [op.evaluate_eq a b places, op.result_of_wide wide]

/-- What is particular to the halves of operations on words: all but a difference and a shift to the
left fit into them, a sum carries one at most, a difference borrows when it is negative, and a
quotient has no upper half. -/
structure OnWords (op : BinaryOp) (a b result overflow : Int) : Prop where
  whole : op ≠ .sub → op ≠ .shl → 65536 * overflow + result = op.exact a b
  carry : op = .add → overflow = 0 ∨ overflow = 1
  borrow : op = .sub → overflow = if a < b then 65535 else 0
  quotient : op = .div ∨ op = .shr → overflow = 0

theorem small_quotient (a b : Int) (small : Raw.Small a) (divisor : 0 ≤ b) :
    Raw.Small (a / b) :=
  ⟨Int.ediv_nonneg small.1 divisor, (Int.ediv_le_self b small.1).trans small.2⟩

/-- Quotients of words are words. -/
theorem small_exact (op : BinaryOp) (quotient : op = .div ∨ op = .shr) (a b : Int)
    (first : Raw.Small a) (second : Raw.Small b) : Raw.Small (op.exact a b) := by
  rcases quotient with rfl | rfl
  · rw [exact, floor_div, Int.fdiv_eq_ediv_of_nonneg _ second.1]
    split
    · exact Raw.small_value 0
    · exact small_quotient a b first second.1
  · rw [exact, floor_shift, Int.shiftRight_eq_div_pow]
    exact small_quotient a _ first (Int.natCast_nonneg _)

theorem exact_bounds (op : BinaryOp) (wide : op.isWide = true) (noBorrow : op ≠ .sub)
    (noShift : op ≠ .shl) (a b : Int) (first : Raw.Small a) (second : Raw.Small b) :
    0 ≤ op.exact a b ∧ op.exact a b < 4294967296 := by
  have small (quotient : op = .div ∨ op = .shr) :
      0 ≤ op.exact a b ∧ op.exact a b < 4294967296 := by
    obtain ⟨lower, upper⟩ := op.small_exact quotient a b first second
    exact ⟨lower, by omega⟩
  obtain ⟨⟨lowerFirst, upperFirst⟩, ⟨lowerSecond, upperSecond⟩⟩ := And.intro first second
  cases op with
  | add =>
    simp only [exact]
    omega
  | mul =>
    have product : a * b ≤ 65535 * 65535 :=
      Int.mul_le_mul upperFirst upperSecond lowerSecond (by decide)
    exact ⟨Int.mul_nonneg lowerFirst lowerSecond, by simp only [exact]; omega⟩
  | div | shr => exact small (by decide)
  | sub | shl => contradiction
  | _ => cases wide

theorem onWords_wide (op : BinaryOp) (wide : op.isWide = true) (a b : Int)
    (first : Raw.Small a) (second : Raw.Small b) :
    OnWords op a b (low (op.exact a b)) (high (op.exact a b)) where
  whole noBorrow noShift := by
    obtain ⟨lower, upper⟩ := op.exact_bounds wide noBorrow noShift a b first second
    exact whole_of_lt _ lower upper
  carry sum := by
    simp only [Raw.Small] at first second
    simp only [sum, exact, high_eq]
    omega
  borrow difference := by
    simp only [Raw.Small] at first second
    simp only [difference, exact, high_eq]
    split <;> omega
  quotient divides := high_eq_zero _ (op.small_exact divides a b first second)

/-- Whatever an operation does to words, its result is a word. -/
theorem small_result (op : BinaryOp) (a b : Int) (first : Raw.Small a) (second : Raw.Small b) :
    Raw.Small (op.result a b).value := by
  obtain ⟨left, rfl⟩ := (Word.small_iff a).mp first
  obtain ⟨right, rfl⟩ := (Word.small_iff b).mp second
  rw [result_eq]
  split
  · exact (halves_wide _).smallResult
  · exact (halves_wide _).smallResult

/-- The operations that set the overflow register yield two words, the halves of their exact result
up to a multiple of two to the thirty-second. On words more is known of them, and every operation
yields a word. -/
theorem evaluate_wide (a b : Int) :
    (∀ op : BinaryOp, op.isWide = true → (op.isShift = true → 0 ≤ b) →
      ∃ result overflow, op.evaluate a b = .ok ⟨result, some overflow⟩ ∧
        Halves (op.exact a b) result overflow) ∧
    (Raw.Small a → Raw.Small b →
      (∀ op : BinaryOp, op.isWide = true →
        ∃ result overflow, op.evaluate a b = .ok ⟨result, some overflow⟩ ∧
          OnWords op a b result overflow) ∧
      ∀ op : BinaryOp, ∃ yielded, op.evaluate a b = .ok yielded ∧ Raw.Small yielded.value) := by
  refine ⟨fun op wide places => ?_, fun first second => ⟨fun op wide => ?_, fun op => ?_⟩⟩
  · exact ⟨_, _, op.evaluate_of_wide wide a b places, halves_wide _⟩
  · exact ⟨_, _, op.evaluate_of_wide wide a b fun _ => second.1,
      op.onWords_wide wide a b first second⟩
  · exact ⟨_, op.evaluate_eq a b fun _ => second.1, op.small_result a b first second⟩

/-- A shift of a negative number by more places than it has, the largest product of words, and the
largest borrow. -/
theorem evaluate_wide_at_limits :
    (∃ result overflow, BinaryOp.shr.evaluate (-5) 100 = .ok ⟨result, some overflow⟩ ∧
      Halves (-1) result overflow) ∧
    (∃ result overflow, BinaryOp.mul.evaluate 65535 65535 = .ok ⟨result, some overflow⟩ ∧
      65536 * overflow + result = 4294836225) ∧
    ∃ result, BinaryOp.sub.evaluate 0 65535 = .ok ⟨result, some 65535⟩ := by
  obtain ⟨shift, -⟩ := evaluate_wide (-5) 100
  obtain ⟨-, product⟩ := evaluate_wide 65535 65535
  obtain ⟨-, difference⟩ := evaluate_wide 0 65535
  have large : Raw.Small 65535 := ⟨by decide, by decide⟩
  refine ⟨?_, ?_, ?_⟩
  · have down : BinaryOp.shr.exact (-5) 100 = -1 := floor_shift (-5) 100
    have halves := shift .shr rfl fun _ => by decide
    rwa [down] at halves
  · obtain ⟨result, overflow, yields, words⟩ := (product large large).1 .mul rfl
    exact ⟨result, overflow, yields, words.whole nofun nofun⟩
  · obtain ⟨result, overflow, yields, words⟩ := (difference (Raw.small_value 0) large).1 .sub rfl
    obtain rfl : overflow = 65535 := words.borrow rfl
    exact ⟨result, yields⟩

end BinaryOp

end WordMachine
