import Mathlib
import WordMachine.Text.Layout
import WordMachine.Text.Hexadecimal

/-! Numbers in base sixteen are read back as they were written, whatever width they were filled
to; one that fits into its width is written by its digits at that many places. -/
namespace WordMachine.Hexadecimal

open WordMachine.Text

/-! ### Reading digits -/

theorem read?_singleton (c : Char) (digit : Nat) (found : digitValue? 16 c = some digit) :
    read? [c] = some digit := by
  simp [read?, found, ofDigits]

theorem read?_append_singleton (front : List Char) (c : Char) (value digit : Nat)
    (read : read? front = some value) (found : digitValue? 16 c = some digit) :
    read? (front ++ [c]) = some (16 * value + digit) := by
  simp only [read?, Option.ite_none_left_eq_some, Option.map_eq_some_iff] at read ⊢
  obtain ⟨-, values, all, rfl⟩ := read
  refine ⟨by simp, values ++ [digit], ?_, ofDigits_append_singleton 16 values digit⟩
  simp [List.mapM_append, all, found]

theorem read?_cons_zero (text : List Char) (value : Nat) (read : read? text = some value) :
    read? ('0' :: text) = some value := by
  simp only [read?, Option.ite_none_left_eq_some, Option.map_eq_some_iff] at read ⊢
  obtain ⟨-, values, all, rfl⟩ := read
  have zero : digitValue? 16 '0' = some 0 := by decide
  refine ⟨by simp, 0 :: values, ?_, rfl⟩
  simp [List.mapM_cons, all, zero]

theorem read?_replicate_append (zeros : Nat) (text : List Char) (value : Nat)
    (read : read? text = some value) :
    read? (List.replicate zeros '0' ++ text) = some value := by
  induction zeros with
  | zero => exact read
  | succ zeros ih => exact read?_cons_zero _ value ih

/-- Only digits are read. -/
theorem isSome_digitValue?_of_read? (text : List Char) (value : Nat)
    (read : read? text = some value) : ∀ c ∈ text, (digitValue? 16 c).isSome := by
  simp only [read?, Option.ite_none_left_eq_some, Option.map_eq_some_iff] at read
  obtain ⟨-, values, all, -⟩ := read
  induction text generalizing values with
  | nil => simp
  | cons c rest ih =>
    simp only [List.mapM_cons, Option.pure_def, Option.bind_eq_bind, Option.bind_eq_some_iff] at all
    obtain ⟨digit, found, others, rests, -⟩ := all
    simpa [found] using ih others rests

/-- One or more digits are read. -/
theorem read?_of_isSome_digitValue? (text : List Char) (nonempty : text ≠ [])
    (digital : ∀ c ∈ text, (digitValue? 16 c).isSome) : ∃ value, read? text = some value := by
  have all : ∃ values, text.mapM (digitValue? 16) = some values := by
    clear nonempty
    induction text with
    | nil => exact ⟨[], rfl⟩
    | cons c rest ih =>
      obtain ⟨digit, found⟩ := Option.isSome_iff_exists.mp (digital c List.mem_cons_self)
      obtain ⟨values, others⟩ := ih fun other member =>
        digital other (List.mem_cons_of_mem _ member)
      exact ⟨digit :: values, by simp [List.mapM_cons, found, others]⟩
  obtain ⟨values, all⟩ := all
  exact ⟨ofDigits 16 values, by simp [read?, nonempty, all]⟩

theorem toNat_of_isSome_digitValue? (c : Char) (digit : (digitValue? 16 c).isSome) :
    (0x30 ≤ c.toNat ∧ c.toNat ≤ 0x39) ∨ (0x41 ≤ c.toNat ∧ c.toNat ≤ 0x46) ∨
      (0x61 ≤ c.toNat ∧ c.toNat ≤ 0x66) := by
  have bounded (low high : Char) (within : low ≤ c ∧ c ≤ high) :
      low.toNat ≤ c.toNat ∧ c.toNat ≤ high.toNat := within
  obtain ⟨value, found⟩ := Option.isSome_iff_exists.mp digit
  have ranged := (Option.filter_eq_some_iff.mp found).1
  split at ranged
  next decimal => exact .inl (bounded _ _ decimal)
  · split at ranged
    next lower => exact .inr (.inr (bounded _ _ lower))
    · split at ranged
      next upper => exact .inr (.inl (bounded _ _ upper))
      · cases ranged

theorem not_isBlank_of_isSome_digitValue? (c : Char) (digit : (digitValue? 16 c).isSome) :
    isBlank c = false := by
  have code := toNat_of_isSome_digitValue? c digit
  simp [isBlank, inRanges, blankRanges]
  omega

/-! ### Written numbers -/

private theorem digitValue?_upper (digit : Nat) (small : digit < 16) :
    digitValue? 16 digit.digitChar.toUpper = some digit := by
  revert digit
  decide

private theorem upperDigits_of_le (n : Nat) (large : 16 ≤ n) :
    upperDigits n = upperDigits (n / 16) ++ [(n % 16).digitChar.toUpper] := by
  rw [upperDigits, lowerDigits, Nat.toDigits_of_base_le (by omega) large, List.map_append]
  rfl

theorem read?_upperDigits (n : Nat) : read? (upperDigits n) = some n := by
  induction n using Nat.strongRecOn with
  | ind n ih =>
    by_cases small : n < 16
    · rw [upperDigits, lowerDigits, Nat.toDigits_of_lt_base small]
      exact read?_singleton _ n (digitValue?_upper n small)
    · have front := ih (n / 16) (by omega)
      have last := digitValue?_upper (n % 16) (by omega)
      rw [upperDigits_of_le n (by omega), read?_append_singleton _ _ _ _ front last,
        Nat.div_add_mod]

/-- No number here is below zero, so that no sign is in front of the digits. -/
theorem toList_padded_eq_leftpad (width n : Nat) :
    (padded width n).toList = (upperDigits n).leftpad width '0' :=
  String.toList_ofList

theorem read?_padded (width n : Nat) : read? (padded width n).toList = some n := by
  rw [toList_padded_eq_leftpad]
  exact read?_replicate_append _ _ n (read?_upperDigits n)

theorem not_isBlank_of_mem_padded (width n : Nat) :
    ∀ c ∈ (padded width n).toList, isBlank c = false := fun c member =>
  not_isBlank_of_isSome_digitValue? c
    (isSome_digitValue?_of_read? _ n (read?_padded width n) c member)

theorem le_length_padded (width n : Nat) : width ≤ (padded width n).toList.length := by
  rw [toList_padded_eq_leftpad, List.length_leftpad]
  exact Nat.le_max_left width _

/-- A number that fits into its width is as wide as that. -/
theorem length_padded (width n : Nat) (positive : 0 < width) (fits : n < 16 ^ width) :
    (padded width n).toList.length = width := by
  have digits : (upperDigits n).length ≤ width := by
    rw [upperDigits, List.length_map]
    exact (Nat.length_toDigits_le_iff (by omega) positive).mpr fits
  rw [toList_padded_eq_leftpad, List.length_leftpad, Nat.max_eq_left digits]

/-! ### Digits by place -/

/-- The digits of a number at its lowest places, the highest of them first. -/
def lowDigits (places n : Nat) : List Char :=
  (List.range places).reverse.map fun place => (n / 16 ^ place % 16).digitChar.toUpper

theorem lowDigits_succ (places n : Nat) :
    lowDigits (places + 1) n = lowDigits places (n / 16) ++ [(n % 16).digitChar.toUpper] := by
  have shifted (place : Nat) : n / 16 ^ (place + 1) = n / 16 / 16 ^ place := by
    rw [Nat.pow_succ', Nat.div_div_eq_div_mul]
  simp [lowDigits, List.range_succ_eq_map, Function.comp_def, shifted]

theorem lowDigits_zero (places : Nat) : lowDigits places 0 = List.replicate places '0' := by
  simp only [lowDigits, Nat.zero_div, Nat.zero_mod, List.map_const', List.length_reverse,
    List.length_range]
  rfl

private theorem leftpad_concat (width : Nat) (front : List Char) (c filler : Char) :
    (front ++ [c]).leftpad (width + 1) filler = front.leftpad width filler ++ [c] := by
  simp [List.leftpad]

private theorem leftpad_upperDigits (width n : Nat) (positive : 0 < width)
    (fits : n < 16 ^ width) : (upperDigits n).leftpad width '0' = lowDigits width n := by
  induction width generalizing n with
  | zero => cases positive
  | succ width ih =>
    rw [lowDigits_succ]
    by_cases small : n < 16
    · -- The only digit is the last one, and the places before it are filled up.
      have single : upperDigits n = [] ++ [n.digitChar.toUpper] := by
        rw [upperDigits, lowerDigits, Nat.toDigits_of_lt_base small]
        rfl
      rw [single, leftpad_concat, Nat.div_eq_of_lt small, Nat.mod_eq_of_lt small, lowDigits_zero]
      simp [List.leftpad]
    · have front : n / 16 < 16 ^ width := by
        rw [Nat.pow_succ'] at fits
        exact Nat.div_lt_of_lt_mul fits
      have wide : 0 < width := by
        apply Nat.pos_of_ne_zero
        rintro rfl
        omega
      rw [upperDigits_of_le n (by omega), leftpad_concat, ih (n / 16) wide front]

theorem toList_padded (width n : Nat) (positive : 0 < width) (fits : n < 16 ^ width) :
    (padded width n).toList = lowDigits width n := by
  rw [toList_padded_eq_leftpad, leftpad_upperDigits width n positive fits]

end WordMachine.Hexadecimal
