/-!
# Words and cells

The machine computes with words of sixteen bits. A memory cell holds a word or the halt sentinel,
which no arithmetic can produce because it is not a word.
-/
namespace WordMachine

abbrev Word := BitVec 16

namespace Word

/-- The word left of an integer when all but its sixteen low bits are dropped. -/
def ofInt (value : Int) : Word := BitVec.ofInt 16 value

/-- The word with exactly a given value, for a value of sixteen bits. -/
def exactly? (value : Int) : Option Word :=
  if 0 ≤ value ∧ value < 65536 then some (ofInt value) else none

def value (w : Word) : Int := w.toNat

theorem ofInt_value (w : Word) : ofInt w.value = w := by
  simp [ofInt, value]

theorem value_ofInt (v : Int) : (ofInt v).value = v % 65536 := by
  simp only [ofInt, value, BitVec.toNat_ofInt]
  omega

theorem ofInt_add_nat (v : Int) (n : Nat) : ofInt (v + n) = ofInt v + BitVec.ofNat 16 n := by
  rw [ofInt, BitVec.ofInt_add, BitVec.ofInt_natCast]
  rfl

theorem exactly?_eq_some_iff (v : Int) (w : Word) : exactly? v = some w ↔ w.value = v := by
  have bound := w.isLt
  constructor
  · intro found
    simp only [exactly?, Option.ite_none_right_eq_some, Option.some.injEq] at found
    obtain ⟨inRange, rfl⟩ := found
    rw [value_ofInt]
    omega
  · rintro rfl
    have inRange : 0 ≤ w.value ∧ w.value < 65536 := by simp only [value]; omega
    simp only [exactly?, inRange, ofInt_value, and_self, if_true]

end Word

inductive Cell
  | word (value : Word)
  | sentinel
  deriving DecidableEq

namespace Cell

/-- The number that stands for the halt sentinel, above every word. -/
def sentinelValue : Int := 0xFFFF0000

/-- The number that stands for what a cell holds. -/
def raw : Cell → Int
  | .word w => w.value
  | .sentinel => sentinelValue

/-- A cell as data: the sentinel reads as zero. -/
def data : Cell → Word
  | .word w => w
  | .sentinel => 0

/-- The cell that a number stands for, if it is a word or the sentinel. -/
def ofRaw? (value : Int) : Option Cell :=
  if value = sentinelValue then some .sentinel else (Word.exactly? value).map .word

theorem value_ne_sentinelValue (w : Word) : w.value ≠ sentinelValue := by
  have bound := w.isLt
  simp only [Word.value, sentinelValue]
  omega

theorem ofRaw?_raw (cell : Cell) : ofRaw? cell.raw = some cell := by
  cases cell with
  | sentinel => rfl
  | word w =>
    simp [ofRaw?, raw, value_ne_sentinelValue w, (Word.exactly?_eq_some_iff w.value w).mpr rfl]

theorem data_value (cell : Cell) : cell.data.value = cell.raw % 65536 := by
  cases cell with
  | sentinel => rfl
  | word w =>
    have bound := w.isLt
    simp only [data, raw, Word.value]
    omega

end Cell

end WordMachine
