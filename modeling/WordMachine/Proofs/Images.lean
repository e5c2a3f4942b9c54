import WordMachine.Proofs.Loading

/-! Memory images: what loading a program leaves, whatever its numbers are and wherever it is put.
A program with more numbers than there are cells changes nothing, a number that no cell can hold
stops the copy where it stands, and any other program stands in memory with the sentinel behind it
if there is room. -/
namespace WordMachine

/-- A number that a cell can hold: a word or the sentinel. -/
def Loadable (value : Int) : Prop := (0 ≤ value ∧ value ≤ 65535) ∨ value = Cell.sentinelValue

instance (value : Int) : Decidable (Loadable value) := inferInstanceAs (Decidable (_ ∨ _))

/-! ### Cells -/

theorem Cell.raw_of_ofRaw? (value : Int) (cell : Cell) (found : ofRaw? value = some cell) :
    cell.raw = value := by
  unfold ofRaw? at found
  split at found
  next sentinel =>
    cases found
    exact sentinel.symm
  · obtain ⟨word, exactly, rfl⟩ := Option.map_eq_some_iff.mp found
    exact (Word.exactly?_eq_some_iff value word).mp exactly

theorem Cell.ofRaw?_eq_none_iff (value : Int) : ofRaw? value = none ↔ ¬Loadable value := by
  simp only [ofRaw?, Word.exactly?, Loadable]
  split
  next sentinel => simp [sentinel]
  next other =>
    simp only [other, or_false, Option.map_eq_none_iff, ite_eq_right_iff, reduceCtorEq, imp_false]
    omega

/-- Numbers that can be loaded are the numbers of cells. -/
theorem exists_cells (values : List Int) (loadable : ∀ value ∈ values, Loadable value) :
    ∃ cells : List Cell, values = cells.map Cell.raw := by
  induction values with
  | nil => exact ⟨[], rfl⟩
  | cons value rest ih =>
    obtain ⟨own, others⟩ := List.forall_mem_cons.mp loadable
    obtain ⟨cells, rfl⟩ := ih others
    cases found : Cell.ofRaw? value with
    | none => exact absurd own ((Cell.ofRaw?_eq_none_iff value).mp found)
    | some cell => exact ⟨cell :: cells, by rw [List.map_cons, Cell.raw_of_ofRaw? value cell found]⟩

/-- Unless all numbers can be loaded, there is a first one that cannot. -/
theorem loadable_or_first_misfit (values : List Int) :
    (∀ value ∈ values, Loadable value) ∨
      ∃ front value back, values = front ++ value :: back ∧
        (∀ other ∈ front, Loadable other) ∧ ¬Loadable value := by
  cases found : values.find? fun value => !decide (Loadable value) with
  | none =>
    rw [List.find?_eq_none] at found
    exact .inl (by simpa using found)
  | some value =>
    obtain ⟨misfit, front, back, rfl, fine⟩ := List.find?_eq_some_iff_append.mp found
    exact .inr ⟨front, value, back, rfl, by simpa using fine, by simpa using misfit⟩

/-! ### Copies -/

/-- The cells from an address on hold numbers one behind the other, with addresses that wrap, and
every other cell holds what it held before. -/
structure Copied (before : Memory) (base : Int) (values : List Int) (after : Memory) : Prop where
  filled : ∀ (k : Nat) (inside : k < values.length),
    (after.fetch (Word.ofInt (base + k))).raw = values[k]
  kept : ∀ address, (∀ k : Nat, k < values.length → address ≠ Word.ofInt (base + k)) →
    after.fetch address = before.fetch address

/-- An error says at which position of the program it was found. -/
def LoadError.Names (error : LoadError) (position : Nat) : Prop :=
  ("Word " ++ Decimal.written position ++ " out of range: ").toList <+: error.message.toList

theorem LoadError.names_outOfRange (position : Nat) (value : Int) :
    (LoadError.outOfRange position value).Names position :=
  ⟨(Hexadecimal.marked 1 value).toList, String.toList_append.symm⟩

namespace Memory

/-- A cell at which nothing is loaded is left alone. -/
theorem fetch_loadFrom_of_outside (memory : Memory) (address : Word) (position : Nat)
    (cells : List Cell) (other : Word)
    (outside : ∀ k < cells.length, other ≠ address + BitVec.ofNat 16 k) :
    (memory.loadFrom address position (cells.map Cell.raw)).memory.fetch other =
      memory.fetch other := by
  induction cells using List.reverseRecOn with
  | nil => rfl
  | append_singleton front last ih =>
    rw [List.length_append, List.length_singleton] at outside
    have apart := outside front.length (Nat.lt_succ_self _)
    rw [loadFrom_concat, fetch_put, if_neg apart.symm]
    exact ih fun k inside => outside k (Nat.lt_succ_of_lt inside)

theorem copied_loadFrom (memory : Memory) (base : Int) (position : Nat) (cells : List Cell)
    (fits : cells.length ≤ 65536) :
    Copied memory base (cells.map Cell.raw)
      (memory.loadFrom (Word.ofInt base) position (cells.map Cell.raw)).memory := by
  constructor
  · intro k inside
    rw [List.length_map] at inside
    rw [Word.ofInt_add_nat, memory.fetch_loadFrom _ _ _ fits k inside, List.getElem_map]
  · intro address outside
    refine memory.fetch_loadFrom_of_outside _ _ _ _ fun k inside => ?_
    rw [← Word.ofInt_add_nat]
    exact outside k (by rwa [List.length_map])

/-- Loading stops at a number that no cell can hold. -/
theorem loadFrom_misfit (memory : Memory) (address : Word) (position : Nat) (cells : List Cell)
    (value : Int) (back : List Int) (misfit : ¬Loadable value) :
    memory.loadFrom address position (cells.map Cell.raw ++ value :: back) =
      ⟨(memory.loadFrom address position (cells.map Cell.raw)).memory,
        address + BitVec.ofNat 16 cells.length,
        some (.outOfRange (position + cells.length) value)⟩ := by
  rw [loadFrom_append, loadFrom, (Cell.ofRaw?_eq_none_iff value).mpr misfit]

/-! ### Programs -/

/-- What becomes of memory when a program is loaded into it, and the error that is reported. -/
inductive LoadOutcome (before : Memory) (base : Int) (program : List Int) :
    Option LoadError → Memory → Prop
  /-- Nothing is copied of a program that is larger than memory. -/
  | refused (large : 65536 < program.length) :
      LoadOutcome before base program (some (.tooLarge program.length)) before
  /-- The numbers in front of the first that no cell can hold are copied, without a sentinel. -/
  | stopped {front back : List Int} {value : Int} {after : Memory}
      (fits : program.length ≤ 65536) (split : program = front ++ value :: back)
      (fine : ∀ other ∈ front, Loadable other) (misfit : ¬Loadable value)
      (named : (LoadError.outOfRange front.length value).Names front.length)
      (copied : Copied before base front after) :
      LoadOutcome before base program (some (.outOfRange front.length value)) after
  /-- The sentinel stands behind a program that leaves room for it. -/
  | ended {after : Memory} (room : program.length < 65536)
      (fine : ∀ value ∈ program, Loadable value)
      (copied : Copied before base (program ++ [Cell.sentinelValue]) after) :
      LoadOutcome before base program none after
  | filling {after : Memory} (full : program.length = 65536)
      (fine : ∀ value ∈ program, Loadable value) (copied : Copied before base program after) :
      LoadOutcome before base program none after

end Memory

namespace Machine

private theorem outcome_of_cells (machine : Machine) (cells : List Cell) (base : Int)
    (fits : cells.length ≤ 65536) (fine : ∀ value ∈ cells.map Cell.raw, Loadable value) :
    ∃ memory,
      machine.load (cells.map Cell.raw) base =
        (none, { machine with core := { machine.core with memory := memory } }) ∧
      Memory.LoadOutcome machine.core.memory base (cells.map Cell.raw) none memory := by
  have counted : (cells.map Cell.raw).length = cells.length := List.length_map _
  by_cases room : cells.length < 65536
  · have copied := machine.core.memory.copied_loadFrom base 0 (cells ++ [.sentinel])
      (by rwa [List.length_append, List.length_singleton])
    rw [List.map_append] at copied
    have loaded := machine.load_cells cells base room
    rw [List.map_append] at loaded
    exact ⟨_, loaded, .ended (counted ▸ room) fine copied⟩
  · have full : cells.length = 65536 := by omega
    exact ⟨_, machine.load_filling_cells cells base full, .filling (counted.trans full) fine
      (machine.core.memory.copied_loadFrom base 0 cells fits)⟩

/-- Whatever is loaded, nothing but memory changes, and memory as one of the four outcomes says: a
program that is too large is refused, one with a number that no cell can hold is copied up to the
first of these, and any other stands in memory, with the sentinel behind it if there is room. -/
theorem load_outcome (machine : Machine) (program : List Int) (base : Int) :
    ∃ error? memory,
      machine.load program base =
        (error?, { machine with core := { machine.core with memory := memory } }) ∧
      Memory.LoadOutcome machine.core.memory base program error? memory := by
  by_cases large : 65536 < program.length
  · exact ⟨_, _, if_pos large, .refused large⟩
  · have fits := Nat.not_lt.mp large
    rcases loadable_or_first_misfit program with fine | ⟨front, value, back, rfl, fine, misfit⟩
    · obtain ⟨cells, rfl⟩ := exists_cells program fine
      exact ⟨none, machine.outcome_of_cells cells base (by simpa using fits) fine⟩
    · obtain ⟨cells, rfl⟩ := exists_cells front fine
      have loaded := machine.load_of_fits _ base fits _
        (machine.core.memory.loadFrom_misfit (Word.ofInt base) 0 cells value back misfit)
      have room : cells.length ≤ 65536 := by
        rw [List.length_append, List.length_map] at fits
        omega
      have copied := machine.core.memory.copied_loadFrom base 0 cells room
      rw [Nat.zero_add, ← List.length_map (f := Cell.raw)] at loaded
      exact ⟨_, _, loaded, .stopped fits rfl fine misfit
        (LoadError.names_outOfRange _ value) copied⟩

/-- A program that goes around the end of memory, with two numbers that no cell can hold behind a
sentinel. The first of them is named, and no sentinel is placed behind the cells that are filled. -/
theorem load_outcome_misfit :
    ∃ memory,
      (initial 0).load [Cell.sentinelValue, 7, 65536, -1] (-1) =
        (some (.outOfRange 2 65536), { initial 0 with core := ⟨Registers.initial 0, memory⟩ }) ∧
      (memory.fetch 0xFFFF).raw = Cell.sentinelValue ∧ (memory.fetch 0).raw = 7 ∧
      memory.fetch 1 = .word 0 := by
  obtain ⟨error?, memory, loaded, outcome⟩ :=
    (initial 0).load_outcome [Cell.sentinelValue, 7, 65536, -1] (-1)
  have failed : ((initial 0).load [Cell.sentinelValue, 7, 65536, -1] (-1)).1 =
      some (.outOfRange 2 65536) := rfl
  rw [loaded] at failed
  cases outcome with
  | refused large => cases failed
  | ended => cases failed
  | filling => cases failed
  | @stopped front back value _ _ split _ _ _ copied =>
    obtain ⟨position, rfl⟩ := LoadError.outOfRange.inj (Option.some.inj failed)
    have split : [Cell.sentinelValue, 7] ++ [65536, -1] = front ++ 65536 :: back := split
    obtain rfl : [Cell.sentinelValue, 7] = front := List.append_inj_left split position.symm
    refine ⟨memory, loaded.trans (congrArg (Prod.mk · _) failed), copied.filled 0 (by decide),
      copied.filled 1 (by decide), ?_⟩
    have apart : ∀ k < 2, (1 : Word) ≠ Word.ofInt (-1 + (k : Nat)) := by decide
    rw [copied.kept 1 apart]
    exact Memory.fetch_blank 1

end Machine

end WordMachine
