import Mathlib.Data.List.Induction
import WordMachine.Machine.Basic

/-! Words in memory: what it is for memory to hold a list of them, and that loading a program makes
it hold the program. -/
namespace WordMachine

namespace Memory

theorem fetch_blank (address : Word) : blank.fetch address = .word 0 := by
  simp [fetch, blank]

/-- The cells from an address on hold words. -/
def Holds (memory : Memory) (address : Word) : List Word → Prop
  | [] => True
  | word :: rest => memory.fetch address = .word word ∧ memory.Holds (address + 1) rest

theorem next_add (address : Word) (count : Nat) :
    address + 1 + BitVec.ofNat 16 count = address + BitVec.ofNat 16 (count + 1) := by
  rw [BitVec.ofNat_add, BitVec.add_assoc, BitVec.add_comm 1]
  rfl

theorem holds_append (memory : Memory) (address : Word) (front back : List Word) :
    memory.Holds address (front ++ back) ↔
      memory.Holds address front ∧ memory.Holds (address + BitVec.ofNat 16 front.length) back := by
  induction front generalizing address with
  | nil => simp [Holds]
  | cons word rest ih =>
    simp only [List.cons_append, Holds, ih, List.length_cons, next_add, and_assoc]

/-- Words that stand in cells one behind the other are held. -/
theorem holds_of_fetch (memory : Memory) (address : Word) (words : List Word)
    (stand : ∀ (count : Nat) (inside : count < words.length),
      memory.fetch (address + BitVec.ofNat 16 count) = .word words[count]) :
    memory.Holds address words := by
  induction words generalizing address with
  | nil => trivial
  | cons word rest ih =>
    refine ⟨?_, ih (address + 1) fun count inside => ?_⟩
    · simpa using stand 0 (Nat.zero_lt_succ _)
    · rw [next_add]
      exact stand (count + 1) (Nat.succ_lt_succ inside)

/-! ### Cells -/

theorem ext_fetch (first second : Memory)
    (same : ∀ address, first.fetch address = second.fetch address) : first = second := by
  obtain ⟨cells⟩ := first
  obtain ⟨others⟩ := second
  refine congrArg Memory.mk (Vector.ext fun position bound => ?_)
  have here := same (BitVec.ofNat 16 position)
  have inside : (BitVec.ofNat 16 position).toNat = position := by
    rw [BitVec.toNat_ofNat]
    exact Nat.mod_eq_of_lt bound
  simpa only [fetch, inside] using here

/-- Loading goes on behind the cells that it has filled. -/
theorem loadFrom_append (memory : Memory) (address : Word) (position : Nat) (cells : List Cell)
    (rest : List Int) :
    memory.loadFrom address position (cells.map Cell.raw ++ rest) =
      (memory.loadFrom address position (cells.map Cell.raw)).memory.loadFrom
        (address + BitVec.ofNat 16 cells.length) (position + cells.length) rest := by
  induction cells generalizing memory address position with
  | nil => simp [loadFrom]
  | cons cell cells ih =>
    simp only [List.map_cons, List.cons_append, loadFrom, Cell.ofRaw?_raw, ih, next_add,
      List.length_cons, Nat.add_assoc, Nat.add_comm 1]

/-- Numbers of cells are all loaded. -/
theorem loadFrom_cells (memory : Memory) (address : Word) (position : Nat) (cells : List Cell) :
    memory.loadFrom address position (cells.map Cell.raw) =
      ⟨(memory.loadFrom address position (cells.map Cell.raw)).memory,
        address + BitVec.ofNat 16 cells.length, none⟩ := by
  have whole := memory.loadFrom_append address position cells []
  rwa [List.append_nil, loadFrom] at whole

/-- The last of a number of cells is put behind the others. -/
theorem loadFrom_concat (memory : Memory) (address : Word) (position : Nat) (cells : List Cell)
    (last : Cell) :
    (memory.loadFrom address position ((cells ++ [last]).map Cell.raw)).memory =
      (memory.loadFrom address position (cells.map Cell.raw)).memory.put
        (address + BitVec.ofNat 16 cells.length) last := by
  rw [List.map_append, loadFrom_append, List.map_singleton, loadFrom, Cell.ofRaw?_raw]
  rfl

/-- Cells that are loaded stand in memory one behind the other. -/
theorem fetch_loadFrom (memory : Memory) (address : Word) (position : Nat) (cells : List Cell)
    (fits : cells.length ≤ 65536) (count : Nat) (inside : count < cells.length) :
    (memory.loadFrom address position (cells.map Cell.raw)).memory.fetch
      (address + BitVec.ofNat 16 count) = cells[count] := by
  -- The induction takes off the last cell, since loading it changes none of those before it.
  induction cells using List.reverseRecOn with
  | nil => cases inside
  | append_singleton front last ih =>
    rw [List.length_append, List.length_singleton] at fits inside
    rw [loadFrom_concat, fetch_put]
    by_cases own : count = front.length
    · subst own
      rw [if_pos rfl, List.getElem_concat_length rfl]
    · have before : count < front.length := by omega
      have apart : address + BitVec.ofNat 16 front.length ≠ address + BitVec.ofNat 16 count := by
        intro equal
        have same := congrArg BitVec.toNat ((BitVec.add_right_inj address).mp equal)
        rw [BitVec.toNat_ofNat, BitVec.toNat_ofNat] at same
        omega
      rw [if_neg apart, ih (by omega) before, List.getElem_append_left before]

/-- Words are held once they are loaded, whatever is loaded behind them. -/
theorem holds_loadFrom (memory : Memory) (address : Word) (position : Nat) (words : List Word)
    (behind : List Cell) (fits : words.length + behind.length ≤ 65536) :
    (memory.loadFrom address position
      ((words.map Cell.word ++ behind).map Cell.raw)).memory.Holds address words := by
  refine holds_of_fetch _ address words fun count inside => ?_
  have early : count < (words.map Cell.word).length := by rwa [List.length_map]
  have whole : (words.map Cell.word ++ behind).length = words.length + behind.length := by
    rw [List.length_append, List.length_map]
  rw [memory.fetch_loadFrom address position _ (whole ▸ fits) count (by omega),
    List.getElem_append_left early, List.getElem_map]

/-- A memory is restored from the numbers that stand for its cells. -/
theorem memory_load_raws (blank memory : Memory) :
    (blank.load 0 (memory.raws 0 size)).memory = memory := by
  have cells : memory.raws 0 size =
      ((List.range size).map fun k => memory.fetch (0 + BitVec.ofNat 16 k)).map Cell.raw := by
    rw [List.map_map]
    rfl
  apply ext_fetch
  intro address
  have bound : address.toNat < 65536 := address.isLt
  have whole : (0 : Word) + BitVec.ofNat 16 address.toNat = address := by simp
  rw [load, cells]
  have restored := blank.fetch_loadFrom 0 0
    ((List.range size).map fun k => memory.fetch (0 + BitVec.ofNat 16 k)) (by simp [size])
    address.toNat (by simpa [size] using bound)
  rw [whole] at restored
  rw [restored, List.getElem_map, List.getElem_range, whole]

end Memory

namespace Machine

/-- A program that fits is copied, and if that ends well the sentinel is put where there is room. -/
theorem load_of_fits (machine : Machine) (program : List Int) (base : Int)
    (fits : program.length ≤ 65536) (loaded : Memory.Load)
    (copied : machine.core.memory.load (Word.ofInt base) program = loaded) :
    machine.load program base = (loaded.error?, { machine with core := { machine.core with
      memory := if loaded.error?.isNone ∧ program.length < 65536 then
        loaded.memory.placeSentinel loaded.next else loaded.memory } }) := by
  have counted : ¬Memory.size < program.length := Nat.not_lt.mpr fits
  rw [load, if_neg counted, ← copied]
  rfl

/-- The sentinel is loaded as a last cell would be. -/
theorem load_cells (machine : Machine) (cells : List Cell) (base : Int)
    (room : cells.length < 65536) :
    machine.load (cells.map Cell.raw) base = (none, { machine with core := { machine.core with
      memory := (machine.core.memory.loadFrom (Word.ofInt base) 0
        ((cells ++ [Cell.sentinel]).map Cell.raw)).memory } }) := by
  have counted : (cells.map Cell.raw).length < 65536 := by rwa [List.length_map]
  have loaded := machine.load_of_fits (cells.map Cell.raw) base (Nat.le_of_lt counted) _
    (machine.core.memory.loadFrom_cells (Word.ofInt base) 0 cells)
  simp only [Option.isNone_none, true_and, if_pos counted] at loaded
  rw [loaded, Memory.loadFrom_concat]
  rfl

theorem load_filling_cells (machine : Machine) (cells : List Cell) (base : Int)
    (full : cells.length = 65536) :
    machine.load (cells.map Cell.raw) base = (none, { machine with core := { machine.core with
      memory := (machine.core.memory.loadFrom (Word.ofInt base) 0
        (cells.map Cell.raw)).memory } }) := by
  have counted : (cells.map Cell.raw).length = 65536 := by rwa [List.length_map]
  have loaded := machine.load_of_fits (cells.map Cell.raw) base (Nat.le_of_eq counted) _
    (machine.core.memory.loadFrom_cells (Word.ofInt base) 0 cells)
  simpa only [Option.isNone_none, true_and, counted, Nat.lt_irrefl, if_false] using loaded

/-- Words that fit are loaded, and only memory changes. When there is room, the sentinel stands
behind them. -/
theorem load_image (machine : Machine) (words : List Word) (base : Int)
    (fits : words.length ≤ 65536) :
    ∃ memory, memory.Holds (Word.ofInt base) words ∧
      (words.length < 65536 →
        memory.fetch (Word.ofInt base + BitVec.ofNat 16 words.length) = .sentinel) ∧
      machine.load (words.map Word.value) base =
        (none, { machine with core := { machine.core with memory := memory } }) := by
  have counted : (words.map Cell.word).length = words.length := List.length_map _
  have numbers : words.map Word.value = (words.map Cell.word).map Cell.raw := by
    rw [List.map_map]
    rfl
  rw [numbers]
  by_cases room : words.length < 65536
  · refine ⟨_, ?_, fun _ => ?_, machine.load_cells _ base (counted ▸ room)⟩
    · exact Memory.holds_loadFrom _ _ 0 words [.sentinel] room
    · have behind : (words.map Cell.word ++ [Cell.sentinel]).length = words.length + 1 := by
        rw [List.length_append, counted, List.length_singleton]
      rw [Memory.fetch_loadFrom _ _ 0 _ (Nat.le_trans (Nat.le_of_eq behind) room) words.length
        (Nat.lt_of_lt_of_eq (Nat.lt_succ_self _) behind.symm)]
      exact List.getElem_concat_length counted.symm _
  · have full : words.length = 65536 := by omega
    refine ⟨_, ?_, fun short => absurd short room,
      machine.load_filling_cells _ base (counted.trans full)⟩
    have holds := machine.core.memory.holds_loadFrom (Word.ofInt base) 0 words [] fits
    rwa [List.append_nil] at holds

theorem load_words (machine : Machine) (words : List Word) (base : Int)
    (fits : words.length ≤ 65536) :
    ∃ memory, memory.Holds (Word.ofInt base) words ∧
      machine.load (words.map Word.value) base =
        (none, { machine with core := { machine.core with memory := memory } }) := by
  obtain ⟨memory, holds, -, loaded⟩ := machine.load_image words base fits
  exact ⟨memory, holds, loaded⟩

/-- A new machine holds the words it was given from address zero on. -/
theorem withProgram_words (words : List Word) (stack : Word) (fits : words.length ≤ 65536) :
    ∃ memory, memory.Holds 0 words ∧
      (words.length < 65536 → memory.fetch (BitVec.ofNat 16 words.length) = .sentinel) ∧
      withProgram (words.map Word.value) stack =
        .ok { initial stack with core := ⟨Registers.initial stack, memory⟩ } := by
  obtain ⟨memory, holds, ends, loaded⟩ := (initial stack).load_image words 0 fits
  refine ⟨memory, holds, fun room => ?_, by simp only [withProgram, loaded]; rfl⟩
  have base : Word.ofInt 0 + BitVec.ofNat 16 words.length = BitVec.ofNat 16 words.length :=
    BitVec.zero_add _
  rw [← base]
  exact ends room

/-- A program is refused only for its size. -/
theorem withProgram_cases (words : List Word) (stack : Word) :
    (words.length ≤ 65536 ∧ withProgram (words.map Word.value) stack =
      .ok ((initial stack).load (words.map Word.value) 0).2) ∨
    (¬words.length ≤ 65536 ∧
      withProgram (words.map Word.value) stack = .error (.tooLarge words.length)) := by
  by_cases fits : words.length ≤ 65536
  · obtain ⟨memory, -, loaded⟩ := (initial stack).load_words words 0 fits
    exact .inl ⟨fits, by simp only [withProgram, loaded]⟩
  · have large : Memory.size < (words.map Word.value).length := by
      rw [List.length_map]
      exact Nat.lt_of_not_le fits
    refine .inr ⟨fits, ?_⟩
    rw [withProgram, load, if_pos large, List.length_map]

end Machine

end WordMachine
