import WordMachine.Proofs.Loading
import WordMachine.Proofs.Resolution
import WordMachine.Proofs.Tracing

/-! The stack. Words that are pushed stand below the stack pointer, the last one on top, and are
taken off in the reverse order, also where the stack goes around the end of memory or fills it. -/
namespace WordMachine

namespace Memory

theorem fetch_of_holds (memory : Memory) (address : Word) (words : List Word)
    (holds : memory.Holds address words) (count : Nat) (inside : count < words.length) :
    memory.fetch (address + BitVec.ofNat 16 count) = .word words[count] := by
  induction words generalizing address count with
  | nil => cases inside
  | cons word rest ih =>
    obtain ⟨first, others⟩ := holds
    cases count with
    | zero => simpa using first
    | succ count =>
      rw [← next_add]
      exact ih (address + 1) others count (Nat.lt_of_succ_lt_succ inside)

end Memory

/-- The address of one of a number of cells just below another, with addresses that wrap. -/
def JustBelow (start : Word) (count : Nat) (address : Word) : Prop :=
  ∃ k < count, address = start - BitVec.ofNat 16 (k + 1)

instance (start : Word) (count : Nat) (address : Word) :
    Decidable (JustBelow start count address) :=
  inferInstanceAs (Decidable (∃ k < count, _))

namespace Core

/-! ### Words on the stack -/

/-- The stack pointer is at the first of a number of words, which are on the stack. -/
def Stacked (core : Core) (words : List Word) : Prop :=
  core.memory.Holds core.registers.sp words

/-- A word that is pushed comes on top of those on the stack, unless they fill memory. -/
theorem stacked_push (core : Core) (words : List Word) (stacked : core.Stacked words)
    (room : words.length < 65536) (word : Word) : (core.push word).Stacked (word :: words) := by
  refine ⟨(Memory.fetch_put _ _ _ _).trans (if_pos rfl), ?_⟩
  have under : core.registers.sp - 1 + 1 = core.registers.sp := BitVec.sub_add_cancel _ _
  change Memory.Holds _ (core.registers.sp - 1 + 1) words
  rw [under]
  refine Memory.holds_of_fetch _ _ words fun count inside => ?_
  -- Upwards from the stack pointer the new cell comes last, and there are fewer words than that.
  have apart : core.registers.sp - 1 ≠ core.registers.sp + BitVec.ofNat 16 count := by bv_omega
  exact ((Memory.fetch_put _ _ _ _).trans (if_neg apart)).trans
    (core.memory.fetch_of_holds _ words stacked count inside)

/-- Words are pushed one after the other. -/
def pushAll (core : Core) (words : List Word) : Core := words.foldl push core

theorem stacked_pushAll (core : Core) (words under : List Word) (stacked : core.Stacked under)
    (room : words.length + under.length ≤ 65536) :
    (core.pushAll words).Stacked (words.reverse ++ under) := by
  induction words generalizing core under with
  | nil => exact stacked
  | cons word rest ih =>
    rw [List.length_cons] at room
    have pushed := core.stacked_push under stacked (by omega) word
    rw [List.reverse_cons, List.append_assoc, List.singleton_append]
    exact ih (core.push word) (word :: under) pushed (by rw [List.length_cons]; omega)

private theorem sub_next (start : Word) (count : Nat) :
    start - 1 - BitVec.ofNat 16 count = start - BitVec.ofNat 16 (count + 1) := by
  bv_omega

/-- Pushing moves the stack pointer down, one cell for each word. -/
theorem registers_pushAll (core : Core) (words : List Word) :
    (core.pushAll words).registers = { core.registers with
      sp := core.registers.sp - BitVec.ofNat 16 words.length } := by
  induction words generalizing core with
  | nil => simp [pushAll]
  | cons word rest ih =>
    rw [List.length_cons, ← sub_next]
    exact ih (core.push word)

/-- Pushing changes no cell but those that the stack pointer passes. -/
theorem fetch_pushAll_of_outside (core : Core) (words : List Word) (address : Word)
    (outside : ¬JustBelow core.registers.sp words.length address) :
    (core.pushAll words).memory.fetch address = core.memory.fetch address := by
  induction words generalizing core with
  | nil => rfl
  | cons word rest ih =>
    have first : core.registers.sp - 1 ≠ address := fun same =>
      outside ⟨0, Nat.zero_lt_succ _, same.symm⟩
    have further : ¬JustBelow (core.push word).registers.sp rest.length address := by
      rintro ⟨k, inside, same⟩
      exact outside ⟨k + 1, Nat.succ_lt_succ inside, same.trans (sub_next _ _)⟩
    exact (ih (core.push word) further).trans ((Memory.fetch_put _ _ _ _).trans (if_neg first))

end Core

namespace Monitor

/-! ### Requests -/

/-- The request to take the top of the stack off. -/
def pop : Command := .resolveAndRead 0x18

/-- The request to look at the top of the stack. -/
def peek : Command := .resolveAndRead 0x19

theorem perform_pop (machine : Machine) :
    perform machine pop = (.number (machine.core.memory.read machine.core.registers.sp).value,
      { machine with core := machine.core.advance 0 1 }) := by
  have mode : modeOfCode 0x18 = .ok .pop := rfl
  simp only [perform, pop, resolving, mode, Core.resolve_eq]
  rfl

theorem perform_peek (machine : Machine) :
    perform machine peek =
      (.number (machine.core.memory.read machine.core.registers.sp).value, machine) := by
  have mode : modeOfCode 0x19 = .ok .peek := rfl
  simp only [perform, peek, resolving, mode, Core.resolve]
  rfl

theorem performAll_push (machine : Machine) (values : List Int) :
    performAll machine (values.map .push) =
      { machine with core := machine.core.pushAll (values.map Word.ofInt) } := by
  induction values generalizing machine with
  | nil => rfl
  | cons value rest ih => exact ih _

theorem performAll_pop (machine : Machine) (count : Nat) :
    performAll machine (List.replicate count pop) =
      { machine with core := machine.core.advance 0 (BitVec.ofNat 16 count) } := by
  induction count generalizing machine with
  | zero => exact congrArg (fun core => { machine with core }) machine.core.advance_zero.symm
  | succ count ih =>
    have rest := ih { machine with core := machine.core.advance 0 1 }
    rw [Core.advance_advance] at rest
    rw [BitVec.ofNat_add, BitVec.add_comm, List.replicate_succ]
    exact (congrArg (fun after => performAll after.2 _) (perform_pop machine)).trans rest

/-- Words on the stack are taken off one after the other, the top first. -/
theorem replies_pop (machine : Machine) (words : List Word)
    (stacked : machine.core.Stacked words) :
    replies machine (List.replicate words.length pop) =
      words.map fun word => .number word.value := by
  induction words generalizing machine with
  | nil => rfl
  | cons word rest ih =>
    obtain ⟨top, under⟩ := stacked
    have first : machine.core.memory.read machine.core.registers.sp = word := congrArg Cell.data top
    rw [List.length_cons, List.replicate_succ, replies, perform_pop, first, List.map_cons]
    exact congrArg _ (ih _ under)

/-- At every depth, looking at the top of the stack answers the same as taking it off, and leaves
the machine as it is. -/
theorem perform_of_stacked (machine : Machine) (words : List Word)
    (stacked : machine.core.Stacked words) (count : Nat) (word : Word)
    (here : words[count]? = some word) :
    let popped (count : Nat) := performAll machine (List.replicate count pop)
    perform (popped count) peek = (.number word.value, popped count) ∧
      perform (popped count) pop = (.number word.value, popped (count + 1)) := by
  intro popped
  obtain ⟨inside, rfl⟩ := List.getElem?_eq_some_iff.mp here
  have top : (popped count).core.memory.read (popped count).core.registers.sp = words[count] := by
    simp only [popped, performAll_pop]
    exact congrArg Cell.data (machine.core.memory.fetch_of_holds _ words stacked count inside)
  have next : popped (count + 1) =
      { popped count with core := (popped count).core.advance 0 1 } := by
    simp only [popped, performAll_pop, Core.advance_advance, BitVec.ofNat_add]
    rfl
  rw [perform_peek, perform_pop, top, next]
  exact ⟨rfl, rfl⟩

theorem stacked_performAll_push (machine : Machine) (values : List Int)
    (fits : values.length ≤ 65536) :
    (performAll machine (values.map .push)).core.Stacked (values.reverse.map Word.ofInt) := by
  have stacked := machine.core.stacked_pushAll (values.map Word.ofInt) [] trivial
    (by rwa [List.length_map])
  rw [List.append_nil, ← List.map_reverse] at stacked
  rw [performAll_push]
  exact stacked

/-- What is pushed is taken off in the reverse order, cut to sixteen bits, wherever the stack
pointer starts and unless it is more than memory holds. At every depth, looking at the top answers
the same as taking it off and changes nothing. When all is taken off, nothing has changed but cells
just below the place where the stack pointer started and is again. -/
theorem pop_after_push (machine : Machine) (values : List Int) (fits : values.length ≤ 65536) :
    let pushed := performAll machine (values.map .push)
    let popped (count : Nat) := performAll pushed (List.replicate count pop)
    replies pushed (List.replicate values.length pop) =
      values.reverse.map (fun value => .number (value % 65536)) ∧
    (∀ (count : Nat) (value : Int), values.reverse[count]? = some value →
      perform (popped count) peek = (.number (value % 65536), popped count) ∧
      perform (popped count) pop = (.number (value % 65536), popped (count + 1))) ∧
    ∃ memory, popped values.length = { machine with core := ⟨machine.core.registers, memory⟩ } ∧
      ∀ address, ¬JustBelow machine.core.registers.sp values.length address →
        memory.fetch address = machine.core.memory.fetch address := by
  intro pushed popped
  have counted : (values.map Word.ofInt).length = values.length := List.length_map _
  have stacked := stacked_performAll_push machine values fits
  -- Taking off only moves the stack pointer, so that memory stays as the pushes leave it.
  refine ⟨?_, fun count value here => ?_, (machine.core.pushAll (values.map Word.ofInt)).memory,
    ?_, fun address outside => ?_⟩
  · have answers := replies_pop pushed _ stacked
    rw [List.length_map, List.length_reverse, List.map_map] at answers
    rw [answers]
    exact List.map_congr_left fun value _ => congrArg Reply.number (Word.value_ofInt value)
  · have word : (values.reverse.map Word.ofInt)[count]? = some (Word.ofInt value) := by
      rw [List.getElem?_map, here, Option.map_some]
    have answers := perform_of_stacked pushed _ stacked count _ word
    rwa [Word.value_ofInt] at answers
  · have registers := machine.core.registers_pushAll (values.map Word.ofInt)
    rw [counted] at registers
    simp only [popped, pushed, performAll_pop, performAll_push, Core.advance, registers]
    simp only [BitVec.sub_add_cancel, BitVec.add_zero]
  · refine machine.core.fetch_pushAll_of_outside _ address ?_
    rwa [counted]

/-- Three values, two of which are cut to sixteen bits, on a stack that goes around address zero. -/
theorem pop_after_push_around :
    let machine := Machine.initial 1
    let pushed := performAll machine [.push (-1), .push 65538, .push 7]
    replies pushed [pop, pop, pop] = [.number 7, .number 2, .number 65535] ∧
    perform pushed peek = (.number 7, pushed) ∧
    ∃ memory, performAll pushed [pop, pop, pop] =
        { machine with core := ⟨machine.core.registers, memory⟩ } ∧
      memory.fetch 1 = .word 0 ∧ memory.fetch 0xFFFD = .word 0 := by
  intro machine pushed
  obtain ⟨answers, looks, memory, restored, kept⟩ :=
    pop_after_push machine [-1, 65538, 7] (by decide)
  refine ⟨answers, (looks 0 7 rfl).1, memory, restored, ?_, ?_⟩
  · exact (kept 1 (by decide)).trans (Memory.fetch_blank 1)
  · exact (kept 0xFFFD (by decide)).trans (Memory.fetch_blank 0xFFFD)

end Monitor

end WordMachine
