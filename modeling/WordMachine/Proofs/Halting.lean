import WordMachine.Proofs.Runs

/-! Runs that halt. A machine that has just been set up halts within a budget if and only if the
instructions that its core carries out lead to the sentinel before the budget is used up, and past
no breakpoint; whether steps are traced makes no difference. -/
namespace WordMachine

namespace Core

/-- Fewer than a number of instructions lead from a core to one that fetches the sentinel. From the
first core on to the last, the program counter is at no breakpoint. -/
def HaltsWithin (start : Core) (breakpoints : List Word) (limit : Nat) : Prop :=
  ∃ count last, count < limit ∧ Executes count start last ∧
    last.memory.fetch last.registers.pc = .sentinel ∧
    ∀ earlier ≤ count, ∀ middle, Executes earlier start middle →
      middle.registers.pc ∉ breakpoints

section Steps

variable {start : Core} {breakpoints : List Word} {limit : Nat}

theorem haltsWithin_of_sentinel (fetched : start.memory.fetch start.registers.pc = .sentinel)
    (passes : start.registers.pc ∉ breakpoints) : start.HaltsWithin breakpoints (limit + 1) := by
  refine ⟨0, start, Nat.zero_lt_succ limit, .nothing start, fetched, ?_⟩
  intro earlier least middle executes
  cases Nat.le_zero.mp least
  cases executes
  exact passes

theorem not_haltsWithin_of_breakpoint (breaks : start.registers.pc ∈ breakpoints) :
    ¬start.HaltsWithin breakpoints limit := by
  rintro ⟨count, last, -, -, -, passes⟩
  exact passes 0 (Nat.zero_le count) start (.nothing start) breaks

theorem not_haltsWithin_of_fault {word : Word} {fault : Fault} {after : Core}
    (fetched : start.memory.fetch start.registers.pc = .word word)
    (executed : start.execute word = (some fault, after)) :
    ¬start.HaltsWithin breakpoints limit := by
  rintro ⟨count, last, -, executes, sentinel, -⟩
  cases executes with
  | nothing => cases fetched.symm.trans sentinel
  | next again proceeds =>
    cases fetched.symm.trans again
    cases executed.symm.trans proceeds

/-- An instruction that is carried out takes one from the limit. -/
theorem haltsWithin_next {word : Word} {after : Core}
    (fetched : start.memory.fetch start.registers.pc = .word word)
    (executed : start.execute word = (none, after)) (passes : start.registers.pc ∉ breakpoints) :
    start.HaltsWithin breakpoints (limit + 1) ↔ after.HaltsWithin breakpoints limit := by
  constructor
  · rintro ⟨count, last, few, executes, sentinel, passing⟩
    cases executes with
    | nothing => cases fetched.symm.trans sentinel
    | next again proceeds others =>
      cases fetched.symm.trans again
      cases executed.symm.trans proceeds
      refine ⟨_, last, Nat.lt_of_succ_lt_succ few, others, sentinel, ?_⟩
      intro earlier least middle further
      exact passing (earlier + 1) (Nat.succ_le_succ least) middle (.next fetched executed further)
  · rintro ⟨count, last, few, executes, sentinel, passing⟩
    refine ⟨count + 1, last, Nat.succ_lt_succ few, .next fetched executed executes, sentinel, ?_⟩
    intro earlier least middle further
    cases further with
    | nothing => exact passes
    | next again proceeds others =>
      cases fetched.symm.trans again
      cases executed.symm.trans proceeds
      exact passing _ (Nat.le_of_succ_le_succ least) middle others

end Steps

end Core

namespace Machine

/-- A run of a machine that has neither stopped nor come to a breakpoint halts if and only if its
core does so within the budget. -/
theorem run_halts_iff (budget : Nat) (machine : Machine) (running : machine.stop = none)
    (fresh : machine.resume = none) (breakpoints : List Word)
    (same : ∀ address, address ∈ machine.breakpoints ↔ address ∈ breakpoints) :
    (run budget machine).1 = .halt ↔ machine.core.HaltsWithin breakpoints budget := by
  induction budget generalizing machine with
  | zero =>
    refine iff_of_false nofun ?_
    rintro ⟨count, last, few, -⟩
    exact Nat.not_lt_zero count few
  | succ budget ih =>
    have passes (passing : machine.core.registers.pc ∈ machine.breakpoints →
        machine.resume = some machine.core.registers.pc) :
        machine.core.registers.pc ∉ breakpoints := by
      intro breaks
      rw [fresh] at passing
      cases passing ((same _).mpr breaks)
    rcases machine.step_cases with ⟨stop, stopped, -⟩ | ⟨-, breaks, -, stepped⟩ |
      ⟨-, passing, fetched, stepped⟩ | ⟨word, fault, core, ready, executed, stepped⟩ |
      ⟨word, core, ready, executed, stepped⟩
    · rw [running] at stopped
      cases stopped
    · rw [machine.run_of_reason budget .breakpoint (by rw [stepped])]
      exact iff_of_false nofun (Core.not_haltsWithin_of_breakpoint ((same _).mp breaks))
    · rw [machine.run_of_reason budget .halt (by rw [stepped])]
      exact iff_of_true rfl (Core.haltsWithin_of_sentinel fetched (passes passing))
    · rw [machine.run_of_reason budget _ (by rw [stepped])]
      refine iff_of_false ?_ (Core.not_haltsWithin_of_fault ready.fetched executed)
      cases fault <;> exact nofun
    · rw [machine.run_of_execution budget (by rw [stepped]), stepped,
        Core.haltsWithin_next ready.fetched executed (passes ready.passing)]
      exact ih (machine.proceed core) running rfl same

end Machine

end WordMachine
