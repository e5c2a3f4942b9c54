import WordMachine.Proofs.CommandLine.Refusals
import WordMachine.Proofs.Halting

/-! When runs succeed. A run ends with status zero exactly when its options give it all that it
begins with and the machine that it sets up halts within the budget. -/
namespace WordMachine.CommandLine

namespace Setup

/-- The machine that is set up halts within the budget, of which a negative one allows nothing. -/
def Halts (setup : Setup) : Prop :=
  setup.loaded.core.HaltsWithin (setup.breakpoints.map Word.ofInt) setup.budget.toNat

/-! ### Machines -/

/-- A machine has run nothing yet, and has certain breakpoints. -/
structure Unstarted (machine : Machine) (breakpoints : List Word) : Prop where
  running : machine.stop = none
  fresh : machine.resume = none
  same : ∀ address, address ∈ machine.breakpoints ↔ address ∈ breakpoints

theorem unstarted_loaded (setup : Setup) : Unstarted setup.loaded [] := by
  unfold loaded Machine.load
  split
  · exact ⟨rfl, rfl, fun _ => .rfl⟩
  · exact ⟨rfl, rfl, fun _ => .rfl⟩

/-- Breakpoints are added one after the other, and change nothing else. -/
theorem unstarted_watched (machine : Machine) (breakpoints : List Word) (addresses : List Int)
    (unstarted : Unstarted machine breakpoints) :
    let watched := addresses.foldl
      (fun machine address => machine.addBreakpoint (Word.ofInt address)) machine
    watched.core = machine.core ∧
      Unstarted watched (breakpoints ++ addresses.map Word.ofInt) := by
  induction addresses generalizing machine breakpoints with
  | nil =>
    rw [List.map_nil, List.append_nil]
    exact ⟨rfl, unstarted⟩
  | cons address rest ih =>
    have added : Unstarted (machine.addBreakpoint (Word.ofInt address))
        (breakpoints ++ [Word.ofInt address]) := by
      refine ⟨unstarted.running, unstarted.fresh, fun other => ?_⟩
      rw [Machine.addBreakpoint, List.mem_insert_iff, List.mem_append, List.mem_singleton,
        unstarted.same, or_comm]
    have others := ih _ _ added
    rw [List.append_assoc] at others
    exact others

theorem unstarted_machine (setup : Setup) (traced : Bool) :
    (setup.machine traced).core = setup.loaded.core ∧
      Unstarted (setup.machine traced) (setup.breakpoints.map Word.ofInt) := by
  obtain ⟨core, unstarted⟩ :=
    unstarted_watched setup.loaded [] setup.breakpoints setup.unstarted_loaded
  unfold machine
  cases traced with
  | false => exact ⟨core, unstarted⟩
  | true => exact ⟨core, unstarted.running, unstarted.fresh, unstarted.same⟩

/-- Whether or not it is traced, a run comes back with a halt exactly if the machine halts. -/
theorem run_eq_halt_iff (setup : Setup) (traced : Bool) :
    (setup.run traced).1 = .halt ↔ setup.Halts := by
  obtain ⟨core, unstarted⟩ := setup.unstarted_machine traced
  have halts := Machine.run_halts_iff setup.budget.toNat (setup.machine traced) unstarted.running
    unstarted.fresh (setup.breakpoints.map Word.ofInt) unstarted.same
  rwa [core] at halts

end Setup

/-! ### Commands -/

theorem verdict_eq_zero_iff (reason : Reason) (machine : Machine) :
    (verdict reason machine).1 = 0 ↔ reason = .halt := by
  unfold verdict
  simp only
  split
  · exact iff_of_true rfl rfl
  next other _ => exact iff_of_false nofun other
  next other _ => exact iff_of_false nofun other

theorem Setup.status_eq_zero_iff (setup : Setup) (traced : Bool) :
    setup.status traced = 0 ↔ setup.Halts :=
  (verdict_eq_zero_iff _ _).trans (setup.run_eq_halt_iff traced)

theorem Failure.ending_cases (failure : Failure) :
    Ending.ofStatus failure.status = .status 1 ∨
      ∃ number, failure = .missing number ∧ Ending.ofStatus failure.status = .brokenOff number := by
  cases failure with
  | missing number => exact .inr ⟨number, rfl, rfl⟩
  | _ => exact .inl rfl

/-! ### Calls -/

namespace Tool

/-- Unless its log file cannot be opened, a run ends with status zero if and only if its options
give it all that it begins with and the machine that it sets up halts within the budget. Any other
run ends with status one, or is broken off for want of a number; then a double dash stands right
behind a switch. An input that is there is the same once the log is open. -/
theorem call_run_status (time : String) (files : FileTree) (arguments : List (List Char))
    (settings : Settings) (options : RunOptions) (log? : Option Key)
    (asked : request arguments = .command settings (.run options))
    (opens : (openLog files settings).2 = .ok log?) :
    let tree := (openLog files settings).1
    let ending := (call time files arguments).ending
    (∀ bytes, files.read (Path.ofText options.input) = .ok bytes →
      tree.read (Path.ofText options.input) = .ok bytes) ∧
    (ending = .status 0 ↔ ∃ setup, options.Gives tree setup ∧ setup.Halts) ∧
    (ending = .status 0 ∨ ending = .status 1 ∨
      (∃ number, ending = .brokenOff number) ∧
        ∃ argument ∈ arguments, Behind argument ['-', '-']) := by
  intro tree ending
  have called : ending = (carryOut time files settings (.run options)).ending :=
    congrArg Outcome.ending (call_of_command time files arguments settings (.run options) asked)
  refine ⟨read_openLog files settings (Path.ofText options.input), ?_⟩
  rw [called]
  rcases carryOut_cases time files settings (.run options) (options.yields_attempt tree) with
    ⟨error, refused, -⟩ | ⟨_, ⟨setup, gives, rfl⟩, ends⟩ | ⟨failure, ⟨only, lost⟩, ends⟩
  · cases opens.symm.trans refused
  · rw [ends]
    have halts := setup.status_eq_zero_iff options.trace
    constructor
    · rw [Ending.status.injEq, halts]
      refine ⟨fun halts => ⟨setup, gives, halts⟩, ?_⟩
      rintro ⟨other, again, halts⟩
      rwa [gives.unique again]
    · exact (verdict_sound _ _).imp (congrArg Ending.status)
        fun failed => .inl (congrArg Ending.status failed.1)
  · rw [ends]
    constructor
    · refine iff_of_false (fun done => ?_) fun ⟨setup, gives, _⟩ => lost setup gives
      have exits := failure.exitStatus
      rw [done] at exits
      cases exits
    · rcases failure.ending_cases with failed | ⟨number, rfl, broken⟩
      · exact .inr (.inl failed)
      · have lacks := only number rfl
        have behind := behind_of_lacks arguments settings (.run options) asked number lacks
        exact .inr (.inr ⟨⟨number, broken⟩, behind⟩)

/-- One instruction and the sentinel behind it take a budget of two. -/
theorem call_run_status_at_limit :
    let files := FileTree.ofFiles [("a.dasm".toList, Utf8.encode "SET A, 0x1".toList)]
    let options (budget : Int) : RunOptions := ⟨"a.dasm".toList, false, some budget, [], [], []⟩
    let run (budget : String) :=
      call "" files ["run".toList, "a.dasm".toList, "--max-steps".toList, budget.toList]
    (run "2").ending = .status 0 ∧ (∃ setup, (options 2).Gives files setup ∧ setup.Halts) ∧
      (run "1").ending = .status 1 ∧ ¬∃ setup, (options 1).Gives files setup ∧ setup.Halts := by
  intro files options run
  have succeeds : (run "2").ending = .status 0 := by decide +kernel
  have fails : (run "1").ending = .status 1 := by decide +kernel
  obtain ⟨-, enough, -⟩ := call_run_status "" files
    ["run".toList, "a.dasm".toList, "--max-steps".toList, "2".toList] ⟨0, false, []⟩ (options 2)
    none (by decide +kernel) rfl
  obtain ⟨-, less, -⟩ := call_run_status "" files
    ["run".toList, "a.dasm".toList, "--max-steps".toList, "1".toList] ⟨0, false, []⟩ (options 1)
    none (by decide +kernel) rfl
  refine ⟨succeeds, enough.mp succeeds, fails, fun halts => ?_⟩
  cases fails.symm.trans (less.mpr halts)

/-- A run whose breakpoint is given as a double dash is neither successful nor ends with status one,
although its arguments are understood and its program can be loaded. -/
theorem call_run_brokenOff :
    let files := FileTree.ofFiles [("a.dasm".toList, Utf8.encode "SET A, 0x1".toList)]
    let arguments := ["run".toList, "a.dasm".toList, "--break=--".toList]
    request arguments = .command ⟨0, false, []⟩
        (.run ⟨"a.dasm".toList, false, some Machine.defaultBudget, [], [none], []⟩) ∧
      (call "" files arguments).ending = .brokenOff .address := by
  decide +kernel

end Tool

end WordMachine.CommandLine
