import WordMachine.Proofs.CommandLine.Logs
import WordMachine.Proofs.CommandLine.Sources

/-! Where an assembly that succeeds leaves its result: in the output file, unless the listing is
asked for, which is then printed while every file but the log stays as it was. -/
namespace WordMachine.CommandLine

/-- With a listing asked for, an assembly prints it and changes no file but the log. -/
theorem AsmOptions.report_listing (verbosity : Nat) (files : FileTree) (options : AsmOptions)
    (listed : options.listing = true) (program : Program) (session : Assembly.Session)
    (found : assembled files options.input = .ok (program, session)) :
    ((options.attempt files).report verbosity).output = session.listing ++ "\n" ∧
      Action.changes ((options.attempt files).report verbosity).actions = [] := by
  have comes := quietly_assembleFile files options.input
  rw [found] at comes
  obtain ⟨assembles, shown⟩ := comes ⟨"", []⟩
  simp only [attempt, listed, true_or, if_true, Attempt.report, Attempt.run_bind]
  revert assembles shown
  rcases (assembleFile files options.input).run.run ⟨"", []⟩ with ⟨_, output, actions⟩
  rintro rfl shown
  obtain ⟨rfl, rest⟩ := Prod.mk.inj shown
  refine ⟨?_, (Prod.mk.inj rest).2⟩
  change "" ++ session.listing ++ "\n" = session.listing ++ "\n"
  rw [String.empty_append]

/-! ### Calls -/

namespace Tool

/-- An assembly with an output file other than the log that succeeds has assembled its source.
Unless a listing is asked for, the output file then holds the binary form of the program, or the
listing if its extension says so. If one is asked for, it is printed, and all files but the log are
as they were when that was opened. -/
theorem call_asm_delivers (time : String) (files : FileTree) (arguments : List (List Char))
    (settings : Settings) (options : AsmOptions)
    (asked : request arguments = .command settings (.asm options)) (named : options.output ≠ [])
    (apart : ∀ key, (openLog files settings).2 = .ok (some key) →
      (openLog files settings).1.target (Path.ofText options.output) ≠ .ok key)
    (ends : (call time files arguments).ending = .status 0) :
    ∃ program session,
      assembled (openLog files settings).1 options.input = .ok (program, session) ∧
      (∀ bytes, files.read (Path.ofText options.input) = .ok bytes →
        assembled files options.input = .ok (program, session)) ∧
      (options.listing = false →
        (call time files arguments).files.read (Path.ofText options.output) =
          .ok (options.delivery program session)) ∧
      (options.listing = true →
        (call time files arguments).output = session.listing ++ "\n" ∧
        ∀ key, (openLog files settings).2 ≠ .ok (some key) →
          (call time files arguments).files.find? key =
            (openLog files settings).1.find? key) := by
  have called : call time files arguments = carryOut time files settings (.asm options) := by
    simp only [call, asked]
  have present := read_openLog files settings (Path.ofText options.input)
  rw [called] at ends ⊢
  unfold carryOut at ends ⊢
  -- Everything that the command reads and writes is looked up once the log is open.
  cases opened : openLog files settings with
  | mk tree opening =>
    rw [opened] at apart ends present
    cases opening with
    | error error => cases ends
    | ok log? =>
      have isFile := logIsFile_of_openLog files tree settings log? opened
      have succeeds : ((options.attempt tree).report settings.verbosity).status = .ok 0 :=
        Ending.ofStatus_eq_status ends
      cases found : assembled tree options.input with
      | error failure =>
        exact absurd succeeds (options.report_of_unassembled _ tree failure found)
      | ok result =>
        obtain ⟨program, session⟩ := result
        refine ⟨program, session, rfl, fun bytes reads => ?_, fun unlisted => ?_, fun listed => ?_⟩
        · -- Opening the log leaves a source that is there as it was.
          rw [← found, assembled, assembled, reads, present bytes reads]
        · obtain ⟨_, _, key, again, opens, changes⟩ :=
            options.report_delivery _ tree unlisted named succeeds
          cases found.symm.trans again
          refine read_settle time log? _ tree _ key _ isFile opens ?_ changes
          rintro rfl
          exact apart key rfl opens
        · obtain ⟨output, unchanged⟩ :=
            options.report_listing settings.verbosity tree listed program session found
          refine ⟨output, fun key other => ?_⟩
          have settled := find?_settle time log? (log? = some ·) (fun _ => id)
            ((options.attempt tree).report settings.verbosity).actions tree tree (fun _ _ => rfl)
            key
          rw [unchanged] at settled
          refine settled ?_
          rintro rfl
          exact other rfl

/-- A listing in a file, with a log that is made in a directory of its own. -/
theorem call_asm_delivers_listing :
    let files := FileTree.ofFiles [("a.dasm".toList, Utf8.encode "SET PC, e\n:e".toList)]
    let outcome := call "" files ["--log-file".toList, "log/x".toList, "asm".toList,
      "a.dasm".toList, "-o".toList, "b.LST".toList]
    outcome.ending = .status 0 ∧
      ∃ program session, assembled files "a.dasm".toList = .ok (program, session) ∧
        outcome.files.read (Path.ofText "b.LST".toList) =
          .ok (Utf8.encode (session.listing ++ "\n").toList) := by
  intro files outcome
  have ends : outcome.ending = .status 0 := by decide +kernel
  have opened : (openLog files ⟨0, false, "log/x".toList⟩).2 =
      .ok (some ["log".toList, "x".toList]) := by decide +kernel
  have apart : (openLog files ⟨0, false, "log/x".toList⟩).1.target (Path.ofText "b.LST".toList) ≠
      .ok ["log".toList, "x".toList] := by decide +kernel
  obtain ⟨program, session, -, found, delivered, -⟩ :=
    call_asm_delivers "" files _ ⟨0, false, "log/x".toList⟩
      ⟨"a.dasm".toList, "b.LST".toList, false⟩ (by decide +kernel) (by decide)
      (by
        intro key same
        rw [opened] at same
        cases same
        exact apart) ends
  have reads : files.read (Path.ofText "a.dasm".toList) =
      .ok (Utf8.encode "SET PC, e\n:e".toList) := by decide +kernel
  exact ⟨ends, program, session, found _ reads, delivered rfl⟩

/-- When a listing is asked for besides, an output file that is there already keeps what it held,
although the assembly succeeds. -/
theorem call_asm_leaves_output :
    let files := FileTree.ofFiles
      [("a.dasm".toList, Utf8.encode "SET A, 0x1".toList), ("a.bin".toList, [0])]
    let outcome := call "" files
      ["asm".toList, "a.dasm".toList, "-o".toList, "a.bin".toList, "--listing".toList]
    outcome.ending = .status 0 ∧
      Assembly.assemble "SET A, 0x1".toList = .ok ⟨[0x7C01, 1], []⟩ ∧
      outcome.files.read (Path.ofText "a.bin".toList) = .ok [0] ∧
      Binary.encode [0x7C01, 1] ≠ [0] := by
  decide +kernel

end Tool

end WordMachine.CommandLine
