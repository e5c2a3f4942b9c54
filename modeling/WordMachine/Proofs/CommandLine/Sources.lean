import WordMachine.Proofs.BinaryForm
import WordMachine.Proofs.CommandLine.Files
import WordMachine.Proofs.CommandLine.Requests
import WordMachine.Proofs.CommandLine.Transcripts

/-! Sources that are assembled and run. To run the binary file that a source was assembled to is to
run the source, and a source that cannot be assembled cannot be run, for the same cause. -/
namespace WordMachine.CommandLine

open Attempt

/-! ### Sources -/

/-- What a source file is assembled to, if it can be read, decoded and assembled. -/
def assembled (files : FileTree) (name : List Char) :
    Except Failure (Program × Assembly.Session) := do
  let bytes ← (files.read (Path.ofText name)).mapError .file
  let source ← (Assembly.readSource bytes).mapError .encoding
  let (result, session) := Assembly.Session.initial.assemble source
  let program ← result.mapError .assembly
  return (program, session)

theorem quietly_logScan (source : List Char) : (logScan source).Quietly (.ok ()) := by
  unfold logScan
  split
  · dsimp only
    split
    · exact quietly_debug _ _
    · exact quietly_pure ()
  · exact quietly_pure ()

/-- What the assembler logs is not shown. -/
theorem quietly_assembleFile (files : FileTree) (name : List Char) :
    (assembleFile files name).Quietly (assembled files name) := by
  refine quietly_bind (quietly_orFail _ _) fun bytes _ => ?_
  refine quietly_bind (quietly_orFail _ _) fun source _ => ?_
  refine quietly_bind_ok (quietly_logScan source) ?_
  refine quietly_bind (quietly_orFail _ _) fun program _ => ?_
  exact quietly_bind_ok (quietly_debug _ _) (quietly_pure _)

theorem read_of_assembled (files : FileTree) (name : List Char)
    (result : Program × Assembly.Session) (found : assembled files name = .ok result) :
    ∃ bytes, files.read (Path.ofText name) = .ok bytes := by
  cases reads : files.read (Path.ofText name) with
  | ok bytes => exact ⟨bytes, rfl⟩
  | error error =>
    rw [assembled, reads] at found
    cases found

/-- A source that is not assembled fails for a cause that is reported. -/
theorem present_of_assembled (files : FileTree) (name : List Char) (failure : Failure)
    (fails : assembled files name = .error failure) (number : MissingNumber) :
    failure ≠ .missing number := by
  have yields := yields_assembleFile (fun _ => False) files name ⟨"", []⟩
  rw [(quietly_assembleFile files name ⟨"", []⟩).1, fails] at yields
  exact yields.1 number

theorem quietly_loadWords_source (files : FileTree) (name : List Char)
    (source : Path.hasExtension name binaryExtension = false) :
    (loadWords files name).Quietly (do
      let (program, _) ← assembled files name
      return program.words) := by
  rw [loadWords, source, if_neg nofun]
  exact quietly_bind (quietly_assembleFile files name) fun assembled _ =>
    quietly_pure assembled.1.words

theorem quietly_loadWords_binary (files : FileTree) (name : List Char) (words : List Word)
    (binary : Path.hasExtension name binaryExtension = true)
    (reads : files.read (Path.ofText name) = .ok (Binary.encode words)) :
    (loadWords files name).Quietly (.ok words) := by
  have bytes : (readBytes files name).Quietly (.ok (Binary.encode words)) := by
    rw [readBytes, reads]
    exact quietly_pure _
  have decoded : (orFail .binary (Binary.decode (Binary.encode words))).Quietly (.ok words) := by
    rw [Binary.decode_encode]
    exact quietly_pure words
  rw [loadWords, binary, if_pos rfl]
  exact quietly_bind_ok bytes decoded

/-! ### Commands -/

/-- A run with given options depends on its input only for the words. -/
theorem RunOptions.agrees_attempt (files others : FileTree) (options : RunOptions)
    (input other : List Char) (loads : (loadWords files input).Agrees (loadWords others other)) :
    (attempt files { options with input := input }).Agrees
      (attempt others { options with input := other }) := by
  refine agrees_bind loads fun words => Plain.steady ?_
  exact .bind (plain_execute _ words) fun _ => .bind (.log _ _ _) fun _ => .pure _

/-- What an output file gets: the listing if its extension says so, and else the binary form. -/
def AsmOptions.delivery (options : AsmOptions) (program : Program) (session : Assembly.Session) :
    List UInt8 :=
  if Path.hasExtension options.output listingExtension then
    Utf8.encode (session.listing ++ "\n").toList
  else Binary.encode program.words

/-- What an assembly into a file does, when no listing is asked for. -/
theorem AsmOptions.attempt_of_unlisted (files : FileTree) (options : AsmOptions)
    (unlisted : options.listing = false) (named : options.output ≠ []) :
    options.attempt files = (do
      let (program, session) ← assembleFile files options.input
      deliver files options.output (options.delivery program session)
        ("Assembled " ++ Decimal.written program.words.length ++ " words")
      return 0) := by
  have filled : options.output.isEmpty = false := by
    rw [← Bool.not_eq_true, List.isEmpty_iff]
    exact named
  simp only [attempt, unlisted, filled, Bool.false_eq_true, or_self, if_false]
  rfl

theorem AsmOptions.quietly_of_unassembled (files : FileTree) (options : AsmOptions)
    (failure : Failure) (fails : assembled files options.input = .error failure) :
    (options.attempt files).Quietly (.error failure) := by
  have comes := quietly_assembleFile files options.input
  rw [fails] at comes
  exact quietly_bind_error comes

/-! ### Reports -/

theorem Ending.ofStatus_eq_status {result : Except MissingNumber Nat} {number : Nat}
    (ends : Ending.ofStatus result = .status number) : result = .ok number := by
  cases result with
  | error missing => cases ends
  | ok other =>
    cases ends
    rfl

theorem Failure.status_ne_ok_zero (failure : Failure) : failure.status ≠ .ok 0 := by
  cases failure <;> nofun

/-- An assembly that cannot be read, decoded or assembled does not succeed. -/
theorem AsmOptions.report_of_unassembled (verbosity : Nat) (files : FileTree)
    (options : AsmOptions) (failure : Failure)
    (fails : assembled files options.input = .error failure) :
    ((options.attempt files).report verbosity).status ≠ .ok 0 := by
  obtain ⟨result, -⟩ := options.quietly_of_unassembled files failure fails ⟨"", []⟩
  unfold report
  revert result
  rcases (options.attempt files).run.run ⟨"", []⟩ with ⟨_, transcript⟩
  rintro rfl
  exact failure.status_ne_ok_zero

/-- A file that can be opened is written, and then the command says so. -/
theorem run_deliver (files : FileTree) (name : List Char) (bytes : List UInt8) (done : String)
    (key : Key) (opens : files.target (Path.ofText name) = .ok key) (transcript : Transcript) :
    (deliver files name bytes done).run.run transcript =
      (.ok (), ⟨transcript.output, transcript.actions ++ [.opened key, .written key bytes] ++
        [.logged ⟨.tool, .info, done ++ " -> " ++ String.ofList name⟩]⟩) := by
  rw [← List.singleton_append, ← List.append_assoc transcript.actions]
  unfold deliver openFile
  rw [opens]
  rfl

/-- An assembly into a file that succeeds has assembled its source, and changes that file only. -/
theorem AsmOptions.report_delivery (verbosity : Nat) (files : FileTree) (options : AsmOptions)
    (unlisted : options.listing = false) (named : options.output ≠ [])
    (succeeds : ((options.attempt files).report verbosity).status = .ok 0) :
    ∃ program session key, assembled files options.input = .ok (program, session) ∧
      files.target (Path.ofText options.output) = .ok key ∧
      Action.changes ((options.attempt files).report verbosity).actions =
        [.opened key, .written key (options.delivery program session)] := by
  have comes := quietly_assembleFile files options.input
  cases found : assembled files options.input with
  | error failure => exact absurd succeeds (options.report_of_unassembled _ files failure found)
  | ok result =>
    obtain ⟨program, session⟩ := result
    rw [found] at comes
    obtain ⟨assembles, shown⟩ := comes ⟨"", []⟩
    rw [options.attempt_of_unlisted files unlisted named] at succeeds ⊢
    simp only [report, run_bind] at succeeds ⊢
    revert assembles shown succeeds
    rcases (assembleFile files options.input).run.run ⟨"", []⟩ with ⟨_, transcript⟩
    rintro rfl shown
    cases opens : files.target (Path.ofText options.output) with
    | error error =>
      unfold deliver openFile
      rw [opens]
      intro succeeds
      cases succeeds
    | ok key =>
      intro _
      have unchanged : Action.changes transcript.actions = [] :=
        (Prod.mk.inj (Prod.mk.inj shown).2).2
      refine ⟨program, session, key, rfl, rfl, ?_⟩
      simp only [run_deliver files _ _ _ key opens]
      change Action.changes (_ ++ _ ++ _) = _
      rw [Action.changes_append, Action.changes_append, unchanged]
      rfl

/-- An assembly into a binary file that succeeds has written the words of the program. -/
theorem Tool.written_of_asm (time : String) (files : FileTree) (input output : List Char)
    (binary : Path.hasExtension output binaryExtension = true)
    (ends : (Tool.carryOut time files ⟨0, false, []⟩ (.asm ⟨input, output, false⟩)).ending =
      .status 0) :
    ∃ program session key, assembled files input = .ok (program, session) ∧
      files.target (Path.ofText output) = .ok key ∧
      (Tool.carryOut time files ⟨0, false, []⟩ (.asm ⟨input, output, false⟩)).files =
        files.write key (Binary.encode program.words) := by
  -- An output is given, and it is not to get the listing.
  have named : output ≠ [] := by
    rintro rfl
    cases binary
  have listed : Path.hasExtension output listingExtension = false := by
    unfold Path.hasExtension at binary ⊢
    rw [beq_iff_eq] at binary
    rw [binary]
    rfl
  obtain ⟨program, session, key, found, opens, changes⟩ :=
    AsmOptions.report_delivery 0 files ⟨input, output, false⟩ rfl named
      (Ending.ofStatus_eq_status ends)
  refine ⟨program, session, key, found, opens, ?_⟩
  have delivered : AsmOptions.delivery ⟨input, output, false⟩ program session =
      Binary.encode program.words := by
    rw [AsmOptions.delivery, listed]
    rfl
  rw [Tool.files_carryOut time files _ _ rfl]
  exact (congrArg (Tool.settle "" none · files) changes).trans
    (delivered ▸ Tool.settle_delivery key _ files)

/-- The words of a source are those of the binary file that it was assembled to. -/
theorem loadWords_of_written (files : FileTree) (source binary : List Char)
    (isSource : Path.hasExtension source binaryExtension = false)
    (isBinary : Path.hasExtension binary binaryExtension = true)
    (apart : files.target (Path.ofText source) ≠ files.target (Path.ofText binary))
    (program : Program) (session : Assembly.Session) (key : Key)
    (found : assembled files source = .ok (program, session))
    (opens : files.target (Path.ofText binary) = .ok key) :
    let after := files.write key (Binary.encode program.words)
    (loadWords after binary).Agrees (loadWords after source) := by
  intro after
  have written : after.read (Path.ofText binary) = .ok (Binary.encode program.words) :=
    files.read_written key _ _ opens
  have same : assembled after source = .ok (program, session) := by
    -- The file that was written is another one.
    obtain ⟨bytes, reads⟩ := read_of_assembled files source _ found
    have kept := files.read_write key (Binary.encode program.words) _ _ opens apart bytes reads
    rw [← found, assembled, assembled, kept, reads]
  have sourced := quietly_loadWords_source after source isSource
  rw [same] at sourced
  exact agrees_of_quietly (quietly_loadWords_binary after binary program.words isBinary written)
    sourced

/-! ### Calls -/

namespace Tool

/-- Once a source is assembled into a binary file, another file than the source itself, a run of the
binary file is a run of the source: whatever the switches, both print the same and end alike, and
unless flags ask for more, the console shows the same. A source that cannot be read, decoded or
assembled is neither assembled nor run, and both times the same is said. -/
theorem run_assembled (files : FileTree) (source binary : List Char) (plainSource : Undashed source)
    (plainBinary : Undashed binary) (isSource : Path.hasExtension source binaryExtension = false)
    (isBinary : Path.hasExtension binary binaryExtension = true) (time : String) :
    let asm := call time files [['a', 's', 'm'], source, ['-', 'o'], binary]
    (asm.ending = .status 0 →
      files.target (Path.ofText source) ≠ files.target (Path.ofText binary) →
      ∀ flags, Volume flags → ∀ arguments one other,
      let first := call one asm.files (flags ++ ['r', 'u', 'n'] :: binary :: arguments)
      let second := call other asm.files (flags ++ ['r', 'u', 'n'] :: source :: arguments)
      first.ending = second.ending ∧ first.output = second.output ∧
        (.setting .verbose none ∉ Switch.items toolSwitches flags →
          first.errors = second.errors)) ∧
    (∀ failure, assembled files source = .error failure → ∀ later,
      let run := call later asm.files [['r', 'u', 'n'], source]
      asm.ending = .status 1 ∧ asm.errors = "ERROR: " ++ failure.diagnosis ++ "\n" ∧
        run.ending = .status 1 ∧ run.errors = asm.errors) := by
  intro asm
  have asked := request_asm source binary plainSource plainBinary
  have called : asm = carryOut time files ⟨0, false, []⟩ (.asm ⟨source, binary, false⟩) :=
    call_of_command time files _ _ _ asked
  constructor
  · intro ends apart flags volume arguments one other first second
    rw [called] at ends
    obtain ⟨program, session, key, found, opens, written⟩ :=
      written_of_asm time files source binary isBinary ends
    rw [← called] at written
    obtain ⟨settings, log, verbosity, asks⟩ := request_run flags arguments volume
    rcases asks with ⟨request, aside, all⟩ | ⟨options, all⟩
    · -- The arguments are refused, or ask for help, with either file.
      have fromBinary := all binary plainBinary
      have fromSource := all source plainSource
      have same : first = second := by
        apply call_of_aside one other asm.files
        · rw [fromBinary]
          exact aside
        · rw [fromBinary, fromSource]
      rw [same]
      exact ⟨rfl, rfl, fun _ => rfl⟩
    · -- Both runs are given the same options, and load the same words.
      have loads := loadWords_of_written files source binary isSource isBinary apart program
        session key found opens
      rw [← written] at loads
      have agrees := options.agrees_attempt asm.files asm.files binary source loads
      have firstRun := call_of_command one asm.files _ _ _ (all binary plainBinary)
      have secondRun := call_of_command other asm.files _ _ _ (all source plainSource)
      obtain ⟨ending, output, errors⟩ := carryOut_of_agrees one other asm.files settings
        (.run { options with input := binary }) (.run { options with input := source }) log agrees
      rw [← firstRun, ← secondRun] at ending output errors
      exact ⟨ending, output, fun silent => errors (verbosity silent)⟩
  · intro failure fails later run
    have present := present_of_assembled files source failure fails
    -- Both commands begin with the source, and go no further.
    have refused := AsmOptions.quietly_of_unassembled files ⟨source, binary, false⟩ failure fails
    have ended := called.trans (carryOut_of_failure time files _ failure present refused)
    have loads := quietly_loadWords_source files source isSource
    rw [fails] at loads
    have runs := call_of_command later files _ _ _ (request_run_alone source plainSource)
    have failed := runs.trans (carryOut_of_failure later files _ failure present
      (Attempt.quietly_bind_error loads))
    simp only [run, failed, ended]
    exact ⟨trivial, trivial, trivial, trivial⟩

/-- A source with a forward reference, run with its trace, and one with a register of an unknown
name. -/
theorem run_assembled_forward :
    let files := FileTree.ofFiles [("a.dasm".toList, Utf8.encode "SET PC, e\n:e SET A, 0x2".toList),
      ("b.dasm".toList, Utf8.encode "SET Q, 0x2".toList)]
    let asm := call "" files ["asm".toList, "a.dasm".toList, "-o".toList, "x.BIN".toList]
    let failed := call "" files ["asm".toList, "b.dasm".toList, "-o".toList, "x.BIN".toList]
    let run (name : String) :=
      call "" asm.files ["-q".toList, "run".toList, name.toList, "--trace".toList]
    asm.ending = .status 0 ∧ (run "x.BIN").ending = (run "a.dasm").ending ∧
      (run "x.BIN").output = (run "a.dasm").output ∧
      (run "x.BIN").errors = (run "a.dasm").errors ∧ failed.ending = .status 1 ∧
      (call "" failed.files ["run".toList, "b.dasm".toList]).errors = failed.errors := by
  intro files asm failed run
  have ends : asm.ending = .status 0 := by decide +kernel
  have apart : files.target (Path.ofText "a.dasm".toList) ≠
      files.target (Path.ofText "x.BIN".toList) := by decide +kernel
  obtain ⟨runs, -⟩ := run_assembled files "a.dasm".toList "x.BIN".toList (by decide) (by decide)
    (by decide) (by decide) ""
  have quiet : Switch.items toolSwitches ["-q".toList] = [.setting .quiet none] := rfl
  have volume : Volume ["-q".toList] := by
    intro item member
    rw [quiet] at member
    exact .inr (List.mem_singleton.mp member)
  obtain ⟨ending, output, errors⟩ := runs ends apart ["-q".toList] volume ["--trace".toList] "" ""
  obtain ⟨-, refused⟩ := run_assembled files "b.dasm".toList "x.BIN".toList (by decide) (by decide)
    (by decide) (by decide) ""
  have unassembled : (assembled files "b.dasm".toList).toOption.isNone = true := by decide +kernel
  cases fails : assembled files "b.dasm".toList with
  | ok result =>
    rw [fails] at unassembled
    cases unassembled
  | error failure =>
    obtain ⟨failedEnding, -, -, same⟩ := refused failure fails ""
    exact ⟨ends, ending, output, errors (by rw [quiet]; simp), failedEnding, same⟩

end Tool

end WordMachine.CommandLine
