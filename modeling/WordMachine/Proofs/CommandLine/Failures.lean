import WordMachine.Proofs.CommandLine.Actions
import WordMachine.Proofs.CommandLine.Setups
import WordMachine.Proofs.CommandLine.Values

/-! How commands fail. One that fails does so for a cause that is reported, unless a number that it
needs is missing. A run comes to its end exactly when its options give it all that it begins
with. -/
namespace WordMachine.CommandLine

/-! ### Attempts -/

namespace Attempt

variable {α β : Type} {good : α → Prop} {bad : Failure → Prop}

/-- Whatever has been printed and logged before it, an attempt returns only values, and fails only
for causes, of certain kinds. -/
def Yields (attempt : Attempt α) (good : α → Prop) (bad : Failure → Prop) : Prop :=
  ∀ transcript, match (attempt.run.run transcript).1 with
    | .ok value => good value
    | .error failure => bad failure

theorem yields_mono {better : α → Prop} {worse : Failure → Prop} {attempt : Attempt α}
    (yields : attempt.Yields good bad) (goods : ∀ value, good value → better value)
    (bads : ∀ failure, bad failure → worse failure) : attempt.Yields better worse := by
  intro transcript
  have comes := yields transcript
  revert comes
  rcases (attempt.run.run transcript).1 with failure | value
  · exact bads failure
  · exact goods value

theorem yields_pure (value : α) (holds : good value) : (pure value : Attempt α).Yields good bad :=
  fun _ => holds

theorem yields_throw (failure : Failure) (holds : bad failure) :
    (throw failure : Attempt α).Yields good bad :=
  fun _ => holds

theorem yields_bind {middle : β → Prop} {first : Attempt β} {next : β → Attempt α}
    (begins : first.Yields middle bad)
    (goes : ∀ value, middle value → (next value).Yields good bad) :
    (first >>= next).Yields good bad := by
  intro transcript
  have start := begins transcript
  rw [run_bind]
  revert start
  rcases first.run.run transcript with ⟨failure | value, after⟩ <;> intro start
  · exact start
  · exact goes value start after

/-- A rule for the next step of an attempt, whose failures are of a narrower kind. -/
theorem yields_step {middle : β → Prop} {narrow : Failure → Prop} {first : Attempt β}
    {next : β → Attempt α} (begins : first.Yields middle narrow)
    (fails : ∀ failure, narrow failure → bad failure)
    (goes : ∀ value, middle value → (next value).Yields good bad) :
    (first >>= next).Yields good bad :=
  yields_bind (yields_mono begins (fun _ => id) fails) goes

theorem yields_orFail {ε : Type} (failure : ε → Failure) (result : Except ε α)
    (returns : ∀ value, result = .ok value → good value)
    (fails : ∀ error, result = .error error → bad (failure error)) :
    (orFail failure result).Yields good bad := by
  cases result with
  | ok value => exact yields_pure value (returns value rfl)
  | error error => exact yields_throw _ (fails error rfl)

theorem yields_print (text : String) : (print text).Yields (fun _ => True) bad := fun _ => trivial

theorem yields_perform (action : Action) : (perform action).Yields (fun _ => True) bad :=
  fun _ => trivial

theorem yields_log (origin : Origin) (level : Level) (text : String) :
    (log origin level text).Yields (fun _ => True) bad := fun _ => trivial

theorem yields_mapM {related : α → β → Prop} (f : α → Attempt β) (values : List α)
    (each : ∀ value ∈ values, (f value).Yields (related value) bad) :
    (values.mapM f).Yields (List.Forall₂ related values) bad := by
  induction values with
  | nil => exact yields_pure _ .nil
  | cons value rest ih =>
    rw [List.mapM_cons]
    refine yields_bind (each value List.mem_cons_self) fun one first => ?_
    refine yields_bind (ih fun other member => each other (List.mem_cons_of_mem _ member)) ?_
    exact fun others following => yields_pure _ (.cons first following)

end Attempt

open Attempt

/-- The only numbers that a failure can be for want of. -/
def Failure.Only (lacks : MissingNumber → Prop) (failure : Failure) : Prop :=
  ∀ number, failure = .missing number → lacks number

section Parts

variable (lacks : MissingNumber → Prop)

/-- A part that fails only for causes that are reported returns what it has found. -/
theorem yields_found {ε α : Type} (failure : ε → Failure) (result : Except ε α)
    (reported : ∀ error, (failure error).Only lacks) :
    (orFail failure result).Yields (fun value => result = .ok value)
      fun failure => failure.Only lacks ∧ ∀ value, result ≠ .ok value := by
  refine yields_orFail failure result (fun _ => id) fun error fails => ⟨reported error, ?_⟩
  rw [fails]
  exact nofun

theorem yields_readBytes (files : FileTree) (name : List Char) :
    (readBytes files name).Yields (fun bytes => files.read (Path.ofText name) = .ok bytes)
      fun failure => failure.Only lacks ∧
        ∀ bytes, files.read (Path.ofText name) ≠ .ok bytes :=
  yields_found lacks .file _ fun _ => nofun

/-- Whole words are read from a binary file. -/
theorem yields_readWords (files : FileTree) (name : List Char) :
    (readWords files name).Yields
      (fun words => ∃ bytes, files.read (Path.ofText name) = .ok bytes ∧ bytes.length % 2 = 0 ∧
        words = Binary.decodePairs bytes)
      fun failure => failure.Only lacks ∧
        ∀ bytes, files.read (Path.ofText name) = .ok bytes → bytes.length % 2 ≠ 0 := by
  refine yields_step (yields_readBytes lacks files name)
    (fun _ => And.imp_right fun lost bytes reads => absurd reads (lost bytes)) fun bytes reads => ?_
  rw [Binary.decode]
  split
  next whole => exact yields_pure _ ⟨bytes, reads, whole, rfl⟩
  next odd =>
    refine yields_throw _ ⟨nofun, fun others again => ?_⟩
    obtain rfl := Except.ok.inj (reads.symm.trans again)
    exact odd

theorem yields_logScan {bad : Failure → Prop} (source : List Char) :
    (logScan source).Yields (fun _ => True) bad := by
  unfold logScan
  split
  · dsimp only
    split
    · exact yields_log _ _ _
    · exact yields_pure () trivial
  · exact yields_pure () trivial

/-- A source is assembled if it can be read, decoded and assembled. -/
theorem yields_assembleFile (files : FileTree) (name : List Char) :
    (assembleFile files name).Yields
      (fun result => ∃ bytes text, Sourced files name result.1 bytes text)
      fun failure => failure.Only lacks ∧
        ∀ program bytes text, ¬Sourced files name program bytes text := by
  refine yields_step (yields_readBytes lacks files name)
    (fun _ => And.imp_right fun lost _ bytes _ sourced => lost bytes sourced.reads)
    fun bytes reads => ?_
  refine yields_step (yields_found lacks .encoding (Assembly.readSource bytes) fun _ => nofun)
    (fun _ => And.imp_right fun lost _ _ text sourced => ?_) fun text decodes => ?_
  · obtain ⟨again, decodes, -⟩ := sourced
    obtain rfl := Except.ok.inj (reads.symm.trans again)
    exact lost text decodes
  -- What is logged of the first pass has no bearing on the result.
  refine yields_bind (yields_logScan text) fun _ _ => ?_
  refine yields_step (yields_found lacks .assembly (Assembly.assemble text) fun _ => nofun)
    (fun _ => And.imp_right fun lost program _ _ sourced => ?_) fun program assembles => ?_
  · obtain ⟨again, decoded, assembles⟩ := sourced
    obtain rfl := Except.ok.inj (reads.symm.trans again)
    obtain rfl := Except.ok.inj (decodes.symm.trans decoded)
    exact lost program assembles
  exact yields_bind (yields_log _ _ _) fun _ _ =>
    yields_pure _ ⟨bytes, text, reads, decodes, assembles⟩

theorem yields_loadWords (files : FileTree) (name : List Char) :
    (loadWords files name).Yields (HoldsProgram files name)
      fun failure => failure.Only lacks ∧ ∀ words, ¬HoldsProgram files name words := by
  unfold loadWords
  split
  next binary =>
    refine yields_mono (yields_readWords lacks files name) ?_ ?_
    · rintro _ ⟨bytes, reads, whole, rfl⟩
      exact .binary binary reads whole
    · rintro failure ⟨only, odd⟩
      refine ⟨only, ?_⟩
      rintro _ (⟨_, reads, whole⟩ | ⟨source, -⟩)
      · exact odd _ reads whole
      · exact absurd (binary.symm.trans source) nofun
  next other =>
    have source := Bool.not_eq_true _ ▸ other
    refine yields_step (yields_assembleFile lacks files name) ?_ ?_
    · rintro failure ⟨only, unassembled⟩
      refine ⟨only, ?_⟩
      rintro _ (⟨binary, -⟩ | ⟨-, sourced⟩)
      · exact other binary
      · exact unassembled _ _ _ sourced
    · rintro ⟨program, session⟩ ⟨bytes, text, sourced⟩
      exact yields_pure _ (.source source sourced)

theorem yields_deliver (files : FileTree) (name : List Char) (bytes : List UInt8) (done : String) :
    (deliver files name bytes done).Yields (fun _ => True) (Failure.Only lacks) := by
  have opens : (openFile files name).Yields (fun _ => True) (Failure.Only lacks) :=
    yields_bind (yields_orFail _ _ (fun _ _ => trivial) fun _ _ => nofun) fun key _ =>
      yields_bind (yields_perform _) fun _ _ => yields_pure key trivial
  exact yields_bind opens fun _ _ => yields_bind (yields_perform _) fun _ _ => yields_log _ _ _

/-- A dump is printed if the text asks for one. -/
theorem yields_printDump (machine : Machine) (dump : List Char) :
    (printDump machine dump).Yields (fun _ => SpellsDump dump)
      fun failure => failure.Only lacks ∧ ¬SpellsDump dump := by
  refine yields_step
    (yields_found lacks .numeral (readHexadecimal (dump.takeWhile (· != ':'))) fun _ => nofun)
    (fun _ => And.imp_right fun lost asks => ?_) fun start begins => ?_
  · obtain ⟨⟨start, begins⟩, -⟩ := asks
    exact lost start begins
  extract_lets spelled
  have sized : (∃ length, Numeral.read .marked (if spelled.isEmpty then ['1', '6'] else spelled) =
      .ok length) ↔ spelled = [] ∨ ∃ length, Numeral.read .marked spelled = .ok length := by
    by_cases short : spelled = []
    · rw [short]
      exact iff_of_true ⟨16, rfl⟩ (.inl rfl)
    · rw [if_neg (by simpa using short)]
      exact (or_iff_right short).symm
  refine yields_bind (yields_mono (yields_found lacks .numeral _ fun _ => nofun)
    (fun length found => (⟨⟨start, begins⟩, sized.mp ⟨length, found⟩⟩ : SpellsDump dump))
    fun _ => And.imp_right fun lost asks => ?_) fun _ asks => fun _ => asks
  obtain ⟨length, found⟩ := sized.mpr asks.2
  exact lost length found

/-- An address is read if there is a text and it spells one. -/
theorem yields_readAddress (text? : Option (List Char))
    (absent : text? = none → lacks .address) :
    (readAddress text?).Yields (SpellsAddress text?)
      fun failure => failure.Only lacks ∧ ∀ address, ¬SpellsAddress text? address := by
  cases text? with
  | none =>
    refine yields_throw _ ⟨?_, nofun⟩
    rintro _ ⟨⟩
    exact absent rfl
  | some text =>
    refine yields_mono (yields_found lacks .numeral (readHexadecimal text) fun _ => nofun)
      (fun address spells => ⟨text, rfl, spells⟩)
      fun _ => And.imp_right fun lost address => ?_
    rintro ⟨_, ⟨⟩, spells⟩
    exact lost address spells

/-- A program is loaded if it fits. -/
theorem yields_withProgram (words : List Word) (stack : Word) :
    (orFail .load (Machine.withProgram (words.map Word.value) stack)).Yields
      (fun machine => words.length ≤ 65536 ∧
        machine = ((Machine.initial stack).load (words.map Word.value) 0).2)
      fun failure => failure.Only lacks ∧ ¬words.length ≤ 65536 := by
  rcases Machine.withProgram_cases words stack with ⟨fits, loaded⟩ | ⟨large, refused⟩
  · rw [loaded]
    exact yields_pure _ ⟨fits, rfl⟩
  · rw [refused]
    exact yields_throw _ ⟨nofun, large⟩

/-- The stack begins where its text says, or at zero without a text. -/
theorem yields_readStack (text : List Char) :
    (readStack text).Yields
      (fun stack => (text = [] ∧ stack = 0) ∨ (text ≠ [] ∧ readHexadecimal text = .ok stack))
      fun failure => failure.Only lacks ∧ text ≠ [] ∧
        ∀ stack, readHexadecimal text ≠ .ok stack := by
  unfold readStack
  split
  next empty => exact yields_pure 0 (.inl ⟨List.isEmpty_iff.mp empty, rfl⟩)
  next filled =>
    have named : text ≠ [] := mt List.isEmpty_iff.mpr filled
    exact yields_mono (yields_found lacks .numeral (readHexadecimal text) fun _ => nofun)
      (fun stack spells => .inr ⟨named, spells⟩) fun _ => And.imp_right (And.intro named)

/-- The machine is shown if the text for a dump asks for one or is empty. -/
theorem RunOptions.yields_printMachine (options : RunOptions) (machine : Machine) :
    (options.printMachine machine).Yields
      (fun _ => options.dump = [] ∨ SpellsDump options.dump)
      fun failure => failure.Only lacks ∧ options.dump ≠ [] ∧ ¬SpellsDump options.dump := by
  unfold printMachine
  -- The registers and the dump follow whether or not there is a trace.
  extract_lets display
  have displays : (display ()).Yields (fun _ => options.dump = [] ∨ SpellsDump options.dump)
      fun failure => failure.Only lacks ∧ options.dump ≠ [] ∧ ¬SpellsDump options.dump := by
    refine yields_bind (yields_print _) fun _ _ => ?_
    split
    next filled =>
      have nonempty : options.dump ≠ [] := by simpa using filled
      exact yields_mono (yields_printDump lacks machine options.dump) (fun _ => .inr)
        fun _ => And.imp_right (And.intro nonempty)
    next empty => exact yields_pure () (.inl (by simpa using empty))
  split
  · exact yields_bind (yields_print _) fun _ _ => displays
  · exact displays

end Parts

theorem RunOptions.yields_budget (options : RunOptions) :
    (orFail .missing (options.budget?.elim (.error .budget) .ok)).Yields
      (fun budget => options.budget? = some budget)
      fun failure => failure.Only options.Lacks ∧ options.budget? = none := by
  cases given : options.budget? with
  | none =>
    refine yields_throw _ ⟨?_, rfl⟩
    rintro _ ⟨⟩
    exact given
  | some budget => exact yields_pure budget rfl

/-! ### Commands -/

/-- An assembly that comes to its end has assembled its source. -/
theorem AsmOptions.yields_attempt (files : FileTree) (options : AsmOptions) :
    (options.attempt files).Yields
      (fun _ => ∃ program bytes text, Sourced files options.input program bytes text)
      (Failure.Only fun _ => False) := by
  refine yields_step (yields_assembleFile _ files _) (fun _ => And.left) ?_
  rintro ⟨program, session⟩ sourced
  simp only
  split
  · exact yields_bind (yields_print _) fun _ _ => yields_pure 0 ⟨program, sourced⟩
  · exact yields_bind (yields_deliver _ files _ _ _) fun _ _ => yields_pure 0 ⟨program, sourced⟩

/-- With the words of its program, a run comes to what its setup comes to, and fails only if the
options give it none. -/
theorem RunOptions.yields_execute (files : FileTree) (options : RunOptions) (words : List Word)
    (holds : HoldsProgram files options.input words) :
    (options.execute words).Yields
      (fun ended => ∃ setup, options.Gives files setup ∧ ended = setup.run options.trace)
      fun failure => failure.Only options.Lacks ∧ ∀ setup, ¬options.Gives files setup := by
  refine yields_step (yields_readStack options.Lacks options.stack)
    (fun _ => And.imp_right fun lost setup gives => ?_) fun stack spelled => ?_
  · exact gives.stack.elim (fun none => lost.1 none.1) fun spells => lost.2 setup.stack spells.2
  refine yields_step (yields_withProgram options.Lacks words (Word.ofInt stack))
    (fun _ => And.imp_right fun large setup gives => ?_) ?_
  · rw [holds.unique gives.program] at large
    exact large gives.fits
  rintro _ ⟨fits, rfl⟩
  refine yields_bind (yields_log _ _ _) fun _ _ => ?_
  refine yields_bind (yields_mapM _ _ fun text? member => yields_mono
    (yields_readAddress options.Lacks text? (by rintro rfl; exact member)) (fun _ => id)
    fun _ => And.imp_right fun lost setup gives => ?_) fun breakpoints spell => ?_
  · obtain ⟨address, spells⟩ := gives.spells text? member
    exact lost address spells
  refine yields_step options.yields_budget
    (fun _ => And.imp_right fun lost setup gives => ?_) fun budget given => ?_
  · rw [gives.budget] at lost
    cases lost
  refine yields_bind (yields_log _ _ _) fun _ _ => ?_
  refine yields_step (options.yields_printMachine options.Lacks _)
    (fun _ => And.imp_right fun lost setup gives => ?_) fun _ dumped => ?_
  · exact gives.dump.elim lost.1 lost.2
  · exact yields_pure _
      ⟨⟨words, stack, breakpoints, budget⟩, ⟨holds, fits, spelled, spell, given, dumped⟩, rfl⟩

/-- A run comes to the end that its setup has, if its options give it one. -/
theorem RunOptions.yields_attempt (files : FileTree) (options : RunOptions) :
    (options.attempt files).Yields
      (fun status => ∃ setup, options.Gives files setup ∧ status = setup.status options.trace)
      fun failure => failure.Only options.Lacks ∧ ∀ setup, ¬options.Gives files setup := by
  refine yields_step (yields_loadWords options.Lacks files options.input)
    (fun _ => And.imp_right fun lost setup gives => lost _ gives.program) fun words holds => ?_
  refine yields_bind (options.yields_execute files words holds) ?_
  rintro _ ⟨setup, gives, rfl⟩
  exact yields_bind (yields_log _ _ _) fun _ _ => yields_pure _ ⟨setup, gives, rfl⟩

/-- A disassembly that comes to its end has read whole words and the address of the first. -/
theorem DisasmOptions.yields_attempt (files : FileTree) (options : DisasmOptions) :
    (options.attempt files).Yields
      (fun _ =>
        (∃ bytes, files.read (Path.ofText options.input) = .ok bytes ∧ bytes.length % 2 = 0) ∧
        ∃ address, SpellsAddress options.base? address)
      (Failure.Only options.Lacks) := by
  refine yields_step (yields_readWords _ files _) (fun _ => And.left) ?_
  rintro words ⟨bytes, reads, whole, -⟩
  refine yields_step (yields_readAddress _ options.base? id) (fun _ => And.left) ?_
  intro address spells
  simp only
  split
  · exact yields_bind (yields_print _) fun _ _ =>
      yields_pure 0 ⟨⟨bytes, reads, whole⟩, address, spells⟩
  · exact yields_bind (yields_deliver _ files _ _ _) fun _ _ =>
      yields_pure 0 ⟨⟨bytes, reads, whole⟩, address, spells⟩

/-- A command fails for want of a number only if it lacks that number. -/
theorem Command.yields_attempt (files : FileTree) (command : Command) :
    (command.attempt files).Yields (fun _ => True) (Failure.Only command.Lacks) := by
  cases command with
  | asm options => exact yields_mono (options.yields_attempt files) (fun _ _ => trivial) fun _ => id
  | run options =>
    exact yields_mono (options.yields_attempt files) (fun _ _ => trivial) fun _ => And.left
  | disasm options =>
    exact yields_mono (options.yields_attempt files) (fun _ _ => trivial) fun _ => id

/-! ### Reports -/

/-- What is reported of an attempt is the status that it comes to, or a failure. -/
theorem Attempt.report_of_yields {good : Nat → Prop} {bad : Failure → Prop} {attempt : Attempt Nat}
    (yields : attempt.Yields good bad) (verbosity : Nat) :
    (∃ status, good status ∧ (attempt.report verbosity).status = .ok status) ∨
    ∃ failure, bad failure ∧ (attempt.report verbosity).status = failure.status := by
  have comes := yields ⟨"", []⟩
  unfold report
  revert comes
  rcases attempt.run.run ⟨"", []⟩ with ⟨failure | status, transcript⟩
  · exact fun holds => .inr ⟨failure, holds, rfl⟩
  · exact fun holds => .inl ⟨status, holds, rfl⟩

end WordMachine.CommandLine
