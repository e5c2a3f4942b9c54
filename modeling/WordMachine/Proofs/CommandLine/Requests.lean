import WordMachine.CommandLine.Tool
import WordMachine.Proofs.CommandLine.Flags

/-! What an input has to do with a request. A text that does not begin with a dash is the input of a
command, whatever it is, and what is asked for besides depends on the other arguments alone. -/
namespace WordMachine.CommandLine

/-! ### Commands -/

/-- The same arguments with another input. -/
def CommandArguments.withInput {α : Type} (input : List Char) :
    CommandArguments α → CommandArguments α
  | .given _ options => .given input options
  | .help => .help
  | .refused => .refused

/-- Once an input is there, what it is has no bearing on the rest. -/
theorem commandArguments_withInput {κ α : Type} (effect : κ → Option (List Char) → α → Effect α)
    (surplus : Bool) (input other : List Char) (options : α) (items : List (Item κ)) :
    commandArguments effect surplus (some input) options items =
      (commandArguments effect surplus (some other) options items).withInput input := by
  -- The induction is on the items, of which none changes an input that is there.
  generalize given : some other = input?
  fun_induction commandArguments effect surplus input? options items with
  | case1 =>
    cases given
    simp [commandArguments, CommandArguments.withInput]
  | case2 _ _ _ plain =>
    cases given
    simp [commandArguments, CommandArguments.withInput, plain]
  | case3 | case11 | case13 => cases given
  | case4 => rfl
  | case5 _ _ _ _ ih => exact ih given
  | case6 _ _ _ _ ih =>
    cases given
    exact ih rfl
  | case7 _ _ _ _ _ _ _ changed ih =>
    simp only [commandArguments, changed]
    exact ih given
  | case8 _ _ _ _ _ _ helps =>
    simp only [commandArguments, helps]
    rfl
  | case9 _ _ _ _ _ _ refuses =>
    simp only [commandArguments, refuses]
    rfl
  | case10 _ _ _ _ _ _ ih =>
    cases given
    exact ih rfl
  | case12 _ _ _ _ _ _ _ ih =>
    cases given
    simp only [commandArguments]
    exact ih rfl

/-- An input in front is the input, and what it is has no bearing on the rest. -/
theorem commandArguments_input {κ α : Type} (effect : κ → Option (List Char) → α → Effect α)
    (options : α) (rest : List (List Char)) (items : List (Item κ)) :
    ∃ arguments : CommandArguments α, ∀ input,
      commandArguments effect false none options (.positional input rest :: items) =
        arguments.withInput input := by
  have behind (others : List (Item κ)) (input : List Char) :=
    commandArguments_withInput effect false input [] options others
  cases items with
  | nil => exact ⟨_, behind []⟩
  | cons first others =>
    cases first with
    -- A double dash right behind the input goes with it.
    | separator => exact ⟨_, behind others⟩
    | _ => exact ⟨_, behind (_ :: others)⟩

/-! ### Requests -/

/-- A request that is not for a command. -/
def Request.Aside (request : Request) : Prop :=
  ∀ settings command, request ≠ .command settings command

/-- What a command of a given name asks for, given what its arguments come to without the input. -/
theorem commandRequest_withInput {α : Type} (settings : Settings) (help : String)
    (command : List Char → α → Command) (arguments : CommandArguments α) :
    (∃ other : Request, other.Aside ∧
      ∀ input, commandRequest settings help command (arguments.withInput input) = other) ∨
    ∃ options, ∀ input, commandRequest settings help command (arguments.withInput input) =
      .command settings (command input options) := by
  cases arguments with
  | given _ options => exact .inr ⟨options, fun _ => rfl⟩
  | help => exact .inl ⟨.show help, nofun, fun _ => rfl⟩
  | refused => exact .inl ⟨.usageError, nofun, fun _ => rfl⟩

theorem namedCommand_run (settings : Settings) (arguments : List (List Char)) :
    (∃ other : Request, other.Aside ∧ ∀ input, Undashed input →
      namedCommand settings ['r', 'u', 'n'] (input :: arguments) = other) ∨
    ∃ options : RunOptions, ∀ input, Undashed input →
      namedCommand settings ['r', 'u', 'n'] (input :: arguments) =
        .command settings (.run { options with input := input }) := by
  by_cases ambiguous : Switch.anyAmbiguous runSwitches arguments = true
  · refine .inl ⟨.usageError, nofun, fun input undashed => ?_⟩
    -- Whatever the input is, nothing is understood.
    have items := Switch.items_cons_of_undashed runSwitches input undashed arguments
    rw [if_pos ambiguous] at items
    simp only [namedCommand, items]
    rfl
  · obtain ⟨taken, same⟩ := commandArguments_input runEffect
      ⟨[], false, some Machine.defaultBudget, [], [], []⟩ arguments
      (Switch.itemsFrom runSwitches arguments)
    have named (input : List Char) (undashed : Undashed input) :
        namedCommand settings ['r', 'u', 'n'] (input :: arguments) =
          commandRequest settings Help.run
            (fun input options => .run { options with input := input })
            (taken.withInput input) := by
      have items := Switch.items_cons_of_undashed runSwitches input undashed arguments
      rw [if_neg ambiguous] at items
      simp only [namedCommand, items, same]
      rfl
    rcases commandRequest_withInput settings Help.run
      (fun input options => .run { options with input := input }) taken with
      ⟨other, aside, all⟩ | ⟨options, all⟩
    · exact .inl ⟨other, aside, fun input undashed => (named input undashed).trans (all input)⟩
    · exact .inr ⟨options, fun input undashed => (named input undashed).trans (all input)⟩

/-- Flags that only say how much the tool is to tell. -/
def Volume (flags : List (List Char)) : Prop :=
  ∀ item ∈ Switch.items toolSwitches flags,
    item = .setting .verbose none ∨ item = .setting .quiet none

theorem Volume.flags {flags : List (List Char)} (volume : Volume flags) : Flags flags := by
  intro item member
  rcases volume item member with rfl | rfl
  · trivial
  · trivial

theorem toolArguments_positional (settings : Settings) (name : List Char)
    (arguments : List (List Char)) (items : List (Item ToolKey)) :
    toolArguments false settings (.positional name arguments :: items) =
      namedCommand settings name arguments := by
  rw [toolArguments]
  cases namedCommand settings name arguments <;> rfl

/-- What is asked for by a command with flags in front. -/
theorem request_volume (flags : List (List Char)) (volume : Volume flags) :
    ∃ settings : Settings, settings.logFile = [] ∧
      (.setting .verbose none ∉ Switch.items toolSwitches flags → settings.verbosity = 0) ∧
      ∀ name, Undashed name → ∀ arguments, request (flags ++ name :: arguments) =
        if Switch.anyAmbiguous toolSwitches arguments then .usageError
        else namedCommand settings name arguments := by
  have moved := Settings.moved_foldl ⟨0, false, []⟩ (Switch.items toolSwitches flags)
  refine ⟨settingsOf flags, moved.logFile ?_, fun silent => moved.verbosity ?_, ?_⟩
  · rintro ⟨item, member, logs⟩
    rcases volume item member with rfl | rfl <;> cases logs
  · rintro ⟨item, member, tells⟩
    rcases volume item member with rfl | rfl
    · exact silent member
    · cases tells
  · intro name undashed arguments
    rw [request_flags flags _ volume.flags,
      Switch.anyAmbiguous_cons_of_undashed toolSwitches name undashed,
      Switch.itemsFrom_cons_of_undashed toolSwitches name undashed, toolArguments_positional]

/-- What a run is asked for with does not depend on its input. -/
theorem request_run (flags arguments : List (List Char)) (volume : Volume flags) :
    ∃ settings : Settings, settings.logFile = [] ∧
      (.setting .verbose none ∉ Switch.items toolSwitches flags → settings.verbosity = 0) ∧
      ((∃ other : Request, other.Aside ∧ ∀ input, Undashed input →
        request (flags ++ ['r', 'u', 'n'] :: input :: arguments) = other) ∨
      ∃ options : RunOptions, ∀ input, Undashed input →
        request (flags ++ ['r', 'u', 'n'] :: input :: arguments) =
          .command settings (.run { options with input := input })) := by
  obtain ⟨settings, log, verbosity, requests⟩ := request_volume flags volume
  refine ⟨settings, log, verbosity, ?_⟩
  have named : Undashed ['r', 'u', 'n'] := nofun
  by_cases ambiguous : Switch.anyAmbiguous toolSwitches arguments = true
  · refine .inl ⟨.usageError, nofun, fun input undashed => ?_⟩
    rw [requests _ named, Switch.anyAmbiguous_cons_of_undashed toolSwitches input undashed,
      if_pos ambiguous]
  · have asks (input : List Char) (undashed : Undashed input) :
        request (flags ++ ['r', 'u', 'n'] :: input :: arguments) =
          namedCommand settings ['r', 'u', 'n'] (input :: arguments) := by
      rw [requests _ named, Switch.anyAmbiguous_cons_of_undashed toolSwitches input undashed,
        if_neg ambiguous]
    rcases namedCommand_run settings arguments with ⟨other, aside, all⟩ | ⟨options, all⟩
    · exact .inl ⟨other, aside, fun input undashed =>
        (asks input undashed).trans (all input undashed)⟩
    · exact .inr ⟨options, fun input undashed =>
        (asks input undashed).trans (all input undashed)⟩

/-- What is asked for with other settings is the same, but for the settings. -/
inductive SameRequest (keys : ToolKey → Prop) : Request → Request → Prop
  | aside (request : Request) (aside : request.Aside) : SameRequest keys request request
  | command {before after : Settings} (command : Command) (moved : before.Moved keys after) :
    SameRequest keys (.command before command) (.command after command)

namespace SameRequest

variable {keys : ToolKey → Prop}

theorem usageError : SameRequest keys .usageError .usageError := .aside _ nofun

theorem noCommand : SameRequest keys .noCommand .noCommand := .aside _ nofun

theorem shown (text : String) : SameRequest keys (.show text) (.show text) := .aside _ nofun

end SameRequest

/-- A run without switches. -/
theorem request_run_alone (input : List Char) (undashed : Undashed input) :
    request [['r', 'u', 'n'], input] =
      .command ⟨0, false, []⟩
        (.run ⟨input, false, some Machine.defaultBudget, [], [], []⟩) := by
  have tool := Switch.items_cons_of_undashed toolSwitches ['r', 'u', 'n'] nofun [input]
  rw [Switch.anyAmbiguous_cons_of_undashed toolSwitches input undashed, if_neg (by decide)] at tool
  have run := Switch.items_cons_of_undashed runSwitches input undashed []
  rw [if_neg (by decide)] at run
  rw [request, tool, toolArguments_positional]
  simp only [namedCommand, run]
  rfl

/-- An assembly into an output file. -/
theorem request_asm (input output : List Char) (plainInput : Undashed input)
    (plainOutput : Undashed output) :
    request [['a', 's', 'm'], input, ['-', 'o'], output] =
      .command ⟨0, false, []⟩ (.asm ⟨input, output, false⟩) := by
  -- The switch for the output is known to the command, and is no shortened name of the tool's.
  have sure {κ : Type} (switches : List (Switch κ))
      (switch : Switch.shape switches ['-', 'o'] ≠ .ambiguous) :
      Switch.anyAmbiguous switches [['-', 'o'], output] = false := by
    rw [Switch.anyAmbiguous_cons switches _ _ (by decide) switch,
      Switch.anyAmbiguous_cons_of_undashed switches output plainOutput]
    rfl
  have tool := Switch.items_cons_of_undashed toolSwitches ['a', 's', 'm'] nofun
    [input, ['-', 'o'], output]
  rw [Switch.anyAmbiguous_cons_of_undashed toolSwitches input plainInput,
    sure toolSwitches nofun, if_neg nofun] at tool
  have asm := Switch.items_cons_of_undashed asmSwitches input plainInput [['-', 'o'], output]
  have valued := Switch.itemsFrom_valued asmSwitches ['-', 'o'] output
    ⟨.output, ["-o", "--output"], true⟩ .output (by decide) rfl rfl plainOutput
  rw [sure asmSwitches nofun, if_neg nofun, valued] at asm
  rw [request, tool, toolArguments_positional]
  simp only [namedCommand, asm]
  rfl

/-! ### Calls -/

namespace Tool

theorem call_of_command (time : String) (files : FileTree) (arguments : List (List Char))
    (settings : Settings) (command : Command)
    (asked : request arguments = .command settings command) :
    call time files arguments = carryOut time files settings command := by
  simp only [call, asked]

/-- Calls that ask for no command do the same. -/
theorem call_of_aside (time other : String) (files : FileTree) (first second : List (List Char))
    (aside : (request first).Aside) (same : request first = request second) :
    call time files first = call other files second := by
  simp only [call, ← same]
  cases asked : request first with
  | command settings command => exact absurd asked (aside settings command)
  | _ => rfl

end Tool

end WordMachine.CommandLine
