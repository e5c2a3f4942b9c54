import Mathlib.Data.List.TakeWhile
import WordMachine.CommandLine.Command

/-! The values of switches. A switch that takes a value is set without one only by an argument in
which a double dash stands right behind it, and only then can a number be missing. -/
namespace WordMachine.CommandLine

/-- A text stands right behind something in an argument. -/
def Behind (argument text : List Char) : Prop := ∃ name, name ≠ [] ∧ argument = name ++ text

namespace Switch

variable {κ : Type} (switches : List (Switch κ))

/-- Some switch of a key takes no value. -/
def Valueless (key : κ) : Prop := ∃ switch ∈ switches, switch.key = key ∧ switch.takesValue = false

/-! ### Single arguments -/

theorem mem_of_mem_spellings (name : List Char) (switch : Switch κ)
    (spelled : (name, switch) ∈ spellings switches) : switch ∈ switches := by
  obtain ⟨other, present, named⟩ := List.mem_flatMap.mp spelled
  obtain ⟨_, -, same⟩ := List.mem_map.mp named
  cases same
  exact present

theorem mem_of_named (name : List Char) (switch : Switch κ)
    (named : named? switches name = some switch) : switch ∈ switches := by
  obtain ⟨front, back, whole, -⟩ := List.lookup_eq_some_iff.mp named
  exact mem_of_mem_spellings switches name switch (by rw [whole]; simp)

theorem behind_of_behindEquals (argument text : List Char)
    (found : behindEquals? argument = some text) : Behind argument text := by
  unfold behindEquals? at found
  split at found
  · cases found
  next c rest dropped =>
    cases found
    refine ⟨argument.takeWhile (· != '=') ++ [c], by simp, ?_⟩
    rw [List.append_assoc, List.singleton_append, ← dropped, List.takeWhile_append_dropWhile]

theorem of_candidate (argument : List Char) (switch : Switch κ) (given? : Option (List Char))
    (candidate : (switch, given?) ∈ candidates switches argument) (nonempty : argument ≠ []) :
    switch ∈ switches ∧ ∀ text, given? = some text → Behind argument text := by
  unfold candidates at candidate
  split at candidate
  · obtain ⟨⟨spelling, other⟩, present, found⟩ := List.mem_filterMap.mp candidate
    have known := mem_of_mem_spellings switches spelling other present
    simp only at found
    split at found
    · cases found
      refine ⟨known, ?_⟩
      rintro _ ⟨⟩
      exact ⟨argument.take 2, by simp [nonempty], (List.take_append_drop 2 argument).symm⟩
    · split at found
      · cases found
        exact ⟨known, nofun⟩
      · cases found
  · obtain ⟨⟨spelling, other⟩, present, found⟩ := List.mem_filterMap.mp candidate
    have known := mem_of_mem_spellings switches spelling other present
    simp only at found
    split at found
    · obtain ⟨rfl, rfl⟩ := Prod.mk.inj (Option.some.inj found)
      exact ⟨known, behind_of_behindEquals argument⟩
    · cases found

/-- A text given in the same argument as its switch stands right behind it. -/
theorem of_shape (argument : List Char) (switch : Switch κ) (given? : Option (List Char))
    (shaped : shape switches argument = .switch switch given?) :
    switch ∈ switches ∧ ∀ text, given? = some text → Behind argument text := by
  unfold shape at shaped
  split at shaped
  next first second =>
    split at shaped
    next named =>
      cases shaped
      exact ⟨mem_of_named switches _ switch named, nofun⟩
    · split at shaped
      next assigned =>
        cases shaped
        obtain ⟨text, behind, assigned⟩ := Option.bind_eq_some_iff.mp assigned
        obtain ⟨other, named, assigned⟩ := Option.bind_eq_some_iff.mp assigned
        cases assigned
        refine ⟨mem_of_named switches _ switch named, ?_⟩
        rintro _ ⟨⟩
        exact behind_of_behindEquals _ _ behind
      · split at shaped
        next single =>
          cases shaped
          exact of_candidate switches _ switch given? (by rw [single]; simp) nofun
        · cases shaped
        · split at shaped <;> cases shaped
  · cases shaped

theorem eq_dashes_of_spelledValue (text : List Char) (none : spelledValue? text = none) :
    text = ['-', '-'] := by
  unfold spelledValue? at none
  split at none
  next dashes => exact dashes
  · cases none

/-- Letters leave a switch without a value that takes none, or end in a double dash. -/
theorem of_letters (switch : Switch κ) (known : switch ∈ switches) (text : List Char)
    (settings : Settings κ) (read : letters? switches switch text = some settings) (key : κ)
    (bare : (key, none) ∈ settings.complete) : Valueless switches key ∨ ['-', '-'] <:+ text := by
  induction text generalizing switch settings with
  | nil =>
    unfold letters? at read
    split at read
    · cases read
      cases bare
    next takesNone =>
      cases read
      cases List.mem_singleton.mp bare
      exact .inl ⟨switch, known, rfl, Bool.not_eq_true _ ▸ takesNone⟩
  | cons first rest ih =>
    unfold letters? at read
    split at read
    · cases read
      obtain ⟨-, none⟩ := Prod.mk.inj (List.mem_singleton.mp bare)
      rw [eq_dashes_of_spelledValue _ none.symm]
      exact .inr (List.suffix_refl _)
    next takesNone =>
      obtain ⟨next, named, read⟩ := Option.bind_eq_some_iff.mp read
      obtain ⟨others, further, read⟩ := Option.bind_eq_some_iff.mp read
      cases read
      rcases List.mem_cons.mp bare with same | later
      · cases same
        exact .inl ⟨switch, known, rfl, Bool.not_eq_true _ ▸ takesNone⟩
      · exact (ih next (mem_of_named switches _ next named) others further later).imp_right
          (·.trans (List.suffix_cons first rest))

/-- What one argument sets without a value takes none, or a double dash stands behind it. -/
theorem of_settings (isShort : Bool) (switch : Switch κ) (known : switch ∈ switches)
    (given? : Option (List Char)) (settings : Settings κ)
    (read : settings? switches isShort switch given? = some settings) (key : κ)
    (bare : (key, none) ∈ settings.complete) :
    Valueless switches key ∨ ∃ text, given? = some text ∧ ['-', '-'] <:+ text := by
  unfold settings? at read
  split at read
  · rcases of_letters switches switch known [] settings read key bare with none | dashes
    · exact .inl none
    · cases List.suffix_nil.mp dashes
  next text =>
    split at read
    · cases read
      obtain ⟨-, none⟩ := Prod.mk.inj (List.mem_singleton.mp bare)
      rw [eq_dashes_of_spelledValue _ none.symm]
      exact .inr ⟨_, rfl, List.suffix_refl _⟩
    · split at read
      · exact (of_letters switches switch known text settings read key bare).imp_right
          fun dashes => ⟨text, rfl, dashes⟩
      · cases read

theorem behind_of_suffix (argument text tail : List Char) (behind : Behind argument text)
    (ends : tail <:+ text) : Behind argument tail := by
  obtain ⟨name, nonempty, rfl⟩ := behind
  obtain ⟨front, rfl⟩ := ends
  exact ⟨name ++ front, by simp [nonempty], (List.append_assoc ..).symm⟩

/-! ### All arguments -/

/-- An item comes from some arguments: one that sets something without a value is of a switch that
takes none, or a double dash stands right behind it; and what stands behind a positional one are
some of them. -/
structure From (arguments : List (List Char)) (item : Item κ) : Prop where
  setting : ∀ key, item = .setting key none →
    Valueless switches key ∨ ∃ argument ∈ arguments, Behind argument ['-', '-']
  positional : ∀ text rest, item = .positional text rest → rest ⊆ arguments

variable {switches} in
theorem From.mono {few many : List (List Char)} {item : Item κ} (from_few : From switches few item)
    (part : few ⊆ many) : From switches many item where
  setting key same := (from_few.setting key same).imp_right
    fun ⟨argument, member, behind⟩ => ⟨argument, part member, behind⟩
  positional text rest same := fun _ member => part (from_few.positional text rest same member)

theorem from_positionals (arguments : List (List Char)) (item : Item κ)
    (member : item ∈ positionals arguments) : From switches arguments item := by
  induction arguments with
  | nil => cases member
  | cons argument rest ih =>
    rcases List.mem_cons.mp member with rfl | member
    · exact ⟨nofun, by rintro _ _ ⟨⟩; exact List.subset_cons_self argument rest⟩
    · exact (ih member).mono (List.subset_cons_self argument rest)

theorem from_settings (argument : List Char) (rest : List (List Char)) (switch : Switch κ)
    (given? : Option (List Char)) (settings : Settings κ)
    (shaped : shape switches argument = .switch switch given?)
    (read : settings? switches (isShort argument) switch given? = some settings) (item : Item κ)
    (member : item ∈ settings.complete.map fun (key, value?) => Item.setting key value?) :
    From switches (argument :: rest) item := by
  obtain ⟨⟨key, value?⟩, set, rfl⟩ := List.mem_map.mp member
  refine ⟨?_, nofun⟩
  rintro _ ⟨⟩
  obtain ⟨known, behind⟩ := of_shape switches argument switch given? shaped
  refine (of_settings switches _ switch known given? settings read key set).imp_right ?_
  rintro ⟨text, given, dashes⟩
  exact ⟨argument, List.mem_cons_self, behind_of_suffix _ _ _ (behind text given) dashes⟩

theorem from_itemsFrom (arguments : List (List Char)) (item : Item κ)
    (member : item ∈ itemsFrom switches arguments) : From switches arguments item := by
  have invalid (arguments : List (List Char)) (member : item ∈ [Item.invalid]) :
      From switches arguments item := by
    cases List.mem_singleton.mp member
    exact ⟨nofun, nofun⟩
  fun_induction itemsFrom switches arguments with
  | case1 => cases member
  | case2 rest =>
    rcases List.mem_cons.mp member with rfl | later
    · exact ⟨nofun, nofun⟩
    · exact (from_positionals switches rest item later).mono (List.subset_cons_self _ rest)
  | case3 argument rest _ _ ih =>
    rcases List.mem_cons.mp member with rfl | later
    · exact ⟨nofun, by rintro _ _ ⟨⟩; exact List.subset_cons_self argument rest⟩
    · exact (ih later).mono (List.subset_cons_self argument rest)
  | case4 argument rest _ _ ih =>
    rcases List.mem_cons.mp member with rfl | later
    · exact ⟨nofun, nofun⟩
    · exact (ih later).mono (List.subset_cons_self argument rest)
  | case5 => exact invalid _ member
  | case6 => exact invalid _ member
  | case7 argument _ switch given? shaped settings read complete rest _ ih =>
    rcases List.mem_append.mp member with own | later
    · exact from_settings switches argument rest switch given? settings shaped read item own
    · exact (ih later).mono (List.subset_cons_self argument rest)
  | case8 => exact invalid _ member
  | case9 argument _ switch given? shaped settings read complete key value rest _ _ _ ih =>
    rcases List.mem_append.mp member with own | later
    · exact from_settings switches argument _ switch given? settings shaped read item own
    · rcases List.mem_cons.mp later with rfl | later
      · exact ⟨nofun, nofun⟩
      · exact (ih later).mono fun _ present =>
          List.mem_cons_of_mem _ (List.mem_cons_of_mem _ present)
  | case10 => exact invalid _ member

theorem from_items (arguments : List (List Char)) (item : Item κ)
    (member : item ∈ items switches arguments) : From switches arguments item := by
  unfold items at member
  split at member
  · cases List.mem_singleton.mp member
    exact ⟨nofun, nofun⟩
  · exact from_itemsFrom switches arguments item member

end Switch

/-! ### Commands -/

/-- What holds of the options of a command and is kept by all that its arguments set holds of the
options that they come to. -/
theorem commandArguments_keeps {κ α : Type} (effect : κ → Option (List Char) → α → Effect α)
    (Holds : α → Prop) (surplus : Bool) (input? : Option (List Char)) (options : α)
    (items : List (Item κ)) (start : Holds options)
    (keeps : ∀ key value?, .setting key value? ∈ items → ∀ options after, Holds options →
      effect key value? options = .change after → Holds after)
    (input : List Char) (final : α)
    (given : commandArguments effect surplus input? options items = .given input final) :
    Holds final := by
  -- What the items do is what those behind the first do, after it.
  have behind {first : Item κ} {rest : List (Item κ)}
      (keeps : ∀ key value?, .setting key value? ∈ first :: rest → ∀ options after, Holds options →
        effect key value? options = .change after → Holds after) :
      ∀ key value?, .setting key value? ∈ rest → ∀ options after, Holds options →
        effect key value? options = .change after → Holds after :=
    fun key value? member => keeps key value? (List.mem_cons_of_mem first member)
  fun_induction commandArguments effect surplus input? options items with
  | case2 =>
    cases given
    exact start
  | case1 | case3 | case4 | case8 | case9 => cases given
  | case5 _ _ _ _ ih | case6 _ _ _ _ ih | case12 _ _ _ _ _ _ _ ih | case13 _ _ _ _ _ _ ih =>
    exact ih start (behind keeps) given
  | case7 _ _ options key value? rest after changed ih =>
    exact ih (keeps key value? List.mem_cons_self options after start changed) (behind keeps) given
  | case10 _ _ _ _ _ _ ih | case11 _ _ _ _ _ ih => exact ih start (behind (behind keeps)) given

/-- The command that arguments ask for has its name among them, and is asked for by those behind the
name. -/
theorem toolArguments_command (surplus : Bool) (settings : Settings) (items : List (Item ToolKey))
    (final : Settings) (command : Command)
    (asked : toolArguments surplus settings items = .command final command) :
    ∃ name rest given, .positional name rest ∈ items ∧
      namedCommand given name rest = .command final command := by
  fun_induction toolArguments surplus settings items with
  | case1 | case2 | case3 | case4 | case6 | case7 | case11 => cases asked
  | case5 _ _ _ ih | case8 _ _ _ _ ih | case9 _ _ _ _ ih | case10 _ _ _ _ ih =>
    obtain ⟨name, rest, given, member, named⟩ := ih asked
    exact ⟨name, rest, given, List.mem_cons_of_mem _ member, named⟩
  | case12 _ settings name arguments _ _ _ named _ =>
    cases asked
    exact ⟨name, arguments, settings, List.mem_cons_self, named⟩
  | case13 _ _ _ _ _ none => exact absurd asked (none final command)

/-! ### Missing numbers -/

/-- The numbers that the options of a run leave out. -/
def RunOptions.Lacks (options : RunOptions) : MissingNumber → Prop
  | .address => none ∈ options.breakpoints
  | .budget => options.budget? = none

def DisasmOptions.Lacks (options : DisasmOptions) : MissingNumber → Prop
  | .address => options.base? = none
  | .budget => False

/-- The numbers that a command needs and is not given. -/
def Command.Lacks : Command → MissingNumber → Prop
  | .asm _ => fun _ => False
  | .run options => options.Lacks
  | .disasm options => options.Lacks

private theorem run_valueless (key : RunKey) (bare : Switch.Valueless runSwitches key) :
    key = .help ∨ key = .trace := by
  obtain ⟨switch, present, rfl, bare⟩ := bare
  have all : ∀ switch ∈ runSwitches, switch.takesValue = false →
      switch.key = .help ∨ switch.key = .trace := by decide
  exact all switch present bare

private theorem disasm_valueless (key : DisasmKey) (bare : Switch.Valueless disasmSwitches key) :
    key = .help := by
  obtain ⟨switch, present, rfl, bare⟩ := bare
  have all : ∀ switch ∈ disasmSwitches, switch.takesValue = false → switch.key = .help := by decide
  exact all switch present bare

private theorem given_of_commandRequest {α : Type} (settings final : Settings) (help : String)
    (build : List Char → α → Command) (arguments : CommandArguments α) (command : Command)
    (asked : commandRequest settings help build arguments = .command final command) :
    ∃ input options, arguments = .given input options ∧ command = build input options := by
  cases arguments with
  | given input options =>
    cases asked
    exact ⟨input, options, rfl, rfl⟩
  | help | refused => cases asked

/-- Without a double dash behind a switch, a switch that is set without a value takes none. -/
theorem valueless_of_setting {κ : Type} (switches : List (Switch κ)) (arguments : List (List Char))
    (plain : ∀ argument ∈ arguments, ¬Behind argument ['-', '-']) (key : κ)
    (member : Item.setting key none ∈ Switch.items switches arguments) :
    Switch.Valueless switches key := by
  rcases (Switch.from_items switches arguments _ member).setting key rfl with bare |
    ⟨argument, present, behind⟩
  · exact bare
  · exact absurd behind (plain argument present)

/-- Without a double dash behind a switch, a run is given every number that it needs. -/
private theorem run_complete (arguments : List (List Char))
    (plain : ∀ argument ∈ arguments, ¬Behind argument ['-', '-']) (input : List Char)
    (start options : RunOptions) (begins : ∀ number, ¬start.Lacks number)
    (given : commandArguments runEffect false none start (Switch.items runSwitches arguments) =
      .given input options) (number : MissingNumber) : ¬options.Lacks number := by
  refine commandArguments_keeps runEffect (fun options => ∀ number, ¬options.Lacks number) false
    none start _ begins ?_ input options given number
  intro key value? member options after complete changed number
  have spelled (valued : key ≠ .help ∧ key ≠ .trace) : value? ≠ none := by
    rintro rfl
    rcases run_valueless key (valueless_of_setting runSwitches arguments plain key member) with
      help | trace
    · exact valued.1 help
    · exact valued.2 trace
  cases key with
  | help => cases changed
  | trace | stack | dump =>
    cases changed
    cases number with
    | address => exact complete .address
    | budget => exact complete .budget
  | budget =>
    simp only [runEffect] at changed
    split at changed
    · cases changed
      cases number with
      | address => exact complete .address
      | budget => exact nofun
    · cases changed
    next none => exact absurd (Option.map_eq_none_iff.mp none) (spelled ⟨nofun, nofun⟩)
  | breakpoint =>
    cases changed
    cases number with
    | address =>
      intro lacks
      rcases List.mem_append.mp lacks with before | last
      · exact complete .address before
      · exact spelled ⟨nofun, nofun⟩ (List.mem_singleton.mp last).symm
    | budget => exact complete .budget

private theorem disasm_complete (arguments : List (List Char))
    (plain : ∀ argument ∈ arguments, ¬Behind argument ['-', '-']) (input : List Char)
    (start options : DisasmOptions) (begins : ∀ number, ¬start.Lacks number)
    (given : commandArguments disasmEffect false none start
      (Switch.items disasmSwitches arguments) = .given input options) (number : MissingNumber) :
    ¬options.Lacks number := by
  refine commandArguments_keeps disasmEffect (fun options => ∀ number, ¬options.Lacks number) false
    none start _ begins ?_ input options given number
  intro key value? member options after complete changed number
  cases key with
  | help => cases changed
  | output =>
    cases changed
    cases number with
    | address => exact complete .address
    | budget => exact complete .budget
  | base =>
    cases changed
    cases number with
    | address =>
      rintro rfl
      cases disasm_valueless _ (valueless_of_setting disasmSwitches arguments plain _ member)
    | budget => exact id

/-- A number is missing only where a double dash stands right behind its switch. -/
theorem behind_of_lacks (arguments : List (List Char)) (settings : Settings) (command : Command)
    (asked : request arguments = .command settings command) (number : MissingNumber)
    (lacks : command.Lacks number) : ∃ argument ∈ arguments, Behind argument ['-', '-'] := by
  by_contra none
  have plain : ∀ argument ∈ arguments, ¬Behind argument ['-', '-'] :=
    fun argument member behind => none ⟨argument, member, behind⟩
  obtain ⟨name, rest, given, member, named⟩ := toolArguments_command _ _ _ _ _ asked
  have part := (Switch.from_items toolSwitches arguments _ member).positional name rest rfl
  have plain : ∀ argument ∈ rest, ¬Behind argument ['-', '-'] :=
    fun argument present => plain argument (part present)
  unfold namedCommand at named
  split at named
  · obtain ⟨input, options, -, rfl⟩ := given_of_commandRequest _ _ _ _ _ _ named
    exact lacks
  · split at named
    · obtain ⟨input, options, taken, rfl⟩ := given_of_commandRequest _ _ _ _ _ _ named
      refine run_complete rest plain input _ options ?_ taken number lacks
      rintro (_ | _) <;> exact nofun
    · split at named
      · obtain ⟨input, options, taken, rfl⟩ := given_of_commandRequest _ _ _ _ _ _ named
        refine disasm_complete rest plain input _ options ?_ taken number lacks
        rintro (_ | _) <;> exact nofun
      · cases named

end WordMachine.CommandLine
