import Mathlib.Data.List.Induction
import WordMachine.Proofs.CommandLine.Values

/-! Flags in front of a command. Arguments that only set switches take nothing from those behind
them, and the flags of the tool do no more than to adjust its settings, each of them its own. -/
namespace WordMachine.CommandLine

/-- A text that does not begin with a dash. -/
def Undashed (text : List Char) : Prop := text.head? ≠ some '-'

instance (text : List Char) : Decidable (Undashed text) :=
  inferInstanceAs (Decidable (text.head? ≠ some '-'))

/-! ### Items -/

/-- An item that sets a switch. -/
def Item.Sets {κ : Type} : Item κ → Prop
  | .setting _ _ => True
  | _ => False

namespace Switch

variable {κ : Type} (switches : List (Switch κ))

theorem shape_of_undashed (text : List Char) (undashed : Undashed text) :
    shape switches text = .positional := by
  unfold shape
  split
  · exact absurd rfl undashed
  · rfl

theorem ne_dashes_of_undashed (text : List Char) (undashed : Undashed text) :
    text ≠ ['-', '-'] := by
  rintro rfl
  exact undashed rfl

theorem anyAmbiguous_cons (argument : List Char) (rest : List (List Char))
    (plain : argument ≠ ['-', '-']) (sure : shape switches argument ≠ .ambiguous) :
    anyAmbiguous switches (argument :: rest) = anyAmbiguous switches rest := by
  have passes : (argument != ['-', '-']) = true := bne_iff_ne.mpr plain
  simp only [anyAmbiguous, List.takeWhile_cons, passes, if_true, List.any_cons]
  cases shaped : shape switches argument with
  | ambiguous => exact absurd shaped sure
  | _ => rfl

theorem anyAmbiguous_cons_of_undashed (text : List Char) (undashed : Undashed text)
    (rest : List (List Char)) :
    anyAmbiguous switches (text :: rest) = anyAmbiguous switches rest := by
  apply anyAmbiguous_cons switches text rest (ne_dashes_of_undashed text undashed)
  rw [shape_of_undashed switches text undashed]
  nofun

theorem itemsFrom_cons_of_undashed (text : List Char) (undashed : Undashed text)
    (rest : List (List Char)) :
    itemsFrom switches (text :: rest) = .positional text rest :: itemsFrom switches rest := by
  rw [itemsFrom.eq_def]
  simp only [if_neg (ne_dashes_of_undashed text undashed),
    shape_of_undashed switches text undashed]

/-- A text without a dash takes nothing from the arguments behind it. -/
theorem items_cons_of_undashed (text : List Char) (undashed : Undashed text)
    (rest : List (List Char)) :
    items switches (text :: rest) =
      if anyAmbiguous switches rest then [.invalid]
      else .positional text rest :: itemsFrom switches rest := by
  rw [items, anyAmbiguous_cons_of_undashed switches text undashed,
    itemsFrom_cons_of_undashed switches text undashed]

/-- A value without a dash is that of the switch in front of it. -/
theorem itemsFrom_valued (name value : List Char) (switch : Switch κ) (key : κ)
    (plain : name ≠ ['-', '-']) (shaped : shape switches name = .switch switch none)
    (pending : settings? switches (isShort name) switch none = some ⟨[], some key⟩)
    (undashed : Undashed value) :
    itemsFrom switches [name, value] = [.setting key (some value)] := by
  have dashes : (value == ['-', '-']) = false :=
    beq_false_of_ne (ne_dashes_of_undashed value undashed)
  rw [itemsFrom.eq_def]
  simp only [if_neg plain, shaped, pending, dashes, shape_of_undashed switches value undashed]
  rfl

/-- Arguments that only set switches take nothing from those behind them. -/
theorem itemsFrom_append (flags more : List (List Char))
    (sets : ∀ item ∈ itemsFrom switches flags, item.Sets) :
    itemsFrom switches (flags ++ more) = itemsFrom switches flags ++ itemsFrom switches more ∧
      anyAmbiguous switches (flags ++ more) = anyAmbiguous switches more := by
  -- The cases are those of reading arguments; in all but three some item sets nothing.
  fun_induction itemsFrom switches flags with
  | case1 => exact ⟨rfl, rfl⟩
  | case2 | case3 | case4 | case5 | case6 | case8 | case10 =>
    exact (sets _ List.mem_cons_self).elim
  | case7 argument plain switch given? shaped settings read complete rest pending ih =>
    have others := ih fun item member => sets item (List.mem_append_right _ member)
    have sure : shape switches argument ≠ .ambiguous := by
      rw [shaped]
      intro same
      cases same
    constructor
    · rw [List.cons_append, itemsFrom.eq_def]
      simp only [if_neg plain, shaped, read, pending, others.1, List.append_assoc]
      rfl
    · rw [List.cons_append, anyAmbiguous_cons switches argument _ plain sure, others.2]
  | case9 argument plain switch given? shaped settings read complete key value rest pending
      positional other ih =>
    have others := ih fun item member =>
      sets item (List.mem_append_right _ (List.mem_cons_of_mem _ member))
    have sure : shape switches argument ≠ .ambiguous := by
      rw [shaped]
      intro same
      cases same
    have valueSure : shape switches value ≠ .ambiguous := by
      rw [positional]
      intro same
      cases same
    constructor
    · rw [List.cons_append, List.cons_append, itemsFrom.eq_def]
      simp only [if_neg plain, shaped, read, pending, other, positional, others.1,
        List.append_assoc]
      rfl
    · rw [List.cons_append, anyAmbiguous_cons switches argument _ plain sure, List.cons_append,
        anyAmbiguous_cons switches value _ (beq_eq_false_iff_ne.mp other) valueSure, others.2]

/-- What arguments in front only set is set before what those behind them do. -/
theorem items_append (flags more : List (List Char))
    (sets : ∀ item ∈ items switches flags, item.Sets) :
    items switches (flags ++ more) =
      if anyAmbiguous switches more then [.invalid]
      else items switches flags ++ itemsFrom switches more := by
  unfold items at sets ⊢
  by_cases ambiguous : anyAmbiguous switches flags = true
  · rw [if_pos ambiguous] at sets
    exact (sets .invalid List.mem_cons_self).elim
  · rw [if_neg ambiguous] at sets ⊢
    obtain ⟨appended, sure⟩ := itemsFrom_append switches flags more sets
    rw [appended, sure]

end Switch

/-! ### Settings -/

/-- An item that adjusts a setting of the tool. -/
def Item.Adjusts : Item ToolKey → Prop
  | .setting .verbose _ | .setting .quiet _ | .setting .logFile _ => True
  | _ => False

instance : (item : Item ToolKey) → Decidable item.Adjusts
  | .setting .verbose _ | .setting .quiet _ | .setting .logFile _ => isTrue trivial
  | .setting .help _ | .setting .version _ => isFalse id
  | .positional _ _ | .separator | .unknown | .invalid => isFalse id

/-- What an item makes of the settings. -/
def Settings.set (settings : Settings) : Item ToolKey → Settings
  | .setting .verbose _ => { settings with verbosity := settings.verbosity + 1 }
  | .setting .quiet _ => { settings with quiet := true }
  | .setting .logFile value? => { settings with logFile := value?.getD [] }
  | _ => settings

/-- Settings differ at most in what certain switches set. -/
structure Settings.Moved (keys : ToolKey → Prop) (before after : Settings) : Prop where
  verbosity : ¬keys .verbose → after.verbosity = before.verbosity
  quiet : ¬keys .quiet → after.quiet = before.quiet
  quieted : keys .quiet → after.quiet = true
  logFile : ¬keys .logFile → after.logFile = before.logFile

/-- An item that is set in both keeps the settings alike. -/
theorem Settings.Moved.set {keys : ToolKey → Prop} {before after : Settings}
    (moved : before.Moved keys after) (item : Item ToolKey) :
    (before.set item).Moved keys (after.set item) := by
  obtain ⟨verbosity, quiet, quieted, logFile⟩ := moved
  match item with
  | .setting .verbose _ =>
    exact ⟨fun other => congrArg (· + 1) (verbosity other), quiet, quieted, logFile⟩
  | .setting .quiet _ => exact ⟨verbosity, fun _ => rfl, fun _ => rfl, logFile⟩
  | .setting .logFile _ => exact ⟨verbosity, quiet, quieted, fun _ => rfl⟩
  | .setting .help _ | .setting .version _ | .positional _ _ | .separator | .unknown | .invalid =>
    exact ⟨verbosity, quiet, quieted, logFile⟩

/-- The switch that an item sets. -/
def Item.key? {κ : Type} : Item κ → Option κ
  | .setting key _ => some key
  | _ => none

/-- Some item sets a switch. -/
def Sets (items : List (Item ToolKey)) (key : ToolKey) : Prop :=
  ∃ item ∈ items, item.key? = some key

instance (items : List (Item ToolKey)) (key : ToolKey) : Decidable (Sets items key) :=
  inferInstanceAs (Decidable (∃ item ∈ items, item.key? = some key))

theorem sets_concat (items : List (Item ToolKey)) (last : Item ToolKey) (key : ToolKey) :
    Sets (items ++ [last]) key ↔ Sets items key ∨ last.key? = some key := by
  simp only [Sets, List.mem_append, List.mem_singleton, or_and_right, exists_or, exists_eq_left]

namespace Settings

variable (settings : Settings) (item : Item ToolKey)

theorem verbosity_set (other : item.key? ≠ some .verbose) :
    (settings.set item).verbosity = settings.verbosity := by
  unfold set
  split
  · exact absurd rfl other
  all_goals rfl

theorem quiet_set (other : item.key? ≠ some .quiet) :
    (settings.set item).quiet = settings.quiet := by
  unfold set
  split
  · rfl
  · exact absurd rfl other
  all_goals rfl

theorem quiet_set_of_quiet (quiet : settings.quiet = true) : (settings.set item).quiet = true := by
  unfold set
  split
  · exact quiet
  · rfl
  all_goals exact quiet

theorem quiet_set_of_key (own : item.key? = some .quiet) : (settings.set item).quiet = true := by
  cases item with
  | setting key =>
    cases own
    rfl
  | _ => cases own

theorem logFile_set (other : item.key? ≠ some .logFile) :
    (settings.set item).logFile = settings.logFile := by
  unfold set
  split
  · rfl
  · rfl
  · exact absurd rfl other
  · rfl

end Settings

/-- Items change only the settings of the switches that they set. -/
theorem Settings.moved_foldl (settings : Settings) (items : List (Item ToolKey)) :
    settings.Moved (Sets items) (items.foldl Settings.set settings) := by
  -- The last item decides, so that the induction takes the items from the back.
  induction items using List.reverseRecOn with
  | nil =>
    refine ⟨fun _ => rfl, fun _ => rfl, ?_, fun _ => rfl⟩
    rintro ⟨_, ⟨⟩, -⟩
  | append_singleton items last ih =>
    rw [List.foldl_append, List.foldl_cons, List.foldl_nil]
    have apart {key : ToolKey} (unset : ¬Sets (items ++ [last]) key) :
        ¬Sets items key ∧ last.key? ≠ some key := by
      rwa [sets_concat, not_or] at unset
    refine ⟨fun unset => ?_, fun unset => ?_, fun sets => ?_, fun unset => ?_⟩
    · exact (verbosity_set _ last (apart unset).2).trans (ih.verbosity (apart unset).1)
    · exact (quiet_set _ last (apart unset).2).trans (ih.quiet (apart unset).1)
    · rcases (sets_concat items last .quiet).mp sets with before | own
      · exact quiet_set_of_quiet _ last (ih.quieted before)
      · exact quiet_set_of_key _ last own
    · exact (logFile_set _ last (apart unset).2).trans (ih.logFile (apart unset).1)

/-! ### Flags -/

/-- Arguments that only adjust settings of the tool. -/
def Flags (arguments : List (List Char)) : Prop :=
  ∀ item ∈ Switch.items toolSwitches arguments, item.Adjusts

instance (arguments : List (List Char)) : Decidable (Flags arguments) :=
  inferInstanceAs (Decidable (∀ item ∈ Switch.items toolSwitches arguments, item.Adjusts))

example : Flags ["-v".toList] ∧ Flags ["-vv".toList] ∧ Flags ["-q".toList] := by decide

/-- The settings that flags come to. -/
def settingsOf (flags : List (List Char)) : Settings :=
  (Switch.items toolSwitches flags).foldl Settings.set ⟨0, false, []⟩

theorem toolArguments_adjusts (surplus : Bool) (settings : Settings)
    (items more : List (Item ToolKey)) (adjust : ∀ item ∈ items, item.Adjusts) :
    toolArguments surplus settings (items ++ more) =
      toolArguments surplus (items.foldl Settings.set settings) more := by
  induction items generalizing settings with
  | nil => rfl
  | cons first rest ih =>
    have others := fun settings => ih settings fun item member =>
      adjust item (List.mem_cons_of_mem _ member)
    match first, adjust first List.mem_cons_self with
    | .setting .verbose _, _ => exact others _
    | .setting .quiet _, _ => exact others _
    | .setting .logFile _, _ => exact others _

theorem Flags.sets {flags : List (List Char)} (adjust : Flags flags) :
    ∀ item ∈ Switch.items toolSwitches flags, item.Sets := by
  intro item member
  match item, adjust item member with
  | .setting _ _, _ => trivial

/-- Flags behind flags are set after them. -/
theorem Flags.append {front added : List (List Char)} (flags : Flags front) (more : Flags added) :
    Flags (front ++ added) ∧ settingsOf (front ++ added) =
      (Switch.items toolSwitches added).foldl Settings.set (settingsOf front) := by
  have sure : ¬Switch.anyAmbiguous toolSwitches added = true := by
    intro ambiguous
    have invalid : Switch.items toolSwitches added = [.invalid] := if_pos ambiguous
    exact more .invalid (by rw [invalid]; exact List.mem_cons_self)
  have items : Switch.items toolSwitches (front ++ added) =
      Switch.items toolSwitches front ++ Switch.items toolSwitches added := by
    rw [Switch.items_append toolSwitches front added flags.sets, if_neg sure]
    congr 1
    exact (if_neg sure).symm
  constructor
  · intro item member
    rw [items] at member
    exact (List.mem_append.mp member).elim (flags item) (more item)
  · rw [settingsOf, items, List.foldl_append, settingsOf]

/-- What is asked for behind flags is asked for with the settings that they come to. -/
theorem request_flags (flags rest : List (List Char)) (adjust : Flags flags) :
    request (flags ++ rest) =
      if Switch.anyAmbiguous toolSwitches rest then .usageError
      else toolArguments false (settingsOf flags) (Switch.itemsFrom toolSwitches rest) := by
  rw [request, Switch.items_append toolSwitches flags rest adjust.sets]
  -- An ambiguous argument behind the flags counts before them.
  split
  · rfl
  · exact toolArguments_adjusts false _ _ _ adjust

end WordMachine.CommandLine
