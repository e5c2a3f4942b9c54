import WordMachine.Proofs.CommandLine.Actions
import WordMachine.Proofs.CommandLine.Files

/-! What a log file does to the other files. Opening it makes directories and the file itself, and
adding to it changes nothing else, so that what could be read before can be read afterwards. -/
namespace WordMachine.CommandLine

namespace FileTree

/-! ### Directories -/

section Directories

variable (tree : FileTree) (key : Key)

/-- A directory that is made where nothing was is in the way of nothing else. -/
theorem follow_put_directory (fresh : tree.find? key = none) (start : Key)
    (names : List (List Char)) (place : Place) (leads : tree.follow start names = .ok place)
    (apart : place ≠ .absent key) :
    (tree.put key .directory).follow start names = .ok place := by
  induction names generalizing start with
  | nil =>
    cases leads
    rfl
  | cons name rest ih =>
    have kept (next : Key) (known : next ≠ key) :
        (tree.put key .directory).find? next = tree.find? next := by
      rw [find?_put, if_neg known]
    have other (next : Key) (entry : Entry) (found : tree.find? next = some entry) :
        next ≠ key := by
      rintro rfl
      rw [fresh] at found
      cases found
    rcases tree.follow_cases start name rest place leads with ⟨up, onwards⟩ | ⟨plain, short, step⟩
    · rw [follow, if_pos up]
      exact ih _ onwards
    · rw [follow, if_neg plain, if_neg short]
      rcases step with ⟨found, onwards⟩ | ⟨rfl, old, found, rfl⟩ | ⟨rfl, found, rfl⟩
      · have differs := other _ _ found
        simp only [kept _ differs, found]
        exact ih _ onwards
      · have differs := other _ _ found
        simp only [kept _ differs, found, List.isEmpty_nil, if_true]
      · have differs : start ++ [name] ≠ key := by
          rintro rfl
          exact apart rfl
        simp only [kept _ differs, found, List.isEmpty_nil, if_true]

/-- A directory is made where nothing was, if it is not there. -/
theorem makeDirectory_cases (made : FileTree) (path : Path)
    (makes : tree.makeDirectory path = .ok made) :
    made = tree ∨ ∃ key, tree.find? key = none ∧ made = tree.put key .directory := by
  unfold makeDirectory at makes
  split at makes
  · cases makes
    exact .inl rfl
  next key absent =>
    cases makes
    exact .inr ⟨key, tree.find?_of_locate key path _ absent none rfl, rfl⟩
  · cases makes
  · cases makes

/-- What every directory that is made keeps is kept when those on the way to it are made too. -/
theorem makeDirectoriesBackward_keeps (Holds : FileTree → Prop)
    (keeps : ∀ tree key, tree.find? key = none → Holds tree → Holds (tree.put key .directory))
    (root : Nat) (names : List (List Char)) (start : Holds tree) :
    Holds (tree.makeDirectoriesBackward root names).1 := by
  have one (before made : FileTree) (path : Path) (makes : before.makeDirectory path = .ok made)
      (holds : Holds before) : Holds made := by
    rcases before.makeDirectory_cases made path makes with rfl | ⟨key, fresh, rfl⟩
    · exact holds
    · exact keeps before key fresh holds
  induction names with
  | nil => exact start
  | cons name before ih =>
    simp only [makeDirectoriesBackward]
    split
    next made makes => exact one tree made _ makes start
    · -- What was made on the way stays, whether or not the rest can be made.
      revert ih
      rcases tree.makeDirectoriesBackward root before with ⟨led, _ | error⟩ <;> intro ih
      · simp only
        split
        next made makes => exact one led made _ makes ih
        · exact ih
      · exact ih
    · exact start

/-- A path that leads to a file leads there past directories that are made. -/
theorem locate_put_directory (fresh : tree.find? key = none) (path : Path) (place : Place)
    (leads : tree.locate path = .ok place) (apart : place ≠ .absent key) :
    (tree.put key .directory).locate path = .ok place := by
  unfold locate at leads ⊢
  split at leads
  · cases leads
  next plain =>
    split at leads
    · cases leads
    next short =>
      rw [if_neg plain, if_neg short]
      exact tree.follow_put_directory key fresh _ _ _ leads apart

end Directories

end FileTree

namespace Tool

/-! ### Opening the log -/

/-- Without a log file nothing is made before a command is carried out. -/
theorem openLog_none (files : FileTree) (settings : Settings) (noLog : settings.logFile = []) :
    openLog files settings = (files, .ok none) := by
  rw [openLog, noLog]
  rfl

/-- Opening the log first makes the directories on the way to it, and then the file itself. -/
theorem openLog_cases (files : FileTree) (settings : Settings) :
    (settings.logFile = [] ∧ openLog files settings = (files, .ok none)) ∨
    (settings.logFile ≠ [] ∧
      let led := (files.makeDirectories (Path.ofText settings.logFile).parent).1
      (∃ error, openLog files settings = (led, .error error)) ∨
      ∃ key, led.target (Path.ofText settings.logFile).direct = .ok key ∧
        openLog files settings = (led.append key [], .ok (some key))) := by
  unfold openLog
  split
  next none => exact .inl ⟨List.isEmpty_iff.mp none, rfl⟩
  next named =>
    refine .inr ⟨fun none => named (List.isEmpty_iff.mpr none), ?_⟩
    simp only
    rcases files.makeDirectories (Path.ofText settings.logFile).parent with ⟨led, _ | error⟩
    · simp only
      split
      next key opens => exact .inr ⟨key, opens, rfl⟩
      next error _ => exact .inl ⟨error, rfl⟩
    · exact .inl ⟨error, rfl⟩

/-- What holds before the log is opened, and is kept by directories that are made and by the log
file itself, holds afterwards. -/
theorem openLog_keeps (files : FileTree) (settings : Settings) (Holds : FileTree → Prop)
    (directories : ∀ tree key, tree.find? key = none → Holds tree →
      Holds (tree.put key .directory))
    (log : ∀ tree key, tree.find? key ≠ some .directory →
      (openLog files settings).2 = .ok (some key) → Holds tree → Holds (tree.append key []))
    (start : Holds files) : Holds (openLog files settings).1 := by
  have led := files.makeDirectoriesBackward_keeps Holds directories
    (Path.ofText settings.logFile).parent.root
    (Path.ofText settings.logFile).parent.names.reverse start
  rcases openLog_cases files settings with
    ⟨-, opened⟩ | ⟨-, ⟨error, opened⟩ | ⟨key, opens, opened⟩⟩
  · rw [opened]
    exact start
  · rw [opened]
    exact led
  · have added := log _ key (FileTree.noDirectory_of_target _ key _ opens) (by rw [opened]) led
    rw [opened]
    exact added

/-- A path that leads to a file leads there when the log is opened, and the file has the bytes that
it had, even if it is the log. -/
theorem locate_openLog (files : FileTree) (settings : Settings) (path : Path) (key : Key)
    (bytes : List UInt8) (leads : files.locate path = .ok (.file key bytes)) :
    (openLog files settings).1.locate path = .ok (.file key bytes) := by
  refine openLog_keeps files settings (fun tree => tree.locate path = .ok (.file key bytes))
    (fun tree made fresh leads => tree.locate_put_directory made fresh path _ leads nofun)
    (fun tree log noDirectory _ leads => ?_) leads
  rw [FileTree.append, tree.locate_write log _ noDirectory path _ leads, Place.written]
  split
  next own =>
    -- Nothing is added to the log yet.
    subst own
    rw [FileTree.contents, tree.find?_of_locate key path _ leads (some (.file bytes)) rfl,
      List.append_nil]
  · rfl

/-- Files that are there keep their bytes when the log is opened. -/
theorem read_openLog (files : FileTree) (settings : Settings) (path : Path) (bytes : List UInt8)
    (reads : files.read path = .ok bytes) :
    (openLog files settings).1.read path = .ok bytes := by
  obtain ⟨key, leads⟩ := files.read_cases path bytes reads
  rw [FileTree.read, locate_openLog files settings path key bytes leads]

/-- Where the log is, there is no directory. -/
def LogIsFile (log? : Option Key) (files : FileTree) : Prop :=
  ∀ key, log? = some key → files.find? key ≠ some .directory

theorem logIsFile_write (log? : Option Key) (files : FileTree) (key : Key) (bytes : List UInt8)
    (isFile : LogIsFile log? files) : LogIsFile log? (files.write key bytes) := by
  intro log same
  rw [FileTree.find?_write]
  split
  · nofun
  · exact isFile log same

theorem logIsFile_of_openLog (files opened : FileTree) (settings : Settings) (log? : Option Key)
    (opens : openLog files settings = (opened, .ok log?)) : LogIsFile log? opened := by
  unfold openLog at opens
  split at opens
  · cases opens
    intro key same
    cases same
  · simp only at opens
    split at opens
    · cases opens
    next led =>
      split at opens
      next key =>
        cases opens
        rintro _ ⟨⟩
        rw [FileTree.append, FileTree.find?_write, if_pos rfl]
        exact fun same => Entry.noConfusion (Option.some.inj same)
      · cases opens

/-! ### Settling -/

/-- The file that an action writes to, if there is one. -/
def written? (log? : Option Key) : Action → Option Key
  | .logged _ => log?
  | .opened key => some key
  | .written key _ => some key

section Settling

variable (time : String) (log? : Option Key)

/-- An action writes to its file and does nothing else. -/
theorem act_cases (action : Action) (files : FileTree) :
    (written? log? action = none ∧ act time log? files action = files) ∨
      ∃ key bytes, written? log? action = some key ∧
        act time log? files action = files.write key bytes := by
  cases action with
  | logged record =>
    cases log? with
    | none => exact .inl ⟨rfl, rfl⟩
    | some key => exact .inr ⟨key, _, rfl, rfl⟩
  | opened key => exact .inr ⟨key, _, rfl, rfl⟩
  | written key bytes => exact .inr ⟨key, _, rfl, rfl⟩

/-- What is kept whenever one of their files is written is kept by all actions together. -/
theorem settle_keeps (Holds : FileTree → Prop) (actions : List Action)
    (writes : ∀ tree key bytes, (∃ action ∈ actions, written? log? action = some key) →
      Holds tree → Holds (tree.write key bytes))
    (files : FileTree) (start : Holds files) : Holds (settle time log? actions files) := by
  induction actions generalizing files with
  | nil => exact start
  | cons action rest ih =>
    apply ih
    · rintro tree key bytes ⟨other, member, writes?⟩
      exact writes tree key bytes ⟨other, List.mem_cons_of_mem action member, writes?⟩
    · rcases act_cases time log? action files with ⟨-, same⟩ | ⟨key, bytes, own, after⟩
      · rwa [same]
      · rw [after]
        exact writes files key bytes ⟨action, List.mem_cons_self, own⟩ start

/-- Outside of the log, actions leave what the changes among them leave. -/
theorem find?_settle (excepted : Key → Prop) (logs : ∀ key, log? = some key → excepted key)
    (actions : List Action) (one two : FileTree)
    (agree : ∀ key, ¬excepted key → one.find? key = two.find? key) :
    ∀ key, ¬excepted key → (settle time log? actions one).find? key =
      (settle "" none (Action.changes actions) two).find? key := by
  induction actions generalizing one two with
  | nil => exact agree
  | cons action rest ih =>
    cases action with
    | logged record =>
      refine ih _ two fun key apart => ?_
      rw [← agree key apart]
      cases log? with
      | none => rfl
      | some log =>
        rw [act, FileTree.append, FileTree.find?_write, if_neg]
        rintro rfl
        exact apart (logs key rfl)
    | opened opened =>
      refine ih _ _ fun key apart => ?_
      rw [act, act, FileTree.find?_write, FileTree.find?_write, agree key apart]
    | written written bytes =>
      refine ih _ _ fun key apart => ?_
      rw [act, act, FileTree.append, FileTree.append, FileTree.find?_write, FileTree.find?_write,
        agree key apart]
      -- What is added to one of the two files is added to the other, or neither is looked at.
      split
      next same =>
        rw [← same, FileTree.contents, FileTree.contents, agree key apart]
      · rfl

/-- Without a log, actions leave what the changes among them leave. -/
theorem settle_unlogged (actions : List Action) (files : FileTree) :
    settle time none actions files = settle "" none (Action.changes actions) files := by
  induction actions generalizing files with
  | nil => rfl
  | cons action rest ih =>
    cases action with
    | logged record => exact ih files
    | opened key => exact ih _
    | written key bytes => exact ih _

/-- A file that is opened and written gets the bytes that are written. -/
theorem settle_delivery (key : Key) (bytes : List UInt8) (files : FileTree) :
    settle "" none [.opened key, .written key bytes] files = files.write key bytes :=
  files.append_emptied key bytes

/-- What a command writes is there in the end, if it is not the log. -/
theorem read_settle (actions : List Action) (files : FileTree) (path : Path) (key : Key)
    (bytes : List UInt8) (isFile : LogIsFile log? files) (opens : files.target path = .ok key)
    (apart : log? ≠ some key)
    (delivers : Action.changes actions = [.opened key, .written key bytes]) :
    (settle time log? actions files).read path = .ok bytes := by
  -- The log and the file are written to, and neither is a directory.
  have writes (action : Action) (member : action ∈ actions) (written : Key)
      (own : written? log? action = some written) : log? = some written ∨ written = key := by
    cases change : action.record? with
    | some record =>
      cases action with
      | logged _ => exact .inl own
      | _ => cases change
    | none =>
      have among : action ∈ Action.changes actions := List.mem_filter.mpr ⟨member, by simp [change]⟩
      rw [delivers] at among
      rcases List.mem_cons.mp among with rfl | last
      · exact .inr (Option.some.inj own).symm
      · obtain rfl := List.mem_singleton.mp last
        exact .inr (Option.some.inj own).symm
  have target : (settle time log? actions files).target path = .ok key ∧
      LogIsFile log? (settle time log? actions files) := by
    refine settle_keeps time log? (fun tree => tree.target path = .ok key ∧ LogIsFile log? tree)
      actions ?_ files ⟨opens, isFile⟩
    rintro tree written added ⟨action, member, own⟩ ⟨leads, logged⟩
    have noDirectory : tree.find? written ≠ some .directory := by
      rcases writes action member written own with log | rfl
      · exact logged written log
      · exact tree.noDirectory_of_target written path leads
    exact ⟨tree.target_write written added noDirectory path key leads,
      logIsFile_write log? tree written added logged⟩
  apply FileTree.read_of_find? _ key bytes path target.1
  rw [find?_settle time log? (log? = some ·) (fun _ => id) actions files files (fun _ _ => rfl) key
    apart, delivers, settle_delivery, FileTree.find?_write, if_pos rfl]

end Settling

end Tool

end WordMachine.CommandLine
