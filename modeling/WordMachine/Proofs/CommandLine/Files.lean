import WordMachine.CommandLine.FileTree

/-! Files that are written. A path that led somewhere before a file is written leads there
afterwards; the file itself then has the bytes that it was given, and every other file the bytes
that it had. -/
namespace WordMachine.CommandLine

/-- What a place knows of an entry: its key, and what is there under that. -/
def Place.known? : Place → Option (Key × Option Entry)
  | .directory => none
  | .file key bytes => some (key, some (.file bytes))
  | .absent key => some (key, none)

/-- What a place is once a file has been written under a key. -/
def Place.written (key : Key) (bytes : List UInt8) : Place → Place
  | .directory => .directory
  | .file other old => .file other (if other = key then bytes else old)
  | .absent other => if other = key then .file other bytes else .absent other

namespace FileTree

/-! ### Entries -/

section Entries

variable (key other : Key) (entry : Entry)

/-- An entry with the one of a key in its place, if it is of that key. -/
private def replaced (old : Key × Entry) : Key × Entry :=
  if old.1 == key then (key, entry) else old

private theorem lookup_replaced (entries : List (Key × Entry))
    (present : (entries.lookup key).isSome) :
    (entries.map (replaced key entry)).lookup key = some entry := by
  induction entries with
  | nil => cases present
  | cons first rest ih =>
    rw [List.map_cons, replaced]
    by_cases same : first.1 = key
    · simp [same]
    · have differs : (key == first.1) = false := beq_false_of_ne (Ne.symm same)
      rw [List.lookup_cons, differs] at present
      rw [if_neg (by simpa using same), List.lookup_cons, differs]
      exact ih present

private theorem lookup_replaced_of_ne (entries : List (Key × Entry)) (apart : other ≠ key) :
    (entries.map (replaced key entry)).lookup other = entries.lookup other := by
  induction entries with
  | nil => rfl
  | cons first rest ih =>
    rw [List.map_cons, List.lookup_cons, List.lookup_cons, ih, replaced]
    by_cases same : first.1 = key
    · have differs : (other == key) = false := beq_false_of_ne apart
      simp [same, differs]
    · simp [same]

theorem find?_put (tree : FileTree) :
    (tree.put key entry).find? other = if other = key then some entry else tree.find? other := by
  unfold put
  cases found : tree.find? key with
  | none =>
    simp only [find?, List.lookup_append] at found ⊢
    by_cases same : other = key
    · simp [same, found]
    · have differs : (other == key) = false := beq_false_of_ne same
      simp [same, List.lookup_cons, differs]
  | some old =>
    have present : (tree.entries.lookup key).isSome := by
      rw [← find?, found]
      rfl
    by_cases same : other = key
    · rw [if_pos same, same]
      exact lookup_replaced key entry tree.entries present
    · rw [if_neg same]
      exact lookup_replaced_of_ne key other entry tree.entries same

private theorem map_replaced_of_absent (entries : List (Key × Entry))
    (absent : entries.lookup key = none) : entries.map (replaced key entry) = entries := by
  induction entries with
  | nil => rfl
  | cons first rest ih =>
    rw [List.lookup_cons] at absent
    cases same : key == first.1 with
    | true =>
      rw [same] at absent
      cases absent
    | false =>
      rw [same] at absent
      have kept : replaced key entry first = first := if_neg (by rw [BEq.comm, same]; nofun)
      rw [List.map_cons, kept, ih absent]

private theorem replaced_replaced (first : Entry) (old : Key × Entry) :
    replaced key entry (replaced key first old) = replaced key entry old := by
  unfold replaced
  by_cases same : old.1 == key
  · simp only [if_pos same, beq_self_eq_true, if_true]
  · simp only [if_neg same]

/-- Of two entries that are put under one key the second remains. -/
theorem put_put (tree : FileTree) (first : Entry) :
    (tree.put key first).put key entry = tree.put key entry := by
  have present : (tree.put key first).find? key = some first := by rw [find?_put, if_pos rfl]
  have again : (tree.put key first).put key entry =
      ⟨(tree.put key first).entries.map (replaced key entry)⟩ := by
    rw [put, present]
    rfl
  rw [again, put, put]
  cases found : tree.find? key with
  | none =>
    have kept := map_replaced_of_absent key entry tree.entries found
    simp [kept, replaced]
  | some old =>
    simp only [List.map_map]
    congr 1
    exact List.map_congr_left fun old _ => replaced_replaced key entry first old

end Entries

/-! ### Paths -/

section Paths

variable (tree : FileTree) (key : Key) (bytes : List UInt8)

theorem find?_write (other : Key) :
    (tree.write key bytes).find? other =
      if other = key then some (.file bytes) else tree.find? other :=
  find?_put key other (.file bytes) tree

/-- A file that is made empty, and then has bytes added to it, has these bytes. -/
theorem append_emptied : (tree.write key []).append key bytes = tree.write key bytes := by
  have empty : (tree.write key []).contents key = [] := by
    rw [contents, find?_write, if_pos rfl]
  rw [append, empty, List.nil_append]
  exact put_put key (.file bytes) tree (.file [])

/-- Everything that following a name does on the way to a place: a step up, a step into a directory,
or the last step to what is there or to what is not. -/
theorem follow_cases (start : Key) (name : List Char) (rest : List (List Char)) (place : Place)
    (leads : tree.follow start (name :: rest) = .ok place) :
    (name = Path.above ∧ tree.follow (above start) rest = .ok place) ∨
    (name ≠ Path.above ∧ ¬nameLimit < (Utf8.encode name).length ∧
      ((tree.find? (start ++ [name]) = some .directory ∧
          tree.follow (start ++ [name]) rest = .ok place) ∨
        (rest = [] ∧ ∃ old, tree.find? (start ++ [name]) = some (.file old) ∧
          place = .file (start ++ [name]) old) ∨
        (rest = [] ∧ tree.find? (start ++ [name]) = none ∧
          place = .absent (start ++ [name])))) := by
  unfold follow at leads
  split at leads
  next up => exact .inl ⟨up, leads⟩
  next plain =>
    refine .inr ⟨plain, ?_⟩
    split at leads
    · cases leads
    next short =>
      refine ⟨short, ?_⟩
      simp only at leads
      split at leads
      next found => exact .inl ⟨found, leads⟩
      next old found =>
        -- A file ends the way.
        split at leads
        next last =>
          cases leads
          exact .inr (.inl ⟨List.isEmpty_iff.mp last, old, found, rfl⟩)
        · cases leads
      next found =>
        split at leads
        next last =>
          cases leads
          exact .inr (.inr ⟨List.isEmpty_iff.mp last, found, rfl⟩)
        · cases leads

/-- A file that does not take the place of a directory is in nobody's way. -/
theorem follow_write (noDirectory : tree.find? key ≠ some .directory) (start : Key)
    (names : List (List Char)) (place : Place) (leads : tree.follow start names = .ok place) :
    (tree.write key bytes).follow start names = .ok (place.written key bytes) := by
  induction names generalizing start with
  | nil =>
    cases leads
    rfl
  | cons name rest ih =>
    rcases tree.follow_cases start name rest place leads with ⟨up, onwards⟩ | ⟨plain, short, step⟩
    · rw [follow, if_pos up]
      exact ih _ onwards
    · rw [follow, if_neg plain, if_neg short]
      simp only [find?_write]
      rcases step with ⟨found, onwards⟩ | ⟨rfl, old, found, rfl⟩ | ⟨rfl, found, rfl⟩
      · -- What is a directory is not the file that was written.
        have other : start ++ [name] ≠ key := by
          intro same
          apply noDirectory
          rw [← same, found]
        simp only [if_neg other, found]
        exact ih _ onwards
      · by_cases same : start ++ [name] = key
        · simp [same, Place.written]
        · simp [same, found, Place.written]
      · by_cases same : start ++ [name] = key
        · simp [same, Place.written]
        · simp [same, found, Place.written]

/-- Names lead on from an entry that is not there. -/
def LeadsOn (start : Key) (names : List (List Char)) : Prop :=
  ∃ front back, names = front ++ back ∧ back ≠ [] ∧ tree.follow start front = .ok (.absent key)

/-- A step that is taken in front of names that lead on. -/
theorem LeadsOn.cons {tree : FileTree} {key next : Key} {rest : List (List Char)}
    (leads : tree.LeadsOn key next rest) (start : Key) (name : List Char)
    (step : ∀ names, tree.follow start (name :: names) = tree.follow next names) :
    tree.LeadsOn key start (name :: rest) := by
  obtain ⟨front, back, rfl, more, absent⟩ := leads
  exact ⟨name :: front, back, rfl, more, (step front).trans absent⟩

/-- Names that lead on from an entry that is not there lead nowhere. -/
theorem LeadsOn.fails {tree : FileTree} {key start : Key} {names : List (List Char)}
    (leads : tree.LeadsOn key start names) : tree.follow start names = .error .notFound := by
  obtain ⟨front, back, rfl, more, absent⟩ := leads
  induction front generalizing start with
  | nil => cases absent
  | cons name rest ih =>
    rcases tree.follow_cases start name rest _ absent with ⟨up, onwards⟩ | ⟨plain, short, step⟩
    · rw [List.cons_append, follow, if_pos up]
      exact ih onwards
    · rw [List.cons_append, follow, if_neg plain, if_neg short]
      rcases step with ⟨found, onwards⟩ | ⟨-, old, -, ⟨⟩⟩ | ⟨rfl, found, -⟩
      · simp only [found]
        exact ih onwards
      · simp only [found, List.nil_append, if_neg (mt List.isEmpty_iff.mp more)]

/-- What a place knows of an entry is so. -/
theorem find?_of_follow (start : Key) (names : List (List Char)) (place : Place)
    (leads : tree.follow start names = .ok place) (present? : Option Entry)
    (known : place.known? = some (key, present?)) : tree.find? key = present? := by
  induction names generalizing start with
  | nil =>
    cases leads
    cases known
  | cons name rest ih =>
    rcases tree.follow_cases start name rest place leads with ⟨-, onwards⟩ | ⟨-, -, step⟩
    · exact ih _ onwards
    · rcases step with ⟨-, onwards⟩ | ⟨-, old, found, rfl⟩ | ⟨-, found, rfl⟩
      · exact ih _ onwards
      · cases known
        exact found
      · cases known
        exact found

/-! ### Files -/

theorem locate_write (noDirectory : tree.find? key ≠ some .directory) (path : Path) (place : Place)
    (leads : tree.locate path = .ok place) :
    (tree.write key bytes).locate path = .ok (place.written key bytes) := by
  unfold locate at leads ⊢
  split at leads
  · cases leads
  next plain =>
    split at leads
    · cases leads
    next short =>
      rw [if_neg plain, if_neg short]
      exact tree.follow_write key bytes noDirectory _ _ place leads

/-- A path leads on from an entry that is not there. -/
def LeadsThrough (path : Path) : Prop :=
  tree.LeadsOn key (if path.root = 0 then [] else [rootName]) path.names

/-- A path that leads on from where nothing is leads nowhere. -/
theorem LeadsThrough.fails {tree : FileTree} {key : Key} {path : Path}
    (through : tree.LeadsThrough key path) : ∃ fault, tree.locate path = .error fault := by
  unfold locate
  split
  · exact ⟨_, rfl⟩
  · split
    · exact ⟨_, rfl⟩
    · exact ⟨_, LeadsOn.fails through⟩

theorem find?_of_locate (path : Path) (place : Place) (leads : tree.locate path = .ok place)
    (present? : Option Entry) (known : place.known? = some (key, present?)) :
    tree.find? key = present? := by
  unfold locate at leads
  split at leads
  · cases leads
  · split at leads
    · cases leads
    · exact tree.find?_of_follow key _ _ place leads present? known

/-- A file that can be written is there already, or its path leads to no entry yet. -/
theorem target_cases (path : Path) (opens : tree.target path = .ok key) :
    (∃ old, tree.locate path = .ok (.file key old)) ∨ tree.locate path = .ok (.absent key) := by
  unfold target at opens
  split at opens
  next other old leads =>
    cases opens
    exact .inl ⟨old, leads⟩
  next other leads =>
    cases opens
    exact .inr leads
  · cases opens
  · cases opens

theorem noDirectory_of_target (path : Path) (opens : tree.target path = .ok key) :
    tree.find? key ≠ some .directory := by
  rcases tree.target_cases key path opens with ⟨old, leads⟩ | leads
  · rw [tree.find?_of_locate key path _ leads (some (.file old)) rfl]
    nofun
  · rw [tree.find?_of_locate key path _ leads none rfl]
    nofun

theorem read_cases (path : Path) (old : List UInt8) (reads : tree.read path = .ok old) :
    ∃ other, tree.locate path = .ok (.file other old) := by
  unfold read at reads
  split at reads
  next other found leads =>
    cases reads
    exact ⟨other, leads⟩
  · cases reads
  · cases reads
  · cases reads

/-- A path to a file that can be written leads to the same file past one that is written. -/
theorem target_write (noDirectory : tree.find? key ≠ some .directory) (path : Path) (other : Key)
    (opens : tree.target path = .ok other) : (tree.write key bytes).target path = .ok other := by
  have after (place : Place) (leads : tree.locate path = .ok place) :=
    tree.locate_write key bytes noDirectory path place leads
  rcases tree.target_cases other path opens with ⟨old, leads⟩ | leads
  · rw [target, after _ leads]
    rfl
  · by_cases same : other = key
    · rw [target, after _ leads, Place.written, if_pos same]
    · rw [target, after _ leads, Place.written, if_neg same]

/-- A path to a file that can be written reads the bytes that are there. -/
theorem read_of_find? (path : Path) (opens : tree.target path = .ok key)
    (found : tree.find? key = some (.file bytes)) : tree.read path = .ok bytes := by
  rcases tree.target_cases key path opens with ⟨old, leads⟩ | leads
  · have known := tree.find?_of_locate key path _ leads (some (.file old)) rfl
    cases found.symm.trans known
    rw [read, leads]
  · have absent := tree.find?_of_locate key path _ leads none rfl
    cases found.symm.trans absent

/-- A file that was written has the bytes that it was given. -/
theorem read_written (path : Path) (opens : tree.target path = .ok key) :
    (tree.write key bytes).read path = .ok bytes := by
  have noDirectory := tree.noDirectory_of_target key path opens
  apply (tree.write key bytes).read_of_find? key bytes path
  · exact tree.target_write key bytes noDirectory path key opens
  · rw [find?_write, if_pos rfl]

/-- Every other file has the bytes that it had. -/
theorem read_write (path other : Path) (opens : tree.target path = .ok key)
    (apart : tree.target other ≠ tree.target path) (old : List UInt8)
    (reads : tree.read other = .ok old) : (tree.write key bytes).read other = .ok old := by
  have noDirectory := tree.noDirectory_of_target key path opens
  -- The path leads to a file, which would be the target of the other path if it was the same.
  obtain ⟨own, leads⟩ := tree.read_cases other old reads
  have differs : own ≠ key := by
    rintro rfl
    apply apart
    rw [opens, target, leads]
  have after := tree.locate_write key bytes noDirectory other _ leads
  simp only [read, after, Place.written, if_neg differs]

end Paths

end FileTree

end WordMachine.CommandLine
