import WordMachine.Proofs.Assembly.Acceptance

/-! Sources joined at a line end. When two that share no label are assembled by themselves, so is
the joined one, and its program is the first followed by the second moved behind it: the labels of
the second lie further by the length of the first, the words in which they stand do too, and nothing
else differs. -/
namespace WordMachine.Assembly

open WordMachine.Text

/-! ### Whose a word is -/

/-- The operand that each word of a statement is a next word of; the instruction word is of none. -/
def Statement.owners (statement : Statement) : List (Option (List Char)) :=
  none :: statement.operands.flatMap fun token =>
    List.replicate (Operand.ofToken token).size (some token)

/-- The operand that each word of statements is a next word of, in order. -/
def owners (given : List Statement) : List (Option (List Char)) := given.flatMap Statement.owners

theorem operand_of_mem_owners (given : List Statement) (token : List Char)
    (member : some token ∈ owners given) :
    ∃ statement ∈ given, token ∈ statement.operands := by
  obtain ⟨statement, present, owned⟩ := List.mem_flatMap.mp member
  rcases List.mem_cons.mp owned with instruction | operand
  · cases instruction
  · obtain ⟨other, written, same⟩ := List.mem_flatMap.mp operand
    obtain rfl := Option.some.inj (List.eq_of_mem_replicate same)
    exact ⟨statement, present, written⟩

/-- A word is the next word of the operand that it belongs to. -/
def Produced (labels : Labels) (owner? : Option (List Char)) (word : Word) : Prop :=
  ∀ token, owner? = some token → ∃ mode, encodeOperand labels token = .ok (mode, [word])

private theorem produced_of_operands (labels : Labels) (tokens : List (List Char))
    (parts : List (Mode × List Word))
    (operands : List.Forall₂ (fun token part => encodeOperand labels token = .ok part)
      tokens parts) :
    List.Forall₂ (Produced labels)
      (tokens.flatMap fun token => List.replicate (Operand.ofToken token).size (some token))
      (parts.flatMap Prod.snd) := by
  induction operands with
  | nil => exact .nil
  | @cons token part tokens parts one _ ih =>
    obtain ⟨mode, next⟩ := part
    rw [List.flatMap_cons, List.flatMap_cons, ← (length_next labels token mode next one).1]
    refine List.rel_append ?_ ih
    -- An operand has one next word or none.
    have short : next.length ≤ 1 := by
      rw [(length_next labels token mode next one).1]
      cases Operand.ofToken token <;> simp [Operand.size]
    match next, short with
    | [], _ => exact .nil
    | [word], _ =>
      refine .cons ?_ .nil
      rintro _ ⟨⟩
      exact ⟨mode, one⟩

theorem produced_of_encode (labels : Labels) (statement : Statement) (words : List Word)
    (encoded : statement.encode labels = .ok words) :
    List.Forall₂ (Produced labels) statement.owners words := by
  obtain ⟨instruction, operation, parts, -, -, operands, -, rfl⟩ :=
    encode_ok labels statement words encoded
  exact .cons nofun (produced_of_operands labels _ parts operands)

theorem produced_of_encodings (labels : Labels) (given : List Statement)
    (blocks : List (List Word))
    (encoded : List.Forall₂ (fun statement block => statement.encode labels = .ok block)
      given blocks) :
    List.Forall₂ (Produced labels) (owners given) blocks.flatten := by
  induction encoded with
  | nil => exact .nil
  | cons one _ ih => exact List.rel_append (produced_of_encode labels _ _ one) ih

/-! ### Moved labels -/

/-- Labels with each address further by an offset. -/
def Labels.move (labels : Labels) (offset : Nat) : Labels :=
  labels.map fun entry => (entry.1, entry.2 + offset)

/-- Labels are known among others, each at an address further by an offset. -/
def Labels.MoveTo (labels : Labels) (offset : Nat) (others : Labels) : Prop :=
  ∀ name address, labels.lookup name = some address → others.lookup name = some (address + offset)

/-- The word that a word becomes when labels move: one in which a label stands moves with it. -/
def moveWord (offset : Nat) (owner? : Option (List Char)) (word : Word) : Word :=
  match owner?.bind fun token => (Operand.ofToken token).value? with
  | some (.label _) => word + BitVec.ofNat 16 offset
  | _ => word

private theorem moveWord_some (offset : Nat) (token : List Char) (word : Word) :
    moveWord offset (some token) word = match (Operand.ofToken token).value? with
      | some (.label _) => word + BitVec.ofNat 16 offset
      | _ => word :=
  rfl

theorem moveWord_zero (owner? : Option (List Char)) (word : Word) :
    moveWord 0 owner? word = word := by
  unfold moveWord
  split
  · exact BitVec.add_zero word
  · rfl

theorem zipWith_moveWord_zero (owned : List (Option (List Char))) (words : List Word)
    (aligned : owned.length = words.length) : List.zipWith (moveWord 0) owned words = words := by
  induction owned generalizing words with
  | nil => exact (List.length_eq_zero_iff.mp aligned.symm).symm ▸ rfl
  | cons owner? rest ih =>
    obtain ⟨word, words, rfl⟩ := List.exists_cons_of_length_eq_add_one aligned.symm
    rw [List.zipWith_cons_cons, moveWord_zero, ih words (Nat.succ.inj aligned)]

/-- An operand that is encoded with some labels is encoded in the same mode with moved ones. -/
theorem encodeOperand_of_moveTo (labels others : Labels) (offset : Nat)
    (moves : labels.MoveTo offset others) (token : List Char) (mode : Mode) (next : List Word)
    (encoded : encodeOperand labels token = .ok (mode, next)) :
    encodeOperand others token = .ok (mode, next.map (moveWord offset (some token))) := by
  simp only [encodeOperand, Operand.words?] at encoded ⊢
  cases holds : (Operand.ofToken token).value? with
  | none =>
    rw [holds] at encoded
    cases encoded
    rfl
  | some value =>
    rw [holds] at encoded
    cases value with
    | number n =>
      cases encoded
      simp only [Value.word?, Option.map_some, List.map_cons, List.map_nil, moveWord_some, holds]
    | label name =>
      simp only [Value.word?] at encoded ⊢
      cases known : labels.lookup name with
      | none =>
        rw [known] at encoded
        cases encoded
      | some address =>
        rw [known] at encoded
        cases encoded
        simp only [moves name address known, Option.map_some, List.map_cons, List.map_nil,
          moveWord_some, holds, BitVec.ofNat_add]

private theorem zipWith_replicate {α β γ : Type} (f : α → β → γ) (a : α) (others : List β) :
    List.zipWith f (List.replicate others.length a) others = others.map (f a) := by
  induction others with
  | nil => rfl
  | cons b rest ih =>
    rw [List.length_cons, List.replicate_succ, List.zipWith_cons_cons, ih, List.map_cons]

/-- Of the words of a statement, the instruction word stays and the next words of the operands are
moved one operand after the other. -/
private theorem zipWith_owners (labels : Labels) (offset : Nat) (mnemonic : List Char)
    (tokens : List (List Char)) (parts : List (Mode × List Word))
    (operands : List.Forall₂ (fun token part => encodeOperand labels token = .ok part)
      tokens parts) (first : Word) :
    List.zipWith (moveWord offset) (Statement.owners ⟨mnemonic, tokens⟩)
        (first :: parts.flatMap Prod.snd) =
      first :: (tokens.zip parts).flatMap fun pair =>
        pair.2.2.map (moveWord offset (some pair.1)) := by
  refine congrArg (first :: ·) ?_
  induction operands with
  | nil => rfl
  | @cons token part tokens parts one _ ih =>
    have sized := (length_next labels token part.1 part.2 one).1
    rw [List.flatMap_cons, List.flatMap_cons, List.zip_cons_cons, List.flatMap_cons, ← sized,
      List.zipWith_append List.length_replicate, zipWith_replicate, ih]

/-- A statement that is encoded with some labels is encoded with moved ones, its words moved. -/
theorem encode_of_moveTo (labels others : Labels) (offset : Nat)
    (moves : labels.MoveTo offset others) (statement : Statement) (words : List Word)
    (encoded : statement.encode labels = .ok words) :
    statement.encode others = .ok (List.zipWith (moveWord offset) statement.owners words) := by
  have operand := encodeOperand_of_moveTo labels others offset moves
  obtain ⟨mnemonic, operands⟩ := statement
  have whole := zipWith_owners labels offset mnemonic
  unfold Statement.encode at encoded ⊢
  simp only at encoded ⊢
  split at encoded
  · cases encoded
  · split at encoded
    next target =>
      obtain ⟨⟨b, nextB⟩, second, encoded⟩ := bind_eq_ok _ _ _ encoded
      cases encoded
      have moved := whole [target] [(b, nextB)] (.cons second .nil)
      simp only [List.flatMap_cons, List.flatMap_nil, List.append_nil, List.zip_cons_cons,
        List.zip_nil_left] at moved
      rw [operand _ _ _ second, moved]
      rfl
    · cases encoded
  · split at encoded
    next first last =>
      obtain ⟨⟨a, nextA⟩, one, encoded⟩ := bind_eq_ok _ _ _ encoded
      obtain ⟨⟨b, nextB⟩, two, encoded⟩ := bind_eq_ok _ _ _ encoded
      cases encoded
      have moved := whole [first, last] [(a, nextA), (b, nextB)] (.cons one (.cons two .nil))
      simp only [List.flatMap_cons, List.flatMap_nil, List.append_nil, List.zip_cons_cons,
        List.zip_nil_left] at moved
      rw [operand _ _ _ one, operand _ _ _ two, moved]
      rfl
    · cases encoded

/-! ### Moved statements -/

/-- Statements that can be encoded have encodings. -/
theorem encodings_of_encodable (labels : Labels) (lines : List Line)
    (encodable : Encodable labels lines) :
    ∃ blocks, List.Forall₂ (fun statement block => statement.encode labels = .ok block)
      (statements lines) blocks := by
  induction lines with
  | nil => exact ⟨[], .nil⟩
  | cons line rest ih =>
    obtain ⟨own, others⟩ := encodable_cons.mp encodable
    obtain ⟨blocks, encoded⟩ := ih others
    rw [statements_cons]
    cases holds : line.statement? with
    | none => exact ⟨blocks, encoded⟩
    | some statement =>
      obtain ⟨words, one⟩ := own statement holds
      exact ⟨words :: blocks, .cons one encoded⟩

theorem encodings_of_moveTo (labels others : Labels) (offset : Nat)
    (moves : labels.MoveTo offset others) (given : List Statement) (blocks : List (List Word))
    (encoded : List.Forall₂ (fun statement block => statement.encode labels = .ok block)
      given blocks) :
    ∃ moved, List.Forall₂ (fun statement block => statement.encode others = .ok block)
        given moved ∧
      moved.flatten = List.zipWith (moveWord offset) (owners given) blocks.flatten := by
  induction encoded with
  | nil => exact ⟨[], .nil, rfl⟩
  | @cons statement block given blocks one _ ih =>
    obtain ⟨moved, all, words⟩ := ih
    refine ⟨_ :: moved, .cons (encode_of_moveTo labels others offset moves _ _ one) all, ?_⟩
    have aligned := (produced_of_encode labels statement block one).length_eq
    rw [List.flatten_cons, List.flatten_cons, words, owners, owners, List.flatMap_cons,
      List.zipWith_append aligned]

/-- Lines that can be encoded with some labels can be encoded with moved ones. -/
theorem code_of_moveTo (labels others : Labels) (offset : Nat)
    (moves : labels.MoveTo offset others) (lines : List Line)
    (encodable : Encodable labels lines) :
    List.Forall₂ (Produced labels) (owners (statements lines)) (code labels lines) ∧
      ∃ moved, List.Forall₂ (fun statement block => statement.encode others = .ok block)
          (statements lines) moved ∧
        moved.flatten =
          List.zipWith (moveWord offset) (owners (statements lines)) (code labels lines) := by
  obtain ⟨blocks, encoded⟩ := encodings_of_encodable labels lines encodable
  rw [(code_of_encodings labels lines blocks encoded).2]
  exact ⟨produced_of_encodings labels _ blocks encoded,
    encodings_of_moveTo labels others offset moves _ blocks encoded⟩

/-! ### Joined sources -/

theorem lines_join (first second : List Char) :
    lines (first ++ '\n' :: second) = lines first ++ lines second :=
  List.splitOn_append_cons_self first second

/-- The lines of a joined source say what those of its parts say. -/
theorem parse_join (first second : List Char) (front back : List Line)
    (readFirst : parse first = .ok front) (readSecond : parse second = .ok back) :
    ∃ lines, parse (first ++ '\n' :: second) = .ok lines ∧
      lines.map Line.part = (front ++ back).map Line.part := by
  rw [parse, lines_join, parseLines_iff, List.map_append]
  exact List.rel_append ((parseLines_iff 1 _ _).mp ⟨front, readFirst, rfl⟩)
    ((parseLines_iff 1 _ _).mp ⟨back, readSecond, rfl⟩)

theorem declared_of_part (address : Nat) (lines others : List Line)
    (same : lines.map Line.part = others.map Line.part) :
    declared address lines = declared address others := by
  induction lines generalizing address others with
  | nil =>
    rw [List.map_nil, eq_comm, List.map_eq_nil_iff] at same
    rw [same]
  | cons line rest ih =>
    obtain ⟨other, others, rfl, part, parts⟩ := List.map_eq_cons_iff.mp same.symm
    obtain ⟨label, statement⟩ := Prod.mk.inj part
    simp only [declared, label, Line.size, statement, ih _ others parts.symm]

theorem declared_add (address offset : Nat) (lines : List Line) :
    declared (address + offset) lines = Labels.move (declared address lines) offset := by
  induction lines generalizing address with
  | nil => rfl
  | cons line rest ih =>
    have next : address + offset + line.size = address + line.size + offset := by omega
    rw [declared, declared, next, ih, Labels.move, Labels.move, List.map_append]
    cases line.label? <;> rfl

theorem Labels.lookup_move (labels : Labels) (offset : Nat) (name : List Char) :
    (labels.move offset).lookup name = (labels.lookup name).map (· + offset) := by
  induction labels with
  | nil => rfl
  | cons entry rest ih =>
    rw [move] at ih ⊢
    rw [List.map_cons, List.lookup_cons, List.lookup_cons, ih]
    cases name == entry.1 <;> rfl

theorem mem_of_lookup (labels : Labels) (name : List Char) (address : Nat)
    (known : labels.lookup name = some address) : name ∈ labels.map Prod.fst := by
  obtain ⟨front, back, rfl, -⟩ := List.lookup_eq_some_iff.mp known
  simp

/-- Of two lists of labels that share no name, each is known in the one followed by the other. -/
theorem moveTo_append (front back : Labels) (offset : Nat)
    (apart : (front.map Prod.fst).Disjoint (back.map Prod.fst)) :
    front.MoveTo 0 (front ++ back.move offset) ∧
      back.MoveTo offset (front ++ back.move offset) := by
  constructor
  · intro name address known
    rw [List.lookup_append, known, Option.some_or, Nat.add_zero]
  · intro name address known
    have absent : front.lookup name = none := by
      cases other : front.lookup name with
      | none => rfl
      | some _ =>
        exact absurd (mem_of_lookup back name address known)
          (apart (mem_of_lookup front name _ other))
    rw [List.lookup_append, absent, Option.none_or, Labels.lookup_move, known, Option.map_some]

theorem Labels.Sound.append_moved {front back : Labels} (soundFront : front.Sound)
    (soundBack : back.Sound) (offset : Nat)
    (apart : (front.map Prod.fst).Disjoint (back.map Prod.fst)) :
    Labels.Sound (front ++ back.move offset) := by
  constructor
  · rw [List.map_append, Labels.move, List.map_map]
    exact List.Nodup.append soundFront.distinct soundBack.distinct apart
  · intro entry member
    rcases List.mem_append.mp member with early | late
    · exact soundFront.referable entry early
    · obtain ⟨entry, present, rfl⟩ := List.mem_map.mp late
      exact soundBack.referable entry present

/-- The first pass finds no error in lines that declare sound labels. -/
theorem scan_clean_of_declared (lines : List Line) (labels : Labels)
    (declares : declared 0 lines = labels) (sound : labels.Sound) :
    (scan lines).error? = none := by
  have names : lines.filterMap (·.label?) = labels.map Prod.fst := by
    rw [← map_fst_declared 0 lines, declares]
  refine scanFrom_clean [] 0 lines ?_ ?_
  · rw [List.map_nil, List.nil_append, names]
    exact sound.distinct
  · rw [names]
    intro name member
    obtain ⟨entry, present, rfl⟩ := List.mem_map.mp member
    exact ⟨(sound.referable entry present).noKeyword, (sound.referable entry present).noNumber⟩

/-- The words of a program, and what becomes of them in one that it is moved into. -/
structure Moved (given : List Statement) (labels : Labels) (offset : Nat)
    (words moved : List Word) : Prop where
  produced : List.Forall₂ (Produced labels) (owners given) words
  length : moved.length = words.length
  /-- The next word of an operand that mentions a label is the address of the label. -/
  mentioned : ∀ (position : Nat) token name address,
    (owners given)[position]? = some (some token) →
    Mentions name token → labels.lookup name = some address →
    words[position]? = some (BitVec.ofNat 16 address) ∧
      moved[position]? = some (BitVec.ofNat 16 (address + offset))
  /-- All other words stay. -/
  kept : ∀ position : Nat, (∀ token name, (owners given)[position]? = some (some token) →
    name ∈ labels.map Prod.fst → ¬Mentions name token) → moved[position]? = words[position]?

/-- An operand whose value is a label mentions it. -/
theorem mentions_of_value (token name : List Char)
    (holds : (Operand.ofToken token).value? = some (.label name)) : Mentions name token := by
  have named (text : List Char) (label : Value.ofText text = .label name) : text = name := by
    unfold Value.ofText at label
    split at label
    · cases label
    · exact Value.label.inj label
  rcases ofToken_cases token with ⟨mode, -, read⟩ | read | ⟨inner, rfl, read⟩ |
    ⟨value, index, r, rfl, register, read⟩ | ⟨index, value, r, rfl, register, read⟩
  · rw [read] at holds
    cases holds
  all_goals rw [read] at holds
  · obtain rfl := named token (Option.some.inj holds)
    exact .bare
  · obtain rfl := named inner (Option.some.inj holds)
    exact .bracketed
  · obtain rfl := named value (Option.some.inj holds)
    exact .sumRight register
  · obtain rfl := named value (Option.some.inj holds)
    exact .sumLeft register

/-- Only a word in which a label stands moves. -/
theorem moveWord_of_not_mentions (labels : Labels) (offset : Nat) (owner? : Option (List Char))
    (word : Word) (produced : Produced labels owner? word)
    (silent : ∀ token name, owner? = some token → name ∈ labels.map Prod.fst →
      ¬Mentions name token) : moveWord offset owner? word = word := by
  unfold moveWord
  split
  next name value =>
    obtain ⟨token, rfl, holds⟩ := Option.bind_eq_some_iff.mp value
    obtain ⟨mode, encoded⟩ := produced token rfl
    -- The label is declared, or the operand could not have been encoded.
    have declared : name ∈ labels.map Prod.fst := by
      simp only [encodeOperand, Operand.words?, holds, Value.word?] at encoded
      cases known : labels.lookup name with
      | none =>
        rw [known] at encoded
        cases encoded
      | some address => exact mem_of_lookup labels name address known
    exact absurd (mentions_of_value token name holds) (silent token name rfl declared)
  · rfl

theorem moved_of_moveTo (labels others : Labels) (offset : Nat)
    (moves : labels.MoveTo offset others) (referable : others.AllReferable)
    (given : List Statement) (words : List Word)
    (produced : List.Forall₂ (Produced labels) (owners given) words) :
    Moved given labels offset words (List.zipWith (moveWord offset) (owners given) words) := by
  have own : labels.AllReferable := fun name address known =>
    referable name _ (moves name address known)
  have at_position (position : Nat) (owner? : Option (List Char))
      (owned : (owners given)[position]? = some owner?) :
      ∃ word, words[position]? = some word ∧ Produced labels owner? word := by
    obtain ⟨within, rfl⟩ := List.getElem?_eq_some_iff.mp owned
    have also := produced.length_eq ▸ within
    exact ⟨words[position], List.getElem?_eq_getElem also, produced.get within also⟩
  refine ⟨produced, ?_, ?_, ?_⟩
  · rw [List.length_zipWith, produced.length_eq, Nat.min_self]
  · intro position token name address owned mentions known
    obtain ⟨word, placed, one⟩ := at_position position _ owned
    obtain ⟨mode, encoded⟩ := one token rfl
    have before := next_of_mentions labels own token name address mode _ mentions known encoded
    have after := next_of_mentions others referable token name (address + offset) mode _ mentions
      (moves name address known) (encodeOperand_of_moveTo labels others offset moves _ _ _ encoded)
    rw [List.getElem?_zipWith, owned, placed]
    exact ⟨congrArg List.head? before, congrArg List.head? after⟩
  · intro position silent
    cases owned : (owners given)[position]? with
    | none =>
      have past := produced.length_eq ▸ List.getElem?_eq_none_iff.mp owned
      rw [List.getElem?_zipWith, owned, List.getElem?_eq_none_iff.mpr past]
    | some owner? =>
      obtain ⟨word, placed, one⟩ := at_position position owner? owned
      rw [List.getElem?_zipWith, owned, placed]
      refine congrArg some (moveWord_of_not_mentions labels offset owner? word one ?_)
      rintro token name rfl
      exact silent token name owned

/-- Lines that declare sound labels are assembled when these are enough to encode them. -/
theorem assemble_of_encodings (session : Session) (source : List Char) (lines : List Line)
    (labels : Labels) (blocks : List (List Word)) (read : parse source = .ok lines)
    (declares : declared 0 lines = labels) (sound : labels.Sound)
    (encoded : List.Forall₂ (fun statement block => statement.encode labels = .ok block)
      (statements lines) blocks) :
    (session.assemble source).1 = .ok ⟨blocks.flatten, labels⟩ := by
  have scanned := scan_clean_of_declared lines labels declares sound
  have table : (scan lines).labels = labels := by
    rw [declared_of_scan lines scanned, declares]
  obtain ⟨encodable, words⟩ := code_of_encodings labels lines blocks encoded
  rw [← table] at encodable words ⊢
  rw [assemble_of_encodable session source lines read scanned encodable, words]

/-- Sources that are assembled by themselves and share no label are assembled when they are joined
at a line end. The program is that of the first followed by that of the second, with the labels of
the second and the words in which they stand moved by the length of the first; without any such word
it is the one after the other. -/
theorem assemble_join (session : Session) (first second : List Char) (front back : Program)
    (assembledFirst : (session.assemble first).1 = .ok front)
    (assembledSecond : (session.assemble second).1 = .ok back)
    (apart : (front.labels.map Prod.fst).Disjoint (back.labels.map Prod.fst)) :
    ∃ lines moved, parse second = .ok lines ∧
      (session.assemble (first ++ '\n' :: second)).1 = .ok ⟨front.words ++ moved,
        front.labels ++ Labels.move back.labels front.words.length⟩ ∧
      Moved (statements lines) back.labels front.words.length back.words moved ∧
      ((∀ statement ∈ statements lines, ∀ token ∈ statement.operands,
        ∀ name ∈ back.labels.map Prod.fst, ¬Mentions name token) → moved = back.words) := by
  obtain ⟨early, readFirst, soundFirst, encodableFirst, wordsFirst⟩ :=
    assemble_ok session first front assembledFirst
  obtain ⟨late, readSecond, soundSecond, encodableSecond, wordsSecond⟩ :=
    assemble_ok session second back assembledSecond
  obtain ⟨lines, read, same⟩ := parse_join first second early late readFirst readSecond
  have labelsFirst := labels_of_assemble session first front assembledFirst early readFirst
  have labelsSecond := labels_of_assemble session second back assembledSecond late readSecond
  have sized : front.words.length = (early.map Line.size).sum := by
    rw [wordsFirst, length_code _ early encodableFirst]
  have declares : declared 0 lines =
      front.labels ++ Labels.move back.labels front.words.length := by
    rw [declared_of_part 0 lines _ same, declared_append, declared_add, ← labelsFirst,
      ← labelsSecond, sized]
  have sound := soundFirst.append_moved soundSecond front.words.length apart
  have said : statements lines = statements early ++ statements late := by
    have parts := congrArg (List.filterMap Prod.snd) same
    rwa [List.filterMap_map, List.filterMap_map, List.filterMap_append] at parts
  obtain ⟨movesFirst, movesSecond⟩ :=
    moveTo_append front.labels back.labels front.words.length apart
  obtain ⟨ownFirst, blocksFirst, againFirst, flatFirst⟩ :=
    code_of_moveTo _ _ _ movesFirst early encodableFirst
  obtain ⟨ownSecond, blocksSecond, againSecond, flatSecond⟩ :=
    code_of_moveTo _ _ _ movesSecond late encodableSecond
  rw [← wordsFirst] at ownFirst flatFirst
  rw [← wordsSecond] at ownSecond flatSecond
  rw [zipWith_moveWord_zero _ _ ownFirst.length_eq] at flatFirst
  have answer := assemble_of_encodings session _ lines _ (blocksFirst ++ blocksSecond) read
    declares sound (said ▸ List.rel_append againFirst againSecond)
  rw [List.flatten_append, flatFirst, flatSecond] at answer
  have moved := moved_of_moveTo _ _ _ movesSecond sound.allReferable _ _ ownSecond
  refine ⟨late, _, readSecond, answer, moved, ?_⟩
  intro silent
  refine List.ext_getElem? fun position => moved.kept position ?_
  intro token name owned declared
  obtain ⟨statement, present, written⟩ :=
    operand_of_mem_owners _ token (List.mem_of_getElem? owned)
  exact silent statement present token written name declared

/-- A label of the second source that is mentioned by itself and in a sum. -/
theorem assemble_join_back_references :
    let back : Program := ⟨[0x7C10, 0, 0x5801, 0], [(['e'], 0)]⟩
    ∃ lines moved, parse ":e JSR e\nSET A, [e+I]".toList = .ok lines ∧
      assemble (":s SET PC, s".toList ++ '\n' :: ":e JSR e\nSET A, [e+I]".toList) =
        .ok ⟨[0x7DC1, 0] ++ moved, [(['s'], 0), (['e'], 2)]⟩ ∧
      Moved (statements lines) back.labels 2 back.words moved ∧ moved[3]? = some 2 := by
  intro back
  have first : assemble ":s SET PC, s".toList = .ok ⟨[0x7DC1, 0], [(['s'], 0)]⟩ := by
    decide +kernel
  have second : assemble ":e JSR e\nSET A, [e+I]".toList = .ok back := by decide +kernel
  obtain ⟨lines, moved, read, answer, fits, -⟩ :=
    assemble_join Session.initial _ _ _ back first second
      (List.disjoint_singleton.mpr (by decide))
  have known : (parse ":e JSR e\nSET A, [e+I]".toList).map statements =
      .ok [⟨"JSR".toList, [['e']]⟩, ⟨"SET".toList, [['A'], "[e+I]".toList]⟩] := by decide +kernel
  have said : statements lines =
      [⟨"JSR".toList, [['e']]⟩, ⟨"SET".toList, [['A'], "[e+I]".toList]⟩] := by
    rw [read] at known
    exact Except.ok.inj known
  have reference : (owners (statements lines))[3]? = some (some "[e+I]".toList) := by
    rw [said]
    decide +kernel
  have register : upper ['I'] = [Register.i.letter] := by decide
  exact ⟨lines, moved, read, answer, fits,
    (fits.mentioned 3 _ ['e'] 0 reference (.sumRight register) rfl).2⟩

end WordMachine.Assembly
