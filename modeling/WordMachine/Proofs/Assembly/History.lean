import WordMachine.Proofs.Assembly.Passes

/-! Sources assembled one after the other by an assembler that keeps what it finds in five places,
which it clears at different moments. Whatever it has been given before and wherever that failed,
every source is answered as by a new assembler. -/
namespace WordMachine.Assembly

/-- What an assembler has before it: each thing in a place of its own. -/
structure Desk where
  labels : Labels
  counter : Nat
  words : List Word
  lines : List Line
  placed : List Placed

/-- Work at a desk. What has been done when an error is met stays done. -/
abbrev Work := EStateM Error Desk

namespace Work

/-- What the first pass does with a line. -/
def scanLine (line : Line) : Work Unit := do
  match line.label? with
  | none => pure ()
  | some name =>
    let desk ← get
    match labelFault? desk.labels name with
    | some cause => throw (Error.mk cause line.number line.text)
    | none => set { desk with labels := desk.labels ++ [(name, desk.counter)] }
  modify fun desk => { desk with counter := desk.counter + line.size }

/-- What the second pass does with a line. -/
def emitLine (line : Line) : Work Unit := do
  match line.statement? with
  | none => pure ()
  | some statement =>
    let desk ← get
    match statement.encode desk.labels with
    | .error cause => throw (Error.mk cause line.number line.text)
    | .ok words => set { desk with
        placed := desk.placed ++ [Placed.mk line desk.counter words]
        words := desk.words ++ words
        counter := desk.counter + words.length }

def visitAll (visit : Line → Work Unit) : List Line → Work Unit
  | [] => pure ()
  | line :: rest => do
    visit line
    visitAll visit rest

/-- A pass over the lines that have been read. -/
def pass (visit : Line → Work Unit) : Work Unit := do
  modify fun desk => { desk with counter := 0 }
  visitAll visit (← get).lines

/-- The second pass, which has to place as many words as the first one has counted. -/
def passAgain (counted : Nat) : Work Program := do
  pass emitLine
  let desk ← get
  if desk.counter ≠ counted then throw (Error.mk (.miscounted desk.counter counted) 0 [])
  return ⟨desk.words, desk.labels⟩

def passes : Work Program := do
  pass scanLine
  let desk ← get
  passAgain desk.counter

def assemble (source : List Char) : Work Program := do
  modify fun desk => { desk with labels := [], words := [], placed := [] }
  -- Lines that cannot all be read leave the lines and the counter of the source before.
  let lines ← MonadExcept.ofExcept (parse source)
  modify fun desk => { desk with lines := lines }
  passes

end Work

namespace Desk

def initial : Desk := ⟨[], 0, [], [], []⟩

def listing (desk : Desk) : String := Listing.text desk.lines desk.placed

/-- The answer to a source, and what it leaves. -/
def assemble (desk : Desk) (source : List Char) : Except Error Program × Desk :=
  match (Work.assemble source).run desk with
  | .ok program after => (.ok program, after)
  | .error error after => (.error error, after)

def assembleAll (desk : Desk) (sources : List (List Char)) : Desk :=
  sources.foldl (fun desk source => (desk.assemble source).2) desk

end Desk

namespace Work

/-- Where work ends: with an error, if there is one. -/
def ended (error? : Option Error) (desk : Desk) : EStateM.Result Error Desk Unit :=
  match error? with
  | none => .ok () desk
  | some error => .error error desk

theorem run_bind {α β : Type} (first : Work α) (next : α → Work β) (desk : Desk) :
    (first >>= next).run desk = match first.run desk with
      | .ok value after => (next value).run after
      | .error error after => .error error after := by
  change EStateM.bind first next desk = _
  unfold EStateM.bind EStateM.run
  cases first desk <;> rfl

theorem run_scanLine (line : Line) (desk : Desk) :
    (scanLine line).run desk = match line.declare desk.labels desk.counter with
      | .ok labels => .ok () { desk with labels := labels, counter := desk.counter + line.size }
      | .error error => .error error desk := by
  unfold scanLine Line.declare
  cases line.label? with
  | none => rfl
  | some name =>
    simp only
    cases fault : labelFault? desk.labels name with
    | none => simp [fault]
    | some cause => simp [fault]

theorem run_scanLines (lines : List Line) (desk : Desk) :
    (visitAll scanLine lines).run desk =
      let scanned := scanFrom desk.labels desk.counter lines
      ended scanned.error? { desk with labels := scanned.labels, counter := scanned.size } := by
  induction lines generalizing desk with
  | nil => rfl
  | cons line rest ih =>
    rw [visitAll, run_bind, run_scanLine, scanFrom]
    cases line.declare desk.labels desk.counter with
    | error error => rfl
    | ok labels => exact ih _

theorem run_emitLine (line : Line) (desk : Desk) :
    (emitLine line).run desk = match line.statement? with
      | none => .ok () desk
      | some statement => match statement.encode desk.labels with
        | .error cause => .error ⟨cause, line.number, line.text⟩ desk
        | .ok words => .ok () { desk with
            placed := desk.placed ++ [⟨line, desk.counter, words⟩]
            words := desk.words ++ words
            counter := desk.counter + words.length } := by
  unfold emitLine
  cases line.statement? with
  | none => rfl
  | some statement =>
    simp only
    cases encoded : statement.encode desk.labels with
    | error cause => simp [encoded]
    | ok words => simp [encoded]

theorem run_emitLines (lines : List Line) (desk : Desk) :
    (visitAll emitLine lines).run desk =
      let emission := emitFrom desk.labels desk.counter lines
      ended emission.error? { desk with
        placed := desk.placed ++ emission.placed
        words := desk.words ++ wordsOf emission.placed
        counter := desk.counter + (wordsOf emission.placed).length } := by
  induction lines generalizing desk with
  | nil => simp [visitAll, emitFrom, ended, wordsOf]
  | cons line rest ih =>
    rw [visitAll, run_bind, run_emitLine, emitFrom]
    cases line.statement? with
    | none => exact ih desk
    | some statement =>
      simp only
      cases statement.encode desk.labels with
      | error cause => simp [ended, wordsOf]
      | ok words =>
        -- What is put down for the rest of the lines goes behind this line's own.
        simp only [ih, wordsOf, List.flatMap_cons, List.append_assoc, List.cons_append,
          List.nil_append, List.length_append, Nat.add_assoc]

theorem run_pass (visit : Line → Work Unit) (desk : Desk) :
    (pass visit).run desk = (visitAll visit desk.lines).run { desk with counter := 0 } :=
  rfl

theorem run_passAgain (counted : Nat) (desk : Desk) (bare : desk.words = [] ∧ desk.placed = []) :
    (passAgain counted).run desk =
      let emission := emit desk.labels desk.lines
      let words := wordsOf emission.placed
      let after : Desk := ⟨desk.labels, words.length, words, desk.lines, emission.placed⟩
      match emission.error? with
      | some error => .error error after
      | none =>
        if words.length = counted then .ok ⟨words, desk.labels⟩ after
        else .error ⟨.miscounted words.length counted, 0, []⟩ after := by
  unfold passAgain
  rw [run_bind, run_pass, run_emitLines, bare.1, bare.2]
  simp only [List.nil_append, Nat.zero_add, emit]
  cases (emitFrom desk.labels 0 desk.lines).error? with
  | some error => rfl
  | none =>
    simp only [ended]
    by_cases same : (wordsOf (emitFrom desk.labels 0 desk.lines).placed).length = counted
    · simp [same]
    · simp [same]

theorem run_passes (counter : Nat) (lines : List Line) :
    passes.run ⟨[], counter, [], lines, []⟩ =
      let scanned := scan lines
      let desk : Desk := ⟨scanned.labels, scanned.size, [], lines, []⟩
      match scanned.error? with
      | some error => .error error desk
      | none => (passAgain scanned.size).run desk := by
  unfold passes
  rw [run_bind, run_pass, run_scanLines]
  simp only [scan]
  cases (scanFrom [] 0 lines).error? <;> rfl

/-- A source that cannot be read leaves the lines and the counter of the one before. -/
theorem run_assemble_of_error (source : List Char) (desk : Desk) (error : Error)
    (unread : parse source = .error error) :
    (assemble source).run desk =
      .error error { desk with labels := [], words := [], placed := [] } := by
  unfold assemble
  rw [unread]
  rfl

theorem run_assemble_of_ok (source : List Char) (desk : Desk) (lines : List Line)
    (read : parse source = .ok lines) :
    (assemble source).run desk = passes.run ⟨[], desk.counter, [], lines, []⟩ := by
  unfold assemble
  rw [read]
  rfl

end Work

namespace Session

/-- What calls have left, each thing in a place of its own. -/
def desk (session : Session) : Desk :=
  ⟨session.labels, session.counter, session.words, session.lines, session.placed⟩

def assembleAll (session : Session) (sources : List (List Char)) : Session :=
  sources.foldl (fun session source => (session.assemble source).2) session

/-- What the calls before have left counts for no answer, and is gone once a source is assembled. -/
theorem assemble_as (session other : Session) (source : List Char) :
    (session.assemble source).1 = (other.assemble source).1 ∧
      ∀ program, (session.assemble source).1 = .ok program →
        (session.assemble source).2 = (other.assemble source).2 := by
  unfold assemble
  cases parse source with
  | error error => exact ⟨rfl, nofun⟩
  | ok lines => exact ⟨rfl, fun _ _ => rfl⟩

end Session

namespace Desk

/-- The five places hold what is kept between calls. -/
theorem assemble_desk (session : Session) (source : List Char) :
    session.desk.assemble source =
      ((session.assemble source).1, (session.assemble source).2.desk) := by
  unfold Desk.assemble Session.assemble
  cases read : parse source with
  | error error =>
    rw [Work.run_assemble_of_error source _ error read]
    rfl
  | ok lines =>
    rw [Work.run_assemble_of_ok source _ lines read, Work.run_passes]
    simp only
    cases (scan lines).error? with
    | some error => rfl
    | none =>
      rw [Work.run_passAgain _ _ ⟨rfl, rfl⟩]
      simp only
      cases (emit (scan lines).labels lines).error? with
      | some error => rfl
      | none =>
        by_cases same :
          (wordsOf (emit (scan lines).labels lines).placed).length = (scan lines).size
        · simp only [if_pos same]
          rfl
        · simp only [if_neg same]
          rfl

theorem assembleAll_desk (session : Session) (sources : List (List Char)) :
    session.desk.assembleAll sources = (session.assembleAll sources).desk := by
  induction sources generalizing session with
  | nil => rfl
  | cons source rest ih =>
    rw [assembleAll, List.foldl_cons, assemble_desk]
    exact ih _

/-- Whatever sources an assembler has been given, and wherever each of them failed, it answers the
next one as a new assembler does, with the same program or the same error; and when that one is
assembled, everything that is kept is as it would be with a new assembler. -/
theorem assemble_history_free (history : List (List Char)) (source : List Char) :
    let used := Desk.initial.assembleAll history
    (used.assemble source).1 = (Desk.initial.assemble source).1 ∧
      (∀ program, (used.assemble source).1 = .ok program →
        (used.assemble source).2 = (Desk.initial.assemble source).2 ∧
          (used.assemble source).2.listing = (Desk.initial.assemble source).2.listing) ∧
      used.assemble source = (((Session.initial.assembleAll history).assemble source).1,
        ((Session.initial.assembleAll history).assemble source).2.desk) := by
  intro used
  have kept : used = (Session.initial.assembleAll history).desk :=
    assembleAll_desk Session.initial history
  obtain ⟨answered, left⟩ :=
    (Session.initial.assembleAll history).assemble_as Session.initial source
  have new := assemble_desk Session.initial source
  rw [kept, assemble_desk]
  refine ⟨answered.trans (congrArg Prod.fst new).symm, ?_, rfl⟩
  intro program assembled
  have same : ((Session.initial.assembleAll history).assemble source).2.desk =
      (Desk.initial.assemble source).2 :=
    (congrArg Session.desk (left program assembled)).trans (congrArg Prod.snd new).symm
  exact ⟨same, congrArg listing same⟩

/-- A source assembled after one that was and one for each part of the work that failed in it. -/
theorem assemble_history_free_after_failures :
    let used := Desk.initial.assembleAll ["JSR s\n:s".toList, "SET A, B\n:pop".toList,
      "SET PC, I\nJSR t".toList, "SET A,, B".toList]
    used.lines.length = 2 ∧ used.counter = 1 ∧
      (used.assemble ":s SET PC, s".toList).1 = .ok ⟨[0x7DC1, 0], [(['s'], 0)]⟩ ∧
      (used.assemble ":s SET PC, s".toList).2 =
        (Desk.initial.assemble ":s SET PC, s".toList).2 := by
  intro used
  obtain ⟨answered, left, -⟩ := assemble_history_free ["JSR s\n:s".toList, "SET A, B\n:pop".toList,
    "SET PC, I\nJSR t".toList, "SET A,, B".toList] ":s SET PC, s".toList
  have answer : (Desk.initial.assemble ":s SET PC, s".toList).1 =
      .ok ⟨[0x7DC1, 0], [(['s'], 0)]⟩ := by decide +kernel
  rw [answer] at answered
  exact ⟨by decide +kernel, by decide +kernel, answered, (left _ answered).1⟩

end Desk

end WordMachine.Assembly
