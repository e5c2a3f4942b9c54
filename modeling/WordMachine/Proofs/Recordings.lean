import WordMachine.Proofs.Tracing

/-! What the trace consists of at any time. It is headed, so that it can be read as a table, as long
as nothing is carried out with tracing on that no request has turned on since the machine was last
started over. A reset takes the header away and leaves tracing on, and the rows that follow then
have no header. -/
namespace WordMachine

namespace Trace

theorem take_row (core : Core) : (row core).toList.take 2 = ['|', ' '] := by
  simp [row, line, column, String.toList_intercalate, List.intercalate]

/-- A row has a space where the header has a low line. -/
theorem row_ne_header (core : Core) : row core ≠ header := by
  intro same
  have starts := take_row core
  have heading : header.toList.take 2 = ['|', '_'] := by decide +kernel
  rw [same, heading] at starts
  simp at starts

end Trace

namespace Machine

theorem untraced_of_build (program? : Option (List Int)) (stack : Int) (machine : Machine)
    (built : build program? stack = .ok machine) :
    machine.tracing = false ∧ machine.trace = #[] := by
  rcases build_cases program? stack machine built with rfl | ⟨program, rfl⟩
  · exact ⟨rfl, rfl⟩
  · -- Loading a program records nothing.
    have recorded := Monitor.records_of_plain (initial (Word.ofInt stack)) (.load program 0) rfl
    constructor
    · exact recorded.tracing
    · apply Array.toList_inj.mp
      exact recorded.trace

end Machine

namespace Monitor

open Machine (Records)

/-! ### What is on record -/

/-- The cores on record after a request. Recording starts with the core at which tracing is turned
on, and goes on, while tracing is on, with those that instructions leave. -/
def record (machine : Machine) (cores : List Core) : Command → List Core
  | .reset => []
  | .setTracing on => if on ∧ cores = [] then [machine.core] else cores
  | command => if machine.tracing then cores ++ executed machine command else cores

def recorded (machine : Machine) (cores : List Core) : List Command → List Core
  | [] => cores
  | command :: rest => recorded (perform machine command).2 (record machine cores command) rest

/-- Whether tracing has been turned on since the machine was last started over, given whether it
was before a request. -/
def announce (announced : Bool) : Command → Bool
  | .reset => false
  | .setTracing on => on || announced
  | _ => announced

def announced (commands : List Command) : Bool := commands.foldl announce false

/-- A trace that is not empty consists of the header and a row for each core on record. -/
def Headed (machine : Machine) (cores : List Core) : Prop :=
  machine.trace ≠ #[] →
    cores ≠ [] ∧ machine.trace.toList = Trace.header :: cores.map Trace.row

@[simp] theorem performAll_concat (machine : Machine) (commands : List Command)
    (command : Command) :
    performAll machine (commands ++ [command]) =
      (perform (performAll machine commands) command).2 := by
  simp only [performAll, List.foldl_append, List.foldl_cons, List.foldl_nil]

@[simp] theorem recorded_concat (machine : Machine) (cores : List Core) (commands : List Command)
    (command : Command) :
    recorded machine cores (commands ++ [command]) =
      record (performAll machine commands) (recorded machine cores commands) command := by
  induction commands generalizing machine cores with
  | nil => rfl
  | cons first rest ih => exact ih _ _

@[simp] theorem announced_concat (commands : List Command) (command : Command) :
    announced (commands ++ [command]) = announce (announced commands) command := by
  simp only [announced, List.foldl_append, List.foldl_cons, List.foldl_nil]

/-! ### One request -/

/-- The trace is what is on record, behind the header; it is begun when tracing is turned on. -/
structure Begun (machine : Machine) (cores : List Core) (announced : Bool) : Prop where
  trace : machine.trace.toList =
    if announced then Trace.header :: cores.map Trace.row else []
  cores : cores = [] ↔ announced = false

theorem Begun.headed {machine : Machine} {cores : List Core} {announced : Bool}
    (begun : Begun machine cores announced) : Headed machine cores := by
  intro grown
  have lines := begun.trace
  cases announced with
  | false => exact absurd (Array.toList_inj.mp lines) grown
  | true => exact ⟨fun empty => Bool.noConfusion (begun.cores.mp empty), lines⟩

theorem Begun.setTracing {machine : Machine} {cores : List Core} {announced : Bool}
    (begun : Begun machine cores announced) (on : Bool) :
    Begun (machine.setTracing on) (record machine cores (.setTracing on))
      (announce announced (.setTracing on)) := by
  have lines := begun.trace
  cases on with
  | false =>
    refine ⟨?_, ?_⟩
    · simpa [Machine.setTracing, record, announce] using lines
    · simpa [record, announce] using begun.cores
  | true =>
    by_cases empty : cores = []
    · -- The recording starts here, and so does the trace.
      have unannounced := begun.cores.mp empty
      have blank : machine.trace = #[] := by
        apply Array.toList_inj.mp
        simpa [unannounced] using lines
      refine ⟨?_, ?_⟩
      · simp [Machine.setTracing, record, announce, blank, empty]
      · simp [record, announce, empty]
    · -- Nothing is new: the trace is begun already.
      have announces : announced = true := by simpa using mt begun.cores.mpr empty
      have grown : machine.trace ≠ #[] := by
        intro blank
        simp [blank, announces] at lines
      refine ⟨?_, ?_⟩
      · simpa [Machine.setTracing, record, announce, grown, empty, announces] using lines
      · simp [record, announce, empty]

/-- What a request adds to the record, unless it starts the machine over or turns tracing on or
off. -/
def added (machine : Machine) (command : Command) : List Core :=
  if machine.tracing then executed machine command else []

section Others

variable (machine : Machine) (cores : List Core) (announced : Bool) (command : Command)
  (noReset : command ≠ .reset) (noTurn : ∀ on, command ≠ .setTracing on)
include noReset noTurn

theorem record_of_other : record machine cores command = cores ++ added machine command := by
  have kept : record machine cores command =
      if machine.tracing then cores ++ executed machine command else cores := by
    cases command with
    | reset => exact absurd rfl noReset
    | setTracing on => exact absurd rfl (noTurn on)
    | _ => rfl
  rw [kept, added]
  by_cases on : machine.tracing = true
  · simp [on]
  · simp [on]

theorem trace_of_other :
    (perform machine command).2.trace.toList =
      machine.trace.toList ++ (added machine command).map Trace.row := by
  rw [(records_perform machine command noReset noTurn).trace, added]
  by_cases on : machine.tracing = true
  · simp [on]
  · simp [on]

theorem announce_of_other : announce announced command = announced := by
  cases command with
  | reset => exact absurd rfl noReset
  | setTracing on => exact absurd rfl (noTurn on)
  | _ => rfl

end Others

/-- The trace stays what is on record, unless an instruction is carried out with tracing on that is
not announced. -/
theorem Begun.after {machine : Machine} {cores : List Core} {announced : Bool}
    (begun : Begun machine cores announced) (command : Command)
    (announces : added machine command ≠ [] → announced = true) :
    Begun (perform machine command).2 (record machine cores command)
      (announce announced command) := by
  by_cases starts : command = .reset
  · subst starts
    constructor
    · rfl
    · simp [record, announce]
  by_cases turns : ∃ on, command = .setTracing on
  · obtain ⟨on, rfl⟩ := turns
    exact begun.setTracing on
  have noTurn (on : Bool) : command ≠ .setTracing on := fun same => turns ⟨on, same⟩
  -- What is added to the record is what is added to the trace.
  have lines := trace_of_other machine command starts noTurn
  rw [begun.trace] at lines
  rw [record_of_other machine cores command starts noTurn,
    announce_of_other announced command starts noTurn]
  by_cases grows : added machine command = []
  · rw [grows, List.map_nil, List.append_nil] at lines
    rw [grows, List.append_nil]
    exact ⟨lines, begun.cores⟩
  · have begins := announces grows
    rw [if_pos begins, List.cons_append, ← List.map_append] at lines
    refine ⟨?_, ?_⟩
    · rw [if_pos begins, lines]
    · simp [begins, grows]

/-- Without announcement, the first row that is added stands where the header should. -/
theorem Begun.announced_of_headed {machine : Machine} {cores : List Core} {announced : Bool}
    (begun : Begun machine cores announced) (command : Command)
    (headed : Headed (perform machine command).2 (record machine cores command))
    (grows : added machine command ≠ []) : announced = true := by
  by_contra unannounced
  -- Only a step or a run carries something out.
  have carriesOut : executed machine command ≠ [] := by
    intro nothing
    apply grows
    rw [added, nothing, ite_self]
  have noReset : command ≠ .reset := by
    rintro rfl
    exact carriesOut rfl
  have noTurn (on : Bool) : command ≠ .setTracing on := by
    rintro rfl
    exact carriesOut rfl
  have lines := trace_of_other machine command noReset noTurn
  obtain ⟨first, rest, left⟩ := List.exists_cons_of_ne_nil grows
  -- Before the request the trace was empty.
  rw [begun.trace, if_neg unannounced, List.nil_append, left, List.map_cons] at lines
  have grown : (perform machine command).2.trace ≠ #[] := by
    intro empty
    rw [empty] at lines
    cases lines
  have starts := (headed grown).2
  rw [lines] at starts
  exact Trace.row_ne_header first (List.cons.inj starts).1

/-! ### Requests one after the other -/

/-- After each of a number of requests the trace is headed. -/
def StaysHeaded (start : Machine) (commands : List Command) : Prop :=
  ∀ front, front <+: commands → Headed (performAll start front) (recorded start [] front)

/-- Whatever is carried out with tracing on is announced. -/
def Announces (start : Machine) (commands : List Command) : Prop :=
  ∀ earlier command, earlier ++ [command] <+: commands →
    (performAll start earlier).tracing = true →
      executed (performAll start earlier) command ≠ [] → announced earlier = true

theorem Announces.added {start : Machine} {commands : List Command}
    (announces : Announces start commands) (earlier : List Command) (command : Command)
    (within : earlier ++ [command] <+: commands)
    (grows : added (performAll start earlier) command ≠ []) : announced earlier = true := by
  by_cases on : (performAll start earlier).tracing = true
  · rw [Monitor.added, if_pos on] at grows
    exact announces earlier command within on grows
  · rw [Monitor.added, if_neg on] at grows
    exact absurd rfl grows

theorem begun_of_announces (start : Machine) (blank : start.trace = #[]) (commands : List Command)
    (announces : Announces start commands) :
    Begun (performAll start commands) (recorded start [] commands) (announced commands) := by
  -- The induction takes off the last request; what holds before it is the invariant.
  induction commands using List.reverseRecOn with
  | nil => exact ⟨congrArg Array.toList blank, by simp [recorded, announced]⟩
  | append_singleton earlier command ih =>
    have begun := ih fun front next within =>
      announces front next (within.trans (List.prefix_append _ _))
    simp only [performAll_concat, recorded_concat, announced_concat]
    exact begun.after command (announces.added earlier command List.prefix_rfl)

theorem staysHeaded_of_announces (start : Machine) (blank : start.trace = #[])
    (commands : List Command) (announces : Announces start commands) :
    StaysHeaded start commands := by
  intro front within
  have before : Announces start front := by
    intro earlier command shorter
    exact announces earlier command (shorter.trans within)
  have begun := begun_of_announces start blank front before
  exact begun.headed

theorem announces_of_staysHeaded (start : Machine) (blank : start.trace = #[])
    (commands : List Command) (headed : StaysHeaded start commands) :
    Announces start commands := by
  induction commands using List.reverseRecOn with
  | nil =>
    intro earlier command within
    simp at within
  | append_singleton commands last ih =>
    have before := ih fun front within => headed front (within.trans (List.prefix_append _ _))
    intro earlier command within
    rcases List.prefix_concat_iff.mp within with same | within
    · -- Only the last request is new; the trace was as it should be before it.
      obtain ⟨rfl, ⟨⟩⟩ := List.append_inj' same rfl
      intro on carriesOut
      have begun := begun_of_announces start blank earlier before
      have after := headed (earlier ++ [last]) List.prefix_rfl
      rw [performAll_concat, recorded_concat] at after
      apply begun.announced_of_headed last after
      rwa [added, if_pos on]
    · exact before earlier command within

/-- The trace of a new machine is headed at all times just when nothing is ever carried out with
tracing on that has not been turned on since the machine was last started over. -/
theorem staysHeaded_iff (program? : Option (List Int)) (stack : Int) (start : Machine)
    (built : Machine.build program? stack = .ok start) (commands : List Command) :
    StaysHeaded start commands ↔ Announces start commands := by
  have blank := (Machine.untraced_of_build program? stack start built).2
  constructor
  · exact announces_of_staysHeaded start blank commands
  · exact staysHeaded_of_announces start blank commands

/-- A machine that is started over while it is traced, with tracing turned on once more. -/
theorem staysHeaded_again :
    ∃ start, Machine.build (some [0x8402, 0x81C1]) 0 = .ok start ∧
      StaysHeaded start [.setTracing true, .run 3, .reset, .setTracing true, .step 1] := by
  refine ⟨_, rfl, (staysHeaded_iff (some [0x8402, 0x81C1]) 0 _ rfl _).mpr ?_⟩
  rintro earlier command ⟨later, split⟩ - carriesOut
  rcases earlier with _ | ⟨_, _ | ⟨_, _ | ⟨_, _ | ⟨_, _ | ⟨_, _⟩⟩⟩⟩⟩
  · cases split
    exact absurd rfl carriesOut
  · cases split
    rfl
  · cases split
    rfl
  · cases split
    exact absurd rfl carriesOut
  · cases split
    rfl
  · simp at split

/-- A machine that is started over while it is traced goes on with rows that have no header. -/
theorem not_staysHeaded :
    ∃ start, Machine.build (some [0x8402, 0x81C1]) 0 = .ok start ∧
      ¬ StaysHeaded start [.setTracing true, .reset, .step 1] := by
  refine ⟨_, rfl, ?_⟩
  intro headed
  have after := headed _ List.prefix_rfl
  obtain ⟨-, lines⟩ := after (by decide)
  exact Trace.row_ne_header _ (List.cons.inj lines).1

end Monitor

end WordMachine
