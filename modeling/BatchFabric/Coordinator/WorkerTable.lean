import BatchFabric.Safety.Registrations
import BatchFabric.Scheduler.KnownKeys

namespace BatchFabric.Coordinator

open OrderedMap

/-! The coordinator's table of workers. Every worker connection has a thread of
its own, and the threads share the table, the fabric and the flag that keeps
them running. -/

/-- Where the thread of a worker connection stands: before it records its slot,
before it registers with the fabric, in its receive loop, after a failed
receive, and at its end. -/
inductive Phase
  | accepted
  | recorded
  | serving
  | failed
  | closed
  deriving DecidableEq

/-- The connection has not been lost or given up. -/
def Phase.isUp : Phase → Bool
  | .failed | .closed => false
  | _ => true

/-- A connection whose first message registers a worker. -/
structure Connection where
  worker : WorkerId
  boot : WorkerBootId
  cap : ExecutorCapability := {}
  phase : Phase := .accepted

structure WorkerSlot where
  ch : Nat
  boot : WorkerBootId
  deriving DecidableEq

structure State where
  running : Bool := true
  connections : Map Nat Connection := ∅
  workers : Map WorkerId WorkerSlot := ∅
  fabric : Impl := .fresh

/-- What the coordinator asks of the fabric besides registrations, which are
steps of their own. -/
abbrev Request :=
  { op : Op // op.isRegistration = false }

inductive Event
  | accept (ch : Nat) (worker : WorkerId) (boot : WorkerBootId)
      (cap : ExecutorCapability)
  | record (ch : Nat)
  | register (ch : Nat)
  | fail (ch : Nat)
  | erase (ch : Nat)
  | shutdown (ch : Nat)
  | leave (ch : Nat)
  | serve (request : Request)

namespace State

/-- The connection, if its thread stands at the given place. -/
def standing (c : State) (ch : Nat) (phase : Phase) : Option Connection :=
  match c.connections[ch]? with
  | none => none
  | some k => if k.phase = phase then some k else none

def setPhase (c : State) (ch : Nat) (phase : Phase) : State :=
  { c with
    connections := c.connections.modify ch fun k =>
      { k with phase := phase } }

end State

/-- One step of the coordinator. A thread that does not stand where the step
begins does nothing. -/
def step (policy : BatchPolicy) (c : State) : Event → State
  | .accept ch worker boot cap =>
      match c.connections[ch]? with
      | some _ => c
      | none =>
          if c.running then
            { c with
              connections := c.connections.insert ch
                { worker := worker, boot := boot, cap := cap } }
          else c
  | .record ch =>
      match c.standing ch .accepted with
      | none => c
      | some k =>
          { c.setPhase ch .recorded with
            workers := c.workers.insert k.worker { ch := ch, boot := k.boot } }
  | .register ch =>
      match c.standing ch .recorded with
      | none => c
      | some k =>
          { c.setPhase ch .serving with
            fabric := c.fabric.registerWorker k.worker k.boot k.cap }
  | .fail ch =>
      match c.standing ch .serving with
      | none => c
      | some _ => c.setPhase ch .failed
  | .erase ch =>
      match c.standing ch .failed with
      | none => c
      | some k =>
          { c.setPhase ch .closed with workers := c.workers.erase k.worker }
  | .shutdown ch =>
      match c.standing ch .serving with
      | none => c
      | some _ => { c.setPhase ch .closed with running := false }
  | .leave ch =>
      match c.standing ch .serving with
      | none => c
      | some _ => if c.running then c else c.setPhase ch .closed
  | .serve request =>
      { c with fabric := BatchFabric.step policy c.fabric request.1 }

/-- The recording a step makes, if it makes one. -/
def recordings (c : State) : Event → List (WorkerId × Nat)
  | .record ch =>
      match c.standing ch .accepted with
      | none => []
      | some k => [(k.worker, ch)]
  | _ => []

/-- The connection that last recorded a slot for a worker. -/
def latest (recorded : List (WorkerId × Nat)) (worker : WorkerId) :
    Option Nat :=
  ((recorded.filter (·.1 = worker)).getLast?).map (·.2)

theorem latest_append (recorded : List (WorkerId × Nat)) (worker : WorkerId)
    (ch : Nat) (other : WorkerId) :
    latest (recorded ++ [(worker, ch)]) other =
      if worker = other then some ch else latest recorded other := by
  unfold latest
  rw [List.filter_append]
  split
  · next same => simp [same]
  · next different => simp [different]

/-- The coordinator beside all recordings made so far. -/
def recordedStep (policy : BatchPolicy) :
    List (WorkerId × Nat) × State → Event → List (WorkerId × Nat) × State :=
  Transition.recorded (step policy) recordings

/-- No thread is between two of its steps. -/
def State.Settled (c : State) : Prop :=
  Everywhere c.connections fun _ k => k.phase ≠ .recorded ∧ k.phase ≠ .failed

instance (c : State) : Decidable c.Settled :=
  inferInstanceAs (Decidable (Everywhere _ _))

/-- Between the steps of the threads: while the connection that last recorded a
slot for a worker is up, the worker has that slot, and the fabric has the same
boot id for it. -/
def TableCurrent (recorded : List (WorkerId × Nat)) (c : State) : Prop :=
  c.Settled → ∀ (worker : WorkerId) (ch : Nat) (k : Connection),
    latest recorded worker = some ch → c.connections[ch]? = some k →
    k.phase.isUp = true →
    c.workers[worker]? = some { ch := ch, boot := k.boot } ∧
      (c.fabric.workers[worker]?).map (·.boot) = some k.boot

/-- No thread registers a worker under another boot id than the connection that
has recorded and registered it since, and none erases the slot of a worker that
another connection has recorded since and is still up. -/
def keepsTable (history : List (WorkerId × Nat) × State) : Event → Bool
  | .register ch =>
      match history.2.standing ch .recorded with
      | none => true
      | some k =>
          match latest history.1 k.worker with
          | none => true
          | some last =>
              match history.2.standing last .serving with
              | none => true
              | some k' => k'.boot == k.boot
  | .erase ch =>
      match history.2.standing ch .failed with
      | none => true
      | some k =>
          match latest history.1 k.worker with
          | none => true
          | some last =>
              match history.2.connections[last]? with
              | none => true
              | some k' => !k'.phase.isUp
  | _ => true

theorem standing_iff {c : State} {ch : Nat} {phase : Phase}
    {k : Connection} : c.standing ch phase = some k ↔
      c.connections[ch]? = some k ∧ k.phase = phase := by
  unfold State.standing
  cases c.connections[ch]? with
  | none => simp
  | some k' =>
      dsimp only
      constructor
      · intro stands
        split at stands
        · next at_phase =>
            cases stands
            exact ⟨rfl, at_phase⟩
        · cases stands
      · rintro ⟨found, at_phase⟩
        cases found
        exact if_pos at_phase

theorem setPhase_self {c : State} {ch : Nat} {k : Connection}
    (found : c.connections[ch]? = some k) (phase : Phase) :
    (c.setPhase ch phase).connections[ch]? =
      some { k with phase := phase } :=
  getElem?_modify_self found _

theorem setPhase_other {c : State} {ch other : Nat} (different : ch ≠ other)
    (phase : Phase) :
    (c.setPhase ch phase).connections[other]? = c.connections[other]? := by
  unfold State.setPhase
  dsimp only
  rw [getElem?_modify, if_neg different]

/-- The last recording of a worker, as long as its connection is up, is the slot
in the table, and from its registration on the fabric has its boot id. -/
structure Tracks (c : State) (worker : WorkerId) (ch : Nat)
    (k : Connection) : Prop where
  found : c.connections[ch]? = some k
  names : k.worker = worker
  recording : k.phase ≠ .accepted
  slot : k.phase.isUp = true →
    c.workers[worker]? = some { ch := ch, boot := k.boot }
  registered : k.phase = .serving →
    (c.fabric.workers[worker]?).map (·.boot) = some k.boot

structure Tracked (recorded : List (WorkerId × Nat)) (c : State) : Prop where
  wellFormed : c.fabric.WellFormed
  tracks : ∀ worker ch, latest recorded worker = some ch →
    ∃ k, Tracks c worker ch k

namespace Tracked

variable {recorded : List (WorkerId × Nat)} {c : State} {ch : Nat}
  {k : Connection}

theorem initial : Tracked [] {} where
  wellFormed := Impl.WellFormed.fresh
  tracks := nofun

theorem current (tracked : Tracked recorded c) : TableCurrent recorded c := by
  intro settled worker ch k last found up
  obtain ⟨k', tracks⟩ := tracked.tracks worker ch last
  have same := tracks.found
  rw [found] at same
  cases same
  refine ⟨tracks.slot up, tracks.registered ?_⟩
  have at_rest := settled ch k found
  cases phase : k.phase with
  | accepted => exact absurd phase tracks.recording
  | recorded => exact absurd phase at_rest.1
  | serving => rfl
  | failed => exact absurd phase at_rest.2
  | closed =>
      rw [phase] at up
      cases up

theorem accept (tracked : Tracked recorded c)
    (new : c.connections[ch]? = none) (k : Connection) :
    Tracked recorded { c with connections := c.connections.insert ch k } := by
  refine ⟨tracked.wellFormed, ?_⟩
  intro worker last latest
  obtain ⟨k', tracks⟩ := tracked.tracks worker last latest
  have different : ch ≠ last := by
    rintro rfl
    rw [tracks.found] at new
    cases new
  refine ⟨k', ?_, tracks.names, tracks.recording, tracks.slot,
    tracks.registered⟩
  dsimp only
  rw [getElem?_insert, if_neg different]
  exact tracks.found

theorem record (tracked : Tracked recorded c)
    (stands : c.standing ch .accepted = some k) :
    Tracked (recorded ++ [(k.worker, ch)]) { c.setPhase ch .recorded with
      workers := c.workers.insert k.worker { ch := ch, boot := k.boot } } := by
  obtain ⟨found, phase⟩ := standing_iff.mp stands
  refine ⟨tracked.wellFormed, ?_⟩
  intro worker last latest
  rw [latest_append] at latest
  split at latest
  · next same =>
      subst same
      cases latest
      refine ⟨_, setPhase_self found .recorded, rfl, nofun, ?_, nofun⟩
      intro _
      dsimp only
      rw [getElem?_insert, if_pos rfl]
  · next other =>
      obtain ⟨k', tracks⟩ := tracked.tracks worker last latest
      have different : ch ≠ last := by
        rintro rfl
        have same := tracks.found
        rw [found] at same
        cases same
        exact tracks.recording phase
      refine ⟨k', (setPhase_other different .recorded).trans tracks.found,
        tracks.names, tracks.recording, ?_, tracks.registered⟩
      intro up
      dsimp only
      rw [getElem?_insert, if_neg other]
      exact tracks.slot up

theorem register (tracked : Tracked recorded c)
    (stands : c.standing ch .recorded = some k)
    (guarded : keepsTable (recorded, c) (.register ch) = true) :
    Tracked recorded { c.setPhase ch .serving with
      fabric := c.fabric.registerWorker k.worker k.boot k.cap } := by
  obtain ⟨found, phase⟩ := standing_iff.mp stands
  refine ⟨tracked.wellFormed.of_counters _ _ _ _, ?_⟩
  intro worker last latest
  obtain ⟨k', tracks⟩ := tracked.tracks worker last latest
  by_cases same : ch = last
  · subst same
    have equal := tracks.found
    rw [found] at equal
    cases equal
    refine ⟨_, setPhase_self found .serving, tracks.names, nofun, ?_, ?_⟩
    · intro _
      apply tracks.slot
      rw [phase]
      rfl
    · intro _
      dsimp only
      rw [Impl.bootOf_registerWorker, if_pos tracks.names]
  · refine ⟨k', (setPhase_other same .serving).trans tracks.found,
      tracks.names, tracks.recording, tracks.slot, ?_⟩
    intro serving
    dsimp only
    rw [Impl.bootOf_registerWorker]
    split
    · next names =>
        subst names
        have stands' := standing_iff.mpr ⟨tracks.found, serving⟩
        have boots : k'.boot = k.boot := by
          simpa [keepsTable, stands, latest, stands'] using guarded
        rw [boots]
    · exact tracks.registered serving

/-- A connection goes down, and nothing else changes. -/
theorem goDown (tracked : Tracked recorded c)
    (found : c.connections[ch]? = some k) (phase : Phase)
    (down : phase.isUp = false) : Tracked recorded (c.setPhase ch phase) := by
  refine ⟨tracked.wellFormed, ?_⟩
  intro worker last latest
  obtain ⟨k', tracks⟩ := tracked.tracks worker last latest
  by_cases same : ch = last
  · subst same
    have equal := tracks.found
    rw [found] at equal
    cases equal
    have not' : ∀ other : Phase, other.isUp = true → phase ≠ other := by
      rintro other up rfl
      rw [up] at down
      cases down
    refine ⟨_, setPhase_self found phase, tracks.names,
      not' .accepted rfl, ?_, ?_⟩
    · intro up
      have up : phase.isUp = true := up
      rw [down] at up
      cases up
    · intro serving
      exact absurd serving (not' .serving rfl)
  · exact ⟨k', (setPhase_other same phase).trans tracks.found, tracks.names,
      tracks.recording, tracks.slot, tracks.registered⟩

theorem erase (tracked : Tracked recorded c)
    (stands : c.standing ch .failed = some k)
    (guarded : keepsTable (recorded, c) (.erase ch) = true) :
    Tracked recorded { c.setPhase ch .closed with
      workers := c.workers.erase k.worker } := by
  obtain ⟨found, phase⟩ := standing_iff.mp stands
  have down := tracked.goDown found .closed rfl
  refine ⟨down.wellFormed, ?_⟩
  intro worker last latest
  obtain ⟨k', tracks⟩ := down.tracks worker last latest
  refine ⟨k', tracks.found, tracks.names, tracks.recording, ?_,
    tracks.registered⟩
  intro up
  dsimp only
  rw [getElem?_erase]
  split
  · next names =>
      subst names
      obtain ⟨before, was⟩ := tracked.tracks k.worker last latest
      have lost : before.phase.isUp = false := by
        simpa [keepsTable, stands, latest, was.found] using guarded
      by_cases same : ch = last
      · subst same
        have closed := tracks.found
        rw [setPhase_self was.found .closed] at closed
        cases closed
        cases up
      · have equal := tracks.found
        rw [setPhase_other same .closed, was.found] at equal
        cases equal
        rw [lost] at up
        cases up
  · exact tracks.slot up

theorem serve (tracked : Tracked recorded c) (policy : BatchPolicy)
    (request : Request) :
    Tracked recorded { c with
      fabric := BatchFabric.step policy c.fabric request.1 } := by
  refine ⟨tracked.wellFormed.step request.1, ?_⟩
  intro worker last latest
  obtain ⟨k', tracks⟩ := tracked.tracks worker last latest
  have same := Impl.SameIncarnations.step tracked.wellFormed policy request.2
  refine ⟨k', tracks.found, tracks.names, tracks.recording, tracks.slot, ?_⟩
  intro serving
  exact (same.boot worker).trans (tracks.registered serving)

theorem quiet {c' : State} {event : Event} (idle : recordings c event = [])
    (tracked : Tracked recorded c') :
    Tracked (recorded ++ recordings c event) c' := by
  rw [idle, List.append_nil]
  exact tracked

theorem step (tracked : Tracked recorded c) (policy : BatchPolicy)
    {event : Event} (guarded : keepsTable (recorded, c) event = true) :
    Tracked (recorded ++ recordings c event)
      (Coordinator.step policy c event) := by
  cases event with
  | accept ch worker boot cap =>
      refine quiet rfl ?_
      unfold Coordinator.step
      dsimp only
      split
      · exact tracked
      · next new =>
          split
          · exact tracked.accept new _
          · exact tracked
  | record ch =>
      cases stands : c.standing ch .accepted with
      | none =>
          simp only [Coordinator.step, recordings, stands, List.append_nil]
          exact tracked
      | some k =>
          simp only [Coordinator.step, recordings, stands]
          exact tracked.record stands
  | register ch =>
      refine quiet rfl ?_
      unfold Coordinator.step
      dsimp only
      split
      · exact tracked
      · next k stands => exact tracked.register stands guarded
  | fail ch =>
      refine quiet rfl ?_
      unfold Coordinator.step
      dsimp only
      split
      · exact tracked
      · next k stands =>
          exact tracked.goDown (standing_iff.mp stands).1 .failed rfl
  | erase ch =>
      refine quiet rfl ?_
      unfold Coordinator.step
      dsimp only
      split
      · exact tracked
      · next k stands => exact tracked.erase stands guarded
  | shutdown ch =>
      refine quiet rfl ?_
      unfold Coordinator.step
      dsimp only
      split
      · exact tracked
      · next k stands =>
          have down := tracked.goDown (standing_iff.mp stands).1 .closed rfl
          exact ⟨down.wellFormed, fun worker last latest =>
            (down.tracks worker last latest).imp fun _ tracks =>
              ⟨tracks.found, tracks.names, tracks.recording, tracks.slot,
                tracks.registered⟩⟩
  | leave ch =>
      refine quiet rfl ?_
      unfold Coordinator.step
      dsimp only
      split
      · exact tracked
      · next k stands =>
          split
          · exact tracked
          · exact tracked.goDown (standing_iff.mp stands).1 .closed rfl
  | serve request =>
      exact quiet rfl (tracked.serve policy request)

end Tracked

/-- In every run whose threads register and erase in order, the table of workers
is current whenever no thread is between two of its steps. -/
theorem tableCurrent_of_run (policy : BatchPolicy) (events : List Event)
    (guarded : Transition.Along (recordedStep policy)
      (fun history event => keepsTable history event = true) ([], {})
      events) :
    TableCurrent (Transition.run (recordedStep policy) ([], {}) events).1
      (Transition.run (recordedStep policy) ([], {}) events).2 := by
  have tracked : Tracked
      (Transition.run (recordedStep policy) ([], {}) events).1
      (Transition.run (recordedStep policy) ([], {}) events).2 :=
    guarded.invariant
      (fun history => Tracked history.1 history.2)
      (fun _ _ _ held allowed => held.step policy allowed) Tracked.initial
  exact tracked.current

/-- A worker connects, is lost and erased, and connects again under another
boot id. -/
theorem tableCurrent_of_restart :
    TableCurrent
      (Transition.run (recordedStep {}) ([], {}) [
        .accept 1 { value := 5 } { value := 1 } {}, .record 1, .register 1,
        .fail 1, .erase 1,
        .accept 2 { value := 5 } { value := 2 } {}, .record 2,
        .register 2]).1
      (Transition.run (recordedStep {}) ([], {}) [
        .accept 1 { value := 5 } { value := 1 } {}, .record 1, .register 1,
        .fail 1, .erase 1,
        .accept 2 { value := 5 } { value := 2 } {}, .record 2,
        .register 2]).2 :=
  tableCurrent_of_run {} _ (by decide +kernel)

/-- The connection a worker had before its restart fails late, and its thread
erases the slot of the connection that has taken its place. -/
theorem not_tableCurrent_of_late_erase :
    ¬ ∀ (policy : BatchPolicy) (events : List Event),
      TableCurrent (Transition.run (recordedStep policy) ([], {}) events).1
        (Transition.run (recordedStep policy) ([], {}) events).2 := by
  intro current
  let events : List Event := [
    .accept 1 { value := 5 } { value := 1 } {}, .record 1, .register 1,
    .accept 2 { value := 5 } { value := 2 } {}, .record 2, .register 2,
    .fail 1, .erase 1]
  have settled : (Transition.run (recordedStep {}) ([], {})
      events).2.Settled := by
    decide +kernel
  have last : latest (Transition.run (recordedStep {}) ([], {}) events).1
      { value := 5 } = some 2 := by
    decide +kernel
  have serving : ((Transition.run (recordedStep {}) ([], {})
      events).2.connections[2]?).map (·.phase) = some .serving := by
    decide +kernel
  have erased : ((Transition.run (recordedStep {}) ([], {})
      events).2.workers[({ value := 5 } : WorkerId)]?) = none := by
    decide +kernel
  obtain ⟨k, found, phase⟩ := Option.map_eq_some_iff.mp serving
  have slot := (current {} events settled { value := 5 } 2 k last found (by
    rw [phase]
    rfl)).1
  rw [erased] at slot
  cases slot

end BatchFabric.Coordinator
