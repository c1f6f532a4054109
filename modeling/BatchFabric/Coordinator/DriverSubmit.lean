import BatchFabric.Coordinator.WorkerTable
import BatchFabric.Safety.SealReport

namespace BatchFabric.Coordinator

open OrderedMap

/-! A driver's submissions, each handled to its end: submit, tick, and the loop
that dispatches what the tick reports. -/

/-- The policy the coordinator runs its fabric with. -/
def coordPolicy : BatchPolicy where
  constraints := {
    budget := {
      maxRequests := 8
      maxInputTokens := 100000
      maxWork := 100000 }
    globalMaxWaitNs := 1000000
    minimumPreferredBatch := 1 }
  retry := { maxAttempts := 3 }

namespace State

/-- The first worker of the table, unless its id is zero. -/
def firstWorker (c : State) : Option (WorkerId × WorkerSlot) :=
  match c.workers.toList.head? with
  | none => none
  | some entry => if entry.1.value = 0 then none else some entry

def submit (policy : BatchPolicy) (c : State) (metadata : RequestMetadata)
    (now : TimePoint) : State :=
  step policy c (.serve ⟨.submit metadata now, rfl⟩)

def tick (policy : BatchPolicy) (c : State) (order : List CompatibilityKey)
    (now : TimePoint) : State :=
  step policy c (.serve ⟨.tick order now, rfl⟩)

def prepareDispatch (policy : BatchPolicy) (c : State) (bid : BatchId)
    (worker : WorkerId) (boot : WorkerBootId) (now : TimePoint) : State :=
  step policy c (.serve ⟨.prepareDispatch bid worker boot now, rfl⟩)

/-- The dispatch loop. Without a worker it stops; a batch that cannot be
prepared is passed over. -/
def dispatchReported (policy : BatchPolicy) (at' : BatchId → TimePoint) :
    State → List BatchId → State
  | c, [] => c
  | c, bid :: rest =>
      match c.firstWorker with
      | none => c
      | some (worker, slot) =>
          dispatchReported policy at'
            (c.prepareDispatch policy bid worker slot.boot (at' bid)) rest

end State

/-- A submission, with the times its steps resolve and the order the buckets
are enumerated in. -/
structure Submission where
  metadata : RequestMetadata
  submitted : TimePoint
  order : List CompatibilityKey := []
  ticked : TimePoint
  dispatched : BatchId → TimePoint := fun _ => ticked

inductive DriverEvent
  | connects (ch : Nat) (worker : WorkerId) (boot : WorkerBootId)
      (cap : ExecutorCapability)
  | disconnects (ch : Nat)
  | submits (submission : Submission)

/-- A submission handled to the end. -/
def handleSubmit (policy : BatchPolicy) (c : State) (submission : Submission) :
    State :=
  let submitted := c.submit policy submission.metadata submission.submitted
  let report := (submitted.fabric.tick policy submission.order
    submission.ticked).1
  (submitted.tick policy submission.order submission.ticked).dispatchReported
    policy submission.dispatched report.sealedBatches

def handle (policy : BatchPolicy) (c : State) : DriverEvent → State
  | .connects ch worker boot cap =>
      Transition.run (step policy) c
        [.accept ch worker boot cap, .record ch, .register ch]
  | .disconnects ch => Transition.run (step policy) c [.fail ch, .erase ch]
  | .submits submission => handleSubmit policy c submission

/-- The coordinator after a sequence of events. -/
def handled (policy : BatchPolicy) (events : List DriverEvent) : State :=
  Transition.run (handle policy) {} events

/-- No batch of the fabric is waiting to be dispatched. -/
def NoneSealed (s : Impl) : Prop :=
  Everywhere s.batches fun _ b => b.state ≠ .sealed

instance (s : Impl) : Decidable (NoneSealed s) :=
  inferInstanceAs (Decidable (Everywhere _ _))

/-- No batch stays sealed when a submission has been handled while the table
had a worker. -/
def LosesNoSealed (policy : BatchPolicy) (events : List DriverEvent) : Prop :=
  ∀ first submission rest, events = first ++ .submits submission :: rest →
    (handled policy first).workers.isEmpty = false →
    NoneSealed (handled policy (first ++ [.submits submission])).fabric

/-- The size pass takes the batch at this place of the order apart. -/
def splitsAt (s : Impl) (i : Nat) : Bool :=
  match s.oversizedAt i with
  | none => false
  | some bid =>
      match s.batches[bid]? with
      | none => false
      | some b => Impl.splittable b

/-- The tick takes no batch apart for its size. -/
def splitsNone (policy : BatchPolicy) (s : Impl)
    (order : List CompatibilityKey) (now : TimePoint) : Bool :=
  let merged := s.tickUntilSizePass policy order now
  (List.range merged.sealedOrder.length).all fun i => !splitsAt merged i

/-- The first worker of the table is current in the fabric. -/
def State.canDispatch (c : State) : Bool :=
  match c.firstWorker with
  | none => false
  | some (worker, slot) => c.fabric.workerCurrent worker slot.boot

/-- What seals a batch also dispatches it: the tick splits none, and if it
reports any, the first worker of the table is the one the fabric knows. -/
def dispatchesAll (policy : BatchPolicy) (c : State) : DriverEvent → Bool
  | .submits submission =>
      let submitted :=
        c.submit policy submission.metadata submission.submitted
      splitsNone policy submitted.fabric submission.order submission.ticked &&
        ((submitted.fabric.tick policy submission.order
            submission.ticked).1.sealedBatches.isEmpty ||
          submitted.canDispatch)
  | _ => true

/-! What a tick seals while no batch is sealed, it adds to the order. -/

structure SealsAnew (s s' : Impl) : Prop where
  later : Impl.Later s s'
  new : Everywhere s'.batches fun bid b =>
    b.state = .sealed → bid ∈ s'.sealedOrder ∧ bid ∉ s.sealedOrder

namespace SealsAnew

variable {s s' s'' : Impl}

theorem of_states (anew : SealsAnew s s') (later : Impl.Later s s'')
    (order : s''.sealedOrder = s'.sealedOrder)
    (states : ∀ bid : BatchId, (s''.batches[bid]?).map (·.state) =
      (s'.batches[bid]?).map (·.state)) : SealsAnew s s'' := by
  refine ⟨later, ?_⟩
  intro bid b found isSealed
  obtain ⟨b', found', same⟩ := Impl.exists_of_map_eq (states bid) found
  rw [order]
  exact anew.new bid b' found' (same.symm.trans isSealed)

theorem of_noneSealed (wellFormed : s.WellFormed) (unsealed : NoneSealed s) :
    SealsAnew s s :=
  ⟨.refl wellFormed, fun bid b found isSealed =>
    absurd isSealed (unsealed bid b found)⟩

theorem doCancel (anew : SealsAnew s s') (policy : BatchPolicy)
    (id : RequestId) (now : TimePoint) :
    SealsAnew s (s'.doCancel policy id now).2 := by
  have later := (Impl.laterRule policy now s).cancel s' id anew.later
  obtain unchanged | ⟨r, _, _, ⟨_, outside⟩ |
      ⟨_, b, _, ⟨_, forming⟩ | ⟨_, closed⟩⟩⟩ :=
    Impl.doCancel_cases policy s' id now
  · rw [unchanged]
    exact anew
  · rw [outside] at later ⊢
    exact anew.of_states later rfl fun _ => rfl
  · rw [forming] at later ⊢
    exact anew.of_states later rfl
      (map_getElem?_modify (fun _ => by rfl) s'.batches r.batch)
  · rw [closed] at later ⊢
    exact anew.of_states later rfl
      (map_getElem?_modify (fun _ => by rfl) s'.batches r.batch)

theorem expireWaiting (anew : SealsAnew s s') (now : TimePoint)
    (id : RequestId) : SealsAnew s (Impl.expireWaiting now s' id) := by
  have later := (Impl.laterRule {} now s).expire s' id anew.later
  obtain unchanged | ⟨r, _, ⟨_, removed⟩ | ⟨_, stats, ended⟩⟩ :=
    Impl.expireWaiting_cases now s' id
  · rw [unchanged]
    exact anew
  · rw [removed] at later ⊢
    exact anew.of_states later rfl fun _ => rfl
  · rw [ended] at later ⊢
    exact anew.of_states later rfl fun _ => rfl

/-- A batch that is sealed was not in the order when the tick began: what was
ordered then is closed. -/
theorem sealForming (anew : SealsAnew s s') (wellFormed : s.WellFormed)
    {bid : BatchId} {b : BatchRec} (found : s'.batches[bid]? = some b)
    (forming : b.state = .forming) (reason : SealReason) (now : TimePoint) :
    SealsAnew s (s'.sealForming bid b reason now) := by
  refine ⟨(Impl.laterRule {} now s).close s' bid b reason anew.later found
    forming, ?_⟩
  intro other record at_other isSealed
  by_cases same : bid = other
  · subst same
    refine ⟨List.mem_append_right _ (List.mem_singleton_self bid), ?_⟩
    intro listed
    obtain ⟨b', found', closed⟩ :=
      anew.later.closed_ordered wellFormed listed
    rw [found] at found'
    cases found'
    exact closed forming
  · unfold Impl.sealForming at at_other
    dsimp only at at_other
    rw [getElem?_modify, if_neg same] at at_other
    obtain ⟨ordered, fresh⟩ := anew.new other record at_other isSealed
    exact ⟨List.mem_append_left _ ordered, fresh⟩

theorem mergeInto (anew : SealsAnew s s') {policy : BatchPolicy}
    {aid bid : BatchId} {a b : BatchRec}
    (merging : Impl.Merging policy s' aid bid a b) :
    SealsAnew s (s'.mergeInto aid bid a b) := by
  refine ⟨(Impl.laterRule policy 0 s).merge s' aid bid a b anew.later
    merging, ?_⟩
  have kept : ∀ {other : BatchId}, other ∈ s'.sealedOrder → other ≠ bid →
      other ∈ (s'.mergeInto aid bid a b).sealedOrder := by
    intro other ordered different
    exact List.mem_filter.mpr ⟨ordered, decide_eq_true different⟩
  intro other record at_other isSealed
  obtain ⟨_, superseded⟩ | ⟨rfl, different, _⟩ | ⟨_, different, found⟩ :=
    Impl.found_mergeInto at_other
  · rw [isSealed] at superseded
    cases superseded
  · have known := anew.new other a merging.first merging.firstSealed
    exact ⟨kept known.1 different, known.2⟩
  · have known := anew.new other record found isSealed
    exact ⟨kept known.1 different, known.2⟩

theorem tickRule (policy : BatchPolicy) (now : TimePoint)
    (wellFormed : s.WellFormed) :
    Impl.TickRule policy now (SealsAnew s) where
  wellFormed _ anew := anew.later.1
  expire _ id anew := anew.expireWaiting now id
  cancel _ id anew := anew.doCancel policy id now
  openForming s' key anew absent := by
    refine ⟨(Impl.laterRule policy now s).openForming s' key anew.later absent,
      ?_⟩
    intro bid b found isSealed
    obtain ⟨_, rfl⟩ | found := Impl.found_openForming found
    · cases isSealed
    · exact anew.new bid b found isSealed
  place s' bid key pick b r anew placing := by
    have later := (Impl.laterRule policy now s).place s' bid key pick b r
      anew.later placing
    rw [Impl.place_eq placing.request] at later ⊢
    exact anew.of_states later rfl
      (map_getElem?_modify (fun _ => by rfl) s'.batches bid)
  retime s' bid change anew retimes := by
    have later := (Impl.laterRule policy now s).retime s' bid change anew.later
      retimes
    refine anew.of_states later rfl (map_getElem?_modify ?_ s'.batches bid)
    intro b
    obtain ⟨allowed, formed, changed⟩ := retimes b
    rw [changed]
  close _ _ _ reason anew found forming :=
    anew.sealForming wellFormed found forming reason now
  merge _ _ _ _ _ anew merging := anew.mergeInto merging

end SealsAnew

/-- A tick that splits none leaves what its merge pass left. -/
theorem doTick_of_splitsNone {policy : BatchPolicy} {s : Impl}
    (wellFormed : s.WellFormed) {order : List CompatibilityKey}
    {now : TimePoint} (unsplit : splitsNone policy s order now = true) :
    s.doTick policy order now = s.tickUntilSizePass policy order now := by
  have formed : (s.tickUntilSizePass policy order now).WellFormed :=
    (Impl.WellFormed.tickRule policy now).untilSizePass wellFormed order
  unfold splitsNone at unsplit
  unfold Impl.doTick Impl.sizePass
  generalize s.tickUntilSizePass policy order now = merged at formed unsplit
  refine Transition.run_invariant (fun current : Impl => current = merged) ?_
    rfl
  rintro _ i member rfl
  have unsplit := List.all_eq_true.mp unsplit i member
  obtain unchanged | ⟨bid, b, found, _, possible, oversized, _⟩ :=
    Impl.splitOversized_cases formed i
  · exact unchanged
  · simp [splitsAt, oversized, found, possible] at unsplit

/-- Then every sealed batch is reported, when none was sealed before. -/
theorem reported_of_splitsNone {policy : BatchPolicy} {s : Impl}
    (wellFormed : s.WellFormed) (unsealed : NoneSealed s)
    {order : List CompatibilityKey} {now : TimePoint}
    (unsplit : splitsNone policy s order now = true) :
    Everywhere (s.tick policy order now).2.batches fun bid b =>
      b.state = .sealed →
        bid ∈ (s.tick policy order now).1.sealedBatches := by
  have anew : SealsAnew s (s.doTick policy order now) := by
    rw [doTick_of_splitsNone wellFormed unsplit]
    exact (SealsAnew.tickRule policy now wellFormed).untilSizePass
      (.of_noneSealed wellFormed unsealed) order
  intro bid b found isSealed
  have known := anew.new bid b found isSealed
  exact List.mem_filter.mpr ⟨known.1, decide_eq_true known.2⟩

/-! The dispatch loop. -/

section Dispatching

variable {s : Impl} {bid : BatchId} {worker : WorkerId} {boot : WorkerBootId}

theorem workers_prepareDispatch (s : Impl) (bid : BatchId) (worker : WorkerId)
    (boot : WorkerBootId) (now : TimePoint) :
    (s.prepareDispatch bid worker boot now).2.workers = s.workers := by
  obtain ⟨err, refused⟩ | ⟨b, _, _, _, dispatched⟩ :=
    Impl.prepareDispatch_cases s bid worker boot now
  · rw [refused]
  · rw [dispatched]
    rfl

theorem prepareDispatch_elsewhere (s : Impl) {bid other : BatchId}
    (different : bid ≠ other) (worker : WorkerId) (boot : WorkerBootId)
    (now : TimePoint) :
    (s.prepareDispatch bid worker boot now).2.batches[other]? =
      s.batches[other]? := by
  obtain ⟨err, refused⟩ | ⟨b, _, _, _, dispatched⟩ :=
    Impl.prepareDispatch_cases s bid worker boot now
  · rw [refused]
  · rw [dispatched]
    unfold Impl.markDispatched
    dsimp only
    rw [getElem?_modify, if_neg different]

/-- A sealed batch is dispatched to a worker that is current. -/
theorem prepareDispatch_of_sealed {b : BatchRec}
    (found : s.batches[bid]? = some b) (isSealed : b.state = .sealed)
    (current : s.workerCurrent worker boot = true) (now : TimePoint) :
    (s.prepareDispatch bid worker boot now).2 =
      s.markDispatched bid b worker boot now := by
  unfold Impl.prepareDispatch
  simp [found, isSealed, current]

theorem unsealed_prepareDispatch
    (current : s.workerCurrent worker boot = true) (now : TimePoint)
    {b : BatchRec}
    (found : (s.prepareDispatch bid worker boot now).2.batches[bid]? =
      some b) : b.state ≠ .sealed := by
  obtain ⟨err, refused⟩ | ⟨before, at_bid, _, _, dispatched⟩ :=
    Impl.prepareDispatch_cases s bid worker boot now
  · rw [refused] at found
    intro isSealed
    have marked := prepareDispatch_of_sealed found isSealed current now
    rw [refused] at marked
    have states := congrArg (fun s => (s.batches[bid]?).map (·.state)) marked
    unfold Impl.markDispatched at states
    simp [getElem?_modify_self found, found, isSealed] at states
  · rw [dispatched] at found
    have marked := found.symm.trans (getElem?_modify_self at_bid _)
    rw [Option.some.inj marked]
    exact nofun

end Dispatching

theorem canDispatch_iff {c : State} : c.canDispatch = true ↔
    ∃ worker slot, c.firstWorker = some (worker, slot) ∧
      c.fabric.workerCurrent worker slot.boot = true := by
  unfold State.canDispatch
  cases c.firstWorker with
  | none => simp
  | some entry =>
      obtain ⟨worker, slot⟩ := entry
      simp

/-- The loop leaves none of the batches sealed that it goes through, when the
first worker is current. -/
theorem noneSealed_dispatchReported {policy : BatchPolicy}
    {at' : BatchId → TimePoint} {c : State} {bids : List BatchId}
    (can : c.canDispatch = true)
    (within : Everywhere c.fabric.batches fun bid b =>
      b.state = .sealed → bid ∈ bids) :
    NoneSealed (c.dispatchReported policy at' bids).fabric := by
  induction bids generalizing c with
  | nil =>
      intro bid b found isSealed
      exact absurd (within bid b found isSealed) List.not_mem_nil
  | cons first rest induction =>
      obtain ⟨worker, slot, chosen, current⟩ := canDispatch_iff.mp can
      unfold State.dispatchReported
      rw [chosen]
      apply induction
      · refine canDispatch_iff.mpr ⟨worker, slot, chosen, ?_⟩
        show (c.fabric.prepareDispatch first worker slot.boot
          (at' first)).2.workerCurrent worker slot.boot = true
        unfold Impl.workerCurrent
        rw [workers_prepareDispatch]
        exact current
      · intro bid b found isSealed
        have found : (c.fabric.prepareDispatch first worker slot.boot
          (at' first)).2.batches[bid]? = some b := found
        by_cases here : first = bid
        · subst here
          exact absurd isSealed (unsealed_prepareDispatch current _ found)
        · rw [prepareDispatch_elsewhere _ here] at found
          have listed := within bid b found isSealed
          exact (List.mem_cons.mp listed).resolve_left (Ne.symm here)

/-! Runs of driver events. -/

/-- No batch is sealed between two events. -/
structure Dispatched (c : State) : Prop where
  wellFormed : c.fabric.WellFormed
  unsealed : NoneSealed c.fabric

theorem batches_submit (policy : BatchPolicy) (s : Impl)
    (metadata : RequestMetadata) (now : TimePoint) :
    (s.doSubmit policy metadata now).2.batches = s.batches := by
  obtain ⟨stats, taken⟩ | ⟨_, ⟨_, _, _, _, taken⟩ | ⟨_, _, taken⟩⟩ :=
    Impl.doSubmit_cases policy s metadata now
  · rw [taken]
  · rw [taken]
    rfl
  · rw [taken]
    rfl

namespace Dispatched

variable {policy : BatchPolicy} {c : State}

/-- A step of a worker's thread changes no batch. -/
theorem step (dispatched : Dispatched c) {event : Event}
    (thread : ∀ request, event ≠ .serve request) :
    Dispatched (Coordinator.step policy c event) := by
  cases event with
  | serve request => exact absurd rfl (thread request)
  | register ch =>
      unfold Coordinator.step
      dsimp only
      split
      · exact dispatched
      · exact ⟨dispatched.wellFormed.of_counters _ _ _ _, dispatched.unsealed⟩
  | accept ch worker boot cap =>
      unfold Coordinator.step
      dsimp only
      split
      · exact dispatched
      · split
        · exact ⟨dispatched.wellFormed, dispatched.unsealed⟩
        · exact dispatched
  | leave ch =>
      unfold Coordinator.step
      dsimp only
      split
      · exact dispatched
      · split
        · exact dispatched
        · exact ⟨dispatched.wellFormed, dispatched.unsealed⟩
  | record ch | fail ch | erase ch | shutdown ch =>
      unfold Coordinator.step
      dsimp only
      split
      · exact dispatched
      · exact ⟨dispatched.wellFormed, dispatched.unsealed⟩

theorem threads (dispatched : Dispatched c) {events : List Event}
    (threads : ∀ event ∈ events, ∀ request, event ≠ .serve request) :
    Dispatched (Transition.run (Coordinator.step policy) c events) :=
  Transition.run_invariant Dispatched
    (fun _ event listed held => held.step (threads event listed)) dispatched

theorem wellFormed_serve (wellFormed : c.fabric.WellFormed)
    (request : Request) :
    (Coordinator.step policy c (.serve request)).fabric.WellFormed :=
  wellFormed.step request.1

theorem wellFormed_dispatchReported {at' : BatchId → TimePoint}
    (wellFormed : c.fabric.WellFormed) (bids : List BatchId) :
    (c.dispatchReported policy at' bids).fabric.WellFormed := by
  induction bids generalizing c with
  | nil => exact wellFormed
  | cons first rest induction =>
      unfold State.dispatchReported
      split
      · exact wellFormed
      · exact induction (wellFormed_serve wellFormed _)

theorem handleSubmit (dispatched : Dispatched c) {submission : Submission}
    (guarded : dispatchesAll policy c (.submits submission) = true) :
    Dispatched (handleSubmit policy c submission) := by
  unfold dispatchesAll at guarded
  dsimp only at guarded
  unfold Coordinator.handleSubmit
  dsimp only
  have wellFormed : (c.submit policy submission.metadata
      submission.submitted).fabric.WellFormed :=
    wellFormed_serve dispatched.wellFormed _
  have unsealed : NoneSealed (c.submit policy submission.metadata
      submission.submitted).fabric := by
    show Everywhere (c.fabric.doSubmit policy submission.metadata
      submission.submitted).2.batches _
    rw [batches_submit]
    exact dispatched.unsealed
  generalize c.submit policy submission.metadata submission.submitted =
    submitted at guarded wellFormed unsealed
  rw [Bool.and_eq_true, Bool.or_eq_true] at guarded
  have reported := reported_of_splitsNone wellFormed unsealed guarded.1
  have ticked : (submitted.tick policy submission.order
      submission.ticked).fabric.WellFormed := wellFormed_serve wellFormed _
  refine ⟨wellFormed_dispatchReported ticked _, ?_⟩
  rcases guarded.2 with quiet | can
  · have quiet := List.isEmpty_iff.mp quiet
    rw [quiet] at reported ⊢
    intro bid b found isSealed
    exact absurd (reported bid b found isSealed) List.not_mem_nil
  · refine noneSealed_dispatchReported ?_ reported
    obtain ⟨worker, slot, chosen, current⟩ := canDispatch_iff.mp can
    have same := Impl.SameIncarnations.doTick wellFormed policy
      submission.order submission.ticked
    refine canDispatch_iff.mpr ⟨worker, slot, chosen, ?_⟩
    exact (same.workerCurrent worker slot.boot).trans current

theorem handle (dispatched : Dispatched c) {event : DriverEvent}
    (guarded : dispatchesAll policy c event = true) :
    Dispatched (handle policy c event) := by
  cases event with
  | connects ch worker boot cap =>
      apply dispatched.threads
      simp
  | disconnects ch =>
      apply dispatched.threads
      simp
  | submits submission => exact dispatched.handleSubmit guarded

end Dispatched

theorem handled_concat (policy : BatchPolicy) (events : List DriverEvent)
    (event : DriverEvent) :
    handled policy (events ++ [event]) =
      handle policy (handled policy events) event :=
  Transition.run_append _ _ events [event]

theorem handled_submits (policy : BatchPolicy) (events : List DriverEvent)
    (submission : Submission) :
    handled policy (events ++ [.submits submission]) =
      handleSubmit policy (handled policy events) submission :=
  handled_concat policy events (.submits submission)

/-- A worker that connects is in the table and registered. -/
theorem handle_connects {policy : BatchPolicy} {c : State} {ch : Nat}
    (new : c.connections[ch]? = none) (running : c.running = true)
    (worker : WorkerId) (boot : WorkerBootId) (cap : ExecutorCapability) :
    (handle policy c (.connects ch worker boot cap)).workers =
        c.workers.insert worker { ch := ch, boot := boot } ∧
      (handle policy c (.connects ch worker boot cap)).fabric =
        c.fabric.registerWorker worker boot cap := by
  let k : Connection := { worker := worker, boot := boot, cap := cap }
  let accepted : State :=
    { c with connections := c.connections.insert ch k }
  let recorded : State := { accepted.setPhase ch .recorded with
    workers := c.workers.insert worker { ch := ch, boot := boot } }
  have found : accepted.connections[ch]? = some k := by
    show (c.connections.insert ch k)[ch]? = some k
    rw [getElem?_insert, if_pos rfl]
  have stands : accepted.standing ch .accepted = some k :=
    standing_iff.mpr ⟨found, rfl⟩
  have stands' : recorded.standing ch .recorded =
      some { k with phase := .recorded } :=
    standing_iff.mpr ⟨setPhase_self found .recorded, rfl⟩
  have accept : Coordinator.step policy c (.accept ch worker boot cap) =
      accepted := by
    simp only [Coordinator.step, new]
    exact if_pos running
  have record : Coordinator.step policy accepted (.record ch) =
      recorded := by
    simp only [Coordinator.step, stands]
    rfl
  have register : Coordinator.step policy recorded (.register ch) =
      { recorded.setPhase ch .serving with
        fabric := c.fabric.registerWorker worker boot cap } := by
    simp only [Coordinator.step, stands']
    rfl
  have whole : handle policy c (.connects ch worker boot cap) =
      { recorded.setPhase ch .serving with
        fabric := c.fabric.registerWorker worker boot cap } := by
    show Transition.run (Coordinator.step policy) c
      [.accept ch worker boot cap, .record ch, .register ch] = _
    rw [Transition.run_cons, accept, Transition.run_cons, record,
      Transition.run_cons, register]
    rfl
  rw [whole]
  exact ⟨rfl, rfl⟩

/-- Without a worker, or with nothing reported, a submission is no more than the
two operations on the fabric. -/
theorem handleSubmit_of_idle {policy : BatchPolicy} {c : State}
    {submission : Submission}
    (idle : c.firstWorker = none ∨
      ((BatchFabric.step policy c.fabric (.submit submission.metadata
        submission.submitted)).tick policy submission.order
          submission.ticked).1.sealedBatches = []) :
    handleSubmit policy c submission = { c with
      fabric := Transition.run (BatchFabric.step policy) c.fabric
        [.submit submission.metadata submission.submitted,
          .tick submission.order submission.ticked] } := by
  have loop : ∀ bids, c.firstWorker = none ∨ bids = [] →
      ((c.submit policy submission.metadata submission.submitted).tick policy
        submission.order submission.ticked).dispatchReported policy
          submission.dispatched bids =
      (c.submit policy submission.metadata submission.submitted).tick policy
        submission.order submission.ticked := by
    intro bids idle
    cases bids with
    | nil => rfl
    | cons bid rest =>
        have missing := idle.resolve_right (List.cons_ne_nil bid rest)
        have still : ((c.submit policy submission.metadata
            submission.submitted).tick policy submission.order
              submission.ticked).firstWorker = none := missing
        unfold State.dispatchReported
        rw [still]
  exact loop _ idle

theorem fabric_handleSubmit {policy : BatchPolicy} {c : State}
    {submission : Submission}
    (idle : c.firstWorker = none ∨
      ((BatchFabric.step policy c.fabric (.submit submission.metadata
        submission.submitted)).tick policy submission.order
          submission.ticked).1.sealedBatches = []) :
    (handleSubmit policy c submission).fabric =
      Transition.run (BatchFabric.step policy) c.fabric
        [.submit submission.metadata submission.submitted,
          .tick submission.order submission.ticked] := by
  rw [handleSubmit_of_idle idle]

theorem run_more (policy : BatchPolicy) (ops more : List Op) :
    run policy (ops ++ more) =
      Transition.run (BatchFabric.step policy) (run policy ops) more :=
  Transition.run_append _ Impl.fresh ops more

theorem submit_known (known : KnownKeys) (policy : BatchPolicy) (c : State)
    (metadata : RequestMetadata) (now : TimePoint) :
    c.submit policy metadata now =
      { c with
        fabric := stepKnown known policy c.fabric (.submit metadata now) } := by
  rw [← step_eq_stepKnown known]
  rfl

/-- In every run in which what seals a batch also dispatches it, none stays
sealed. -/
theorem losesNoSealed_of_dispatchesAll (policy : BatchPolicy)
    (events : List DriverEvent)
    (guarded : Transition.Along (handle policy)
      (fun c event => dispatchesAll policy c event = true) {} events) :
    LosesNoSealed policy events := by
  intro first submission rest taken _
  rw [taken, List.append_cons] at guarded
  have before := ((Transition.along_append _ _ _ _ rest).mp guarded).1
  have fresh : Dispatched {} := ⟨Impl.WellFormed.fresh, everywhere_empty⟩
  have reached : Dispatched (handled policy
      (first ++ [.submits submission])) :=
    before.invariant Dispatched
      (fun _ _ _ held allowed => held.handle allowed) fresh
  exact reached.unsealed

/-- A worker connects before the first submission. -/
theorem losesNoSealed_of_connected :
    LosesNoSealed coordPolicy [
      .connects 1 { value := 5 } { value := 1 } {},
      .submits { metadata := minimalRequest, submitted := 1, ticked := 2 }] := by
  apply losesNoSealed_of_dispatchesAll
  refine ⟨rfl, ?_, trivial⟩
  simp only [dispatchesAll, submit_known .minimal]
  decide +kernel

/-- The first submission finds no worker. Its batch stays sealed when a worker
has connected and the next submission is handled: the tick takes that one into
the same batch. -/
theorem not_losesNoSealed_of_late_worker :
    ¬ ∀ events, LosesNoSealed coordPolicy events := by
  intro loses
  let first : Submission := {
    metadata := minimalRequest, submitted := 1, ticked := 2 }
  let last : Submission := {
    metadata := minimalRequest, submitted := 3, ticked := 4 }
  let connects : DriverEvent := .connects 1 { value := 5 } { value := 1 } {}
  let ops : List Op := [
    .submit minimalRequest 1, .tick [] 2,
    .registerWorker { value := 5 } { value := 1 } {}]
  let alone : Impl := run coordPolicy [.submit minimalRequest 1, .tick [] 2]
  have handled' : handled coordPolicy [.submits first] =
      { fabric := alone } := by
    have idle : ({} : State).firstWorker = none := rfl
    exact (handled_submits coordPolicy [] first).trans
      (handleSubmit_of_idle (.inl idle))
  obtain ⟨table, fabric⟩ :
      (handled coordPolicy [.submits first, connects]).workers = _ ∧
        (handled coordPolicy [.submits first, connects]).fabric =
          run coordPolicy ops := by
    have joined := handled_concat coordPolicy [.submits first] connects
    rw [handled'] at joined
    have settles : (handle coordPolicy { fabric := alone } connects).workers =
        _ ∧ _ := handle_connects rfl rfl { value := 5 } { value := 1 } {}
    rw [← joined] at settles
    exact settles
  have connected : (handled coordPolicy
      [.submits first, connects]).workers.isEmpty = false := by
    rw [table]
    decide +kernel
  have quiet : ((BatchFabric.step coordPolicy (run coordPolicy ops)
      (.submit minimalRequest 3)).tick coordPolicy [] 4).1.sealedBatches =
        [] := by
    rw [run_eq_runKnown .minimal, step_eq_stepKnown .minimal]
    decide +kernel
  have done : (handled coordPolicy
      ([.submits first, connects] ++ [.submits last])).fabric =
        run coordPolicy (ops ++ [.submit minimalRequest 3, .tick [] 4]) := by
    have idle : (handleSubmit coordPolicy
        (handled coordPolicy [.submits first, connects]) last).fabric = _ :=
      fabric_handleSubmit (.inr (by
        rw [fabric]
        exact quiet))
    rw [handled_submits, idle, fabric]
    exact (run_more coordPolicy ops _).symm
  have unsealed := loses _ [.submits first, connects] last [] rfl connected
  rw [done, run_eq_runKnown .minimal] at unsealed
  revert unsealed
  decide +kernel

end BatchFabric.Coordinator
