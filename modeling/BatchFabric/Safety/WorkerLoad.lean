import BatchFabric.Safety.Membership
import BatchFabric.Safety.StepRule
import BatchFabric.Scheduler.KnownKeys

namespace BatchFabric

open OrderedMap

/-! Which batches the fabric believes its workers to run. -/

def BatchRec.inFlight (b : BatchRec) : Bool :=
  b.state == .dispatched || b.state == .running

/-- The batch has been sent to the worker, and no report has closed it. -/
def BatchRec.outstandingAt (worker : WorkerId) (b : BatchRec) : Bool :=
  b.inFlight && b.worker == worker

structure WorkerSnapshotEntry where
  worker : WorkerId
  boot : WorkerBootId
  live : Bool
  activeBatchCount : UInt32
  completedBatches : UInt64
  deriving DecidableEq

namespace Impl

/-- The workers as a snapshot shows them. -/
def workerList (s : Impl) : List WorkerSnapshotEntry :=
  s.workers.toList.map fun entry => {
    worker := entry.1
    boot := entry.2.boot
    live := entry.2.live
    activeBatchCount := UInt32.ofNat entry.2.running.length
    completedBatches := 0 }

/-- Each worker's list holds its outstanding batches, each once, and the
snapshot shows how many they are. -/
structure LoadTracked (s : Impl) : Prop where
  listed : Everywhere s.workers fun worker w => ∀ bid : BatchId,
    w.running.count bid =
      if (s.batches[bid]?).any (BatchRec.outstandingAt worker) then 1 else 0
  shown : ∀ entry ∈ s.workerList, entry.activeBatchCount.toNat =
    count (BatchRec.outstandingAt entry.worker) s.batches

/-- No batch in flight was sent to a registered worker. -/
def Unassigned (s : Impl) : Prop :=
  Everywhere s.batches fun _ b => b.inFlight = true →
    s.workers[b.worker]? = none

instance (s : Impl) : Decidable s.Unassigned :=
  inferInstanceAs (Decidable (Everywhere _ _))

/-- Nothing is ever entered in the list of a worker. -/
def RunningEmpty (s : Impl) : Prop :=
  Everywhere s.workers fun _ w => w.running = []

namespace RunningEmpty

variable {s s' : Impl}

theorem fresh : RunningEmpty fresh :=
  everywhere_empty.insert rfl

theorem of_workers (empty : s.RunningEmpty) (same : s'.workers = s.workers) :
    s'.RunningEmpty := by
  unfold RunningEmpty
  rw [same]
  exact empty

theorem doSubmit (empty : s.RunningEmpty) (policy : BatchPolicy)
    (metadata : RequestMetadata) (now : TimePoint) :
    (s.doSubmit policy metadata now).2.RunningEmpty := by
  obtain ⟨stats, taken⟩ | ⟨_, ⟨_, _, _, _, taken⟩ | ⟨_, _, taken⟩⟩ :=
    doSubmit_cases policy s metadata now
  · rw [taken]
    exact empty
  · rw [taken]
    exact empty.of_workers rfl
  · rw [taken]
    exact empty.of_workers rfl

theorem doCancel (empty : s.RunningEmpty) (policy : BatchPolicy)
    (id : RequestId) (now : TimePoint) :
    (s.doCancel policy id now).2.RunningEmpty := by
  obtain unchanged | ⟨r, _, _, ⟨_, outside⟩ |
      ⟨_, b, _, ⟨_, forming⟩ | ⟨_, later⟩⟩⟩ := doCancel_cases policy s id now
  · rw [unchanged]
    exact empty
  · rw [outside]
    exact empty.of_workers rfl
  · rw [forming]
    exact empty.of_workers rfl
  · rw [later]
    exact empty.of_workers rfl

theorem expireWaiting (empty : s.RunningEmpty) (now : TimePoint)
    (id : RequestId) : (expireWaiting now s id).RunningEmpty := by
  obtain unchanged | ⟨r, _, ⟨_, removed⟩ | ⟨_, stats, ended⟩⟩ :=
    expireWaiting_cases now s id
  · rw [unchanged]
    exact empty
  · rw [removed]
    exact empty
  · rw [ended]
    exact empty

/-- A closed batch is taken from a list that does not hold it. -/
theorem finishBatch (empty : s.RunningEmpty) (bid : BatchId)
    (worker : WorkerId) (now : TimePoint) :
    (s.finishBatch bid worker now).RunningEmpty := by
  have taken : Everywhere (s.workers.modify worker fun w =>
      { w with running := w.running.filter (· ≠ bid) })
      fun _ w => w.running = [] := by
    apply empty.modify
    intro w _ nothing
    dsimp only
    rw [nothing, List.filter_nil]
  unfold Impl.finishBatch
  split
  · exact empty
  · dsimp only
    split
    · exact taken
    · exact taken

theorem tickRule (policy : BatchPolicy) (now : TimePoint) :
    TickRule policy now fun s => WellFormed s ∧ s.RunningEmpty where
  wellFormed _ held := held.1
  expire _ id held :=
    ⟨held.1.expireWaiting now id, held.2.expireWaiting now id⟩
  cancel _ id held :=
    ⟨held.1.doCancel policy id now, held.2.doCancel policy id now⟩
  openForming _ key held _ := ⟨held.1.openForming key now, held.2⟩
  place s bid key pick b r held placing := by
    refine ⟨(WellFormed.tickRule policy now).place s bid key pick b r held.1
      placing, ?_⟩
    rw [place_eq placing.request]
    exact held.2.of_workers rfl
  retime _ bid _ held retimes := ⟨held.1.retime bid retimes, held.2⟩
  close _ _ _ reason held found forming :=
    ⟨held.1.sealForming found forming reason now, held.2⟩
  merge _ _ _ _ _ held merging :=
    ⟨held.1.mergeInto merging.first merging.second merging.keyed, held.2⟩

theorem reportRule (policy : BatchPolicy) (now : TimePoint) :
    ReportRule policy now (fun _ _ _ => true) RunningEmpty where
  count _ _ empty := empty
  outcome s mc empty _ := empty.of_workers
    (OutcomeFrame.applyMemberOutcome policy now s mc).workers
  dispatch _ _ _ _ _ empty _ _ := empty
  running _ _ _ empty _ _ := empty
  finish _ bid _ worker empty _ _ := empty.finishBatch bid worker now

theorem stepRule (policy : BatchPolicy) :
    StepRule policy (fun _ _ => True) (fun _ _ _ => true) RunningEmpty where
  ticks := tickRule policy
  reports now := (reportRule policy now).formed
  complete s comp now _ _ _ := allowsReport_always policy s comp now
  dispatchAndRun s bid executor now _ _ _ :=
    allowsRun_always policy s bid executor now
  submit _ metadata now _ empty _ := empty.doSubmit policy metadata now
  splitSealed _ _ _ _ empty _ _ _ := empty
  splitOpen _ _ _ _ empty _ _ _ _ := empty
  mergeInto _ _ _ _ _ _ empty _ _ _ _ := empty
  requeue _ _ _ _ _ _ empty _ _ _ := empty
  registerWorker s worker boot cap empty := by
    apply empty.insert
    dsimp only
    cases found : s.workers[worker]? with
    | none => rfl
    | some w => exact empty worker w found
  rollEpoch _ empty := empty

theorem loadTracked_iff (empty : s.RunningEmpty) :
    s.LoadTracked ↔ s.Unassigned := by
  constructor
  · intro tracked bid b found inFlight
    by_contra registered
    obtain ⟨w, known⟩ := Option.ne_none_iff_exists'.mp registered
    have once := tracked.listed b.worker w known bid
    have outstanding : b.outstandingAt b.worker = true := by
      unfold BatchRec.outstandingAt
      rw [inFlight, BEq.rfl]
      rfl
    rw [empty b.worker w known, found, Option.any_some, outstanding] at once
    cases once
  · intro unassigned
    have none' : ∀ worker w, s.workers[worker]? = some w →
        ∀ (bid : BatchId) b, s.batches[bid]? = some b →
          b.outstandingAt worker = false := by
      intro worker w known bid b found
      rw [Bool.eq_false_iff]
      intro outstanding
      obtain ⟨inFlight, same⟩ := (Bool.and_eq_true _ _).mp outstanding
      have unknown := unassigned bid b found inFlight
      rw [eq_of_beq same, known] at unknown
      cases unknown
    constructor
    · intro worker w known bid
      rw [empty worker w known, List.count_nil]
      cases found : s.batches[bid]? with
      | none => rfl
      | some b =>
          rw [Option.any_some, none' worker w known bid b found]
          rfl
    · intro entry member
      obtain ⟨⟨worker, w⟩, listed, rfl⟩ := List.mem_map.mp member
      have known := (mem_toList_iff _ _ _).mp listed
      dsimp only
      rw [empty worker w known]
      symm
      apply List.countP_eq_zero.mpr
      rintro ⟨bid, b⟩ stored
      have found := (mem_toList_iff _ _ _).mp stored
      rw [none' worker w known bid b found]
      exact Bool.false_ne_true

end RunningEmpty

theorem loadTracked_of_reachable {policy : BatchPolicy} {s : Impl}
    (reachable : Reachable policy s) : s.LoadTracked ↔ s.Unassigned :=
  ((RunningEmpty.stepRule policy).of_reachable RunningEmpty.fresh
    reachable).loadTracked_iff

/-! Runs in which no batch stays in flight. -/

def Idle (s : Impl) : Prop :=
  Everywhere s.batches fun _ b => b.inFlight = false

theorem Idle.unassigned {s : Impl} (idle : s.Idle) : s.Unassigned := by
  intro bid b found inFlight
  rw [idle bid b found] at inFlight
  cases inFlight

theorem inFlight_of_state {b b' : BatchRec} (state : b'.state = b.state) :
    b'.inFlight = b.inFlight := by
  unfold BatchRec.inFlight
  rw [state]

theorem inFlight_eq_true_iff (b : BatchRec) :
    b.inFlight = true ↔ b.state = .dispatched ∨ b.state = .running := by
  unfold BatchRec.inFlight
  rw [Bool.or_eq_true, beq_iff_eq, beq_iff_eq]

namespace Idle

variable {s s' : Impl}

/-- A change of one batch that does not send it off. -/
theorem modify (idle : s.Idle) (bid : BatchId)
    {change : BatchRec → BatchRec}
    (kept : ∀ b, s.batches[bid]? = some b → b.inFlight = false →
      (change b).inFlight = false)
    (batches : s'.batches = s.batches.modify bid change) : s'.Idle := by
  unfold Idle
  rw [batches]
  exact Everywhere.modify idle fun b found waits => kept b found waits

theorem doCancel (idle : s.Idle) (policy : BatchPolicy) (id : RequestId)
    (now : TimePoint) : (s.doCancel policy id now).2.Idle := by
  obtain unchanged | ⟨r, _, _, ⟨_, outside⟩ |
      ⟨_, b, _, ⟨_, forming⟩ | ⟨_, later⟩⟩⟩ := doCancel_cases policy s id now
  · rw [unchanged]
    exact idle
  · rw [outside]
    exact idle
  · rw [forming]
    exact idle.modify r.batch (fun _ _ waits => by exact waits) rfl
  · rw [later]
    exact idle.modify r.batch (fun _ _ waits => by exact waits) rfl

theorem expireWaiting (idle : s.Idle) (now : TimePoint) (id : RequestId) :
    (expireWaiting now s id).Idle := by
  obtain unchanged | ⟨r, _, ⟨_, removed⟩ | ⟨_, stats, ended⟩⟩ :=
    expireWaiting_cases now s id
  · rw [unchanged]
    exact idle
  · rw [removed]
    exact idle
  · rw [ended]
    exact idle

theorem splitSealed (idle : s.Idle) {bid : BatchId} {b : BatchRec}
    (found : s.batches[bid]? = some b) : (s.splitSealed bid b).Idle := by
  intro x b' found'
  rcases found_splitSealed found' with ⟨_, _, state⟩ | ⟨_, _, state⟩ |
      ⟨_, state⟩ | ⟨_, elsewhere⟩
  · unfold BatchRec.inFlight
    rw [state]
    rfl
  · rw [inFlight_of_state state]
    exact idle bid b found
  · unfold BatchRec.inFlight
    rw [state]
    rfl
  · exact idle x b' elsewhere

theorem splitOpen (idle : s.Idle) {bid : BatchId} {b : BatchRec}
    (found : s.batches[bid]? = some b) : (s.splitOpen bid b).Idle := by
  intro x b' found'
  rcases found_splitOpen found' with ⟨_, _, state⟩ | ⟨_, _, state⟩ |
      ⟨_, elsewhere⟩
  · rw [inFlight_of_state state]
    exact idle bid b found
  · rw [inFlight_of_state state]
    exact idle bid b found
  · exact idle x b' elsewhere

theorem mergeInto (idle : s.Idle) {aid bid : BatchId} {a b : BatchRec}
    (first : s.batches[aid]? = some a) : (s.mergeInto aid bid a b).Idle := by
  intro x b' found'
  rcases found_mergeInto found' with ⟨_, state⟩ | ⟨_, _, _, state⟩ |
      ⟨_, _, elsewhere⟩
  · unfold BatchRec.inFlight
    rw [state]
    rfl
  · rw [inFlight_of_state state]
    exact idle aid a first
  · exact idle x b' elsewhere

theorem tickRule (policy : BatchPolicy) (now : TimePoint) :
    TickRule policy now fun s => WellFormed s ∧ s.Idle where
  wellFormed _ held := held.1
  expire _ id held :=
    ⟨held.1.expireWaiting now id, held.2.expireWaiting now id⟩
  cancel _ id held :=
    ⟨held.1.doCancel policy id now, held.2.doCancel policy id now⟩
  openForming _ key held _ := by
    refine ⟨held.1.openForming key now, ?_⟩
    intro x b' found'
    obtain ⟨_, rfl⟩ | found := found_openForming found'
    · rfl
    · exact held.2 x b' found
  place s bid key pick b r held placing := by
    refine ⟨(WellFormed.tickRule policy now).place s bid key pick b r held.1
      placing, ?_⟩
    rw [place_eq placing.request]
    exact held.2.modify bid (fun _ _ waits => by exact waits) rfl
  retime s bid change held retimes := by
    refine ⟨held.1.retime bid retimes, held.2.modify bid ?_ rfl⟩
    intro b _ waits
    obtain ⟨allowed, formed, changed⟩ := retimes b
    rw [changed]
    exact waits
  close _ bid _ reason held found forming :=
    ⟨held.1.sealForming found forming reason now,
      held.2.modify bid (fun _ _ _ => rfl) rfl⟩
  merge _ _ _ _ _ held merging :=
    ⟨held.1.mergeInto merging.first merging.second merging.keyed,
      held.2.mergeInto merging.first⟩

theorem doTick (held : WellFormed s ∧ s.Idle) (policy : BatchPolicy)
    (order : List CompatibilityKey) (now : TimePoint) :
    WellFormed (s.doTick policy order now) ∧
      (s.doTick policy order now).Idle :=
  (tickRule policy now).doTick
    (fun _ _ _ held found _ _ =>
      ⟨held.1.splitSealed found, held.2.splitSealed found⟩) held order

/-- A report closes the only batch in flight. -/
theorem of_finished {bid : BatchId} {b : BatchRec}
    (found : s.batches[bid]? = some b)
    (others : Everywhere s.batches fun x b => x ≠ bid → b.inFlight = false)
    (worker : WorkerId) (now : TimePoint) :
    (s.finishBatch bid worker now).Idle := by
  have closed : ∀ change : BatchRec → BatchRec,
      (∀ b, (change b).inFlight = false) →
        Everywhere (s.batches.modify bid change)
          fun _ b => b.inFlight = false := by
    intro change ends x b' found'
    obtain ⟨b, found, ⟨_, changed⟩ | ⟨different, unchanged⟩⟩ :=
      getElem?_modify_cases found'
    · rw [changed]
      exact ends b
    · subst unchanged
      exact others x b' found (Ne.symm different)
  unfold Impl.finishBatch
  rw [found]
  dsimp only
  split
  · exact closed _ fun _ => rfl
  · exact closed _ fun _ => rfl

/-- A run in process whose report is taken leaves nothing in flight. -/
theorem of_run (idle : s.Idle) {bid : BatchId} {b : BatchRec}
    (found : s.batches[bid]? = some b) (worker : WorkerId) (now : TimePoint)
    (policy : BatchPolicy) (members : List MemberCompletion) :
    ((Transition.run (completeMember policy now)
      (s.startedRun bid b worker now) members).finishBatch bid worker
        now).Idle := by
  have frame := OutcomeFrame.completeMembers policy now
    (s.startedRun bid b worker now) members
  obtain ⟨started, atStart⟩ : ∃ started,
      (s.startedRun bid b worker now).batches[bid]? = some started :=
    ⟨_, getElem?_modify_self (getElem?_modify_self found _) _⟩
  obtain ⟨reported, atReport, _⟩ := frame.found_after atStart
  apply of_finished atReport
  intro x b' found' different
  obtain ⟨before, at_x, same⟩ := frame.found_before found'
  rw [inFlight_of_state (BatchRec.state_of_listing same)]
  obtain ⟨sent, at_x, ⟨rfl, _⟩ | ⟨_, rfl⟩⟩ := getElem?_modify_cases at_x
  · exact absurd rfl different
  · obtain ⟨first, at_x, ⟨rfl, _⟩ | ⟨_, rfl⟩⟩ := getElem?_modify_cases at_x
    · exact absurd rfl different
    · exact idle x _ at_x

end Idle

/-- The executor answers, and the fabric takes the answer for a report of the
current epoch and incarnation. -/
def takesAnswer (s : Impl) (bid : BatchId) (b : BatchRec)
    (executor : Executor) (now : TimePoint) : Bool :=
  let worker := executor.capability.worker
  (executor.execute (s.runExecution bid b worker now)).toBool &&
    b.epoch == s.epoch && s.workerCurrent worker (s.bootOf worker)

/-- No batch is handed to a worker, and every run in process is reported. -/
def keepsIdle (s : Impl) : Op → Bool
  | .prepareDispatch batch worker boot _ =>
      match s.batches[batch]? with
      | none => true
      | some b => b.state != .sealed || !s.workerCurrent worker boot
  | .dispatchAndRun batch executor now =>
      match s.batches[batch]? with
      | none => true
      | some b => b.state != .sealed || s.takesAnswer batch b executor now
  | _ => true

theorem Idle.dispatchAndRun {s : Impl} (wellFormed : WellFormed s)
    (idle : s.Idle) {policy : BatchPolicy} {bid : BatchId}
    {executor : Executor} {now : TimePoint}
    (guarded : s.keepsIdle (.dispatchAndRun bid executor now) = true) :
    (s.doDispatchAndRun policy bid executor now).2.Idle := by
  obtain unchanged | ⟨b, found, isSealed, answered⟩ :=
    doDispatchAndRun_cases policy s bid executor now
  · rw [unchanged]
    exact idle
  · have takes : s.takesAnswer bid b executor now = true := by
      simpa [keepsIdle, found, isSealed] using guarded
    unfold takesAnswer at takes
    simp only [Bool.and_eq_true, beq_iff_eq] at takes
    obtain ⟨⟨answers, epoch⟩, current⟩ := takes
    obtain ⟨err, answer, _⟩ | ⟨results, answer, reported⟩ := answered
    · rw [answer] at answers
      cases answers
    · let worker := executor.capability.worker
      let report := resultsCompletion b worker (s.bootOf worker) results
      have named : report.batch = bid := (wellFormed.batch bid b found).1
      let started : BatchRec := {
        b with
        state := .running, dispatchedNs := now, worker := worker
        boot := s.bootOf worker }
      have atStart :
          (s.startedRun bid b worker now).batches[bid]? = some started :=
        getElem?_modify_self (getElem?_modify_self found _) _
      have accepted :
          (s.startedRun bid b worker now).Accepts report started := {
        epoch := epoch
        worker := current
        batch := by
          rw [named]
          exact atStart
        generation := rfl
        inFlight := .inr rfl }
      rw [reported, doComplete_of_accepts accepted, named]
      exact idle.of_run found worker now policy report.members

theorem Idle.step {policy : BatchPolicy} {s : Impl}
    (wellFormed : WellFormed s) (idle : s.Idle) {op : Op}
    (guarded : s.keepsIdle op = true) : (step policy s op).Idle := by
  cases op with
  | submit metadata now =>
      show (s.doSubmit policy metadata now).2.Idle
      obtain ⟨stats, taken⟩ | ⟨_, ⟨_, _, _, _, taken⟩ | ⟨_, _, taken⟩⟩ :=
        doSubmit_cases policy s metadata now
      · rw [taken]
        exact idle
      · rw [taken]
        exact idle
      · rw [taken]
        exact idle
  | cancel request now => exact idle.doCancel policy request now
  | complete completion now =>
      show (s.doComplete policy completion now).2.Idle
      obtain ⟨err, stale, refused⟩ | ⟨b, accepted, _⟩ :=
        doComplete_cases policy s completion now
      · rw [refused]
        exact idle
      · have waits : b.inFlight = false :=
          idle completion.batch b accepted.batch
        rw [(inFlight_eq_true_iff b).mpr accepted.inFlight] at waits
        cases waits
  | sealBatch batch reason now =>
      show (s.sealBatch batch reason now).2.Idle
      obtain unchanged | ⟨b, _, _, closed⟩ :=
        sealBatch_cases s batch reason now
      · rw [unchanged]
        exact idle
      · rw [closed]
        exact idle.modify batch (fun _ _ _ => rfl) rfl
  | split batch =>
      show (s.doSplit batch).2.Idle
      obtain unchanged | ⟨b, found, _, ⟨_, taken⟩ | ⟨_, taken⟩⟩ :=
        doSplit_cases s batch
      · rw [unchanged]
        exact idle
      · rw [taken]
        exact idle.splitSealed found
      · rw [taken]
        exact idle.splitOpen found
  | merge a b =>
      show (s.doMerge policy a b).2.Idle
      obtain unchanged | ⟨first, second, foundA, _, _, merged⟩ :=
        doMerge_cases policy s a b
      · rw [unchanged]
        exact idle
      · rw [merged]
        exact idle.mergeInto foundA
  | retry request order now =>
      have queued : (s.retryQueued policy request now).2.Idle := by
        obtain ⟨err, refused⟩ | ⟨r, _, _, _, requeued⟩ :=
          retryQueued_cases policy s request now
        · rw [refused]
          exact idle
        · rw [requeued]
          exact idle
      exact (kept_doRetry (fun s => WellFormed s ∧ s.Idle)
        ⟨wellFormed.retryQueued policy request now, queued⟩
        fun _ held => Idle.doTick held policy order now).2
  | tick order now => exact (Idle.doTick ⟨wellFormed, idle⟩ policy order now).2
  | expire order now =>
      exact ((Idle.tickRule policy now).expireLocked ⟨wellFormed, idle⟩
        order).2
  | dispatchAndRun batch executor now =>
      exact idle.dispatchAndRun wellFormed guarded
  | prepareDispatch batch worker boot now =>
      show (s.prepareDispatch batch worker boot now).2.Idle
      obtain ⟨err, refused⟩ | ⟨b, found, isSealed, current, _⟩ :=
        prepareDispatch_cases s batch worker boot now
      · rw [refused]
        exact idle
      · simp [keepsIdle, found, isSealed, current] at guarded
  | registerWorker worker boot cap => exact idle
  | rollEpoch => exact idle

/-- The lists are right as long as no batch is in flight at a registered
worker, as in every run that hands none to a worker and has every run in
process reported. -/
theorem loadTracked_run (policy : BatchPolicy) (ops : List Op) :
    ((run policy ops).LoadTracked ↔ (run policy ops).Unassigned) ∧
    (Transition.Along (BatchFabric.step policy)
        (fun s op => s.keepsIdle op = true) fresh ops →
      (run policy ops).LoadTracked) := by
  have exactly := loadTracked_of_reachable (reachable_run policy ops)
  refine ⟨exactly, fun guarded => exactly.mpr ?_⟩
  have held : WellFormed (run policy ops) ∧ (run policy ops).Idle :=
    guarded.invariant (fun s => WellFormed s ∧ s.Idle)
      (fun _ op _ held allowed =>
        ⟨held.1.step op, held.2.step held.1 allowed⟩)
      ⟨WellFormed.fresh, everywhere_empty⟩
  exact held.2.unassigned

/-- An executor that succeeds with every member. -/
def successes (exec : BatchExecution) : Except Error (List MemberResult) :=
  .ok (exec.members.map fun m =>
    { request := m.request, attempt := m.attempt, output := {} })

/-- A batch is run in process and reported. -/
theorem loadTracked_of_reported :
    (run {} [.submit minimalRequest 0, .tick [] 1,
      .dispatchAndRun { value := 1 } { execute := successes } 2]).LoadTracked :=
  (loadTracked_run _ _).2 (by
    rw [step_eq_stepKnown .minimal]
    decide +kernel)

/-- A batch that was handed to the local worker is not in its list. -/
theorem not_loadTracked_of_dispatched :
    ¬ ∀ (policy : BatchPolicy) (ops : List Op),
      (run policy ops).LoadTracked := by
  intro tracked
  have unassigned := (loadTracked_of_reachable (reachable_run {} _)).mp
    (tracked {} [.submit minimalRequest 0, .tick [] 1,
      .prepareDispatch { value := 1 } .null .null 2])
  revert unassigned
  rw [run_eq_runKnown .minimal]
  decide +kernel

end Impl

end BatchFabric
