import BatchFabric.Safety.BatchRule

namespace BatchFabric

open OrderedMap

/-! Only a registration changes which incarnation of a worker is current. -/

/-- Whether a worker is live, and under which boot id. -/
def WorkerRec.incarnation (w : WorkerRec) : Bool × WorkerBootId :=
  (w.live, w.boot)

def Op.isRegistration : Op → Bool
  | .registerWorker _ _ _ => true
  | _ => false

namespace Impl

def SameIncarnations (s s' : Impl) : Prop :=
  ∀ worker : WorkerId, (s'.workers[worker]?).map WorkerRec.incarnation =
    (s.workers[worker]?).map WorkerRec.incarnation

namespace SameIncarnations

variable {s s' s'' : Impl}

theorem of_workers (same : s'.workers = s.workers) :
    SameIncarnations s s' := by
  intro worker
  rw [same]

theorem trans (earlier : SameIncarnations s s')
    (later : SameIncarnations s' s'') : SameIncarnations s s'' :=
  fun worker => (later worker).trans (earlier worker)

theorem boot (same : SameIncarnations s s') (worker : WorkerId) :
    (s'.workers[worker]?).map (·.boot) =
      (s.workers[worker]?).map (·.boot) := by
  have boots := congrArg (Option.map Prod.snd) (same worker)
  simp only [Option.map_map] at boots
  exact boots

theorem workerCurrent (same : SameIncarnations s s') (worker : WorkerId)
    (boot : WorkerBootId) :
    s'.workerCurrent worker boot = s.workerCurrent worker boot := by
  have viewed : ∀ current : Impl, current.workerCurrent worker boot =
      match (current.workers[worker]?).map WorkerRec.incarnation with
      | none => false
      | some (live, registered) => live && registered == boot := by
    intro current
    unfold Impl.workerCurrent
    cases current.workers[worker]? with
    | none => rfl
    | some w => rfl
  rw [viewed, viewed, same]

theorem doCancel (s : Impl) (policy : BatchPolicy) (id : RequestId)
    (now : TimePoint) : SameIncarnations s (s.doCancel policy id now).2 := by
  obtain unchanged | ⟨r, _, _, ⟨_, outside⟩ |
      ⟨_, b, _, ⟨_, forming⟩ | ⟨_, later⟩⟩⟩ := doCancel_cases policy s id now
  · exact of_workers (by rw [unchanged])
  · exact of_workers (by rw [outside]; rfl)
  · exact of_workers (by rw [forming]; rfl)
  · exact of_workers (by rw [later]; rfl)

theorem expireWaiting (s : Impl) (now : TimePoint) (id : RequestId) :
    SameIncarnations s (expireWaiting now s id) := by
  obtain unchanged | ⟨r, _, ⟨_, removed⟩ | ⟨_, stats, ended⟩⟩ :=
    expireWaiting_cases now s id
  · exact of_workers (by rw [unchanged])
  · exact of_workers (by rw [removed])
  · exact of_workers (by rw [ended])

/-- A finished batch leaves the list of what its worker runs. -/
theorem finishBatch (s : Impl) (bid : BatchId) (worker : WorkerId)
    (now : TimePoint) :
    SameIncarnations s (s.finishBatch bid worker now) := by
  have finished : SameIncarnations s { s with
      workers := s.workers.modify worker fun w =>
        { w with running := w.running.filter (· ≠ bid) } } :=
    map_getElem?_modify (fun _ => by rfl) s.workers worker
  unfold Impl.finishBatch
  split
  · exact of_workers rfl
  · dsimp only
    split
    · exact finished
    · exact finished

theorem reports (policy : BatchPolicy) (now : TimePoint) (start : Impl) :
    ReportRule policy now (fun _ _ _ => true) (SameIncarnations start) where
  count _ _ same := same
  outcome s mc same _ :=
    same.trans (of_workers
      (OutcomeFrame.applyMemberOutcome policy now s mc).workers)
  dispatch _ _ _ _ _ same _ _ := same
  running _ _ _ same _ _ := same
  finish s bid _ worker same _ _ := same.trans (finishBatch s bid worker now)

theorem ticks (policy : BatchPolicy) (now : TimePoint) (start : Impl) :
    TickRule policy now fun s =>
      WellFormed s ∧ SameIncarnations start s where
  wellFormed _ held := held.1
  expire s id held :=
    ⟨held.1.expireWaiting now id, held.2.trans (expireWaiting s now id)⟩
  cancel s id held :=
    ⟨held.1.doCancel policy id now, held.2.trans (doCancel s policy id now)⟩
  openForming _ key held _ := ⟨held.1.openForming key now, held.2⟩
  place s bid key pick b r held placing := by
    refine ⟨(WellFormed.tickRule policy now).place s bid key pick b r held.1
      placing, held.2.trans (of_workers ?_)⟩
    rw [place_eq placing.request]
  retime _ bid _ held retimes := ⟨held.1.retime bid retimes, held.2⟩
  close _ _ _ reason held found forming :=
    ⟨held.1.sealForming found forming reason now, held.2⟩
  merge _ _ _ _ _ held merging :=
    ⟨held.1.mergeInto merging.first merging.second merging.keyed, held.2⟩

theorem doTick (wellFormed : WellFormed s) (policy : BatchPolicy)
    (order : List CompatibilityKey) (now : TimePoint) :
    SameIncarnations s (s.doTick policy order now) :=
  ((ticks policy now s).doTick
    (fun _ _ _ held found _ _ => ⟨held.1.splitSealed found, held.2⟩)
    ⟨wellFormed, of_workers rfl⟩ order).2

theorem step (wellFormed : WellFormed s) (policy : BatchPolicy) {op : Op}
    (other : op.isRegistration = false) :
    SameIncarnations s (step policy s op) := by
  cases op with
  | submit metadata now =>
      show SameIncarnations s (s.doSubmit policy metadata now).2
      obtain ⟨stats, taken⟩ | ⟨_, ⟨_, _, _, _, taken⟩ | ⟨_, _, taken⟩⟩ :=
        doSubmit_cases policy s metadata now
      · exact of_workers (by rw [taken])
      · exact of_workers (by rw [taken]; rfl)
      · exact of_workers (by rw [taken]; rfl)
  | cancel request now => exact doCancel s policy request now
  | complete completion now =>
      exact (reports policy now s).doComplete (of_workers rfl)
        (allowsReport_always policy s completion now)
  | sealBatch batch reason now =>
      show SameIncarnations s (s.sealBatch batch reason now).2
      obtain unchanged | ⟨b, _, _, closed⟩ :=
        sealBatch_cases s batch reason now
      · exact of_workers (by rw [unchanged])
      · exact of_workers (by rw [closed]; rfl)
  | split batch =>
      show SameIncarnations s (s.doSplit batch).2
      obtain unchanged | ⟨b, _, _, ⟨_, taken⟩ | ⟨_, taken⟩⟩ :=
        doSplit_cases s batch
      · exact of_workers (by rw [unchanged])
      · exact of_workers (by rw [taken]; rfl)
      · exact of_workers (by rw [taken]; rfl)
  | merge a b =>
      show SameIncarnations s (s.doMerge policy a b).2
      obtain unchanged | ⟨first, second, _, _, _, merged⟩ :=
        doMerge_cases policy s a b
      · exact of_workers (by rw [unchanged])
      · exact of_workers (by rw [merged]; rfl)
  | retry request order now =>
      have queued : SameIncarnations s (s.retryQueued policy request now).2 := by
        obtain ⟨err, refused⟩ | ⟨r, _, _, _, requeued⟩ :=
          retryQueued_cases policy s request now
        · exact of_workers (by rw [refused])
        · exact of_workers (by rw [requeued]; rfl)
      exact (kept_doRetry (fun s' => WellFormed s' ∧ SameIncarnations s s')
        ⟨wellFormed.retryQueued policy request now, queued⟩
        fun _ held => ⟨held.1.doTick policy order now,
          held.2.trans (doTick held.1 policy order now)⟩).2
  | tick order now => exact doTick wellFormed policy order now
  | expire order now =>
      exact ((ticks policy now s).expireLocked
        ⟨wellFormed, of_workers rfl⟩ order).2
  | dispatchAndRun batch executor now =>
      exact (reports policy now s).doDispatchAndRun (of_workers rfl)
        (allowsRun_always policy s batch executor now)
  | prepareDispatch batch worker boot now =>
      exact (reports policy now s).prepareDispatch (of_workers rfl) batch
        worker boot
  | registerWorker worker boot cap => cases other
  | rollEpoch => exact of_workers rfl

end SameIncarnations

/-- A registration makes the boot id given the current one, of that worker
only. -/
theorem bootOf_registerWorker (s : Impl) (worker : WorkerId)
    (boot : WorkerBootId) (cap : ExecutorCapability) (other : WorkerId) :
    ((s.registerWorker worker boot cap).workers[other]?).map (·.boot) =
      if worker = other then some boot
      else (s.workers[other]?).map (·.boot) := by
  unfold registerWorker
  dsimp only
  rw [getElem?_insert]
  split
  · rfl
  · rfl

end Impl

end BatchFabric
