import BatchFabric.Safety.RecordRule
import BatchFabric.Safety.TickRule

namespace BatchFabric.Impl

open OrderedMap

/-! Well-formedness of every reachable state. -/

theorem InPlace.of_retimes (s : Impl) (bid : BatchId)
    {change : BatchRec → BatchRec} (retimes : Retimes change) :
    InPlace s { s with batches := s.batches.modify bid change } := by
  apply InPlace.retime
  · intro b
    obtain ⟨allowed, formed, changed⟩ := retimes b
    rw [changed]
    rfl
  · intro b
    obtain ⟨allowed, formed, changed⟩ := retimes b
    rw [changed]
  · intro b
    obtain ⟨allowed, formed, changed⟩ := retimes b
    rw [changed]

namespace WellFormed

theorem doCancel {s : Impl} (wellFormed : WellFormed s) (policy : BatchPolicy)
    (id : RequestId) (now : TimePoint) :
    WellFormed (s.doCancel policy id now).2 := by
  obtain unchanged | ⟨r, _, _, ⟨_, outside⟩ |
      ⟨_, b, _, ⟨_, forming⟩ | ⟨_, later⟩⟩⟩ := doCancel_cases policy s id now
  · rw [unchanged]
    exact wellFormed
  · rw [outside]
    exact wellFormed.inPlace (InPlace.cancelOutside s id r now)
  · rw [forming]
    exact wellFormed.inPlace (InPlace.cancelForming policy s id r now)
  · rw [later]
    exact wellFormed.inPlace (InPlace.cancelAfterSeal s id r now)

theorem expireWaiting {s : Impl} (wellFormed : WellFormed s)
    (now : TimePoint) (id : RequestId) :
    WellFormed (expireWaiting now s id) := by
  have dequeued := fun r : RequestRec =>
    wellFormed.inPlace (InPlace.dequeue s r.key id)
  obtain unchanged | ⟨r, _, ⟨_, removed⟩ | ⟨_, stats, ended⟩⟩ :=
    expireWaiting_cases now s id
  · rw [unchanged]
    exact wellFormed
  · rw [removed]
    exact dequeued r
  · rw [ended]
    exact (dequeued r).inPlace
      (InPlace.endRequest _ id r .expired .expired now stats)

theorem retime {s : Impl} (wellFormed : WellFormed s) (bid : BatchId)
    {change : BatchRec → BatchRec} (retimes : Retimes change) :
    WellFormed { s with batches := s.batches.modify bid change } :=
  wellFormed.inPlace (InPlace.of_retimes s bid retimes)

theorem tickRule (policy : BatchPolicy) (now : TimePoint) :
    TickRule policy now WellFormed where
  wellFormed _ wellFormed := wellFormed
  expire _ id wellFormed := wellFormed.expireWaiting now id
  cancel _ id wellFormed := wellFormed.doCancel policy id now
  openForming _ key wellFormed _ := wellFormed.openForming key now
  place s bid key pick b r wellFormed placing := by
    apply wellFormed.place _ placing.queued
    rw [placing.batch]
    exact congrArg some placing.keyed
  retime _ bid _ wellFormed retimes := wellFormed.retime bid retimes
  close _ _ _ reason wellFormed found forming :=
    wellFormed.sealForming found forming reason now
  merge _ _ _ _ _ wellFormed merging :=
    wellFormed.mergeInto merging.first merging.second merging.keyed

theorem doTick {s : Impl} (wellFormed : WellFormed s) (policy : BatchPolicy)
    (order : List CompatibilityKey) (now : TimePoint) :
    WellFormed (s.doTick policy order now) :=
  (tickRule policy now).doTick
    (fun _ _ _ held found _ _ => held.splitSealed found) wellFormed order

theorem keyed_of_found {s : Impl} (wellFormed : WellFormed s)
    {id : RequestId} {r : RequestRec} (found : s.requests[id]? = some r) :
    s.keyOf? r.id = some r.key := by
  rw [(wellFormed.request id r found).1]
  unfold keyOf?
  rw [found]
  rfl

theorem retryQueued {s : Impl} (wellFormed : WellFormed s)
    (policy : BatchPolicy) (id : RequestId) (now : TimePoint) :
    WellFormed (s.retryQueued policy id now).2 := by
  obtain ⟨err, refused⟩ | ⟨r, found, _, _, queued⟩ :=
    retryQueued_cases policy s id now
  · rw [refused]
    exact wellFormed
  · rw [queued]
    exact wellFormed.requeue (wellFormed.keyed_of_found found) id _

theorem doRetry {s : Impl} (wellFormed : WellFormed s) (policy : BatchPolicy)
    (id : RequestId) (order : List CompatibilityKey) (now : TimePoint) :
    WellFormed (s.doRetry policy id order now).2 :=
  kept_doRetry WellFormed (wellFormed.retryQueued policy id now)
    fun _ held => held.doTick policy order now

theorem recordRule (policy : BatchPolicy) (now : TimePoint) :
    RecordRule policy now (fun _ _ _ => true) WellFormed where
  count _ _ wellFormed := wellFormed.of_counters _ _ _ _
  conclude s r _ mc state fairness stats wellFormed _ _ :=
    wellFormed.inPlace (InPlace.conclude s r mc state now fairness stats)
  requeue s r _ mc state fairness stats wellFormed concluding _ _ _ _ := by
    have inPlace := InPlace.conclude s r mc state now fairness stats
    apply (wellFormed.inPlace inPlace).requeue
    rw [keyOf?_eq_of_fixed inPlace.requests]
    exact wellFormed.keyed_of_found concluding.request
  dispatch _ _ _ worker boot wellFormed found isSealed :=
    wellFormed.inPlace (InPlace.markDispatched found isSealed worker boot now)
  running _ _ _ wellFormed found dispatched :=
    wellFormed.inPlace (InPlace.markRunning found dispatched)
  finish _ _ _ worker wellFormed found inFlight :=
    wellFormed.inPlace (InPlace.finishBatch found inFlight worker now)

theorem doComplete {s : Impl} (wellFormed : WellFormed s)
    (policy : BatchPolicy) (comp : BatchCompletion) (now : TimePoint) :
    WellFormed (s.doComplete policy comp now).2 :=
  (recordRule policy now).reports.doComplete wellFormed
    (allowsReport_always policy s comp now)

theorem doDispatchAndRun {s : Impl} (wellFormed : WellFormed s)
    (policy : BatchPolicy) (bid : BatchId) (executor : Executor)
    (now : TimePoint) :
    WellFormed (s.doDispatchAndRun policy bid executor now).2 :=
  (recordRule policy now).reports.doDispatchAndRun wellFormed
    (allowsRun_always policy s bid executor now)

theorem doSplit {s : Impl} (wellFormed : WellFormed s) (bid : BatchId) :
    WellFormed (s.doSplit bid).2 := by
  obtain unchanged | ⟨b, found, _, ⟨_, taken⟩ | ⟨_, taken⟩⟩ :=
    doSplit_cases s bid
  · rw [unchanged]
    exact wellFormed
  · rw [taken]
    exact wellFormed.splitSealed found
  · rw [taken]
    exact wellFormed.splitOpen found

theorem step {policy : BatchPolicy} {s : Impl} (wellFormed : WellFormed s)
    (op : Op) : WellFormed (step policy s op) := by
  cases op with
  | submit metadata now => exact wellFormed.doSubmit policy metadata now
  | cancel request now => exact wellFormed.doCancel policy request now
  | complete completion now => exact wellFormed.doComplete policy completion now
  | sealBatch batch reason now =>
      show WellFormed (s.sealBatch batch reason now).2
      obtain unchanged | ⟨b, found, forming, closed⟩ :=
        sealBatch_cases s batch reason now
      · rw [unchanged]
        exact wellFormed
      · rw [closed]
        exact wellFormed.sealForming found forming reason now
  | split batch => exact wellFormed.doSplit batch
  | merge a b =>
      show WellFormed (s.doMerge policy a b).2
      obtain unchanged | ⟨_, _, foundA, foundB, possible, merged⟩ :=
        doMerge_cases policy s a b
      · rw [unchanged]
        exact wellFormed
      · rw [merged]
        exact wellFormed.mergeInto foundA foundB (canMerge_cases possible).1
  | retry request order now => exact wellFormed.doRetry policy request order now
  | tick order now => exact wellFormed.doTick policy order now
  | expire order now => exact (tickRule policy now).expireLocked wellFormed order
  | dispatchAndRun batch executor now =>
      exact wellFormed.doDispatchAndRun policy batch executor now
  | prepareDispatch batch worker boot now =>
      exact (recordRule policy now).reports.prepareDispatch wellFormed batch worker
        boot
  | registerWorker worker boot cap => exact wellFormed.of_counters _ _ _ _
  | rollEpoch => exact wellFormed.of_counters _ _ _ _

end WellFormed

/-- Every reachable state is well formed. -/
theorem wellFormed_of_reachable {policy : BatchPolicy} {s : Impl}
    (reachable : Reachable policy s) : WellFormed s :=
  reachable.invariant WellFormed (fun _ op wellFormed => wellFormed.step op)
    WellFormed.fresh

end BatchFabric.Impl
