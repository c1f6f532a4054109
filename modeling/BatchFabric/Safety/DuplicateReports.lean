import BatchFabric.Safety.BatchLifecycle

namespace BatchFabric.Impl

open OrderedMap

/-! A report that has been accepted is never accepted again. -/

/-- The operation delivers the report, and the report is accepted: one that
comes in, or the one a run in process makes of the executor's results. -/
inductive Accepting (policy : BatchPolicy) (s : Impl) :
    Op → BatchCompletion → Prop
  | complete {comp : BatchCompletion} {now : TimePoint}
      (accepted : (s.doComplete policy comp now).1 = .ok ()) :
      Accepting policy s (.complete comp now) comp
  | run {bid : BatchId} {b : BatchRec} {executor : Executor} {now : TimePoint}
      {results : List MemberResult} (found : s.batches[bid]? = some b)
      (isSealed : b.state = .sealed)
      (answer : executor.execute
        (s.runExecution bid b executor.capability.worker now) = .ok results)
      (accepted : ((s.startedRun bid b executor.capability.worker
        now).doComplete policy (resultsCompletion b executor.capability.worker
          (s.bootOf executor.capability.worker) results) now).1 = .ok ()) :
      Accepting policy s (.dispatchAndRun bid executor now)
        (resultsCompletion b executor.capability.worker
          (s.bootOf executor.capability.worker) results)

/-- The batch exists and has taken its report. -/
def Reported (s : Impl) (bid : BatchId) : Prop :=
  ∃ b, s.batches[bid]? = some b ∧ 4 ≤ b.state.stage

theorem reported_finishBatch {s : Impl} {bid : BatchId} {b : BatchRec}
    (found : s.batches[bid]? = some b) (worker : WorkerId) (now : TimePoint) :
    (s.finishBatch bid worker now).Reported bid := by
  have completed : 4 ≤ BatchState.stage .completed := by decide
  have stopped : 4 ≤ BatchState.stage .partiallyCompleted := by decide
  unfold finishBatch
  rw [found]
  dsimp only
  split
  · exact ⟨_, getElem?_modify_self found _, completed⟩
  · exact ⟨_, getElem?_modify_self found _, stopped⟩

theorem reported_of_accepted {policy : BatchPolicy} {s : Impl}
    {comp : BatchCompletion} {now : TimePoint}
    (accepted : (s.doComplete policy comp now).1 = .ok ()) :
    (s.doComplete policy comp now).2.Reported comp.batch := by
  obtain ⟨err, stale, refused⟩ | ⟨b, accepts, taken⟩ :=
    doComplete_cases policy s comp now
  · rw [refused] at accepted
    cases accepted
  · obtain ⟨b', found, _⟩ := (OutcomeFrame.completeMembers policy now s
      comp.members).found_after accepts.batch
    rw [taken]
    exact reported_finishBatch found comp.worker now

theorem Accepting.reported {policy : BatchPolicy} {s : Impl} {op : Op}
    {comp : BatchCompletion} (accepting : Accepting policy s op comp) :
    (step policy s op).Reported comp.batch := by
  cases accepting with
  | complete accepted => exact reported_of_accepted accepted
  | run found isSealed answer accepted =>
      have reported := reported_of_accepted accepted
      unfold BatchFabric.step
      dsimp only
      rw [doDispatchAndRun_of_sealed found isSealed, answer]
      exact reported

/-- A batch that has taken its report stays so. -/
theorem Reported.run {s : Impl} {bid : BatchId} (reported : s.Reported bid)
    (wellFormed : WellFormed s) (policy : BatchPolicy) (ops : List Op) :
    (Transition.run (step policy) s ops).Reported bid := by
  obtain ⟨b, found, reached⟩ := reported
  obtain ⟨b', found', advances⟩ := advances_run wellFormed policy ops bid b
    found
  exact ⟨b', found', Nat.le_trans reached advances.stage_le⟩

theorem Reported.refuses {s : Impl} {comp : BatchCompletion}
    (reported : s.Reported comp.batch) (policy : BatchPolicy)
    (now : TimePoint) : (s.doComplete policy comp now).1 ≠ .ok () := by
  intro accepted
  obtain ⟨b, found, reached⟩ := reported
  obtain ⟨err, stale, refused⟩ | ⟨b', accepts, _⟩ :=
    doComplete_cases policy s comp now
  · rw [refused] at accepted
    cases accepted
  · have same := accepts.batch
    rw [found] at same
    cases same
    rcases accepts.inFlight with state | state
    · rw [state] at reached
      exact absurd reached (by decide)
    · rw [state] at reached
      exact absurd reached (by decide)

/-- Once a report has been accepted, delivering it again at any later point
changes no more than the count of stale reports. -/
theorem redelivery_harmless (policy : BatchPolicy) (ops : List Op) (op : Op)
    (comp : BatchCompletion)
    (accepting : Accepting policy (run policy ops) op comp) (rest : List Op)
    (now : TimePoint) :
    OnlyStale (run policy (ops ++ op :: rest))
      (step policy (run policy (ops ++ op :: rest)) (.complete comp now)) := by
  have wellFormed := wellFormed_of_reachable (reachable_run policy ops)
  have split : run policy (ops ++ op :: rest) =
      Transition.run (step policy) (step policy (run policy ops) op) rest := by
    unfold run
    rw [Transition.run_append, Transition.run_cons]
  have reported : (run policy (ops ++ op :: rest)).Reported comp.batch := by
    rw [split]
    exact accepting.reported.run (wellFormed.step op) policy rest
  exact onlyStale_of_refused (reported.refuses policy now)

/-- A report fails its only member, who is queued under a new attempt. The
worker registers anew, the epoch is rolled, and the report comes again. -/
theorem redelivery_harmless_of_requeued :
    let comp : BatchCompletion := {
      epoch := { value := 1 }, generation := { value := 1 }
      batch := { value := 1 }
      members := [{
        request := { value := 1 }, attempt := { value := 1 },
        status := .retryableFailure }] }
    let s := run {} ([
      .submit minimalRequest 0, .tick [] 1,
      .prepareDispatch { value := 1 } .null .null 2] ++
        .complete comp 3 ::
          [.registerWorker .null .null {}, .rollEpoch, .tick [] 4])
    OnlyStale s (step {} s (.complete comp 5)) :=
  redelivery_harmless {} _ _ _ (.complete (by
    rw [run_eq_runKnown .minimal]
    decide +kernel)) _ 5

end BatchFabric.Impl
