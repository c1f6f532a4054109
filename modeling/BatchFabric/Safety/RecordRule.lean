import BatchFabric.Safety.OutcomeFrame

namespace BatchFabric.Impl

/-! The rule of completion records: what one outcome keeps, a report keeps,
and so does a run in process. `allowed` restricts the outcomes, by the state
they meet, the request they concern and the status reported. -/

theorem endState_terminal {status : CompletionStatus} {state : RequestState}
    (acts : endState status = some state) :
    isRequestTerminal state = true := by
  cases status <;> cases acts <;> rfl

/-- A record that reaches the outcome switch with a status it acts on. -/
def takesUp (s : Impl) (mc : MemberCompletion) : Bool :=
  match s.requests[mc.request]? with
  | none => false
  | some r =>
      r.currentAttempt == mc.attempt && (endState mc.status).isSome &&
        match s.attempts[mc.attempt]? with
        | none => false
        | some a => !isSettledAttempt a.state

theorem takesUp_of_found {s : Impl} {mc : MemberCompletion} {r : RequestRec}
    {a : AttemptRec} {state : RequestState}
    (request : s.requests[mc.request]? = some r)
    (named : r.currentAttempt = mc.attempt)
    (attempt : s.attempts[r.currentAttempt]? = some a)
    (unsettled : isSettledAttempt a.state = false)
    (acts : endState mc.status = some state) : s.takesUp mc = true := by
  rw [named] at attempt
  simp [takesUp, request, named, attempt, unsettled, acts]

/-- The checks of `Accepts`, as the code runs them. -/
def accepts (s : Impl) (comp : BatchCompletion) : Bool :=
  comp.epoch == s.epoch && s.workerCurrent comp.worker comp.boot &&
    match s.batches[comp.batch]? with
    | none => false
    | some b =>
        b.generation == comp.generation &&
          (b.state == .dispatched || b.state == .running)

theorem Accepts.accepts {s : Impl} {comp : BatchCompletion} {b : BatchRec}
    (accepted : s.Accepts comp b) : s.accepts comp = true := by
  have inFlight : (b.state == .dispatched || b.state == .running) = true := by
    rcases accepted.inFlight with state | state
    · rw [state]
      rfl
    · rw [state]
      rfl
  simp [Impl.accepts, accepted.epoch, accepted.worker, accepted.batch,
    accepted.generation, inFlight]

section Guards

variable (policy : BatchPolicy)
  (allowed : Impl → RequestId → CompletionStatus → Bool)

/-- Every record a report has taken up is allowed when its turn comes. -/
def allowsReport (s : Impl) (comp : BatchCompletion) (now : TimePoint) :
    Bool :=
  !s.accepts comp ||
    decide (Transition.Along (completeMember policy now)
      (fun s mc => (!s.takesUp mc || allowed s mc.request mc.status) = true)
      s comp.members)

/-- The failure of every member is allowed when its turn comes. -/
def allowsFailure (s : Impl) (members : List RequestId) (err : Error)
    (now : TimePoint) : Bool :=
  decide (Transition.Along (failMember policy now err)
    (fun s m => allowed s m .retryableFailure = true) s members)

def allowsRun (s : Impl) (bid : BatchId) (executor : Executor)
    (now : TimePoint) : Bool :=
  match s.batches[bid]? with
  | none => true
  | some b =>
      let worker := executor.capability.worker
      let started := s.startedRun bid b worker now
      b.state != .sealed ||
        match executor.execute (s.runExecution bid b worker now) with
        | .error err => started.allowsFailure policy allowed b.members err now
        | .ok results =>
            started.allowsReport policy allowed
              (resultsCompletion b worker (s.bootOf worker) results) now

end Guards

/-- A retry that is not refused. -/
def takesRetry (policy : BatchPolicy) (s : Impl) (id : RequestId)
    (now : TimePoint) : Bool :=
  match s.requests[id]? with
  | none => false
  | some r =>
      s.attemptNumber r < policy.retry.maxAttempts &&
        !r.metadata.deadline.expired now

/-- What a retry does under a restriction on the request it queues. -/
theorem retryQueued_guarded {policy : BatchPolicy} {s : Impl}
    {id : RequestId} {now : TimePoint} {allowed : Bool}
    (guarded : (!s.takesRetry policy id now || allowed) = true) :
    (s.retryQueued policy id now).2 = s ∨
      ∃ r, s.requests[id]? = some r ∧ allowed = true ∧
        (s.retryQueued policy id now).2 =
          s.requeue id r (s.attemptNumber r + 1) := by
  obtain ⟨err, refused⟩ | ⟨r, found, again, live, queued⟩ :=
    retryQueued_cases policy s id now
  · exact .inl (by rw [refused])
  · refine .inr ⟨r, found, ?_, by rw [queued]⟩
    simpa [takesRetry, found, again, live] using guarded

/-- The current attempt of a known request takes an outcome. -/
structure Concluding (s : Impl) (mc : MemberCompletion) (r : RequestRec)
    (a : AttemptRec) (state : RequestState) : Prop where
  request : s.requests[mc.request]? = some r
  attempt : s.attempts[r.currentAttempt]? = some a
  acts : endState mc.status = some state

/-- What a report and a run in process keep, given what one outcome keeps. -/
structure ReportRule (policy : BatchPolicy) (now : TimePoint)
    (allowed : Impl → RequestId → CompletionStatus → Bool)
    (Kept : Impl → Prop) : Prop where
  count : ∀ s stale, Kept s → Kept { s with stats.staleRejections := stale }
  outcome : ∀ s mc, Kept s →
    ((endState mc.status).isSome → allowed s mc.request mc.status = true) →
    Kept (s.applyMemberOutcome policy now mc)
  dispatch : ∀ s bid b worker boot, Kept s → s.batches[bid]? = some b →
    b.state = .sealed → Kept (s.markDispatched bid b worker boot now)
  running : ∀ s bid b, Kept s → s.batches[bid]? = some b →
    b.state = .dispatched → Kept (s.markRunning bid b)
  finish : ∀ s bid b worker, Kept s → s.batches[bid]? = some b →
    (b.state = .dispatched ∨ b.state = .running) →
    Kept (s.finishBatch bid worker now)

/-- The same for what an outcome keeps whatever totals it leaves. -/
structure RecordRule (policy : BatchPolicy) (now : TimePoint)
    (allowed : Impl → RequestId → CompletionStatus → Bool)
    (Kept : Impl → Prop) : Prop where
  count : ∀ s stats, Kept s → Kept { s with stats := stats }
  conclude : ∀ s r a mc state fairness stats, Kept s →
    Concluding s mc r a state → allowed s mc.request mc.status = true →
    Kept { s.conclude r mc state now with
      fairness := fairness, stats := stats }
  requeue : ∀ s r a mc state fairness stats, Kept s →
    Concluding s mc r a state → allowed s mc.request mc.status = true →
    mc.status = .retryableFailure → policy.retry.enabled = true →
    a.number < policy.retry.maxAttempts →
    Kept (({ s.conclude r mc state now with
      fairness := fairness, stats := stats } : Impl).requeue mc.request r
        (a.number + 1))
  dispatch : ∀ s bid b worker boot, Kept s → s.batches[bid]? = some b →
    b.state = .sealed → Kept (s.markDispatched bid b worker boot now)
  running : ∀ s bid b, Kept s → s.batches[bid]? = some b →
    b.state = .dispatched → Kept (s.markRunning bid b)
  finish : ∀ s bid b worker, Kept s → s.batches[bid]? = some b →
    (b.state = .dispatched ∨ b.state = .running) →
    Kept (s.finishBatch bid worker now)

namespace RecordRule

variable {policy : BatchPolicy} {now : TimePoint}
  {allowed : Impl → RequestId → CompletionStatus → Bool}
  {Kept Kept' : Impl → Prop}

theorem and (first : RecordRule policy now allowed Kept)
    (second : RecordRule policy now allowed Kept') :
    RecordRule policy now allowed (fun s => Kept s ∧ Kept' s) where
  count s stats kept :=
    ⟨first.count s stats kept.1, second.count s stats kept.2⟩
  conclude s r a mc state fairness stats kept concluding allows :=
    ⟨first.conclude s r a mc state fairness stats kept.1 concluding allows,
      second.conclude s r a mc state fairness stats kept.2 concluding allows⟩
  requeue s r a mc state fairness stats kept concluding allows failed enabled
      again :=
    ⟨first.requeue s r a mc state fairness stats kept.1 concluding allows
        failed enabled again,
      second.requeue s r a mc state fairness stats kept.2 concluding allows
        failed enabled again⟩
  dispatch s bid b worker boot kept found isSealed :=
    ⟨first.dispatch s bid b worker boot kept.1 found isSealed,
      second.dispatch s bid b worker boot kept.2 found isSealed⟩
  running s bid b kept found dispatched :=
    ⟨first.running s bid b kept.1 found dispatched,
      second.running s bid b kept.2 found dispatched⟩
  finish s bid b worker kept found inFlight :=
    ⟨first.finish s bid b worker kept.1 found inFlight,
      second.finish s bid b worker kept.2 found inFlight⟩

end RecordRule

section Unguarded

variable (policy : BatchPolicy) (s : Impl)

theorem allowsReport_always (comp : BatchCompletion) (now : TimePoint) :
    s.allowsReport policy (fun _ _ _ => true) comp now = true := by
  unfold allowsReport
  rw [Bool.or_eq_true]
  exact .inr (decide_eq_true (Transition.along_of_forall _
    (fun _ _ => Bool.or_true _) s comp.members))

theorem allowsRun_always (bid : BatchId) (executor : Executor)
    (now : TimePoint) :
    s.allowsRun policy (fun _ _ _ => true) bid executor now = true := by
  unfold allowsRun
  split
  · rfl
  · dsimp only
    rw [Bool.or_eq_true]
    refine .inr ?_
    split
    · exact decide_eq_true (Transition.along_of_forall _ (fun _ _ => rfl) _ _)
    · exact allowsReport_always policy _ _ now

end Unguarded

theorem RecordRule.applyMemberOutcome {policy : BatchPolicy} {now : TimePoint}
    {allowed : Impl → RequestId → CompletionStatus → Bool}
    {Kept : Impl → Prop} (rule : RecordRule policy now allowed Kept)
    {s : Impl} (kept : Kept s) {mc : MemberCompletion}
    (guarded : (endState mc.status).isSome →
      allowed s mc.request mc.status = true) :
    Kept (s.applyMemberOutcome policy now mc) := by
  obtain ⟨stats, counted⟩ | ⟨r, a, state, fairness, stats, request, attempt,
      acts, concluded | ⟨retryable, enabled, again, requeued⟩⟩ :=
    applyMemberOutcome_cases policy now s mc
  · rw [counted]
    exact rule.count s stats kept
  · rw [concluded]
    exact rule.conclude s r a mc state fairness stats kept
      ⟨request, attempt, acts⟩ (guarded (by rw [acts]; rfl))
  · rw [requeued]
    exact rule.requeue s r a mc state fairness stats kept
      ⟨request, attempt, acts⟩ (guarded (by rw [acts]; rfl)) retryable enabled
      again

theorem RecordRule.reports {policy : BatchPolicy} {now : TimePoint}
    {allowed : Impl → RequestId → CompletionStatus → Bool}
    {Kept : Impl → Prop} (rule : RecordRule policy now allowed Kept) :
    ReportRule policy now allowed Kept where
  count s _ kept := rule.count s _ kept
  outcome _ _ kept guarded := rule.applyMemberOutcome kept guarded
  dispatch := rule.dispatch
  running := rule.running
  finish := rule.finish

namespace ReportRule

variable {policy : BatchPolicy} {now : TimePoint}
  {allowed : Impl → RequestId → CompletionStatus → Bool}
  {Kept : Impl → Prop}

theorem completeMember (rule : ReportRule policy now allowed Kept)
    {s : Impl} (kept : Kept s) {mc : MemberCompletion}
    (guarded : (!s.takesUp mc || allowed s mc.request mc.status) = true) :
    Kept (s.completeMember policy now mc) := by
  obtain ⟨stale, counted⟩ | ⟨r, a, request, named, attempt, unsettled,
      applied⟩ := completeMember_cases policy now s mc
  · rw [counted]
    exact rule.count s stale kept
  · rw [applied]
    apply rule.outcome s mc kept
    intro acts
    obtain ⟨state, acts⟩ := Option.isSome_iff_exists.mp acts
    rw [takesUp_of_found request named attempt unsettled acts] at guarded
    exact guarded

theorem failMember (rule : ReportRule policy now allowed Kept) {s : Impl}
    (kept : Kept s) {m : RequestId}
    (guarded : allowed s m .retryableFailure = true) (err : Error) :
    Kept (s.failMember policy now err m) := by
  obtain unchanged | ⟨r, mc, _, named, _, status, applied⟩ :=
    failMember_cases policy now err s m
  · rw [unchanged]
    exact kept
  · rw [applied]
    apply rule.outcome s mc kept
    intro _
    rw [named, status]
    exact guarded

theorem doComplete (rule : ReportRule policy now allowed Kept) {s : Impl}
    (kept : Kept s) {comp : BatchCompletion}
    (guarded : s.allowsReport policy allowed comp now = true) :
    Kept (s.doComplete policy comp now).2 := by
  obtain ⟨err, stale, refused⟩ | ⟨b, accepted, taken⟩ :=
    doComplete_cases policy s comp now
  · rw [refused]
    exact rule.count s stale kept
  · rw [taken]
    have along : Transition.Along (Impl.completeMember policy now)
        (fun s mc => (!s.takesUp mc || allowed s mc.request mc.status) = true)
        s comp.members := by
      simpa [allowsReport, accepted.accepts] using guarded
    have recorded : Kept (Transition.run (Impl.completeMember policy now) s
        comp.members) :=
      along.invariant Kept
        (fun _ _ _ held allows => rule.completeMember held allows) kept
    have frame := OutcomeFrame.completeMembers policy now s comp.members
    obtain ⟨b', found, same⟩ := frame.found_after accepted.batch
    have states : b'.state = b.state := BatchRec.state_of_listing same.symm
    apply rule.finish _ comp.batch b' comp.worker recorded found
    rw [states]
    exact accepted.inFlight

theorem startedRun (rule : ReportRule policy now allowed Kept) {s : Impl}
    (kept : Kept s) {bid : BatchId} {b : BatchRec}
    (found : s.batches[bid]? = some b) (isSealed : b.state = .sealed)
    (worker : WorkerId) : Kept (s.startedRun bid b worker now) := by
  have dispatched := rule.dispatch s bid b worker (s.bootOf worker) kept found
    isSealed
  -- `markRunning` reads no more than the members of the record it is given.
  exact rule.running _ bid
    { b with
      state := .dispatched, dispatchedNs := now, worker := worker,
      boot := s.bootOf worker }
    dispatched (OrderedMap.getElem?_modify_self found _) rfl

/-- What holds without a run, and once a run has started, holds after it. -/
theorem doDispatchAndRun_of_started (rule : ReportRule policy now allowed Kept)
    {s : Impl} {bid : BatchId} {executor : Executor}
    (idle : (∀ b, s.batches[bid]? = some b → b.state ≠ .sealed) → Kept s)
    (started : ∀ b, s.batches[bid]? = some b → b.state = .sealed →
      Kept (s.startedRun bid b executor.capability.worker now))
    (guarded : s.allowsRun policy allowed bid executor now = true) :
    Kept (s.doDispatchAndRun policy bid executor now).2 := by
  by_cases sealed' : ∃ b, s.batches[bid]? = some b ∧ b.state = .sealed
  · obtain ⟨b, found, isSealed⟩ := sealed'
    have begun := started b found isSealed
    rw [doDispatchAndRun_of_sealed found isSealed]
    cases answer : executor.execute
        (s.runExecution bid b executor.capability.worker now) with
    | error err =>
        have along : Transition.Along (Impl.failMember policy now err)
            (fun s m => allowed s m .retryableFailure = true)
            (s.startedRun bid b executor.capability.worker now) b.members := by
          simpa [allowsRun, found, isSealed, answer, allowsFailure]
            using guarded
        exact along.invariant Kept
          (fun _ _ _ held allows => rule.failMember held allows err) begun
    | ok results =>
        apply rule.doComplete begun
        simpa [allowsRun, found, isSealed, answer] using guarded
  · have not' : ∀ b, s.batches[bid]? = some b → b.state ≠ .sealed :=
      fun b found state => sealed' ⟨b, found, state⟩
    rw [doDispatchAndRun_of_not_sealed not']
    exact idle not'

theorem doDispatchAndRun (rule : ReportRule policy now allowed Kept)
    {s : Impl} (kept : Kept s) {bid : BatchId} {executor : Executor}
    (guarded : s.allowsRun policy allowed bid executor now = true) :
    Kept (s.doDispatchAndRun policy bid executor now).2 :=
  rule.doDispatchAndRun_of_started (fun _ => kept)
    (fun _ found isSealed => rule.startedRun kept found isSealed _) guarded

theorem prepareDispatch (rule : ReportRule policy now allowed Kept)
    {s : Impl} (kept : Kept s) (bid : BatchId) (worker : WorkerId)
    (boot : WorkerBootId) :
    Kept (s.prepareDispatch bid worker boot now).2 := by
  obtain ⟨err, refused⟩ | ⟨b, found, isSealed, _, dispatched⟩ :=
    prepareDispatch_cases s bid worker boot now
  · rw [refused]
    exact kept
  · rw [dispatched]
    exact rule.dispatch s bid b worker boot kept found isSealed

end ReportRule

end BatchFabric.Impl
