import BatchFabric.Safety.Reachable

namespace BatchFabric.Impl

open OrderedMap

/-! The rule of operations: what the updates of a tick, of a report and the few
updates made outside them keep, every operation keeps. `allowed` restricts the
operations by the reachable state they meet, `outcomes` the outcomes of
members. -/

/-- An invariant kept by reports, beside the one every operation keeps. -/
theorem ReportRule.formed {policy : BatchPolicy} {now : TimePoint}
    {outcomes : Impl → RequestId → CompletionStatus → Bool}
    {Kept : Impl → Prop} (rule : ReportRule policy now outcomes Kept) :
    ReportRule policy now outcomes (fun s => WellFormed s ∧ Kept s) where
  count s stale held :=
    ⟨held.1.of_counters _ _ _ _, rule.count s stale held.2⟩
  outcome s mc held allows :=
    ⟨(WellFormed.recordRule policy now).applyMemberOutcome held.1 fun _ => rfl,
      rule.outcome s mc held.2 allows⟩
  dispatch s bid b worker boot held found isSealed :=
    ⟨(WellFormed.recordRule policy now).dispatch s bid b worker boot held.1
        found isSealed,
      rule.dispatch s bid b worker boot held.2 found isSealed⟩
  running s bid b held found dispatched :=
    ⟨(WellFormed.recordRule policy now).running s bid b held.1 found
        dispatched,
      rule.running s bid b held.2 found dispatched⟩
  finish s bid b worker held found inFlight :=
    ⟨(WellFormed.recordRule policy now).finish s bid b worker held.1 found
        inFlight,
      rule.finish s bid b worker held.2 found inFlight⟩

structure StepRule (policy : BatchPolicy) (allowed : Impl → Op → Prop)
    (outcomes : Impl → RequestId → CompletionStatus → Bool)
    (Kept : Impl → Prop) : Prop where
  ticks : ∀ now, TickRule policy now fun s => WellFormed s ∧ Kept s
  reports : ∀ now, ReportRule policy now outcomes fun s =>
    WellFormed s ∧ Kept s
  complete : ∀ s comp now, Reachable policy s → Kept s →
    allowed s (.complete comp now) →
    s.allowsReport policy outcomes comp now = true
  dispatchAndRun : ∀ s bid executor now, Reachable policy s → Kept s →
    allowed s (.dispatchAndRun bid executor now) →
    s.allowsRun policy outcomes bid executor now = true
  submit : ∀ s metadata now, Reachable policy s → Kept s →
    allowed s (.submit metadata now) →
    Kept (s.doSubmit policy metadata now).2
  splitSealed : ∀ s bid b, WellFormed s → Kept s →
    s.batches[bid]? = some b → b.state = .sealed → splittable b = true →
    Kept (s.splitSealed bid b)
  splitOpen : ∀ s bid b, Reachable policy s → Kept s → allowed s (.split bid) →
    s.batches[bid]? = some b → b.state ≠ .sealed → splittable b = true →
    Kept (s.splitOpen bid b)
  mergeInto : ∀ s aid bid a b, Reachable policy s → Kept s →
    allowed s (.merge aid bid) → s.batches[aid]? = some a →
    s.batches[bid]? = some b → canMerge policy a b = true →
    Kept (s.mergeInto aid bid a b)
  requeue : ∀ s id r order now, Reachable policy s → Kept s →
    allowed s (.retry id order now) → s.requests[id]? = some r →
    s.takesRetry policy id now = true →
    Kept (s.requeue id r (s.attemptNumber r + 1))
  registerWorker : ∀ s worker boot cap, Kept s →
    Kept (s.registerWorker worker boot cap)
  rollEpoch : ∀ s, Kept s → Kept s.rollEpoch

namespace StepRule

variable {policy : BatchPolicy} {allowed : Impl → Op → Prop}
  {outcomes : Impl → RequestId → CompletionStatus → Bool} {Kept : Impl → Prop}
  (rule : StepRule policy allowed outcomes Kept) {s : Impl}

include rule

theorem doTick (wellFormed : WellFormed s) (kept : Kept s)
    (order : List CompatibilityKey) (now : TimePoint) :
    Kept (s.doTick policy order now) :=
  ((rule.ticks now).doTick
    (fun s bid b held found isSealed possible =>
      ⟨held.1.splitSealed found,
        rule.splitSealed s bid b held.1 held.2 found isSealed possible⟩)
    ⟨wellFormed, kept⟩ order).2

theorem retryQueued (reachable : Reachable policy s) (kept : Kept s)
    {id : RequestId} {order : List CompatibilityKey} {now : TimePoint}
    (allows : allowed s (.retry id order now)) :
    Kept (s.retryQueued policy id now).2 := by
  obtain ⟨err, refused⟩ | ⟨r, found, again, live, queued⟩ :=
    retryQueued_cases policy s id now
  · rw [refused]
    exact kept
  · rw [queued]
    apply rule.requeue s id r order now reachable kept allows found
    simp [takesRetry, found, again, live]

theorem step (reachable : Reachable policy s) (kept : Kept s) {op : Op}
    (allows : allowed s op) : Kept (step policy s op) := by
  have wellFormed := wellFormed_of_reachable reachable
  cases op with
  | submit metadata now =>
      exact rule.submit s metadata now reachable kept allows
  | cancel request now =>
      exact ((rule.ticks now).cancel s request ⟨wellFormed, kept⟩).2
  | complete completion now =>
      exact ((rule.reports now).doComplete ⟨wellFormed, kept⟩
        (rule.complete s completion now reachable kept allows)).2
  | sealBatch batch reason now =>
      show Kept (s.sealBatch batch reason now).2
      obtain unchanged | ⟨b, found, forming, closed⟩ :=
        sealBatch_cases s batch reason now
      · rw [unchanged]
        exact kept
      · rw [closed]
        exact ((rule.ticks now).close s batch b reason ⟨wellFormed, kept⟩
          found forming).2
  | split batch =>
      show Kept (s.doSplit batch).2
      obtain unchanged | ⟨b, found, possible, ⟨isSealed, taken⟩ |
          ⟨unsealed, taken⟩⟩ := doSplit_cases s batch
      · rw [unchanged]
        exact kept
      · rw [taken]
        exact rule.splitSealed s batch b wellFormed kept found isSealed
          possible
      · rw [taken]
        exact rule.splitOpen s batch b reachable kept allows found unsealed
          possible
  | merge a b =>
      show Kept (s.doMerge policy a b).2
      obtain unchanged | ⟨first, second, foundA, foundB, possible, merged⟩ :=
        doMerge_cases policy s a b
      · rw [unchanged]
        exact kept
      · rw [merged]
        exact rule.mergeInto s a b first second reachable kept allows foundA
          foundB possible
  | retry request order now =>
      exact (kept_doRetry (fun s => WellFormed s ∧ Kept s)
        ⟨wellFormed.retryQueued policy request now,
          rule.retryQueued reachable kept allows⟩
        fun _ held => ⟨held.1.doTick policy order now,
          rule.doTick held.1 held.2 order now⟩).2
  | tick order now => exact rule.doTick wellFormed kept order now
  | expire order now =>
      exact ((rule.ticks now).expireLocked ⟨wellFormed, kept⟩ order).2
  | dispatchAndRun batch executor now =>
      exact ((rule.reports now).doDispatchAndRun ⟨wellFormed, kept⟩
        (rule.dispatchAndRun s batch executor now reachable kept allows)).2
  | prepareDispatch batch worker boot now =>
      exact ((rule.reports now).prepareDispatch ⟨wellFormed, kept⟩ batch worker
        boot).2
  | registerWorker worker boot cap =>
      exact rule.registerWorker s worker boot cap kept
  | rollEpoch => exact rule.rollEpoch s kept

/-- What holds of a fresh fabric holds in every allowed run. -/
theorem of_run (initially : Kept fresh) (ops : List Op)
    (guarded : Transition.Along (BatchFabric.step policy) allowed fresh ops) :
    Kept (run policy ops) := by
  have held : Reachable policy (run policy ops) ∧ Kept (run policy ops) :=
    guarded.invariant (fun s => Reachable policy s ∧ Kept s)
      (fun _ op _ held allows =>
        ⟨held.1.step op, rule.step held.1 held.2 allows⟩)
      ⟨⟨[], rfl⟩, initially⟩
  exact held.2

end StepRule

/-- Without a restriction, what holds of a fresh fabric always holds. -/
theorem StepRule.of_reachable {policy : BatchPolicy}
    {outcomes : Impl → RequestId → CompletionStatus → Bool}
    {Kept : Impl → Prop}
    (rule : StepRule policy (fun _ _ => True) outcomes Kept)
    (initially : Kept fresh) {s : Impl} (reachable : Reachable policy s) :
    Kept s := by
  obtain ⟨ops, rfl⟩ := reachable
  exact rule.of_run initially ops
    (Transition.along_of_forall _ (fun _ _ => trivial) fresh ops)

end BatchFabric.Impl
