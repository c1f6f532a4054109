import BatchFabric.Safety.StepRule

namespace BatchFabric.Impl

open OrderedMap

/-! Identifiers are never given out twice: no operation takes a counter back. -/

structure Allocated (s s' : Impl) : Prop where
  request : s.nextRequest ≤ s'.nextRequest
  batch : s.nextBatch ≤ s'.nextBatch
  attempt : s.nextAttempt ≤ s'.nextAttempt
  generation : s.nextGeneration ≤ s'.nextGeneration

namespace Allocated

variable {s s' s'' : Impl}

theorem refl (s : Impl) : Allocated s s :=
  ⟨Nat.le_refl _, Nat.le_refl _, Nat.le_refl _, Nat.le_refl _⟩

theorem trans (earlier : Allocated s s') (later : Allocated s' s'') :
    Allocated s s'' :=
  ⟨earlier.request.trans later.request, earlier.batch.trans later.batch,
    earlier.attempt.trans later.attempt,
    earlier.generation.trans later.generation⟩

/-- Counters that stay. -/
theorem of_counters (request : s'.nextRequest = s.nextRequest)
    (batch : s'.nextBatch = s.nextBatch)
    (attempt : s'.nextAttempt = s.nextAttempt)
    (generation : s'.nextGeneration = s.nextGeneration) : Allocated s s' :=
  ⟨request.ge, batch.ge, attempt.ge, generation.ge⟩

theorem doCancel (policy : BatchPolicy) (s : Impl) (id : RequestId)
    (now : TimePoint) : Allocated s (s.doCancel policy id now).2 := by
  obtain unchanged | ⟨r, _, _, ⟨_, outside⟩ |
      ⟨_, b, _, ⟨_, forming⟩ | ⟨_, later⟩⟩⟩ := doCancel_cases policy s id now
  · rw [unchanged]
    exact refl s
  · rw [outside]
    exact of_counters rfl rfl rfl rfl
  · rw [forming]
    exact of_counters rfl rfl rfl rfl
  · rw [later]
    exact of_counters rfl rfl rfl rfl

theorem expireWaiting (now : TimePoint) (s : Impl) (id : RequestId) :
    Allocated s (expireWaiting now s id) := by
  obtain unchanged | ⟨r, _, ⟨_, removed⟩ | ⟨_, stats, ended⟩⟩ :=
    expireWaiting_cases now s id
  · rw [unchanged]
    exact refl s
  · rw [removed]
    exact of_counters rfl rfl rfl rfl
  · rw [ended]
    exact of_counters rfl rfl rfl rfl

theorem openForming (s : Impl) (key : CompatibilityKey) (now : TimePoint) :
    Allocated s (s.openForming key now) :=
  ⟨Nat.le_refl _, Nat.le_succ _, Nat.le_refl _, Nat.le_succ _⟩

theorem requeue (s : Impl) (id : RequestId) (r : RequestRec)
    (number : UInt32) : Allocated s (s.requeue id r number) :=
  ⟨Nat.le_refl _, Nat.le_refl _, Nat.le_succ _, Nat.le_refl _⟩

theorem finishBatch (s : Impl) (bid : BatchId) (worker : WorkerId)
    (now : TimePoint) : Allocated s (s.finishBatch bid worker now) := by
  obtain unchanged | ⟨b, stats, workers, _, ⟨_, ended⟩ | ⟨_, partly⟩⟩ :=
    finishBatch_cases s bid worker now
  · rw [unchanged]
    exact refl s
  · rw [ended]
    exact of_counters rfl rfl rfl rfl
  · rw [partly]
    exact of_counters rfl rfl rfl rfl

theorem doSubmit (policy : BatchPolicy) (s : Impl) (metadata : RequestMetadata)
    (now : TimePoint) : Allocated s (s.doSubmit policy metadata now).2 := by
  have created : Allocated s { s with
      nextRequest := s.nextRequest + 1, nextAttempt := s.nextAttempt + 1 } :=
    ⟨Nat.le_succ _, Nat.le_refl _, Nat.le_succ _, Nat.le_refl _⟩
  obtain ⟨stats, taken⟩ | ⟨_, ⟨_, _, _, _, taken⟩ | ⟨_, _, taken⟩⟩ :=
    doSubmit_cases policy s metadata now
  · rw [taken]
    exact of_counters rfl rfl rfl rfl
  · rw [taken]
    exact created.trans (of_counters rfl rfl rfl rfl)
  · rw [taken]
    exact created.trans (of_counters rfl rfl rfl rfl)

variable {start : Impl}

theorem tickRule (policy : BatchPolicy) (now : TimePoint) :
    TickRule policy now fun s => WellFormed s ∧ Allocated start s where
  wellFormed _ held := held.1
  expire s id held :=
    ⟨held.1.expireWaiting now id, held.2.trans (expireWaiting now s id)⟩
  cancel s id held :=
    ⟨held.1.doCancel policy id now, held.2.trans (doCancel policy s id now)⟩
  openForming s key held _ :=
    ⟨held.1.openForming key now, held.2.trans (openForming s key now)⟩
  place s bid key pick b r held placing :=
    ⟨(WellFormed.tickRule policy now).place s bid key pick b r held.1 placing,
      by
        rw [place_eq placing.request]
        exact held.2.trans (of_counters rfl rfl rfl rfl)⟩
  retime _ bid _ held retimes :=
    ⟨held.1.retime bid retimes, held.2.trans (of_counters rfl rfl rfl rfl)⟩
  close _ _ _ reason held found forming :=
    ⟨held.1.sealForming found forming reason now,
      held.2.trans (of_counters rfl rfl rfl rfl)⟩
  merge _ _ _ _ _ held merging :=
    ⟨held.1.mergeInto merging.first merging.second merging.keyed,
      held.2.trans (of_counters rfl rfl rfl rfl)⟩

theorem recordRule (policy : BatchPolicy) (now : TimePoint) :
    RecordRule policy now (fun _ _ _ => true) (Allocated start) where
  count _ _ allocated := allocated.trans (of_counters rfl rfl rfl rfl)
  conclude _ _ _ _ _ _ _ allocated _ _ :=
    allocated.trans (of_counters rfl rfl rfl rfl)
  requeue _ _ _ _ _ _ _ allocated _ _ _ _ _ :=
    allocated.trans
      ⟨Nat.le_refl _, Nat.le_refl _, Nat.le_succ _, Nat.le_refl _⟩
  dispatch _ _ _ _ _ allocated _ _ :=
    allocated.trans (of_counters rfl rfl rfl rfl)
  running _ _ _ allocated _ _ :=
    allocated.trans (of_counters rfl rfl rfl rfl)
  finish s bid _ worker allocated _ _ :=
    allocated.trans (finishBatch s bid worker now)

theorem stepRule (policy : BatchPolicy) :
    StepRule policy (fun _ _ => True) (fun _ _ _ => true)
      (Allocated start) where
  ticks := tickRule policy
  reports now := (recordRule policy now).reports.formed
  complete s comp now _ _ _ := allowsReport_always policy s comp now
  dispatchAndRun s bid executor now _ _ _ :=
    allowsRun_always policy s bid executor now
  submit s metadata now _ allocated _ :=
    allocated.trans (doSubmit policy s metadata now)
  splitSealed _ _ _ _ allocated _ _ _ :=
    allocated.trans
      ⟨Nat.le_refl _, Nat.le_add_right _ 2, Nat.le_refl _, Nat.le_refl _⟩
  splitOpen _ _ _ _ allocated _ _ _ _ :=
    allocated.trans
      ⟨Nat.le_refl _, Nat.le_succ _, Nat.le_refl _, Nat.le_refl _⟩
  mergeInto _ _ _ _ _ _ allocated _ _ _ _ :=
    allocated.trans (of_counters rfl rfl rfl rfl)
  requeue s id r _ _ _ allocated _ _ _ :=
    allocated.trans (requeue s id r _)
  registerWorker _ _ _ _ allocated :=
    allocated.trans (of_counters rfl rfl rfl rfl)
  rollEpoch _ allocated := allocated.trans (of_counters rfl rfl rfl rfl)

theorem step {policy : BatchPolicy} {s : Impl}
    (reachable : Reachable policy s) (op : Op) :
    Allocated s (BatchFabric.step policy s op) :=
  (stepRule policy).step reachable (refl s) trivial

end Allocated

/-- Every identifier given out so far is a machine word. -/
def WithinWords (s : Impl) : Prop :=
  s.nextRequest ≤ 2 ^ 64 ∧ s.nextBatch ≤ 2 ^ 64 ∧ s.nextAttempt ≤ 2 ^ 64 ∧
    s.nextGeneration ≤ 2 ^ 64

instance (s : Impl) : Decidable s.WithinWords :=
  inferInstanceAs (Decidable (_ ∧ _))

theorem WithinWords.before {s s' : Impl} (words : s'.WithinWords)
    (allocated : Allocated s s') : s.WithinWords :=
  ⟨allocated.request.trans words.1, allocated.batch.trans words.2.1,
    allocated.attempt.trans words.2.2.1, allocated.generation.trans words.2.2.2⟩

/-- The generations of the batches have been given out. -/
def Generated (s : Impl) : Prop :=
  Everywhere s.batches fun _ b => b.generation.value < s.nextGeneration

namespace Generated

variable {s s' : Impl}

theorem fresh : Generated fresh :=
  everywhere_empty

theorem of_same (generated : Generated s) (batches : s'.batches = s.batches)
    (next : s'.nextGeneration = s.nextGeneration) : Generated s' := by
  unfold Generated
  rw [batches, next]
  exact generated

theorem modify (generated : Generated s) (bid : BatchId)
    {change : BatchRec → BatchRec}
    (batches : s'.batches = s.batches.modify bid change)
    (next : s'.nextGeneration = s.nextGeneration)
    (kept : ∀ b, (change b).generation = b.generation) : Generated s' := by
  unfold Generated
  rw [batches, next]
  apply Everywhere.modify generated
  intro b _ known
  rw [kept]
  exact known

theorem doCancel (generated : Generated s) (policy : BatchPolicy)
    (id : RequestId) (now : TimePoint) :
    Generated (s.doCancel policy id now).2 := by
  obtain unchanged | ⟨r, _, _, ⟨_, outside⟩ |
      ⟨_, b, _, ⟨_, forming⟩ | ⟨_, later⟩⟩⟩ := doCancel_cases policy s id now
  · rw [unchanged]
    exact generated
  · rw [outside]
    exact generated.of_same rfl rfl
  · rw [forming]
    exact generated.modify r.batch rfl rfl fun _ => rfl
  · rw [later]
    exact generated.modify r.batch rfl rfl fun _ => rfl

theorem expireWaiting (generated : Generated s) (now : TimePoint)
    (id : RequestId) : Generated (expireWaiting now s id) := by
  obtain unchanged | ⟨r, _, ⟨_, removed⟩ | ⟨_, stats, ended⟩⟩ :=
    expireWaiting_cases now s id
  · rw [unchanged]
    exact generated
  · rw [removed]
    exact generated.of_same rfl rfl
  · rw [ended]
    exact generated.of_same rfl rfl

theorem openForming (generated : Generated s) (key : CompatibilityKey)
    (now : TimePoint) : Generated (s.openForming key now) := by
  apply Everywhere.insert
  · exact generated.imp fun _ _ _ known => Nat.lt_succ_of_lt known
  · exact Nat.lt_succ_self s.nextGeneration

theorem finishBatch (generated : Generated s) (bid : BatchId)
    (worker : WorkerId) (now : TimePoint) :
    Generated (s.finishBatch bid worker now) := by
  obtain unchanged | ⟨b, stats, workers, _, ⟨_, ended⟩ | ⟨_, partly⟩⟩ :=
    finishBatch_cases s bid worker now
  · rw [unchanged]
    exact generated
  · rw [ended]
    exact generated.modify bid rfl rfl fun _ => rfl
  · rw [partly]
    exact generated.modify bid rfl rfl fun _ => rfl

theorem doSubmit (generated : Generated s) (policy : BatchPolicy)
    (metadata : RequestMetadata) (now : TimePoint) :
    Generated (s.doSubmit policy metadata now).2 := by
  obtain ⟨stats, taken⟩ | ⟨_, ⟨_, _, _, _, taken⟩ | ⟨_, _, taken⟩⟩ :=
    doSubmit_cases policy s metadata now
  · rw [taken]
    exact generated.of_same rfl rfl
  · rw [taken]
    exact generated.of_same rfl rfl
  · rw [taken]
    exact generated.of_same rfl rfl

theorem mergeInto (generated : Generated s) {aid : BatchId} (bid : BatchId)
    {a : BatchRec} (found : s.batches[aid]? = some a) (b : BatchRec) :
    Generated (s.mergeInto aid bid a b) := by
  apply Everywhere.modify
  · exact Everywhere.insert generated (generated aid a found)
  · exact fun _ _ known => known

theorem splitSealed (generated : Generated s) {bid : BatchId} {b : BatchRec}
    (found : s.batches[bid]? = some b) : Generated (s.splitSealed bid b) := by
  have known := generated bid b found
  apply Everywhere.insert
  · apply Everywhere.insert
    · exact Everywhere.insert generated known
    · exact known
  · exact known

theorem splitOpen (generated : Generated s) {bid : BatchId} {b : BatchRec}
    (found : s.batches[bid]? = some b) : Generated (s.splitOpen bid b) := by
  have known := generated bid b found
  apply Everywhere.insert
  · exact Everywhere.insert generated known
  · exact known

theorem generation_conclude (mc : MemberCompletion) (b : BatchRec) :
    (b.conclude mc).generation = b.generation := by
  have listed := BatchRec.listing_conclude b mc
  exact congrArg (fun b => b.generation) listed

theorem tickRule (policy : BatchPolicy) (now : TimePoint) :
    TickRule policy now fun s => WellFormed s ∧ Generated s where
  wellFormed _ held := held.1
  expire s id held :=
    ⟨held.1.expireWaiting now id, held.2.expireWaiting now id⟩
  cancel s id held :=
    ⟨held.1.doCancel policy id now, held.2.doCancel policy id now⟩
  openForming s key held _ :=
    ⟨held.1.openForming key now, held.2.openForming key now⟩
  place s bid key pick b r held placing := by
    refine ⟨(WellFormed.tickRule policy now).place s bid key pick b r held.1
      placing, ?_⟩
    rw [place_eq placing.request]
    exact held.2.modify bid rfl rfl fun _ => rfl
  retime s bid change held retimes := by
    refine ⟨held.1.retime bid retimes, held.2.modify bid rfl rfl ?_⟩
    intro b
    obtain ⟨allowed, formed, changed⟩ := retimes b
    rw [changed]
  close _ bid _ reason held found forming :=
    ⟨held.1.sealForming found forming reason now,
      held.2.modify bid rfl rfl fun _ => rfl⟩
  merge _ _ bid _ b held merging :=
    ⟨held.1.mergeInto merging.first merging.second merging.keyed,
      held.2.mergeInto bid merging.first b⟩

theorem recordRule (policy : BatchPolicy) (now : TimePoint) :
    RecordRule policy now (fun _ _ _ => true) Generated where
  count _ _ generated := generated.of_same rfl rfl
  conclude _ r _ mc _ _ _ generated _ _ :=
    generated.modify r.batch rfl rfl (generation_conclude mc)
  requeue _ r _ mc _ _ _ generated _ _ _ _ _ :=
    generated.modify r.batch rfl rfl (generation_conclude mc)
  dispatch _ bid _ _ _ generated _ _ :=
    generated.modify bid rfl rfl fun _ => rfl
  running _ bid _ generated _ _ :=
    generated.modify bid rfl rfl fun _ => rfl
  finish _ bid _ worker generated _ _ := generated.finishBatch bid worker now

theorem stepRule (policy : BatchPolicy) :
    StepRule policy (fun _ _ => True) (fun _ _ _ => true) Generated where
  ticks := tickRule policy
  reports now := (recordRule policy now).reports.formed
  complete s comp now _ _ _ := allowsReport_always policy s comp now
  dispatchAndRun s bid executor now _ _ _ :=
    allowsRun_always policy s bid executor now
  submit _ metadata now _ generated _ := generated.doSubmit policy metadata now
  splitSealed _ _ _ _ generated found _ _ := generated.splitSealed found
  splitOpen _ _ _ _ generated _ found _ _ := generated.splitOpen found
  mergeInto _ _ bid _ b _ generated _ found _ _ :=
    generated.mergeInto bid found b
  requeue _ _ _ _ _ _ generated _ _ _ := generated.of_same rfl rfl
  registerWorker _ _ _ _ generated := generated.of_same rfl rfl
  rollEpoch _ generated := generated.of_same rfl rfl

end Generated

theorem generated_of_reachable {policy : BatchPolicy} {s : Impl}
    (reachable : Reachable policy s) : Generated s :=
  (Generated.stepRule policy).of_reachable Generated.fresh reachable

end BatchFabric.Impl
