import BatchFabric.Safety.StepRule
import BatchFabric.Scheduler.KnownKeys

namespace BatchFabric

open OrderedMap

/-! The waiting index against the request records. -/

/-- Where a waiting request stands, and whether its flag says so. -/
def RequestRec.standing (r : RequestRec) : Option (CompatibilityKey × Bool) :=
  if isWaitingState r.state then some (r.key, r.inWaiting) else none

theorem RequestRec.standing_of_waiting {r : RequestRec}
    (waiting : isWaitingState r.state = true) :
    r.standing = some (r.key, r.inWaiting) :=
  if_pos waiting

theorem RequestRec.standing_of_not {r : RequestRec}
    (elsewhere : isWaitingState r.state = false) : r.standing = none := by
  unfold standing
  rw [elsewhere]
  rfl

theorem RequestRec.standing_advance {source target : RequestState}
    (before : isWaitingState source = false)
    (after : isWaitingState target = false) (r : RequestRec) :
    (r.advance source target).standing = r.standing := by
  unfold advance
  split
  · next same =>
      rw [standing_of_not (r := r) (by rw [same, before])]
      exact standing_of_not after
  · rfl

namespace Impl

def standing (s : Impl) (id : RequestId) : Option (CompatibilityKey × Bool) :=
  ((s.requests[id]?).map RequestRec.standing).join

/-- Exactly the eligible and waiting requests are queued: once, under their
own key and with their flag set. -/
structure WaitingListed (s : Impl) : Prop where
  listed : ∀ id : RequestId, (∃ key, id ∈ s.bucket key) ↔
    ∃ r, s.requests[id]? = some r ∧ isWaitingState r.state = true
  placed : Everywhere s.requests fun id r => isWaitingState r.state = true →
    (s.bucket r.key).count id = 1 ∧
      (∀ key, key ≠ r.key → id ∉ s.bucket key) ∧ r.inWaiting = true

/-- The buckets hold a request as often as its standing says. -/
structure QueuedAt (s : Impl) (id : RequestId) : Prop where
  counted : ∀ key, (s.bucket key).count id =
    if s.standing id = some (key, true) then 1 else 0
  flagged : ∀ key, s.standing id ≠ some (key, false)

def Queues (s : Impl) : Prop :=
  ∀ id, s.QueuedAt id

theorem standing_of_found {s : Impl} {id : RequestId} {r : RequestRec}
    (found : s.requests[id]? = some r) : s.standing id = r.standing := by
  unfold standing
  rw [found]
  rfl

theorem standing_of_none {s : Impl} {id : RequestId}
    (missing : s.requests[id]? = none) : s.standing id = none := by
  unfold standing
  rw [missing]
  rfl

theorem standing_of_map {s s' : Impl} {id : RequestId}
    (same : (s'.requests[id]?).map RequestRec.standing =
      (s.requests[id]?).map RequestRec.standing) :
    s'.standing id = s.standing id :=
  congrArg Option.join same

theorem waitingListed_iff (s : Impl) : s.WaitingListed ↔ s.Queues := by
  constructor
  · rintro ⟨listed, placed⟩ id
    cases found : s.requests[id]? with
    | none =>
        have absent : s.standing id = none := standing_of_none found
        constructor
        · intro key
          rw [absent, if_neg nofun, List.count_eq_zero]
          intro queued
          obtain ⟨r, present, _⟩ := (listed id).mp ⟨key, queued⟩
          rw [found] at present
          cases present
        · intro key
          rw [absent]
          exact nofun
    | some r =>
        have stands := standing_of_found found
        cases waiting : isWaitingState r.state with
        | false =>
            rw [RequestRec.standing_of_not waiting] at stands
            constructor
            · intro key
              rw [stands, if_neg nofun, List.count_eq_zero]
              intro queued
              obtain ⟨r', present, state⟩ := (listed id).mp ⟨key, queued⟩
              rw [found] at present
              cases present
              rw [waiting] at state
              cases state
            · intro key
              rw [stands]
              exact nofun
        | true =>
            obtain ⟨once, nowhere, flag⟩ := placed id r found waiting
            rw [RequestRec.standing_of_waiting waiting, flag] at stands
            constructor
            · intro key
              rw [stands]
              by_cases same : key = r.key
              · subst same
                rw [once, if_pos rfl]
              · rw [if_neg (by simpa using Ne.symm same), List.count_eq_zero]
                exact nowhere key same
            · intro key
              rw [stands]
              simp
  · intro queues
    have listing : ∀ id key,
        id ∈ s.bucket key ↔ s.standing id = some (key, true) := by
      intro id key
      rw [← List.count_pos_iff, (queues id).counted key]
      split <;> simp [*]
    constructor
    · intro id
      constructor
      · rintro ⟨key, queued⟩
        have stands := (listing id key).mp queued
        cases found : s.requests[id]? with
        | none =>
            rw [standing_of_none found] at stands
            cases stands
        | some r =>
            refine ⟨r, rfl, ?_⟩
            rw [standing_of_found found] at stands
            cases waiting : isWaitingState r.state with
            | true => rfl
            | false =>
                rw [RequestRec.standing_of_not waiting] at stands
                cases stands
      · rintro ⟨r, found, waiting⟩
        have stands := standing_of_found found
        rw [RequestRec.standing_of_waiting waiting] at stands
        cases flag : r.inWaiting with
        | true => exact ⟨r.key, (listing id r.key).mpr (by rw [stands, flag])⟩
        | false =>
            exact absurd (by rw [stands, flag]) ((queues id).flagged r.key)
    · intro id r found waiting
      have stands := standing_of_found found
      rw [RequestRec.standing_of_waiting waiting] at stands
      cases flag : r.inWaiting with
      | false =>
          exact absurd (by rw [stands, flag]) ((queues id).flagged r.key)
      | true =>
          rw [flag] at stands
          refine ⟨?_, ?_, rfl⟩
          · rw [(queues id).counted r.key, stands, if_pos rfl]
          · intro key different queued
            rw [listing id key, stands] at queued
            cases queued
            exact different rfl

theorem Queues.fresh : Queues fresh := by
  intro id
  exact ⟨fun _ => rfl, fun _ => nofun⟩

theorem QueuedAt.of_same {s s' : Impl} {id : RequestId}
    (queued : s.QueuedAt id)
    (counts : ∀ key, (s'.bucket key).count id = (s.bucket key).count id)
    (standing : s'.standing id = s.standing id) : s'.QueuedAt id where
  counted key := by
    rw [counts, standing]
    exact queued.counted key
  flagged key := by
    rw [standing]
    exact queued.flagged key

namespace Queues

theorem of_same {s s' : Impl} (queues : s.Queues)
    (index : s'.waitingIndex = s.waitingIndex)
    (standing : ∀ id, s'.standing id = s.standing id) : s'.Queues := by
  intro id
  apply (queues id).of_same
  · intro key
    unfold bucket
    rw [index]
  · exact standing id

/-- A request stops waiting, and is taken off its bucket. -/
theorem leave {s s' : Impl} (queues : s.Queues) {id : RequestId}
    {key : CompatibilityKey}
    (keyed : ∀ other flag, s.standing id = some (other, flag) → other = key)
    (index : s'.waitingIndex = s.waitingIndex.remove key id)
    (gone : s'.standing id = none)
    (others : ∀ other, other ≠ id → s'.standing other = s.standing other) :
    s'.Queues := by
  have buckets : ∀ other, s'.bucket other =
      if key = other then (s.bucket other).erase id else s.bucket other := by
    intro other
    unfold bucket
    rw [index, CompatibilityIndex.bucketOf_remove]
  intro other
  by_cases same : other = id
  · subst same
    constructor
    · intro place
      rw [gone, if_neg nofun, buckets]
      have before := (queues other).counted place
      split
      · rw [List.count_erase_self, before]
        split <;> rfl
      · next elsewhere =>
          rw [before, if_neg]
          intro stands
          exact elsewhere (keyed place true stands).symm
    · intro place
      rw [gone]
      exact nofun
  · apply (queues other).of_same _ (others other same)
    intro place
    rw [buckets]
    split
    · exact List.count_erase_of_ne same
    · rfl

/-- A request that did not wait starts to, and is put in its bucket. -/
theorem enter {s s' : Impl} (queues : s.Queues) {id : RequestId}
    {key : CompatibilityKey} (absent : s.standing id = none)
    (index : s'.waitingIndex = s.waitingIndex.add key id)
    (stands : s'.standing id = some (key, true))
    (others : ∀ other, other ≠ id → s'.standing other = s.standing other) :
    s'.Queues := by
  have buckets : ∀ other, s'.bucket other =
      if key = other then s.bucket other ++ [id] else s.bucket other := by
    intro other
    unfold bucket
    rw [index, CompatibilityIndex.bucketOf_add]
  intro other
  by_cases same : other = id
  · subst same
    constructor
    · intro place
      have before : (s.bucket place).count other = 0 := by
        rw [(queues other).counted place, absent]
        exact if_neg nofun
      rw [stands, buckets]
      by_cases here : key = place
      · subst here
        simp [before]
      · simp [here, before]
    · intro place
      rw [stands]
      simp
  · apply (queues other).of_same _ (others other same)
    intro place
    rw [buckets]
    split
    · rw [List.count_append, List.count_singleton]
      simp [Ne.symm same]
    · rfl

end Queues

theorem standing_modify_other {s s' : Impl} {id : RequestId}
    {change : RequestRec → RequestRec}
    (requests : s'.requests = s.requests.modify id change) (other : RequestId)
    (different : other ≠ id) : s'.standing other = s.standing other := by
  apply standing_of_map
  rw [requests, getElem?_modify, if_neg (Ne.symm different)]

theorem standing_modify_self {s s' : Impl} {id : RequestId} {r : RequestRec}
    {change : RequestRec → RequestRec}
    (requests : s'.requests = s.requests.modify id change)
    (found : s.requests[id]? = some r) :
    s'.standing id = (change r).standing := by
  apply standing_of_found
  rw [requests]
  exact getElem?_modify_self found change

/-- A request that does not wait before or after an update. -/
theorem Queues.of_modify {s s' : Impl} (queues : s.Queues) {id : RequestId}
    {change : RequestRec → RequestRec} {r : RequestRec}
    (index : s'.waitingIndex = s.waitingIndex)
    (requests : s'.requests = s.requests.modify id change)
    (found : s.requests[id]? = some r)
    (before : isWaitingState r.state = false)
    (after : isWaitingState (change r).state = false) : s'.Queues := by
  apply queues.of_same index
  intro other
  by_cases same : other = id
  · subst same
    rw [standing_modify_self requests found, standing_of_found found,
      RequestRec.standing_of_not before, RequestRec.standing_of_not after]
  · exact standing_modify_other requests other same

/-- An update that keeps where every request stands. -/
theorem Queues.of_modifyAll {s s' : Impl} (queues : s.Queues)
    {ids : List RequestId} {change : RequestRec → RequestRec}
    (kept : ∀ r, (change r).standing = r.standing)
    (index : s'.waitingIndex = s.waitingIndex)
    (requests : s'.requests = modifyAll s.requests ids change) :
    s'.Queues := by
  apply queues.of_same index
  intro id
  apply standing_of_map
  rw [requests]
  exact map_getElem?_modifyAll kept s.requests ids id

theorem not_waiting_of_isInBatch {state : RequestState}
    (inBatch : isInBatch state = true) : isWaitingState state = false := by
  cases state <;> first | rfl | cases inBatch

namespace Queues

/-- A submission that is recorded without being queued. -/
theorem createRequest {s : Impl} (queues : s.Queues)
    (wellFormed : WellFormed s) (metadata : RequestMetadata) (now : TimePoint)
    {state : RequestState} (elsewhere : isWaitingState state = false)
    (outcome : CompletionStatus) :
    (s.createRequest metadata now state state outcome false).Queues := by
  apply queues.of_same
  · rfl
  intro id
  unfold standing Impl.createRequest
  dsimp only
  rw [getElem?_insert]
  split
  · next same =>
      subst same
      rw [wellFormed.no_request]
      exact RequestRec.standing_of_not elsewhere
  · rfl

theorem admitted {s : Impl} (queues : s.Queues) (wellFormed : WellFormed s)
    (metadata : RequestMetadata) (now : TimePoint)
    (fairness : FairnessController) (stats : BatchStats) :
    (s.admitted metadata now fairness stats).Queues := by
  apply queues.enter (standing_of_none wellFormed.no_request) rfl
  · unfold standing Impl.admitted Impl.createRequest
    dsimp only
    rw [getElem?_insert, if_pos rfl]
    rfl
  · intro other different
    unfold standing Impl.admitted Impl.createRequest
    dsimp only
    rw [getElem?_insert, if_neg (Ne.symm different)]

theorem keyed_of_found {s : Impl} {id : RequestId} {r : RequestRec}
    (found : s.requests[id]? = some r) (other : CompatibilityKey) (flag : Bool)
    (stands : s.standing id = some (other, flag)) : other = r.key := by
  rw [standing_of_found found] at stands
  unfold RequestRec.standing at stands
  split at stands
  · cases stands
    rfl
  · cases stands

theorem doCancel {s : Impl} (queues : s.Queues) (policy : BatchPolicy)
    (id : RequestId) (now : TimePoint) :
    (s.doCancel policy id now).2.Queues := by
  obtain unchanged | ⟨r, found, _, ⟨_, outside⟩ |
      ⟨inBatch, b, _, ⟨_, forming⟩ | ⟨_, later⟩⟩⟩ :=
    doCancel_cases policy s id now
  · rw [unchanged]
    exact queues
  · rw [outside]
    cases flag : r.inWaiting with
    | true =>
        apply queues.leave (keyed_of_found found)
        · unfold cancelOutside
          dsimp only
          rw [if_pos flag]
          rfl
        · exact (standing_modify_self rfl found).trans
            (RequestRec.standing_of_not rfl)
        · exact standing_modify_other rfl
    | false =>
        have elsewhere : isWaitingState r.state = false := by
          cases waiting : isWaitingState r.state with
          | false => rfl
          | true =>
              have stands := standing_of_found found
              rw [RequestRec.standing_of_waiting waiting, flag] at stands
              exact absurd stands ((queues id).flagged r.key)
        apply queues.of_modify _ rfl found elsewhere rfl
        unfold cancelOutside
        dsimp only
        rw [flag]
        rfl
  · rw [forming]
    exact queues.of_modify rfl rfl found (not_waiting_of_isInBatch inBatch) rfl
  · rw [later]
    exact queues.of_modify rfl rfl found (not_waiting_of_isInBatch inBatch) rfl

theorem expireWaiting {s : Impl} (queues : s.Queues) (now : TimePoint)
    (id : RequestId) : (expireWaiting now s id).Queues := by
  obtain unchanged | ⟨r, found, ⟨ended, removed⟩ | ⟨_, stats, expired⟩⟩ :=
    expireWaiting_cases now s id
  · rw [unchanged]
    exact queues
  · rw [removed]
    apply queues.leave (keyed_of_found found) rfl
    · exact (standing_of_found found).trans
        (RequestRec.standing_of_not (not_waiting_of_terminal ended))
    · exact fun _ _ => rfl
  · rw [expired]
    apply queues.leave (keyed_of_found found) rfl
    · exact (standing_modify_self rfl found).trans
        (RequestRec.standing_of_not rfl)
    · exact standing_modify_other rfl

theorem place {s : Impl} (queues : s.Queues) {pick : RequestId}
    {r : RequestRec} (found : s.requests[pick]? = some r) (bid : BatchId) :
    (s.place bid r.key pick).Queues := by
  rw [place_eq found]
  apply queues.leave (keyed_of_found found) rfl
  · exact (standing_modify_self rfl found).trans
      (RequestRec.standing_of_not rfl)
  · exact standing_modify_other rfl

theorem sealForming {s : Impl} (queues : s.Queues) (bid : BatchId)
    (b : BatchRec) (reason : SealReason) (now : TimePoint) :
    (s.sealForming bid b reason now).Queues :=
  queues.of_modifyAll (RequestRec.standing_advance rfl rfl) rfl rfl

theorem splitRequests {s s' : Impl} (queues : s.Queues) {bid child : BatchId}
    {b : BatchRec} (index : s'.waitingIndex = s.waitingIndex)
    (requests : s'.requests = s.splitRequests bid child b) : s'.Queues := by
  apply queues.of_same index
  intro id
  apply standing_of_map
  rw [requests]
  unfold Impl.splitRequests
  rw [map_getElem?_modifyAll (fun _ => by rfl),
    map_getElem?_modifyAll (fun _ => by rfl)]

theorem mergeInto {s : Impl} (queues : s.Queues) (aid bid : BatchId)
    (a b : BatchRec) : (s.mergeInto aid bid a b).Queues :=
  queues.of_modifyAll (fun _ => by rfl) rfl rfl

theorem requeue {s : Impl} (queues : s.Queues) {id : RequestId}
    {r before : RequestRec} (found : s.requests[id]? = some before)
    (elsewhere : isWaitingState before.state = false) (named : r.id = id)
    (keyed : before.key = r.key) (number : UInt32) :
    (s.requeue id r number).Queues := by
  subst named
  apply queues.enter ((standing_of_found found).trans
    (RequestRec.standing_of_not elsewhere)) rfl
  · exact (standing_modify_self rfl found).trans (by rw [← keyed]; rfl)
  · exact standing_modify_other rfl

theorem tickRule (policy : BatchPolicy) (now : TimePoint) :
    TickRule policy now fun s => WellFormed s ∧ s.Queues where
  wellFormed _ held := held.1
  expire _ id held :=
    ⟨held.1.expireWaiting now id, held.2.expireWaiting now id⟩
  cancel _ id held :=
    ⟨held.1.doCancel policy id now, held.2.doCancel policy id now⟩
  openForming _ key held _ :=
    ⟨held.1.openForming key now, held.2.of_same rfl fun _ => rfl⟩
  place s bid key pick b r held placing := by
    refine ⟨(WellFormed.tickRule policy now).place s bid key pick b r held.1
      placing, ?_⟩
    rw [← placing.requestKeyed held.1]
    exact held.2.place placing.request bid
  retime _ bid _ held retimes :=
    ⟨held.1.retime bid retimes, held.2.of_same rfl fun _ => rfl⟩
  close _ bid b reason held found forming :=
    ⟨held.1.sealForming found forming reason now,
      held.2.sealForming bid b reason now⟩
  merge _ aid bid a b held merging :=
    ⟨held.1.mergeInto merging.first merging.second merging.keyed,
      held.2.mergeInto aid bid a b⟩

theorem conclude {s : Impl} (queues : s.Queues) {mc : MemberCompletion}
    {r : RequestRec} {a : AttemptRec} {state : RequestState}
    (concluding : Concluding s mc r a state)
    (elsewhere : isWaitingState r.state = false) (now : TimePoint) :
    (s.conclude r mc state now).Queues :=
  queues.of_modify rfl rfl concluding.request elsewhere <| by
    rw [state_conclude]
    exact not_waiting_of_terminal (endState_terminal concluding.acts)

end Queues

/-- The request, if known, is neither eligible nor waiting. -/
def notWaiting (s : Impl) (id : RequestId) : Bool :=
  match s.requests[id]? with
  | none => true
  | some r => !isWaitingState r.state

theorem notWaiting_of_found {s : Impl} {id : RequestId} {r : RequestRec}
    (found : s.requests[id]? = some r) (elsewhere : s.notWaiting id = true) :
    isWaitingState r.state = false := by
  simpa [notWaiting, found] using elsewhere

theorem Queues.recordRule (policy : BatchPolicy) (now : TimePoint) :
    RecordRule policy now (fun s id _ => s.notWaiting id)
      fun s => WellFormed s ∧ s.Queues where
  count _ _ held := ⟨held.1.of_counters _ _ _ _, held.2.of_same rfl fun _ => rfl⟩
  conclude s r a mc state fairness stats held concluding allowed :=
    ⟨held.1.inPlace (InPlace.conclude s r mc state now fairness stats),
      (held.2.conclude concluding
        (notWaiting_of_found concluding.request allowed) now).of_same rfl
          fun _ => rfl⟩
  requeue s r a mc state fairness stats held concluding allowed retryable
      enabled again := by
    have elsewhere := notWaiting_of_found concluding.request allowed
    constructor
    · exact (WellFormed.recordRule policy now).requeue s r a mc state fairness
        stats held.1 concluding rfl retryable enabled again
    · have queues : Queues { s.conclude r mc state now with
          fairness := fairness, stats := stats } :=
        (held.2.conclude concluding elsewhere now).of_same rfl fun _ => rfl
      apply queues.requeue (getElem?_modify_self concluding.request _)
      · rw [state_conclude]
        exact not_waiting_of_terminal (endState_terminal concluding.acts)
      · exact (held.1.request mc.request r concluding.request).1
      · exact congrArg (·.2.2.2) (fixed_conclude r mc state)
  dispatch s bid b worker boot held found isSealed :=
    ⟨(WellFormed.recordRule policy now).dispatch s bid b worker boot held.1
        found isSealed,
      held.2.of_modifyAll (RequestRec.standing_advance rfl rfl) rfl rfl⟩
  running _ _ _ held found dispatched :=
    ⟨held.1.inPlace (InPlace.markRunning found dispatched),
      held.2.of_modifyAll (RequestRec.standing_advance rfl rfl) rfl rfl⟩
  finish s bid b worker held found inFlight := by
    refine ⟨held.1.inPlace (InPlace.finishBatch found inFlight worker now), ?_⟩
    obtain unchanged | ⟨_, stats, workers, _, ⟨_, ended⟩ | ⟨_, ended⟩⟩ :=
      finishBatch_cases s bid worker now
    · rw [unchanged]
      exact held.2
    · rw [ended]
      exact held.2.of_same rfl fun _ => rfl
    · rw [ended]
      exact held.2.of_same rfl fun _ => rfl

/-- The submission is recorded as waiting because its tenant has as many
requests outstanding as it may. -/
def defers (policy : BatchPolicy) (s : Impl) (metadata : RequestMetadata)
    (now : TimePoint) : Bool :=
  !(metadata.descriptor.model.isEmpty ||
    metadata.descriptor.revision.isEmpty) &&
  !(metadata.deadline.hasDeadline && metadata.deadline.expired now) &&
  !policy.constraints.budget.oversized metadata &&
  (policy.fairness.enabled &&
    s.fairness.atOutstandingCap policy.fairness metadata.tenant)

theorem defers_of_deferred {policy : BatchPolicy} {s : Impl}
    {metadata : RequestMetadata} {now : TimePoint}
    (deferred : (s.doSubmit policy metadata now).1.admission = .deferred) :
    s.defers policy metadata now = true := by
  unfold doSubmit at deferred
  dsimp only at deferred
  split at deferred
  · cases deferred
  · split at deferred
    · cases deferred
    · split at deferred
      · cases deferred
      · split at deferred
        · unfold defers
          simp only [*]
          rfl
        · cases deferred

/-- No submission is deferred, and neither a retry nor a record concerns a
request that waits already. -/
def keepsQueue (policy : BatchPolicy) (s : Impl) : Op → Bool
  | .submit metadata now => !s.defers policy metadata now
  | .retry request _ now =>
      !s.takesRetry policy request now || s.notWaiting request
  | .complete completion now =>
      s.allowsReport policy (fun s id _ => s.notWaiting id) completion now
  | .dispatchAndRun batch executor now =>
      s.allowsRun policy (fun s id _ => s.notWaiting id) batch executor now
  | _ => true

theorem Queues.doSubmit {s : Impl} (held : WellFormed s ∧ s.Queues)
    {policy : BatchPolicy} {metadata : RequestMetadata} {now : TimePoint}
    (admits : s.defers policy metadata now = false) :
    (s.doSubmit policy metadata now).2.Queues := by
  obtain ⟨stats, unrecorded⟩ | ⟨_, ⟨state, outcome, stats, known, taken⟩ |
      ⟨fairness, stats, taken⟩⟩ := doSubmit_cases policy s metadata now
  · rw [unrecorded]
    exact held.2.of_same rfl fun _ => rfl
  · rw [taken]
    have elsewhere : isWaitingState state = false := by
      rcases known with rfl | rfl | ⟨_, deferred⟩
      · rfl
      · rfl
      · rw [defers_of_deferred deferred] at admits
        cases admits
    exact (held.2.createRequest held.1 metadata now elsewhere
      outcome).of_same rfl fun _ => rfl
  · rw [taken]
    exact held.2.admitted held.1 metadata now fairness stats

theorem Queues.stepRule (policy : BatchPolicy) :
    StepRule policy (fun s op => keepsQueue policy s op = true)
      (fun s id _ => s.notWaiting id) Queues where
  ticks now := Queues.tickRule policy now
  reports now := (recordRule policy now).reports
  complete _ _ _ _ _ guarded := guarded
  dispatchAndRun _ _ _ _ _ _ guarded := guarded
  submit s metadata now reachable queues guarded :=
    Queues.doSubmit ⟨wellFormed_of_reachable reachable, queues⟩
      (by simpa [keepsQueue] using guarded)
  splitSealed _ _ _ _ queues _ _ _ := queues.splitRequests rfl rfl
  splitOpen _ _ _ _ queues _ _ _ _ := queues.splitRequests rfl rfl
  mergeInto _ aid bid a b _ queues _ _ _ _ := queues.mergeInto aid bid a b
  requeue s id r order now reachable queues guarded found takes := by
    have elsewhere : s.notWaiting id = true := by
      simpa [keepsQueue, takes] using guarded
    exact queues.requeue found (notWaiting_of_found found elsewhere)
      ((wellFormed_of_reachable reachable).request id r found).1 rfl _
  registerWorker _ _ _ _ queues := queues.of_same rfl fun _ => rfl
  rollEpoch _ queues := queues.of_same rfl fun _ => rfl

/-- The waiting index is exact in every run in which no submission is deferred
and no request is queued or concluded while it waits. -/
theorem waitingListed_of_run (policy : BatchPolicy) (ops : List Op)
    (guarded : Transition.Along (BatchFabric.step policy)
      (fun s op => keepsQueue policy s op = true) fresh ops) :
    (run policy ops).WaitingListed :=
  (waitingListed_iff _).mpr
    ((Queues.stepRule policy).of_run Queues.fresh ops guarded)

/-- A dispatched request fails, is queued again and placed again. -/
theorem waitingListed_of_requeued :
    (run {}
      [.submit minimalRequest 0, .submit minimalRequest 1, .tick [] 2,
        .prepareDispatch { value := 1 } .null .null 3,
        .complete {
          epoch := { value := 1 }, generation := { value := 1 }
          batch := { value := 1 }
          members := [{
            request := { value := 1 }, attempt := { value := 1 }
            status := .retryableFailure }] } 4,
        .submit minimalRequest 5, .tick [] 6]).WaitingListed :=
  waitingListed_of_run _ _ (by
    rw [step_eq_stepKnown .minimal]
    decide +kernel)

theorem not_waitingListed_of_lost {s : Impl} (id : RequestId)
    (lost : (s.requests[id]?).any (fun r =>
      isWaitingState r.state && (s.bucket r.key).count id == 0) = true) :
    ¬ s.WaitingListed := by
  intro listing
  obtain ⟨r, found, known⟩ := (Option.any_eq_true _ _).mp lost
  obtain ⟨waiting, absent⟩ := (Bool.and_eq_true _ _).mp known
  have once := (listing.placed id r found waiting).1
  rw [eq_of_beq absent] at once
  cases once

/-- A second request of a tenant that may have one is deferred: it waits and is
in no bucket. -/
theorem not_waitingListed_of_deferred :
    ¬ (run { fairness.maxOutstandingPerTenant := 1 }
      [.submit minimalRequest 0, .submit minimalRequest 1]).WaitingListed :=
  not_waitingListed_of_lost { value := 2 } (by decide +kernel)

end Impl

end BatchFabric
