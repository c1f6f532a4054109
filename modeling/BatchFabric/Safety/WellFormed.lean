import BatchFabric.Scheduler.Effects

namespace BatchFabric

open OrderedMap

/-! What every reachable state satisfies, whatever the operations were: the
containers refer to records that exist, under identifiers already allocated,
and keys agree across them. -/

/-- What never changes in a request record. -/
def RequestRec.fixed (r : RequestRec) :
    RequestId × RequestMetadata × TimePoint × CompatibilityKey :=
  (r.id, r.metadata, r.submitted, r.key)

/-- What never changes in a batch record. -/
def BatchRec.fixed (b : BatchRec) : BatchId × CompatibilityKey × Generation :=
  (b.id, b.key, b.generation)

/-- How far a batch has come. The ways to end are one stage. -/
def BatchState.stage : BatchState → Nat
  | .forming => 0
  | .sealed => 1
  | .dispatched => 2
  | .running => 3
  | .partiallyCompleted => 4
  | .completed | .cancelled | .failed | .superseded => 5

theorem BatchState.stage_le (state : BatchState) : state.stage ≤ 5 := by
  cases state <;> decide

theorem BatchState.forming_of_stage {state : BatchState}
    (first : state.stage ≤ 0) : state = .forming := by
  cases state <;> first | rfl | cases first

theorem not_terminal_of_isWaiting {state : RequestState}
    (waiting : isWaitingState state = true) :
    isRequestTerminal state = false := by
  cases state <;> first | rfl | cases waiting

theorem not_waiting_of_terminal {state : RequestState}
    (ended : isRequestTerminal state = true) :
    isWaitingState state = false := by
  cases state <;> first | rfl | cases ended

namespace Impl

/-- The key a request was submitted under. -/
def keyOf? (s : Impl) (id : RequestId) : Option CompatibilityKey :=
  (s.requests[id]?).map (·.key)

structure WellFormed (s : Impl) : Prop where
  request : Everywhere s.requests fun id r =>
    r.id = id ∧ id.value < s.nextRequest
  attempt : Everywhere s.attempts fun aid _ => aid.value < s.nextAttempt
  batch : Everywhere s.batches fun bid b =>
    b.id = bid ∧ 0 < bid.value ∧ bid.value < s.nextBatch
  allocating : 0 < s.nextBatch
  member : Everywhere s.batches fun _ b =>
    ∀ m ∈ b.members, s.keyOf? m = some b.key
  queued : ∀ key, ∀ id ∈ s.bucket key, s.keyOf? id = some key
  registered : Everywhere s.formingByKey fun key bid =>
    (s.batches[bid]?).map (·.key) = some key
  orderedOnce : s.sealedOrder.Nodup
  ordered : ∀ bid ∈ s.sealedOrder,
    ∃ b, s.batches[bid]? = some b ∧ b.state ≠ .forming

theorem WellFormed.fresh : WellFormed fresh where
  request := everywhere_empty
  attempt := everywhere_empty
  batch := everywhere_empty
  allocating := Nat.one_pos
  member := everywhere_empty
  queued := by
    intro key id queued
    simp [bucket, CompatibilityIndex.bucketOf, Impl.fresh] at queued
  registered := everywhere_empty
  orderedOnce := List.nodup_nil
  ordered := by
    intro bid listed
    cases listed

theorem WellFormed.found_member {s : Impl} (wellFormed : WellFormed s)
    {bid : BatchId} {b : BatchRec} (found : s.batches[bid]? = some b)
    {m : RequestId} (member : m ∈ b.members) :
    ∃ r, s.requests[m]? = some r := by
  have keyed := wellFormed.member bid b found m member
  obtain ⟨r, known, _⟩ := Option.map_eq_some_iff.mp keyed
  exact ⟨r, known⟩

theorem WellFormed.registered_key {s : Impl} (wellFormed : WellFormed s)
    {key : CompatibilityKey} {bid : BatchId} {b : BatchRec}
    (at_key : s.formingByKey[key]? = some bid)
    (found : s.batches[bid]? = some b) : b.key = key := by
  have keyed : (s.batches[bid]?).map (·.key) = some key :=
    wellFormed.registered key bid at_key
  rw [found] at keyed
  exact Option.some.inj keyed

theorem keyOf?_eq_of_fixed {s s' : Impl}
    (requests : ∀ id : RequestId,
      (s'.requests[id]?).map RequestRec.fixed =
        (s.requests[id]?).map RequestRec.fixed) :
    s'.keyOf? = s.keyOf? := by
  funext id
  have same := congrArg (Option.map fun fixed => fixed.2.2.2) (requests id)
  simp only [Option.map_map] at same
  exact same

/-- The batch a record comes from lists all its members in the same order, and
had come no further. -/
def ShrunkFrom (s : Impl) (bid : BatchId) (b' : BatchRec) : Prop :=
  ∃ b, s.batches[bid]? = some b ∧ b'.members.Sublist b.members ∧
    b.state.stage ≤ b'.state.stage

theorem everywhere_shrunkFrom (s : Impl) :
    Everywhere s.batches (ShrunkFrom s) :=
  fun _ b found => ⟨b, found, List.Sublist.refl _, Nat.le_refl _⟩

theorem everywhere_shrunkFrom_modify (s : Impl) (bid : BatchId)
    {change : BatchRec → BatchRec}
    (shrinks : ∀ b, (change b).members.Sublist b.members)
    (advances : ∀ b, s.batches[bid]? = some b →
      b.state.stage ≤ (change b).state.stage) :
    Everywhere (s.batches.modify bid change) (ShrunkFrom s) := by
  intro other b' found
  obtain ⟨b, before, ⟨rfl, rfl⟩ | ⟨_, rfl⟩⟩ := getElem?_modify_cases found
  · exact ⟨b, before, shrinks b, advances b before⟩
  · exact everywhere_shrunkFrom s other b' before

theorem stage_of_found {s : Impl} {bid : BatchId} {b : BatchRec}
    (found : s.batches[bid]? = some b) (last : Nat)
    (reached : b.state.stage ≤ last) :
    ∀ before, s.batches[bid]? = some before → before.state.stage ≤ last := by
  intro before at_bid
  rw [found] at at_bid
  cases at_bid
  exact reached

/-- An update that creates no record, gives no batch a new member and takes
none back a stage, and queues, registers and orders nothing new. -/
structure InPlace (s s' : Impl) : Prop where
  requests : ∀ id : RequestId,
    (s'.requests[id]?).map RequestRec.fixed =
      (s.requests[id]?).map RequestRec.fixed := by exact fun _ => rfl
  attempts : ∀ aid : AttemptId,
    s'.attempts[aid]?.isSome = s.attempts[aid]?.isSome := by
      exact fun _ => rfl
  batches : ∀ bid : BatchId,
    (s'.batches[bid]?).map BatchRec.fixed =
      (s.batches[bid]?).map BatchRec.fixed := by exact fun _ => rfl
  shrinking : Everywhere s'.batches (ShrunkFrom s) := by
    exact everywhere_shrunkFrom _
  nextRequest : s'.nextRequest = s.nextRequest := by rfl
  nextAttempt : s'.nextAttempt = s.nextAttempt := by rfl
  nextBatch : s'.nextBatch = s.nextBatch := by rfl
  queued : ∀ key, ∀ id ∈ s'.bucket key, id ∈ s.bucket key := by
    exact fun _ _ queued => queued
  registered : s'.formingByKey = s.formingByKey := by rfl
  order : s'.sealedOrder = s.sealedOrder := by rfl

theorem exists_of_map_eq {found before : Option α} {view : α → β}
    (same : found.map view = before.map view) {value : α}
    (present : found = some value) :
    ∃ value', before = some value' ∧ view value = view value' := by
  subst present
  cases before with
  | none => cases same
  | some value' => exact ⟨value', rfl, Option.some.inj same⟩

theorem WellFormed.inPlace {s s' : Impl} (wellFormed : WellFormed s)
    (kept : InPlace s s') : WellFormed s' := by
  have keys := keyOf?_eq_of_fixed kept.requests
  constructor
  · intro id r found
    obtain ⟨before, found, same⟩ :=
      exists_of_map_eq (kept.requests id) found
    have known := wellFormed.request id before found
    have sameId : r.id = before.id := congrArg (·.1) same
    rw [kept.nextRequest, sameId]
    exact known
  · intro aid a found
    have present : s.attempts[aid]?.isSome = true := by
      rw [← kept.attempts aid, found]
      rfl
    obtain ⟨before, found⟩ := Option.isSome_iff_exists.mp present
    rw [kept.nextAttempt]
    exact wellFormed.attempt aid before found
  · intro bid b found
    obtain ⟨before, found, same⟩ := exists_of_map_eq (kept.batches bid) found
    have known := wellFormed.batch bid before found
    have sameId : b.id = before.id := congrArg (·.1) same
    rw [kept.nextBatch, sameId]
    exact known
  · rw [kept.nextBatch]
    exact wellFormed.allocating
  · intro bid b found m member
    obtain ⟨before, at_bid, same⟩ := exists_of_map_eq (kept.batches bid) found
    obtain ⟨before', at_bid', sublist, _⟩ := kept.shrinking bid b found
    have sameKey : b.key = before.key := congrArg (·.2.1) same
    rw [at_bid] at at_bid'
    cases at_bid'
    rw [keys, sameKey]
    exact wellFormed.member bid before at_bid m (sublist.subset member)
  · intro key id queued
    rw [keys]
    exact wellFormed.queued key id (kept.queued key id queued)
  · rw [kept.registered]
    intro key bid found
    have known := wellFormed.registered key bid found
    have same := congrArg (Option.map fun fixed => fixed.2.1)
      (kept.batches bid)
    simp only [Option.map_map] at same
    exact same.trans known
  · rw [kept.order]
    exact wellFormed.orderedOnce
  · intro bid listed
    rw [kept.order] at listed
    obtain ⟨before, at_bid, closed⟩ := wellFormed.ordered bid listed
    obtain ⟨b, found, _⟩ := exists_of_map_eq (kept.batches bid).symm at_bid
    obtain ⟨before', at_bid', _, advanced⟩ := kept.shrinking bid b found
    rw [at_bid] at at_bid'
    cases at_bid'
    refine ⟨b, found, fun still => closed ?_⟩
    rw [still] at advanced
    exact BatchState.forming_of_stage advanced

theorem isSome_modify (map : Map AttemptId AttemptRec) (key other : AttemptId)
    (change : AttemptRec → AttemptRec) :
    (map.modify key change)[other]?.isSome = map[other]?.isSome := by
  rw [getElem?_modify]
  split
  · exact Option.isSome_map
  · rfl

theorem mem_bucket_of_remove {s : Impl} {key other : CompatibilityKey}
    {id member : RequestId}
    (queued : member ∈ (s.waitingIndex.remove key id).bucketOf other) :
    member ∈ s.bucket other := by
  rw [CompatibilityIndex.bucketOf_remove] at queued
  split at queued
  · exact List.mem_of_mem_erase queued
  · exact queued

theorem InPlace.cancelOutside (s : Impl) (id : RequestId) (r : RequestRec)
    (now : TimePoint) : InPlace s (s.cancelOutside id r now) where
  requests := map_getElem?_modify (fun _ => by rfl) s.requests id
  attempts aid := isSome_modify s.attempts r.currentAttempt aid _
  batches _ := rfl
  shrinking := everywhere_shrunkFrom _
  nextRequest := rfl
  nextAttempt := rfl
  nextBatch := rfl
  queued := by
    intro key other queued
    unfold Impl.cancelOutside bucket at queued
    dsimp only at queued
    split at queued
    · exact mem_bucket_of_remove queued
    · exact queued
  registered := rfl
  order := rfl

theorem InPlace.cancelForming (policy : BatchPolicy) (s : Impl)
    (id : RequestId) (r : RequestRec) (now : TimePoint) :
    InPlace s (s.cancelForming policy id r now) where
  requests := map_getElem?_modify (fun _ => by rfl) s.requests id
  attempts aid := isSome_modify s.attempts r.currentAttempt aid _
  batches := map_getElem?_modify (fun _ => by rfl) s.batches r.batch
  shrinking := everywhere_shrunkFrom_modify s r.batch
    (fun _ => List.filter_sublist) (fun _ _ => Nat.le_refl _)
  nextRequest := rfl
  nextAttempt := rfl
  nextBatch := rfl
  queued _ _ queued := queued
  registered := rfl
  order := rfl

theorem InPlace.cancelAfterSeal (s : Impl) (id : RequestId) (r : RequestRec)
    (now : TimePoint) : InPlace s (s.cancelAfterSeal id r now) where
  requests := map_getElem?_modify (fun _ => by rfl) s.requests id
  attempts aid := isSome_modify s.attempts r.currentAttempt aid _
  batches := map_getElem?_modify (fun _ => by rfl) s.batches r.batch
  shrinking := everywhere_shrunkFrom_modify s r.batch
    (fun _ => List.Sublist.refl _) (fun _ _ => Nat.le_refl _)
  nextRequest := rfl
  nextAttempt := rfl
  nextBatch := rfl
  queued _ _ queued := queued
  registered := rfl
  order := rfl

theorem fixed_advance (source target : RequestState) (r : RequestRec) :
    (r.advance source target).fixed = r.fixed := by
  unfold RequestRec.advance
  split <;> rfl

theorem fixed_conclude (r : RequestRec) (mc : MemberCompletion)
    (state : RequestState) : (r.conclude mc state).fixed = r.fixed := by
  unfold RequestRec.conclude
  split <;> rfl

theorem state_conclude (r : RequestRec) (mc : MemberCompletion)
    (state : RequestState) : (r.conclude mc state).state = state := by
  unfold RequestRec.conclude
  split <;> rfl

/-- What an outcome leaves of a batch record. -/
theorem conclude_listing (b : BatchRec) (mc : MemberCompletion) :
    (b.conclude mc).fixed = b.fixed ∧ (b.conclude mc).members = b.members ∧
      (b.conclude mc).state = b.state ∧
      (b.conclude mc).descriptor = b.descriptor := by
  unfold BatchRec.conclude
  dsimp only
  split <;> exact ⟨rfl, rfl, rfl, rfl⟩

theorem InPlace.endRequest (s : Impl) (id : RequestId) (r : RequestRec)
    (status : CompletionStatus) (state : RequestState) (now : TimePoint)
    (stats : BatchStats) :
    InPlace s { s with
      requests := s.requests.modify id fun r =>
        { r with state := state, inWaiting := false }
      attempts := s.attempts.modify r.currentAttempt fun a =>
        a.finish state status now
      stats := stats } where
  requests := map_getElem?_modify (fun _ => by rfl) s.requests id
  attempts aid := isSome_modify s.attempts r.currentAttempt aid _
  batches _ := rfl
  shrinking := everywhere_shrunkFrom _
  nextRequest := rfl
  nextAttempt := rfl
  nextBatch := rfl
  queued _ _ queued := queued
  registered := rfl
  order := rfl

theorem InPlace.dequeue (s : Impl) (key : CompatibilityKey) (id : RequestId) :
    InPlace s { s with waitingIndex := s.waitingIndex.remove key id } where
  requests _ := rfl
  attempts _ := rfl
  batches _ := rfl
  shrinking := everywhere_shrunkFrom _
  nextRequest := rfl
  nextAttempt := rfl
  nextBatch := rfl
  queued _ _ queued := mem_bucket_of_remove queued
  registered := rfl
  order := rfl

theorem InPlace.conclude (s : Impl) (r : RequestRec) (mc : MemberCompletion)
    (state : RequestState) (now : TimePoint) (fairness : FairnessController)
    (stats : BatchStats) :
    InPlace s { s.conclude r mc state now with
      fairness := fairness, stats := stats } where
  requests := map_getElem?_modify
    (fun value => fixed_conclude value mc state) s.requests mc.request
  attempts aid := isSome_modify s.attempts r.currentAttempt aid _
  batches := map_getElem?_modify
    (fun value => (conclude_listing value mc).1) s.batches r.batch
  shrinking := everywhere_shrunkFrom_modify s r.batch
    (fun b => by rw [(conclude_listing b mc).2.1])
    (fun b _ => by rw [(conclude_listing b mc).2.2.1])
  nextRequest := rfl
  nextAttempt := rfl
  nextBatch := rfl
  queued _ _ queued := queued
  registered := rfl
  order := rfl

theorem InPlace.markDispatched {s : Impl} {bid : BatchId} {b : BatchRec}
    (found : s.batches[bid]? = some b) (isSealed : b.state = .sealed)
    (worker : WorkerId) (boot : WorkerBootId) (now : TimePoint) :
    InPlace s (s.markDispatched bid b worker boot now) where
  requests := map_getElem?_modifyAll
    (fixed_advance .batched .dispatched) s.requests b.members
  attempts _ := rfl
  batches := map_getElem?_modify (fun _ => by rfl) s.batches bid
  shrinking := everywhere_shrunkFrom_modify s bid
    (fun _ => List.Sublist.refl _)
    (stage_of_found found 2 (by rw [isSealed]; decide))
  nextRequest := rfl
  nextAttempt := rfl
  nextBatch := rfl
  queued _ _ queued := queued
  registered := rfl
  order := rfl

theorem InPlace.markRunning {s : Impl} {bid : BatchId} {b : BatchRec}
    (found : s.batches[bid]? = some b) (dispatched : b.state = .dispatched) :
    InPlace s (s.markRunning bid b) where
  requests := map_getElem?_modifyAll
    (fixed_advance .dispatched .running) s.requests b.members
  attempts _ := rfl
  batches := map_getElem?_modify (fun _ => by rfl) s.batches bid
  shrinking := everywhere_shrunkFrom_modify s bid
    (fun _ => List.Sublist.refl _)
    (stage_of_found found 3 (by rw [dispatched]; decide))
  nextRequest := rfl
  nextAttempt := rfl
  nextBatch := rfl
  queued _ _ queued := queued
  registered := rfl
  order := rfl

theorem InPlace.retime (s : Impl) (bid : BatchId)
    {change : BatchRec → BatchRec}
    (fixed : ∀ b, (change b).fixed = b.fixed)
    (listing : ∀ b, (change b).members = b.members)
    (state : ∀ b, (change b).state = b.state) :
    InPlace s { s with batches := s.batches.modify bid change } where
  requests _ := rfl
  attempts _ := rfl
  batches := map_getElem?_modify fixed s.batches bid
  shrinking := everywhere_shrunkFrom_modify s bid
    (fun b => by rw [listing b]) (fun b _ => by rw [state b])
  nextRequest := rfl
  nextAttempt := rfl
  nextBatch := rfl
  queued _ _ queued := queued
  registered := rfl
  order := rfl

theorem InPlace.supersede (s : Impl) (bid : BatchId) :
    InPlace s { s with
      batches := s.batches.modify bid fun b =>
        { b with state := .superseded } } where
  requests _ := rfl
  attempts _ := rfl
  batches := map_getElem?_modify (fun _ => by rfl) s.batches bid
  shrinking := everywhere_shrunkFrom_modify s bid
    (fun _ => List.Sublist.refl _) (fun b _ => b.state.stage_le)
  nextRequest := rfl
  nextAttempt := rfl
  nextBatch := rfl
  queued _ _ queued := queued
  registered := rfl
  order := rfl

theorem InPlace.finishBatch {s : Impl} {bid : BatchId} {b : BatchRec}
    (found : s.batches[bid]? = some b)
    (inFlight : b.state = .dispatched ∨ b.state = .running)
    (worker : WorkerId) (now : TimePoint) :
    InPlace s (s.finishBatch bid worker now) := by
  have flying : b.state.stage ≤ 4 := by
    rcases inFlight with state | state
    · rw [state]
      decide
    · rw [state]
      decide
  obtain unchanged | ⟨_, stats, workers, _, ⟨_, closed⟩ | ⟨_, closed⟩⟩ :=
    finishBatch_cases s bid worker now
  · rw [unchanged]
    exact {}
  · rw [closed]
    exact {
      batches := map_getElem?_modify (fun _ => by rfl) s.batches bid
      shrinking := everywhere_shrunkFrom_modify s bid
        (fun _ => List.Sublist.refl _) (fun b _ => b.state.stage_le) }
  · rw [closed]
    exact {
      batches := map_getElem?_modify (fun _ => by rfl) s.batches bid
      shrinking := everywhere_shrunkFrom_modify s bid
        (fun _ => List.Sublist.refl _) (stage_of_found found 4 flying) }

/-! Creation. Fresh identifiers lie above all known ones. -/

theorem WellFormed.no_request {s : Impl} (wellFormed : WellFormed s) :
    s.requests[({ value := s.nextRequest } : RequestId)]? = none := by
  cases found : s.requests[({ value := s.nextRequest } : RequestId)]? with
  | none => rfl
  | some r =>
      exact absurd (wellFormed.request _ r found).2 (Nat.lt_irrefl _)

/-- No batch lists a request that is yet to come. -/
theorem WellFormed.ne_of_member {s : Impl} (wellFormed : WellFormed s)
    {bid : BatchId} {b : BatchRec} (found : s.batches[bid]? = some b)
    {m : RequestId} (member : m ∈ b.members) :
    ({ value := s.nextRequest } : RequestId) ≠ m := by
  rintro rfl
  obtain ⟨r, known⟩ := wellFormed.found_member found member
  rw [wellFormed.no_request] at known
  cases known

theorem WellFormed.no_batch {s : Impl} (wellFormed : WellFormed s)
    {bid : BatchId} (fresh : s.nextBatch ≤ bid.value) :
    s.batches[bid]? = none := by
  cases found : s.batches[bid]? with
  | none => rfl
  | some b =>
      exact absurd (wellFormed.batch _ b found).2.2 (Nat.not_lt.mpr fresh)

theorem WellFormed.unlisted {s : Impl} (wellFormed : WellFormed s)
    {bid : BatchId} (fresh : s.nextBatch ≤ bid.value) :
    bid ∉ s.sealedOrder := by
  intro listed
  obtain ⟨b, found, _⟩ := wellFormed.ordered bid listed
  rw [wellFormed.no_batch fresh] at found
  cases found

/-- A new record changes the key of no known request. -/
theorem keyOf?_insert {s : Impl} (wellFormed : WellFormed s) (r : RequestRec)
    {id : RequestId} {key : CompatibilityKey} (known : s.keyOf? id = some key) :
    ((s.requests.insert { value := s.nextRequest } r)[id]?).map (·.key) =
      some key := by
  rw [getElem?_insert]
  split
  · next same =>
      subst same
      unfold keyOf? at known
      rw [wellFormed.no_request] at known
      cases known
  · exact known

theorem WellFormed.createRequest {s : Impl} (wellFormed : WellFormed s)
    (metadata : RequestMetadata) (now : TimePoint)
    (state attemptState : RequestState) (outcome : CompletionStatus)
    (inWaiting : Bool) :
    WellFormed (s.createRequest metadata now state attemptState outcome
      inWaiting) where
  request := (wellFormed.request.imp fun _ _ _ known =>
    ⟨known.1, Nat.lt_succ_of_lt known.2⟩).insert ⟨rfl, Nat.lt_succ_self _⟩
  attempt := (wellFormed.attempt.imp fun _ _ _ known =>
    Nat.lt_succ_of_lt known).insert (Nat.lt_succ_self _)
  batch := wellFormed.batch
  allocating := wellFormed.allocating
  member := wellFormed.member.imp fun _ _ _ known m member =>
    keyOf?_insert wellFormed _ (known m member)
  queued key id queued :=
    keyOf?_insert wellFormed _ (wellFormed.queued key id queued)
  registered := wellFormed.registered
  orderedOnce := wellFormed.orderedOnce
  ordered := wellFormed.ordered

theorem WellFormed.enqueue {s : Impl} (wellFormed : WellFormed s)
    {key : CompatibilityKey} {id : RequestId}
    (keyed : s.keyOf? id = some key) :
    WellFormed { s with waitingIndex := s.waitingIndex.add key id } :=
  { wellFormed with
    queued := by
      intro other member queued
      unfold bucket at queued
      dsimp only at queued
      rw [CompatibilityIndex.bucketOf_add] at queued
      split at queued
      · next same =>
          subst same
          rcases List.mem_append.mp queued with before | new
          · exact wellFormed.queued key member before
          · rw [List.mem_singleton.mp new]
            exact keyed
      · exact wellFormed.queued other member queued }

/-- Counters, fairness totals, workers and the epoch do not matter. -/
theorem WellFormed.of_counters {s : Impl} (wellFormed : WellFormed s)
    (fairness : FairnessController) (epoch : BatchEpoch)
    (workers : Map WorkerId WorkerRec) (stats : BatchStats) :
    WellFormed { s with
      fairness := fairness, epoch := epoch, workers := workers,
      stats := stats } :=
  { wellFormed with }

theorem WellFormed.doSubmit {s : Impl} (wellFormed : WellFormed s)
    (policy : BatchPolicy) (metadata : RequestMetadata) (now : TimePoint) :
    WellFormed (s.doSubmit policy metadata now).2 := by
  obtain ⟨stats, unrecorded⟩ |
      ⟨_, ⟨state, outcome, stats, _, unqueued⟩ | ⟨fairness, stats, queued⟩⟩ :=
    doSubmit_cases policy s metadata now
  · rw [unrecorded]
    exact wellFormed.of_counters _ _ _ _
  · rw [unqueued]
    exact (wellFormed.createRequest metadata now state state outcome
      false).of_counters _ _ _ _
  · rw [queued]
    have created := wellFormed.createRequest metadata now .eligible .eligible
      .success true
    have keyed : (s.createRequest metadata now .eligible .eligible .success
        true).keyOf? { value := s.nextRequest } =
          some (CompatibilityKey.build metadata.descriptor) := by
      unfold keyOf? Impl.createRequest
      dsimp only
      rw [getElem?_insert, if_pos rfl]
      rfl
    exact (created.enqueue keyed).of_counters _ _ _ _

theorem WellFormed.requeue {s : Impl} (wellFormed : WellFormed s)
    {r : RequestRec} (keyed : s.keyOf? r.id = some r.key) (id : RequestId)
    (number : UInt32) : WellFormed (s.requeue id r number) := by
  let cleared : Impl := { s with
    requests := s.requests.modify id fun r =>
      { r with
        currentAttempt := { value := s.nextAttempt }
        attempts := r.attempts ++ [{ value := s.nextAttempt }]
        state := .eligible
        batch := .null
        inWaiting := true } }
  have inPlace : InPlace s cleared := {
    requests := map_getElem?_modify (fun _ => by rfl) s.requests id }
  have keyedStill : cleared.keyOf? r.id = some r.key := by
    rw [keyOf?_eq_of_fixed inPlace.requests]
    exact keyed
  have queued := (wellFormed.inPlace inPlace).enqueue keyedStill
  exact {
    request := queued.request
    attempt := (wellFormed.attempt.imp fun _ _ _ known =>
      Nat.lt_succ_of_lt known).insert (Nat.lt_succ_self _)
    batch := queued.batch
    allocating := queued.allocating
    member := queued.member
    queued := queued.queued
    registered := queued.registered
    orderedOnce := queued.orderedOnce
    ordered := queued.ordered }

/-- Writing a batch record under a new identifier or over a batch of its
key. -/
theorem WellFormed.insertBatch {s : Impl} (wellFormed : WellFormed s)
    {bid : BatchId} {b : BatchRec} {next : Nat} (named : b.id = bid)
    (allocated : 0 < bid.value ∧ bid.value < next)
    (grows : s.nextBatch ≤ next)
    (keyed : ∀ m ∈ b.members, s.keyOf? m = some b.key)
    (same : ∀ before, s.batches[bid]? = some before → before.key = b.key)
    (closed : bid ∈ s.sealedOrder → b.state ≠ .forming) :
    WellFormed { s with
      batches := s.batches.insert bid b, nextBatch := next } where
  request := wellFormed.request
  attempt := wellFormed.attempt
  batch := (wellFormed.batch.imp fun _ _ _ known =>
    ⟨known.1, known.2.1, Nat.lt_of_lt_of_le known.2.2 grows⟩).insert
      ⟨named, allocated⟩
  allocating := Nat.lt_of_lt_of_le wellFormed.allocating grows
  member := wellFormed.member.insert keyed
  queued := wellFormed.queued
  registered := wellFormed.registered.imp <| by
    intro key other _ known
    dsimp only
    rw [getElem?_insert]
    split
    · next equal =>
        subst equal
        obtain ⟨before, found, sameKey⟩ := Option.map_eq_some_iff.mp known
        rw [Option.map_some, ← same before found, sameKey]
    · exact known
  orderedOnce := wellFormed.orderedOnce
  ordered := by
    intro other listed
    dsimp only
    rw [getElem?_insert]
    split
    · next equal =>
        subst equal
        exact ⟨b, rfl, closed listed⟩
    · exact wellFormed.ordered other listed

theorem WellFormed.insertFresh {s : Impl} (wellFormed : WellFormed s)
    {b : BatchRec} (fresh : b.id = { value := s.nextBatch })
    (keyed : ∀ m ∈ b.members, s.keyOf? m = some b.key) :
    WellFormed { s with
      batches := s.batches.insert { value := s.nextBatch } b
      nextBatch := s.nextBatch + 1 } := by
  apply wellFormed.insertBatch fresh
  · exact ⟨wellFormed.allocating, Nat.lt_succ_self _⟩
  · exact Nat.le_succ _
  · exact keyed
  · intro before found
    rw [wellFormed.no_batch (Nat.le_refl _)] at found
    cases found
  · exact fun listed => absurd listed (wellFormed.unlisted (Nat.le_refl _))

/-- Rewriting a batch record in place, possibly with other members. -/
theorem WellFormed.replaceBatch {s : Impl} (wellFormed : WellFormed s)
    {bid : BatchId} {before b : BatchRec}
    (found : s.batches[bid]? = some before) (fixed : b.fixed = before.fixed)
    (keyed : ∀ m ∈ b.members, s.keyOf? m = some b.key)
    (closed : b.state = .forming → before.state = .forming) :
    WellFormed { s with batches := s.batches.insert bid b } := by
  have known := wellFormed.batch bid before found
  have sameId : b.id = before.id := congrArg (·.1) fixed
  have sameKey : b.key = before.key := congrArg (·.2.1) fixed
  apply wellFormed.insertBatch (sameId.trans known.1) known.2 (Nat.le_refl _)
    keyed
  · intro other at_bid
    rw [found] at at_bid
    cases at_bid
    exact sameKey.symm
  · intro listed forming
    obtain ⟨other, at_bid, notForming⟩ := wellFormed.ordered bid listed
    rw [found] at at_bid
    cases at_bid
    exact notForming (closed forming)

theorem WellFormed.register {s : Impl} (wellFormed : WellFormed s)
    {key : CompatibilityKey} {bid : BatchId}
    (keyed : (s.batches[bid]?).map (·.key) = some key) :
    WellFormed { s with formingByKey := s.formingByKey.insert key bid } :=
  { wellFormed with registered := wellFormed.registered.insert keyed }

theorem WellFormed.openForming {s : Impl} (wellFormed : WellFormed s)
    (key : CompatibilityKey) (now : TimePoint) :
    WellFormed (s.openForming key now) := by
  have opened := wellFormed.insertFresh (b := s.newForming key now) rfl
    fun _ member => nomatch member
  have keyed : ((s.batches.insert { value := s.nextBatch }
      (s.newForming key now))[({ value := s.nextBatch } : BatchId)]?).map
        (·.key) = some key := by
    rw [getElem?_insert, if_pos rfl]
    rfl
  exact { opened.register keyed with }

theorem WellFormed.place {s : Impl} (wellFormed : WellFormed s)
    {bid : BatchId} {key : CompatibilityKey} {pick : RequestId}
    (keyed : (s.batches[bid]?).map (·.key) = some key)
    (queued : pick ∈ s.bucket key) : WellFormed (s.place bid key pick) := by
  have pickKeyed := wellFormed.queued key pick queued
  obtain ⟨r, found, sameKey⟩ := Option.map_eq_some_iff.mp pickKeyed
  rw [place_eq found]
  let joined : Impl := { s with
    batches := s.batches.modify bid fun b => b.addMember pick r.metadata }
  have joinedFormed : WellFormed joined := {
    request := wellFormed.request
    attempt := wellFormed.attempt
    batch := wellFormed.batch.modify fun _ _ known => known
    allocating := wellFormed.allocating
    member := wellFormed.member.modify <| by
      intro b at_bid known m member
      rw [at_bid] at keyed
      rcases List.mem_append.mp member with before | new
      · exact known m before
      · rw [List.mem_singleton.mp new]
        exact pickKeyed.trans keyed.symm
    queued := wellFormed.queued
    registered := wellFormed.registered.imp fun _ other _ known =>
      (map_getElem?_modify (fun _ => by rfl) s.batches bid other).trans known
    orderedOnce := wellFormed.orderedOnce
    ordered := by
      intro other listed
      obtain ⟨b, at_other, closed⟩ := wellFormed.ordered other listed
      show ∃ b, (s.batches.modify bid _)[other]? = some b ∧ _
      rw [getElem?_modify]
      split
      · exact ⟨b.addMember pick r.metadata, by rw [at_other]; rfl, closed⟩
      · exact ⟨b, at_other, closed⟩ }
  have reserved : InPlace joined { joined with
      requests := s.requests.modify pick fun r => r.reserve bid
      waitingIndex := s.waitingIndex.remove key pick } := {
    requests := map_getElem?_modify (fun _ => by rfl) s.requests pick
    queued := fun _ _ queued => mem_bucket_of_remove queued }
  exact (joinedFormed.inPlace reserved).of_counters _ _ _ _

/-! Reshaping. -/

theorem shrunkFrom_sealForming {s : Impl} {bid : BatchId} {b : BatchRec}
    (found : s.batches[bid]? = some b) (forming : b.state = .forming)
    (reason : SealReason) (now : TimePoint) :
    Everywhere (s.sealForming bid b reason now).batches (ShrunkFrom s) :=
  everywhere_shrunkFrom_modify s bid (fun _ => List.Sublist.refl _)
    (stage_of_found found 1 (by rw [forming]; decide))

theorem WellFormed.sealForming {s : Impl} (wellFormed : WellFormed s)
    {bid : BatchId} {b : BatchRec} (found : s.batches[bid]? = some b)
    (forming : b.state = .forming) (reason : SealReason) (now : TimePoint) :
    WellFormed (s.sealForming bid b reason now) := by
  let closed : Impl := { s with
    batches := s.batches.modify bid fun b =>
      { b with state := .sealed, sealReason := reason, sealedNs := now }
    requests := modifyAll s.requests b.members
      (RequestRec.advance .reserved .batched) }
  have inPlace : InPlace s closed := {
    requests := map_getElem?_modifyAll
      (fixed_advance .reserved .batched) s.requests b.members
    batches := map_getElem?_modify (fun _ => by rfl) s.batches bid
    shrinking := shrunkFrom_sealForming found forming reason now }
  have closedFormed := wellFormed.inPlace inPlace
  have unordered : bid ∉ s.sealedOrder := by
    intro listed
    obtain ⟨before, at_bid, notForming⟩ := wellFormed.ordered bid listed
    rw [found] at at_bid
    cases at_bid
    exact notForming forming
  exact {
    request := closedFormed.request
    attempt := closedFormed.attempt
    batch := closedFormed.batch
    allocating := closedFormed.allocating
    member := closedFormed.member
    queued := closedFormed.queued
    registered := closedFormed.registered.erase b.key
    orderedOnce := List.nodup_append.mpr
      ⟨wellFormed.orderedOnce, List.nodup_singleton bid, by
        intro other listed last member same
        rw [List.mem_singleton.mp member] at same
        exact unordered (same ▸ listed)⟩
    ordered := by
      intro other listed
      rcases List.mem_append.mp listed with before | last
      · exact closedFormed.ordered other before
      · rw [List.mem_singleton.mp last]
        refine ⟨{ b with
          state := .sealed, sealReason := reason, sealedNs := now }, ?_, nofun⟩
        show (s.batches.modify bid _)[bid]? = _
        rw [getElem?_modify, if_pos rfl, found]
        rfl }

/-- The members of the two halves are those of the batch. -/
theorem mem_halves {b : BatchRec} {m : RequestId}
    (member : m ∈ firstHalf b ∨ m ∈ secondHalf b) : m ∈ b.members := by
  rcases member with first | second
  · exact List.mem_of_mem_take first
  · exact List.mem_of_mem_drop second

theorem keyOf?_splitRequests (s : Impl) (bid child : BatchId) (b : BatchRec)
    (m : RequestId) :
    ((s.splitRequests bid child b)[m]?).map (·.key) = s.keyOf? m := by
  unfold splitRequests
  rw [map_getElem?_modifyAll (fun _ => by rfl),
    map_getElem?_modifyAll (fun _ => by rfl)]
  rfl

theorem fixed_splitRequests (s : Impl) (bid child : BatchId) (b : BatchRec)
    (m : RequestId) :
    ((s.splitRequests bid child b)[m]?).map RequestRec.fixed =
      (s.requests[m]?).map RequestRec.fixed := by
  unfold splitRequests
  rw [map_getElem?_modifyAll (fun _ => by rfl),
    map_getElem?_modifyAll (fun _ => by rfl)]

theorem WellFormed.setBatches {s : Impl} (wellFormed : WellFormed s)
    (bid child : BatchId) (b : BatchRec) :
    WellFormed { s with requests := s.splitRequests bid child b } :=
  wellFormed.inPlace { requests := fixed_splitRequests s bid child b }

theorem WellFormed.splitOpen {s : Impl} (wellFormed : WellFormed s)
    {bid : BatchId} {b : BatchRec} (found : s.batches[bid]? = some b) :
    WellFormed (s.splitOpen bid b) := by
  have members := wellFormed.member bid b found
  let child : BatchId := { value := s.nextBatch }
  let requests := s.splitRequests bid child b
  have moved := wellFormed.setBatches bid child b
  have keyed : ∀ m ∈ b.members,
      ({ s with requests := requests } : Impl).keyOf? m = some b.key :=
    fun m member => (keyOf?_splitRequests s bid child b m).trans
      (members m member)
  have parent := moved.replaceBatch found
    (b := splitParent requests child b) rfl
    (fun m member => keyed m (mem_halves (.inl member)))
    (fun forming => forming)
  have both := parent.insertFresh (b := splitChild requests bid child b) rfl
    (fun m member => keyed m (mem_halves (.inr member)))
  have registered : (((s.batches.insert bid
      (splitParent requests child b)).insert child
        (splitChild requests bid child b))[bid]?).map (·.key) =
          some b.key := by
    rw [getElem?_insert]
    split
    · rfl
    · rw [getElem?_insert, if_pos rfl]
      rfl
  exact { both.register registered with }

theorem WellFormed.splitSealed {s : Impl} (wellFormed : WellFormed s)
    {bid : BatchId} {b : BatchRec} (found : s.batches[bid]? = some b) :
    WellFormed (s.splitSealed bid b) := by
  have members := wellFormed.member bid b found
  let child : BatchId := { value := s.nextBatch }
  let firstid : BatchId := { value := s.nextBatch + 1 }
  let requests := s.splitRequests bid child b
  let parent := splitParent requests child b
  have moved := wellFormed.setBatches bid child b
  have keyed : ∀ m ∈ b.members,
      ({ s with requests := requests } : Impl).keyOf? m = some b.key :=
    fun m member => (keyOf?_splitRequests s bid child b m).trans
      (members m member)
  have superseded := moved.replaceBatch found
    (b := { parent with
      state := .superseded, children := parent.children ++ [firstid] }) rfl
    (fun m member => keyed m (mem_halves (.inl member))) nofun
  have second := superseded.insertFresh
    (b := { splitChild requests bid child b with
      parents := [bid] ++ [firstid] }) rfl
    (fun m member => keyed m (mem_halves (.inr member)))
  have first := second.insertFresh
    (b := splitFirst requests bid firstid child parent) rfl
    (fun m member => keyed m (mem_halves (.inl member)))
  have unlisted : ({ value := s.nextBatch + 1 } : BatchId) ∉ s.sealedOrder :=
    wellFormed.unlisted (Nat.le_succ _)
  exact { first with
    orderedOnce := List.nodup_append.mpr
      ⟨wellFormed.orderedOnce.erase bid, List.nodup_singleton firstid, by
        intro other listed last member same
        rw [List.mem_singleton.mp member] at same
        exact unlisted (same ▸ List.mem_of_mem_erase listed)⟩
    ordered := by
      intro other listed
      rcases List.mem_append.mp listed with before | last
      · exact first.ordered other (List.mem_of_mem_erase before)
      · rw [List.mem_singleton.mp last]
        refine ⟨splitFirst requests bid firstid child parent, ?_, nofun⟩
        show (Std.ExtTreeMap.insert _ firstid _)[firstid]? = _
        rw [getElem?_insert, if_pos rfl] }

theorem WellFormed.mergeInto {s : Impl} (wellFormed : WellFormed s)
    {aid bid : BatchId} {a b : BatchRec} (foundA : s.batches[aid]? = some a)
    (foundB : s.batches[bid]? = some b) (sameKey : a.key = b.key) :
    WellFormed (s.mergeInto aid bid a b) := by
  let requests := modifyAll s.requests b.members (RequestRec.setBatch aid)
  have moved : WellFormed { s with requests := requests } :=
    wellFormed.inPlace {
      requests := map_getElem?_modifyAll (fun _ => by rfl) s.requests
        b.members }
  have keyed : ∀ m ∈ a.members ++ b.members,
      ({ s with requests := requests } : Impl).keyOf? m = some a.key := by
    intro m member
    have same : ({ s with requests := requests } : Impl).keyOf? m =
        s.keyOf? m :=
      map_getElem?_modifyAll (fun _ => by rfl) s.requests b.members m
    rw [same]
    rcases List.mem_append.mp member with ofA | ofB
    · exact wellFormed.member aid a foundA m ofA
    · rw [sameKey]
      exact wellFormed.member bid b foundB m ofB
  have target := moved.replaceBatch foundA
    (b := mergeTarget requests bid a b) rfl keyed (fun forming => forming)
  let merged : Impl := { s with
    requests := requests
    batches := (s.batches.insert aid (mergeTarget requests bid a b)).modify
      bid fun b => { b with state := .superseded } }
  have superseded : WellFormed merged :=
    target.inPlace (InPlace.supersede _ bid)
  have targetKey : (merged.batches[aid]?).map (·.key) = some b.key := by
    show (((s.batches.insert aid (mergeTarget requests bid a b)).modify
      bid fun b => { b with state := .superseded })[aid]?).map (·.key) = _
    rw [map_getElem?_modify (fun _ => by rfl), getElem?_insert, if_pos rfl]
    exact congrArg some sameKey
  have reordered : WellFormed { merged with
      sealedOrder := s.sealedOrder.filter (· ≠ bid) } := {
    superseded with
    orderedOnce := wellFormed.orderedOnce.filter _
    ordered := fun other listed =>
      superseded.ordered other (List.mem_of_mem_filter listed) }
  unfold Impl.mergeInto
  dsimp only
  split
  · exact { reordered.register targetKey with }
  · exact { reordered with }

end Impl

end BatchFabric
