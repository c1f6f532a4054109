import BatchFabric.Safety.Membership
import BatchFabric.Scheduler.KnownKeys

namespace BatchFabric.Impl

open OrderedMap

/-! No request is a member of two batches that have not ended. -/

structure MembersDistinct (s : Impl) : Prop where
  once : Everywhere s.batches fun _ b =>
    isBatchTerminal b.state = false → b.members.Nodup
  apart : ∀ (bid bid' : BatchId) (b b' : BatchRec), bid ≠ bid' →
    s.batches[bid]? = some b → s.batches[bid']? = some b' →
    isBatchTerminal b.state = false → isBatchTerminal b'.state = false →
    List.Disjoint b.members b'.members

theorem active_iff (state : BatchState) :
    isBatchTerminal state = false ↔ state.stage ≤ 4 := by
  cases state <;> decide

theorem membersDistinct_iff (s : Impl) :
    s.MembersDistinct ↔ ListedOnce 4 s := by
  constructor
  · rintro ⟨once, apart⟩
    constructor
    · intro bid b found reached
      exact once bid b found ((active_iff b.state).mpr reached)
    · rintro m bid bid' ⟨b, found, reached, member⟩
        ⟨b', found', reached', member'⟩
      by_contra different
      exact apart bid bid' b b' different found found'
        ((active_iff b.state).mpr reached) ((active_iff b'.state).mpr reached')
        member member'
  · rintro ⟨once, apart⟩
    constructor
    · intro bid b found active
      exact once bid b found ((active_iff b.state).mp active)
    · intro bid bid' b b' different found found' active active' m member
        member'
      exact different (apart m bid bid'
        ⟨b, found, (active_iff b.state).mp active, member⟩
        ⟨b', found', (active_iff b'.state).mp active', member'⟩)

/-- The filling may still place the request. -/
def Placeable (s : Impl) (now : TimePoint) (id : RequestId) : Prop :=
  ∃ r, s.requests[id]? = some r ∧ id ∈ s.bucket r.key ∧
    isWaitingState r.state = true ∧ r.metadata.deadline.expired now = false

/-- No batch that has not ended lists a request that may still be placed. -/
def PlacesUnlisted (s : Impl) (now : TimePoint) : Prop :=
  Everywhere s.requests fun id r =>
    id ∈ s.bucket r.key → isWaitingState r.state = true →
    r.metadata.deadline.expired now = false → s.Unlisted 4 id

instance (s : Impl) (now : TimePoint) : Decidable (s.PlacesUnlisted now) :=
  inferInstanceAs (Decidable (Everywhere _ _))

theorem placesUnlisted_iff {s : Impl} {now : TimePoint} :
    s.PlacesUnlisted now ↔ ∀ id, s.Placeable now id → s.Unlisted 4 id := by
  constructor
  · rintro unlisted id ⟨r, found, queued, waiting, live⟩
    exact unlisted id r found queued waiting live
  · intro unlisted id r found queued waiting live
    exact unlisted id ⟨r, found, queued, waiting, live⟩

/-- A record that waits was there before, and waited. -/
def WaitedBefore (s : Impl) (id : RequestId) (r' : RequestRec) : Prop :=
  isWaitingState r'.state = true → ∃ r, s.requests[id]? = some r ∧
    isWaitingState r.state = true ∧ r.fixed = r'.fixed

theorem everywhere_waitedBefore (s : Impl) :
    Everywhere s.requests (WaitedBefore s) :=
  fun _ r found waiting => ⟨r, found, waiting, rfl⟩

/-- The request is there and waits to be placed. -/
def Waits (s : Impl) (id : RequestId) : Prop :=
  ∃ r, s.requests[id]? = some r ∧ isWaitingState r.state = true

instance (s : Impl) (id : RequestId) : Decidable (s.Waits id) :=
  decidable_of_iff
    ((s.requests[id]?).any (fun r => isWaitingState r.state) = true)
    (Option.any_eq_true _ _)

theorem Waits.before {s s' : Impl} {id : RequestId}
    (waited : Everywhere s'.requests (WaitedBefore s)) (waits : s'.Waits id) :
    s.Waits id := by
  obtain ⟨r', found', waiting⟩ := waits
  obtain ⟨r, found, waiting, _⟩ := waited id r' found' waiting
  exact ⟨r, found, waiting⟩

/-- A change after which no more requests wait. -/
def Settles (change : RequestRec → RequestRec) : Prop :=
  ∀ r, (change r).fixed = r.fixed ∧
    (isWaitingState (change r).state = true → isWaitingState r.state = true)

theorem Settles.waitedBefore {change : RequestRec → RequestRec}
    (settles : Settles change) {s : Impl} {id : RequestId} {r : RequestRec}
    (before : WaitedBefore s id r) : WaitedBefore s id (change r) := by
  intro waiting
  obtain ⟨r', found, waited, fixed⟩ := before ((settles r).2 waiting)
  exact ⟨r', found, waited, fixed.trans (settles r).1.symm⟩

theorem Settles.modify {change : RequestRec → RequestRec}
    (settles : Settles change) (s : Impl) (id : RequestId) :
    Everywhere (s.requests.modify id change) (WaitedBefore s) :=
  (everywhere_waitedBefore s).modify fun _ _ => settles.waitedBefore

theorem Settles.modifyAll {change : RequestRec → RequestRec}
    (settles : Settles change) {s : Impl} {requests : Map RequestId RequestRec}
    (waited : Everywhere requests (WaitedBefore s)) (ids : List RequestId) :
    Everywhere (OrderedMap.modifyAll requests ids change) (WaitedBefore s) :=
  waited.modifyAll fun _ _ => settles.waitedBefore

theorem settles_end (state : RequestState)
    (elsewhere : isWaitingState state = false)
    (change : RequestRec → RequestRec) (fixed : ∀ r, (change r).fixed = r.fixed)
    (moved : ∀ r, (change r).state = state) : Settles change := by
  intro r
  refine ⟨fixed r, fun waiting => ?_⟩
  rw [moved r, elsewhere] at waiting
  cases waiting

theorem settles_setBatch (bid : BatchId) :
    Settles (RequestRec.setBatch bid) :=
  fun _ => ⟨rfl, fun waiting => waiting⟩

theorem settles_advance {source target : RequestState}
    (elsewhere : isWaitingState target = false) :
    Settles (RequestRec.advance source target) := by
  intro r
  refine ⟨fixed_advance source target r, ?_⟩
  unfold RequestRec.advance
  split
  · intro waiting
    dsimp only at waiting
    rw [elsewhere] at waiting
    cases waiting
  · exact fun waiting => waiting

theorem Placeable.before {s s' : Impl} {now : TimePoint} {id : RequestId}
    (placeable : s'.Placeable now id)
    (waited : Everywhere s'.requests (WaitedBefore s))
    (queued : ∀ key, ∀ id ∈ s'.bucket key, id ∈ s.bucket key) :
    s.Placeable now id := by
  obtain ⟨r', found', member, waiting, live⟩ := placeable
  obtain ⟨r, found, waited, fixed⟩ := waited id r' found' waiting
  have keys : r.key = r'.key := congrArg (·.2.2.2) fixed
  have metadata : r.metadata = r'.metadata := congrArg (·.2.1) fixed
  refine ⟨r, found, ?_, waited, ?_⟩
  · rw [keys]
    exact queued r'.key id member
  · rw [metadata]
    exact live

theorem PlacesUnlisted.of_fewer {s s' : Impl} {now : TimePoint}
    (places : s.PlacesUnlisted now)
    (waited : Everywhere s'.requests (WaitedBefore s))
    (queued : ∀ key, ∀ id ∈ s'.bucket key, id ∈ s.bucket key)
    (lists : ∀ id bid, s'.Placeable now id → s'.Lists 4 bid id →
      ∃ bid', s.Lists 4 bid' id) : s'.PlacesUnlisted now := by
  rw [placesUnlisted_iff] at places ⊢
  intro id placeable
  exact (places id (placeable.before waited queued)).of_lists
    fun bid => lists id bid placeable

namespace PlacesUnlisted

variable {s : Impl} {now : TimePoint}

theorem inPlace {s' : Impl} (places : s.PlacesUnlisted now)
    (kept : InPlace s s')
    (waited : Everywhere s'.requests (WaitedBefore s)) :
    s'.PlacesUnlisted now :=
  places.of_fewer waited kept.queued
    fun _ bid _ lists => ⟨bid, lists.of_shrunk kept.shrinking⟩

theorem doCancel (places : s.PlacesUnlisted now) (policy : BatchPolicy)
    (id : RequestId) (at' : TimePoint) :
    (s.doCancel policy id at').2.PlacesUnlisted now := by
  obtain unchanged | ⟨r, _, _, ⟨_, outside⟩ |
      ⟨_, b, _, ⟨_, forming⟩ | ⟨_, later⟩⟩⟩ := doCancel_cases policy s id at'
  · rw [unchanged]
    exact places
  · rw [outside]
    exact places.inPlace (InPlace.cancelOutside s id r at')
      ((settles_end .cancelled rfl _ (fun _ => by rfl)
        (fun _ => by rfl)).modify s id)
  · rw [forming]
    exact places.inPlace (InPlace.cancelForming policy s id r at')
      ((settles_end .cancelled rfl _ (fun _ => by rfl)
        (fun _ => by rfl)).modify s id)
  · rw [later]
    exact places.inPlace (InPlace.cancelAfterSeal s id r at')
      ((settles_end .cancelled rfl _ (fun _ => by rfl)
        (fun _ => by rfl)).modify s id)

theorem expireWaiting (places : s.PlacesUnlisted now) (at' : TimePoint)
    (id : RequestId) : (expireWaiting at' s id).PlacesUnlisted now := by
  have dequeued := fun r : RequestRec =>
    places.inPlace (InPlace.dequeue s r.key id) (everywhere_waitedBefore s)
  obtain unchanged | ⟨r, _, ⟨_, removed⟩ | ⟨_, stats, expired⟩⟩ :=
    expireWaiting_cases at' s id
  · rw [unchanged]
    exact places
  · rw [removed]
    exact dequeued r
  · rw [expired]
    exact (dequeued r).inPlace
      (InPlace.endRequest _ id r .expired .expired at' stats)
      ((settles_end .expired rfl _ (fun _ => by rfl)
        (fun _ => by rfl)).modify _ id)

theorem openForming (places : s.PlacesUnlisted now) (key : CompatibilityKey)
    (at' : TimePoint) : (s.openForming key at').PlacesUnlisted now :=
  places.of_fewer (everywhere_waitedBefore s) (fun _ _ queued => queued)
    fun _ bid _ lists => ⟨bid, ListedOnce.lists_openForming lists⟩

/-- The request placed no longer waits. -/
theorem place (places : s.PlacesUnlisted now) {pick : RequestId}
    {r : RequestRec} (request : s.requests[pick]? = some r) (bid : BatchId)
    (key : CompatibilityKey) : (s.place bid key pick).PlacesUnlisted now := by
  have requests : (s.place bid key pick).requests =
      s.requests.modify pick fun r => r.reserve bid := by
    rw [place_eq request]
  apply places.of_fewer
  · rw [requests]
    exact (settles_end .reserved rfl _ (fun _ => by rfl)
      (fun _ => by rfl)).modify s pick
  · intro other id queued
    rw [place_eq request] at queued
    exact mem_bucket_of_remove queued
  · intro id x placeable lists
    rcases ListedOnce.lists_place request lists with ⟨_, rfl⟩ | before
    · obtain ⟨r', found', _, waiting, _⟩ := placeable
      rw [requests, getElem?_modify_self request] at found'
      cases found'
      cases waiting
    · exact ⟨x, before⟩

theorem sealForming (places : s.PlacesUnlisted now) {bid : BatchId}
    {b : BatchRec} (found : s.batches[bid]? = some b)
    (forming : b.state = .forming) (reason : SealReason) (at' : TimePoint) :
    (s.sealForming bid b reason at').PlacesUnlisted now :=
  places.of_fewer
    ((settles_advance rfl).modifyAll (everywhere_waitedBefore s) b.members)
    (fun _ _ queued => queued)
    fun _ x _ lists =>
      ⟨x, lists.of_shrunk (shrunkFrom_sealForming found forming reason at')⟩

theorem splitSealed (places : s.PlacesUnlisted now) {bid : BatchId}
    {b : BatchRec} (found : s.batches[bid]? = some b)
    (isSealed : b.state = .sealed) :
    (s.splitSealed bid b).PlacesUnlisted now :=
  places.of_fewer
    ((settles_setBatch bid).modifyAll
      ((settles_setBatch _).modifyAll (everywhere_waitedBefore s) _) _)
    (fun _ _ queued => queued)
    fun _ _ _ lists =>
      ListedOnce.lists_splitSealed (by decide) found isSealed lists

theorem mergeInto (places : s.PlacesUnlisted now) {aid bid : BatchId}
    {a b : BatchRec} (foundA : s.batches[aid]? = some a)
    (foundB : s.batches[bid]? = some b) (states : a.state = b.state) :
    (s.mergeInto aid bid a b).PlacesUnlisted now := by
  apply places.of_fewer
  · exact (settles_setBatch aid).modifyAll (everywhere_waitedBefore s) b.members
  · exact fun _ _ queued => queued
  · intro id x _ lists
    rcases ListedOnce.lists_mergeInto (by decide) foundA foundB states
      lists with ⟨_, ofA | ofB⟩ | ⟨_, _, before⟩
    · exact ⟨aid, ofA⟩
    · exact ⟨bid, ofB⟩
    · exact ⟨x, before⟩

end PlacesUnlisted

/-- What a tick keeps, once no active batch lists a request that it may
place. -/
structure TicksApart (now : TimePoint) (s : Impl) : Prop where
  wellFormed : WellFormed s
  listed : ListedOnce 4 s
  places : s.PlacesUnlisted now

theorem TicksApart.tickRule (policy : BatchPolicy) (now : TimePoint) :
    TickRule policy now (TicksApart now) where
  wellFormed _ held := held.wellFormed
  expire s id held := {
    wellFormed := held.wellFormed.expireWaiting now id
    listed := held.listed.of_batches (batches_expireWaiting now s id)
    places := held.places.expireWaiting now id }
  cancel _ id held := {
    wellFormed := held.wellFormed.doCancel policy id now
    listed := held.listed.doCancel policy id now
    places := held.places.doCancel policy id now }
  openForming _ key held _ := {
    wellFormed := held.wellFormed.openForming key now
    listed := held.listed.openForming key now
    places := held.places.openForming key now }
  place s bid key pick b r held placing := by
    have formed := (WellFormed.tickRule policy now).place s bid key pick b r
      held.wellFormed placing
    have queued : pick ∈ s.bucket r.key := by
      rw [placing.requestKeyed held.wellFormed]
      exact placing.queued
    have unlisted : s.Unlisted 4 pick :=
      placesUnlisted_iff.mp held.places pick
        ⟨r, placing.request, queued, placing.waiting, placing.live⟩
    exact {
      wellFormed := formed
      listed := held.listed.place placing.request unlisted
      places := held.places.place placing.request bid key }
  retime s bid _ held retimes :=
    have kept := InPlace.of_retimes s bid retimes
    { wellFormed := held.wellFormed.inPlace kept
      listed := held.listed.shrink kept.shrinking
      places := held.places.inPlace kept (everywhere_waitedBefore s) }
  close _ _ _ reason held found forming := {
    wellFormed := held.wellFormed.sealForming found forming reason now
    listed := held.listed.shrink
      (shrunkFrom_sealForming found forming reason now)
    places := held.places.sealForming found forming reason now }
  merge _ _ _ _ _ held merging :=
    have states := merging.firstSealed.trans merging.secondSealed.symm
    { wellFormed := held.wellFormed.mergeInto merging.first merging.second
        merging.keyed
      listed := held.listed.mergeInto (by decide) merging.first merging.second
        states
      places := held.places.mergeInto merging.first merging.second states }

theorem TicksApart.doTick {s : Impl} {now : TimePoint}
    (held : TicksApart now s) (policy : BatchPolicy)
    (order : List CompatibilityKey) :
    TicksApart now (s.doTick policy order now) :=
  (tickRule policy now).doTick
    (fun _ _ b held found isSealed _ => {
      wellFormed := held.wellFormed.splitSealed found
      listed := held.listed.splitSealed (by decide) found
        (by rw [isSealed]; decide)
      places := held.places.splitSealed found isSealed })
    held order

theorem reached_of_splittable {b : BatchRec} (possible : splittable b = true) :
    b.state.stage ≤ 4 := by
  rw [← active_iff]
  unfold splittable at possible
  cases ended : isBatchTerminal b.state with
  | false => rfl
  | true => simp [ended] at possible

theorem ListedOnce.doSplit {s : Impl} (listed : ListedOnce 4 s)
    (bid : BatchId) : ListedOnce 4 (s.doSplit bid).2 := by
  obtain unchanged | ⟨b, found, possible, ⟨_, taken⟩ | ⟨_, taken⟩⟩ :=
    doSplit_cases s bid
  · rw [unchanged]
    exact listed
  · rw [taken]
    exact listed.splitSealed (by decide) found (reached_of_splittable possible)
  · rw [taken]
    exact listed.splitOpen found (reached_of_splittable possible)

theorem PlacesUnlisted.requeue {s : Impl} {now : TimePoint}
    (places : s.PlacesUnlisted now) {r : RequestRec}
    (unlisted : s.Unlisted 4 r.id) (number : UInt32) :
    (s.requeue r.id r number).PlacesUnlisted now := by
  rw [placesUnlisted_iff] at places ⊢
  rintro id ⟨r', found', queued, waiting, live⟩
  by_cases same : r.id = id
  · subst same
    exact unlisted
  · apply places id
    refine ⟨r', ?_, ?_, waiting, live⟩
    · unfold Impl.requeue at found'
      rwa [getElem?_modify, if_neg same] at found'
    · unfold bucket Impl.requeue at queued
      dsimp only at queued
      rw [CompatibilityIndex.bucketOf_add] at queued
      split at queued
      · rcases List.mem_append.mp queued with before | new
        · exact before
        · exact absurd (List.mem_singleton.mp new).symm same
      · exact queued

/-- No tick, nor the one that ends a retry, meets a request that it may place
and that a batch lists which has not ended. -/
def keepsApart (policy : BatchPolicy) (s : Impl) : Op → Bool
  | .tick _ now => decide (s.PlacesUnlisted now)
  | .retry request _ now =>
      !s.takesRetry policy request now ||
        decide (s.PlacesUnlisted now ∧ s.Unlisted 4 request)
  | _ => true

theorem ListedOnce.step {policy : BatchPolicy} {s : Impl}
    (wellFormed : WellFormed s) (listed : ListedOnce 4 s) {op : Op}
    (guarded : keepsApart policy s op = true) :
    ListedOnce 4 (step policy s op) := by
  cases op with
  | submit metadata now =>
      exact listed.of_batches (batches_doSubmit policy s metadata now)
  | cancel request now => exact listed.doCancel policy request now
  | complete completion now =>
      exact (recordRule policy now).reports.doComplete listed
        (allowsReport_always policy s completion now)
  | sealBatch batch reason now =>
      show ListedOnce 4 (s.sealBatch batch reason now).2
      obtain unchanged | ⟨b, found, forming, closed⟩ :=
        sealBatch_cases s batch reason now
      · rw [unchanged]
        exact listed
      · rw [closed]
        exact listed.shrink (shrunkFrom_sealForming found forming reason now)
  | split batch => exact listed.doSplit batch
  | merge a b =>
      show ListedOnce 4 (s.doMerge policy a b).2
      obtain unchanged | ⟨first, second, foundA, foundB, possible, merged⟩ :=
        doMerge_cases policy s a b
      · rw [unchanged]
        exact listed
      · rw [merged]
        exact listed.mergeInto (by decide) foundA foundB
          (canMerge_cases possible).2.2.1
  | retry request order now =>
      show ListedOnce 4 (s.doRetry policy request order now).2
      obtain ⟨err, refused⟩ | ⟨r, found, again, live, queued⟩ :=
        retryQueued_cases policy s request now
      · rw [doRetry_eq, refused]
        exact listed
      · have named : r.id = request :=
          (wellFormed.request request r found).1
        have guards : s.PlacesUnlisted now ∧ s.Unlisted 4 request := by
          simpa [keepsApart, takesRetry, found, again, live] using guarded
        have requeued : TicksApart now
            (s.requeue request r (s.attemptNumber r + 1)) := by
          subst named
          exact {
            wellFormed := wellFormed.requeue
              (wellFormed.keyed_of_found found) r.id _
            listed := listed.of_batches rfl
            places := guards.1.requeue guards.2 _ }
        rw [doRetry_eq, queued]
        exact (requeued.doTick policy order).listed
  | tick order now =>
      have held : TicksApart now s :=
        ⟨wellFormed, listed, of_decide_eq_true guarded⟩
      exact (held.doTick policy order).listed
  | expire order now =>
      exact kept_expireLocked (ListedOnce 4)
        (fun s id held => held.of_batches (batches_expireWaiting now s id))
        (fun _ id held => held.doCancel policy id now) listed order
  | dispatchAndRun batch executor now =>
      exact (recordRule policy now).reports.doDispatchAndRun listed
        (allowsRun_always policy s batch executor now)
  | prepareDispatch batch worker boot now =>
      exact (recordRule policy now).reports.prepareDispatch listed batch worker
        boot
  | registerWorker worker boot cap => exact listed.of_batches rfl
  | rollEpoch => exact listed.of_batches rfl

/-- No request is a member twice in any run whose ticks place only requests
that no active batch lists. -/
theorem membersDistinct_of_run (policy : BatchPolicy) (ops : List Op)
    (guarded : Transition.Along (BatchFabric.step policy)
      (fun s op => keepsApart policy s op = true) fresh ops) :
    (run policy ops).MembersDistinct := by
  have held : WellFormed (run policy ops) ∧ ListedOnce 4 (run policy ops) :=
    guarded.invariant (fun s => WellFormed s ∧ ListedOnce 4 s)
      (fun _ op _ held allowed =>
        ⟨held.1.step op, held.2.step held.1 allowed⟩)
      ⟨WellFormed.fresh, ListedOnce.fresh 4⟩
  exact (membersDistinct_iff _).mpr held.2

/-- A request cancelled out of a forming batch is retried and placed again. -/
theorem membersDistinct_of_retried :
    (run { constraints.minimumPreferredBatch := 3 }
      [.submit minimalRequest 0, .submit minimalRequest 0, .tick [] 1,
        .cancel { value := 1 } 2, .retry { value := 1 } [] 3,
        .split { value := 1 }]).MembersDistinct :=
  membersDistinct_of_run _ _ (by
    rw [step_eq_stepKnown .minimal]
    decide +kernel)

theorem not_membersDistinct_of_listed {s : Impl} {bid bid' : BatchId}
    (m : RequestId) (different : bid ≠ bid')
    (first : (s.batches[bid]?).any (fun b =>
      !isBatchTerminal b.state && b.members.contains m) = true)
    (second : (s.batches[bid']?).any (fun b =>
      !isBatchTerminal b.state && b.members.contains m) = true) :
    ¬ s.MembersDistinct := by
  intro distinct
  obtain ⟨b, found, listed⟩ := (Option.any_eq_true _ _).mp first
  obtain ⟨b', found', listed'⟩ := (Option.any_eq_true _ _).mp second
  rw [Bool.and_eq_true, Bool.not_eq_true', List.contains_iff_mem] at listed
  rw [Bool.and_eq_true, Bool.not_eq_true', List.contains_iff_mem] at listed'
  exact distinct.apart bid bid' b b' different found found' listed.1 listed'.1
    listed.2 listed'.2

/-- The member of a partially completed batch that is to be retried is placed
in a second batch while the first still lists it. -/
theorem not_membersDistinct_of_partial :
    ¬ (run {}
      [.submit minimalRequest 0, .tick [] 1,
        .prepareDispatch { value := 1 } .null .null 2,
        .complete {
          epoch := { value := 1 }, generation := { value := 1 }
          batch := { value := 1 }
          members := [{
            request := { value := 1 }, attempt := { value := 1 }
            status := .retryableFailure }] } 3,
        .tick [] 4]).MembersDistinct :=
  not_membersDistinct_of_listed { value := 1 }
    (by decide : ({ value := 1 } : BatchId) ≠ { value := 2 })
    (by
      rw [run_eq_runKnown .minimal]
      decide +kernel)
    (by
      rw [run_eq_runKnown .minimal]
      decide +kernel)

end BatchFabric.Impl
