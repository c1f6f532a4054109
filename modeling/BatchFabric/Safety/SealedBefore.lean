import BatchFabric.Safety.ClosedMembership
import BatchFabric.Safety.EmptySeal
import BatchFabric.Safety.SplitContract

namespace BatchFabric

open OrderedMap

/-! What a tick leaves of the batches that the registry cannot name, of those
past forming or at least of the sealed ones. Until it merges they stay as they
are, outcomes and times apart. A merge takes one along only with its neighbour
in the order of sealed batches of its key. -/

/-- What a merge looks at in a batch, and its members. -/
def BatchRec.standing (b : BatchRec) :
    CompatibilityKey × Phase × BatchState × BatchAccum × List RequestId :=
  (b.key, b.phase, b.state, b.accum, b.members)

namespace Impl

/-- Merging is on, and the counter of merges leaves room for one. -/
def mayMergeMore (policy : BatchPolicy) (s : Impl) : Bool :=
  policy.merge.enabled &&
    decide (s.stats.batchesMerged < policy.merge.maxMergesPerCycle.toUInt64)

/-- Requests of the key are queued, or a forming batch of it is registered. -/
def awaits (s : Impl) (key : CompatibilityKey) : Bool :=
  s.waitingIndex.contains key || s.formingByKey.contains key

/-- No batch that is sealed can be merged with one that is sealed already, or
that a tick may come to seal. -/
def absorbsNone (policy : BatchPolicy) (s : Impl) : Bool :=
  !s.mayMergeMore policy ||
    (s.mergePairs.all (fun pair => !s.mergeable policy pair) &&
      s.sealedOrder.all fun bid =>
        !s.isSealedBatch bid || !s.awaits (s.keyOfBatch bid))

theorem canMerge_congr {policy : BatchPolicy} {a b a' b' : BatchRec}
    (first : a'.standing = a.standing) (second : b'.standing = b.standing) :
    canMerge policy a' b' = canMerge policy a b := by
  unfold BatchRec.standing at first second
  simp only [Prod.mk.injEq] at first second
  obtain ⟨keyA, phaseA, stateA, accumA, _⟩ := first
  obtain ⟨keyB, phaseB, stateB, accumB, _⟩ := second
  unfold canMerge
  rw [keyA, phaseA, stateA, accumA, keyB, phaseB, stateB, accumB]

/-- Every batch that may not be registered stands as it did, and no merge has
been counted. -/
structure Stands (P : BatchState → Prop) (s s' : Impl) : Prop where
  wellFormed : WellFormed s'
  registered : s'.RegisteredAs P
  closed : Everywhere s.batches fun bid b => ¬ P b.state →
    (s'.batches[bid]?).map BatchRec.standing = some b.standing
  merged : s'.stats.batchesMerged = s.stats.batchesMerged

namespace Stands

variable {P : BatchState → Prop} {policy : BatchPolicy} {now : TimePoint}
  {s s' : Impl}

theorem refl (wellFormed : WellFormed s) (registered : s.RegisteredAs P) :
    Stands P s s :=
  ⟨wellFormed, registered, fun _ _ found _ => by rw [found, Option.map_some],
    rfl⟩

/-- The record of a batch that may not be registered. -/
theorem found (stands : Stands P s s') {bid : BatchId} {b : BatchRec}
    (before : s.batches[bid]? = some b) (closed : ¬ P b.state) :
    ∃ b', s'.batches[bid]? = some b' ∧ b'.standing = b.standing :=
  Option.map_eq_some_iff.mp (stands.closed bid b before closed)

/-- A batch that may be registered now could be before. -/
theorem ne_of_met (stands : Stands P s s') {bid other : BatchId}
    {b b' : BatchRec} (before : s.batches[other]? = some b)
    (closed : ¬ P b.state) (found : s'.batches[bid]? = some b')
    (meets : P b'.state) : bid ≠ other := by
  rintro rfl
  obtain ⟨record, at_bid, same⟩ := stands.found before closed
  rw [found] at at_bid
  cases at_bid
  have state : b'.state = b.state := congrArg (·.2.2.1) same
  exact closed (state ▸ meets)

/-- Changes of a batch that may be registered. -/
theorem modify_met (stands : Stands P s s') {bid : BatchId} {b : BatchRec}
    (found : s'.batches[bid]? = some b) (meets : P b.state)
    (change : BatchRec → BatchRec) : Everywhere s.batches fun other before =>
      ¬ P before.state →
        ((s'.batches.modify bid change)[other]?).map BatchRec.standing =
          some before.standing := by
  intro other before at_other closed
  rw [getElem?_modify,
    if_neg (stands.ne_of_met at_other closed found meets)]
  exact stands.closed other before at_other closed

/-- Changes that leave how a batch stands. -/
theorem modify_still (stands : Stands P s s') (bid : BatchId)
    {change : BatchRec → BatchRec}
    (still : ∀ b, (change b).standing = b.standing) :
    Everywhere s.batches fun other before => ¬ P before.state →
      ((s'.batches.modify bid change)[other]?).map BatchRec.standing =
        some before.standing := by
  intro other before at_other closed
  rw [map_getElem?_modify still]
  exact stands.closed other before at_other closed

theorem merged_expireWaiting (now : TimePoint) (s : Impl) (id : RequestId) :
    (expireWaiting now s id).stats.batchesMerged = s.stats.batchesMerged := by
  unfold Impl.expireWaiting
  split
  · rfl
  · unfold completeRequestTerminal
    split
    · rfl
    · split <;> rfl

theorem expireWaiting (stands : Stands P s s') (now : TimePoint)
    (id : RequestId) : Stands P s (expireWaiting now s' id) where
  wellFormed := stands.wellFormed.expireWaiting now id
  registered := stands.registered.expireWaiting now id
  closed bid b found closed := by
    rw [batches_expireWaiting]
    exact stands.closed bid b found closed
  merged := (merged_expireWaiting now s' id).trans stands.merged

section Passes

variable (registrable : Registrable P)

include registrable

theorem doCancel (stands : Stands P s s') (id : RequestId) :
    Stands P s (s'.doCancel policy id now).2 := by
  have wellFormed := stands.wellFormed.doCancel policy id now
  have registered := stands.registered.doCancel policy id now
  obtain unchanged | ⟨r, _, _, ⟨_, outside⟩ |
      ⟨_, b, found, ⟨forming, left⟩ | ⟨_, later⟩⟩⟩ :=
    doCancel_cases policy s' id now
  · rw [unchanged]
    exact stands
  · rw [outside] at wellFormed registered ⊢
    exact ⟨wellFormed, registered, stands.closed, stands.merged⟩
  · rw [left] at wellFormed registered ⊢
    exact ⟨wellFormed, registered,
      stands.modify_met found (forming ▸ registrable.forming) _,
      stands.merged⟩
  · rw [later] at wellFormed registered ⊢
    exact ⟨wellFormed, registered,
      stands.modify_still r.batch (fun _ => by rfl), stands.merged⟩

theorem placeRule (policy : BatchPolicy) (now : TimePoint) (s : Impl) :
    PlaceRule policy now (Stands P s) where
  wellFormed _ stands := stands.wellFormed
  openForming s' key stands absent := by
    have both := ((RegisteredAs.tickInvariant registrable policy).ticks
      now).openForming s' key ⟨stands.wellFormed, stands.registered⟩ absent
    refine ⟨both.1, both.2, ?_, stands.merged⟩
    intro bid b found closed
    obtain ⟨b', found', same⟩ := stands.found found closed
    have known := (stands.wellFormed.batch bid b' found').2.2
    unfold Impl.openForming
    dsimp only
    rw [getElem?_insert, if_neg, found', Option.map_some, same]
    rintro rfl
    exact absurd known (Nat.lt_irrefl _)
  place s' bid key pick b r stands placing := by
    have both := ((RegisteredAs.tickInvariant registrable policy).ticks
      now).place s' bid key pick b r ⟨stands.wellFormed, stands.registered⟩
        placing
    obtain ⟨b', found', meets⟩ :=
      stands.registered key bid placing.registered
    rw [place_eq placing.request] at both ⊢
    exact ⟨both.1, both.2, stands.modify_met found' meets _, stands.merged⟩
  retime s' bid change stands retimes := by
    have both := ((RegisteredAs.tickInvariant registrable policy).ticks
      now).retime s' bid change ⟨stands.wellFormed, stands.registered⟩ retimes
    refine ⟨both.1, both.2, stands.modify_still bid ?_, stands.merged⟩
    intro b
    obtain ⟨allowed, formed, changed⟩ := retimes b
    rw [changed]
    rfl

theorem sealForming (stands : Stands P s s') {bid : BatchId} {b : BatchRec}
    (found : s'.batches[bid]? = some b) (forming : b.state = .forming)
    (reason : SealReason) (now : TimePoint) :
    Stands P s (s'.sealForming bid b reason now) where
  wellFormed := stands.wellFormed.sealForming found forming reason now
  registered :=
    stands.registered.sealForming stands.wellFormed found reason now
  closed := stands.modify_met found (forming ▸ registrable.forming) _
  merged := stands.merged

theorem formedState (wellFormed : WellFormed s)
    (registered : s.RegisteredAs P) (order : List CompatibilityKey) :
    Stands P s (s.formedState policy order now) := by
  apply (placeRule registrable policy now s).formPass
  exact kept_expireLocked (Stands P s)
    (fun _ id stands => stands.expireWaiting now id)
    (fun _ id stands => stands.doCancel registrable id)
    (.refl wellFormed registered) order

theorem sealedState (wellFormed : WellFormed s)
    (registered : s.RegisteredAs P) (order : List CompatibilityKey) :
    Stands P s (s.sealedState policy order now) :=
  (placeRule registrable policy now s).sealPass
    (fun _ _ _ reason stands found forming =>
      stands.sealForming registrable found forming reason now)
    (formedState registrable wellFormed registered order)

end Passes

end Stands

/-! A batch that a tick seals is of a key that had work before. -/

theorem awaits_iff {s : Impl} {key : CompatibilityKey} :
    s.awaits key = true ↔
      s.waitingIndex[key]?.isSome ∨ s.formingByKey[key]?.isSome := by
  unfold awaits
  rw [Bool.or_eq_true, Std.ExtTreeMap.contains_eq_isSome_getElem?,
    Std.ExtTreeMap.contains_eq_isSome_getElem?]

/-- Whatever is queued or registered is of a key that had work. -/
structure Awaited (s s' : Impl) : Prop where
  queued : ∀ key : CompatibilityKey, s'.waitingIndex[key]?.isSome →
    s.awaits key = true
  registered : ∀ key : CompatibilityKey, s'.formingByKey[key]?.isSome →
    s.awaits key = true

namespace Awaited

variable {policy : BatchPolicy} {now : TimePoint} {s s' : Impl}

theorem remove (awaited : Awaited s s') (key : CompatibilityKey)
    (id : RequestId) : ∀ other : CompatibilityKey,
      (s'.waitingIndex.remove key id)[other]?.isSome →
        s.awaits other = true := by
  intro other present
  apply awaited.queued other
  rw [CompatibilityIndex.getElem?_remove] at present
  split at present
  · cases queue : s'.waitingIndex[other]? with
    | none => simp [queue] at present
    | some ids => rfl
  · exact present

theorem expireWaiting (awaited : Awaited s s') (id : RequestId) :
    Awaited s (expireWaiting now s' id) := by
  obtain unchanged | ⟨r, _, ⟨_, removed⟩ | ⟨_, stats, ended⟩⟩ :=
    expireWaiting_cases now s' id
  · rw [unchanged]
    exact awaited
  · rw [removed]
    exact ⟨awaited.remove r.key id, awaited.registered⟩
  · rw [ended]
    exact ⟨awaited.remove r.key id, awaited.registered⟩

theorem doCancel (awaited : Awaited s s') (id : RequestId) :
    Awaited s (s'.doCancel policy id now).2 := by
  obtain unchanged | ⟨r, _, _, ⟨_, outside⟩ |
      ⟨_, b, _, ⟨_, left⟩ | ⟨_, later⟩⟩⟩ := doCancel_cases policy s' id now
  · rw [unchanged]
    exact awaited
  · rw [outside]
    refine ⟨?_, awaited.registered⟩
    unfold cancelOutside
    dsimp only
    split
    · exact awaited.remove r.key id
    · exact awaited.queued
  · rw [left]
    exact ⟨awaited.queued, awaited.registered⟩
  · rw [later]
    exact ⟨awaited.queued, awaited.registered⟩

/-- Opening a batch registers it under a key with a bucket. -/
theorem registry_formMissing (policy : BatchPolicy) (now : TimePoint)
    (s : Impl) (key other : CompatibilityKey)
    (present : (formMissing policy now s key).formingByKey[other]?.isSome) :
    other = key ∨ s.formingByKey[other]?.isSome := by
  unfold formMissing at present
  split at present
  · exact .inr present
  · have registry : (s.makeForming policy key now).formingByKey =
        s.formingByKey.insert key { value := s.nextBatch } :=
      (FillFrame.fillForming policy (s.openForming key now)
        { value := s.nextBatch } key now).registry
    rw [registry, getElem?_insert] at present
    split at present
    · next same => exact .inl same.symm
    · exact .inr present

theorem formedState (s : Impl) (order : List CompatibilityKey) :
    ∀ key : CompatibilityKey,
      (s.formedState policy order now).formingByKey[key]?.isSome →
        s.awaits key = true := by
  have started : Awaited s s :=
    ⟨fun _ queued => awaits_iff.mpr (.inl queued),
      fun _ registered => awaits_iff.mpr (.inr registered)⟩
  have expired : Awaited s (s.expireLocked policy order now) :=
    kept_expireLocked (Awaited s) (fun _ id awaited => awaited.expireWaiting id)
      (fun _ id awaited => awaited.doCancel id) started order
  unfold Impl.formedState formPass
  apply Transition.run_invariant (fun current : Impl =>
    ∀ key : CompatibilityKey, current.formingByKey[key]?.isSome →
      s.awaits key = true)
  · intro current key member registered other present
    obtain rfl | before := registry_formMissing policy now current key other
      present
    · obtain ⟨⟨_, queue⟩, listed, rfl⟩ := List.mem_map.mp member
      have at_key := (CompatibilityIndex.mem_enumerate_iff _ _ _ _).mp listed
      exact expired.queued _ (by rw [at_key]; rfl)
    · exact registered other before
  · exact expired.registered

end Awaited

section Passes

variable {policy : BatchPolicy} {now : TimePoint} {s : Impl}

/-- What a tick orders anew, it has gone through. -/
theorem order_sealedState (wellFormed : WellFormed s)
    (order : List CompatibilityKey) :
    ∃ new, (s.sealedState policy order now).sealedOrder =
        s.sealedOrder ++ new ∧
      ∀ bid ∈ new, bid ∈ s.considered policy order now := by
  have formed : Quiet s (s.formedState policy order now) :=
    Quiet.formedState wellFormed order
  have refilled : Quiet s ((s.formedState policy order now).refillAll policy
      now (s.considered policy order now)) := formed.refillAll
  unfold sealedState
  rw [sealPass_eq]
  apply Transition.run_invariant (fun current : Impl =>
    ∃ new, current.sealedOrder = s.sealedOrder ++ new ∧
      ∀ bid ∈ new, bid ∈ s.considered policy order now)
  · rintro current bid member ⟨new, ordered, listed⟩
    unfold sealDecided
    split
    · exact ⟨new, ordered, listed⟩
    · obtain unchanged | ⟨b, _, _, closed⟩ :=
        doSeal_cases current bid (current.sealedReasonFor bid) now
      · rw [unchanged]
        exact ⟨new, ordered, listed⟩
      · rw [closed]
        refine ⟨new ++ [bid], ?_, ?_⟩
        · show current.sealedOrder ++ [bid] = _
          rw [ordered, List.append_assoc]
        · intro other among
          rcases List.mem_append.mp among with earlier | last
          · exact listed other earlier
          · rw [List.mem_singleton.mp last]
            exact mem_of_decidePass member
  · exact ⟨[], by rw [refilled.order, List.append_nil], nofun⟩

/-- What a tick goes through is of a key that had work, and could be registered
before. -/
theorem considered_awaited {P : BatchState → Prop}
    (registrable : Registrable P) (wellFormed : WellFormed s)
    (registered : s.RegisteredAs P) {order : List CompatibilityKey}
    {bid : BatchId} (listed : bid ∈ s.considered policy order now) :
    s.awaits ((s.sealedState policy order now).keyOfBatch bid) = true ∧
      ∀ b, s.batches[bid]? = some b → P b.state := by
  have formed : Stands P s (s.formedState policy order now) :=
    Stands.formedState registrable wellFormed registered order
  obtain ⟨key, at_key⟩ := registered_of_considered listed
  obtain ⟨b, found, meets⟩ := formed.registered key bid at_key
  constructor
  · have ticks := keyRule.ticks (WellFormed.tickInvariant policy)
      (fun _ _ _ _ _ _ _ => trivial) (fun _ => trivial) now
      (s.formedState policy order now)
    have kept := (ticks.sealPass ⟨formed.wellFormed,
      .refl keyRule.refl _⟩).2
    obtain ⟨b', found', same⟩ := kept bid b found
    have keyed : (s.sealedState policy order now).keyOfBatch bid = key := by
      unfold keyOfBatch sealedState
      rw [found']
      exact same.trans (formed.wellFormed.registered_key at_key found)
    rw [keyed]
    exact Awaited.formedState s order key (by rw [at_key]; rfl)
  · intro before at_bid
    by_contra closed
    exact formed.ne_of_met at_bid closed found meets rfl

theorem unsealed_of_considered {P : BatchState → Prop}
    (registrable : Registrable P) (wellFormed : WellFormed s)
    (registered : s.RegisteredAs P) {order : List CompatibilityKey}
    {bid : BatchId} (listed : bid ∈ s.considered policy order now) :
    s.isSealedBatch bid = false := by
  rw [← Bool.not_eq_true]
  intro isSealed
  obtain ⟨b, found, state⟩ := isSealedBatch_iff.mp isSealed
  have meets :=
    (considered_awaited registrable wellFormed registered listed).2 b found
  rw [state] at meets
  exact registrable.unsealed meets

/-- Of the batches ordered before, a tick seals none. -/
theorem isSealed_ordered (wellFormed : WellFormed s)
    {order : List CompatibilityKey} {bid : BatchId}
    (old : bid ∈ s.sealedOrder)
    (isSealed : (s.sealedState policy order now).isSealedBatch bid = true) :
    s.isSealedBatch bid = true := by
  cases before : s.isSealedBatch bid with
  | true => rfl
  | false =>
      obtain ⟨b', found', state⟩ := isSealedBatch_iff.mp isSealed
      obtain ⟨b, found, forming, _⟩ :=
        sealedState_cases wellFormed before found' state
      have quiet : Quiet s ((s.formedState policy order now).refillAll policy
          now (s.considered policy order now)) :=
        (Quiet.formedState wellFormed order).refillAll
      obtain ⟨record, at_bid, closed⟩ :=
        quiet.later.closed_ordered wellFormed old
      rw [found] at at_bid
      cases at_bid
      exact absurd forming closed

end Passes

/-! The merges of a tick. -/

section Merges

variable {policy : BatchPolicy} {now : TimePoint} {s : Impl}
  {order : List CompatibilityKey}

theorem mergePairs_cases {pair : BatchId × BatchId}
    (member : pair ∈ s.mergePairs) :
    ∃ key : CompatibilityKey, pair ∈ neighbours
      ((s.sealedOrder.filter s.isSealedBatch).filter
        (fun bid => s.keyOfBatch bid = key)) := by
  unfold mergePairs at member
  obtain ⟨⟨key, group⟩, listed, inGroup⟩ := List.mem_flatMap.mp member
  have found := (mem_toList_iff _ key group).mp listed
  rw [getElem?_groupBy] at found
  split at found
  · cases found
  · cases found
    exact ⟨key, inGroup⟩

theorem mem_mergePairs_of_neighbours {pair : BatchId × BatchId}
    {key : CompatibilityKey} (listed : pair ∈ neighbours
      ((s.sealedOrder.filter s.isSealedBatch).filter
        (fun bid => s.keyOfBatch bid = key))) : pair ∈ s.mergePairs := by
  unfold mergePairs
  refine List.mem_flatMap.mpr ⟨(key, _), (mem_toList_iff _ key _).mpr ?_,
    listed⟩
  rw [getElem?_groupBy, if_neg]
  intro empty
  rw [empty] at listed
  cases listed

theorem mem_of_neighbours {v : List BatchId} {pair : BatchId × BatchId}
    (listed : pair ∈ neighbours v) : pair.1 ∈ v ∧ pair.2 ∈ v := by
  obtain ⟨first, second⟩ := List.of_mem_zip listed
  exact ⟨first, List.mem_of_mem_tail second⟩

/-- The first of two neighbours is in the first list, or the second in the
second. -/
theorem mem_of_neighbours_append {xs ys : List BatchId}
    {pair : BatchId × BatchId} (listed : pair ∈ neighbours (xs ++ ys)) :
    pair.1 ∈ xs ∨ pair.2 ∈ ys := by
  unfold neighbours at listed
  obtain ⟨i, at_i⟩ := List.mem_iff_getElem?.mp listed
  obtain ⟨first, second⟩ := List.getElem?_zip_eq_some.mp at_i
  rw [List.getElem?_tail] at second
  by_cases inside : i < xs.length
  · rw [List.getElem?_append_left inside] at first
    exact .inl (List.mem_of_getElem? first)
  · rw [List.getElem?_append_right (by omega)] at second
    exact .inr (List.mem_of_getElem? second)

theorem isSealed_of_mergePairs {pair : BatchId × BatchId}
    (member : pair ∈ s.mergePairs) :
    s.isSealedBatch pair.1 = true ∧ s.isSealedBatch pair.2 = true := by
  obtain ⟨key, inGroup⟩ := mergePairs_cases member
  obtain ⟨first, second⟩ := mem_of_neighbours inGroup
  exact ⟨(List.mem_filter.mp (List.mem_of_mem_filter first)).2,
    (List.mem_filter.mp (List.mem_of_mem_filter second)).2⟩

/-- A sealed batch is sealed, and of its key, as before. -/
theorem Stands.same_view {P : BatchState → Prop} {s' : Impl}
    (registrable : Registrable P) (stands : Stands P s s') {bid : BatchId}
    (isSealed : s.isSealedBatch bid = true) :
    s'.isSealedBatch bid = true ∧ s'.keyOfBatch bid = s.keyOfBatch bid := by
  obtain ⟨b, found, state⟩ := isSealedBatch_iff.mp isSealed
  obtain ⟨b', found', same⟩ := stands.found found (by
    rw [state]
    exact registrable.unsealed)
  have key : b'.key = b.key := congrArg (·.1) same
  have state' : b'.state = b.state := congrArg (·.2.2.1) same
  refine ⟨isSealedBatch_iff.mpr ⟨b', found', state'.trans state⟩, ?_⟩
  unfold keyOfBatch
  rw [found, found']
  exact key

/-- What a tick tries to merge into a batch that it has sealed, it has sealed
too. -/
theorem unsealed_of_mergePairs {P : BatchState → Prop}
    (registrable : Registrable P) (wellFormed : WellFormed s)
    (registered : s.RegisteredAs P) {pair : BatchId × BatchId}
    (member : pair ∈ (s.sealedState policy order now).mergePairs)
    (unsealed : s.isSealedBatch pair.1 = false) :
    s.isSealedBatch pair.2 = false := by
  obtain ⟨new, ordered, listed⟩ : ∃ new,
      (s.sealedState policy order now).sealedOrder = s.sealedOrder ++ new ∧ _ :=
    order_sealedState wellFormed order
  obtain ⟨key, inGroup⟩ := mergePairs_cases member
  rw [ordered, List.filter_append, List.filter_append] at inGroup
  rcases mem_of_neighbours_append inGroup with first | second
  · obtain ⟨old, isSealed⟩ :=
      List.mem_filter.mp (List.mem_of_mem_filter first)
    rw [isSealed_ordered wellFormed old isSealed] at unsealed
    cases unsealed
  · have considered : pair.2 ∈ s.considered policy order now :=
      listed _ (List.mem_of_mem_filter (List.mem_of_mem_filter second))
    exact unsealed_of_considered registrable wellFormed registered considered

/-- Where nothing can be absorbed, the neighbours that a tick tries to merge
were neighbours before it, or it has put both into the order. -/
theorem mergePairs_sealedState {P : BatchState → Prop}
    (registrable : Registrable P) (wellFormed : WellFormed s)
    (registered : s.RegisteredAs P)
    (apart : ∀ bid ∈ s.sealedOrder, s.isSealedBatch bid = true →
      s.awaits (s.keyOfBatch bid) = false) {pair : BatchId × BatchId}
    (member : pair ∈ (s.sealedState policy order now).mergePairs) :
    pair ∈ s.mergePairs ∨
      ((pair.1 ∈ s.considered policy order now ∧ pair.1 ∉ s.sealedOrder) ∧
        pair.2 ∈ s.considered policy order now) := by
  have stands : Stands P s (s.sealedState policy order now) :=
    Stands.sealedState registrable wellFormed registered order
  have awaited : ∀ bid ∈ s.considered policy order now,
      s.awaits ((s.sealedState policy order now).keyOfBatch bid) = true :=
    fun bid listed =>
      (considered_awaited registrable wellFormed registered listed).1
  have unsealed : ∀ bid ∈ s.sealedOrder, (s.sealedState policy order
      now).isSealedBatch bid = true → s.isSealedBatch bid = true :=
    fun bid => isSealed_ordered wellFormed
  obtain ⟨new, ordered, listed⟩ : ∃ new,
      (s.sealedState policy order now).sealedOrder = s.sealedOrder ++ new ∧ _ :=
    order_sealedState wellFormed order
  obtain ⟨key, inGroup⟩ := mergePairs_cases member
  generalize s.sealedState policy order now = t at *
  have once : (s.sealedOrder ++ new).Nodup := ordered ▸
    stands.wellFormed.orderedOnce
  rw [ordered, List.filter_append, List.filter_append] at inGroup
  have older : (s.sealedOrder.filter t.isSealedBatch).filter
        (fun bid => t.keyOfBatch bid = key) =
      (s.sealedOrder.filter s.isSealedBatch).filter
        (fun bid => s.keyOfBatch bid = key) := by
    rw [List.filter_filter, List.filter_filter]
    apply List.filter_congr
    intro bid old
    cases before : s.isSealedBatch bid with
    | true =>
        have same := stands.same_view registrable before
        rw [same.1, same.2]
    | false =>
        cases after : t.isSealedBatch bid with
        | true =>
            rw [unsealed bid old after] at before
            cases before
        | false => rw [Bool.and_false, Bool.and_false]
  rw [older] at inGroup
  cases olds : (s.sealedOrder.filter s.isSealedBatch).filter
      (fun bid => s.keyOfBatch bid = key) with
  | nil =>
      rw [olds, List.nil_append] at inGroup
      have among : ∀ bid ∈ (new.filter t.isSealedBatch).filter
          (fun bid => t.keyOfBatch bid = key), bid ∈ new := fun bid inside =>
        List.mem_of_mem_filter (List.mem_of_mem_filter inside)
      obtain ⟨first, second⟩ := mem_of_neighbours inGroup
      refine .inr ⟨⟨listed _ (among _ first), ?_⟩, listed _ (among _ second)⟩
      intro old
      exact (List.nodup_append.mp once).2.2 _ old _ (among _ first) rfl
  | cons old rest =>
      have present : old ∈ (s.sealedOrder.filter s.isSealedBatch).filter
          (fun bid => s.keyOfBatch bid = key) := by
        rw [olds]
        exact List.mem_cons_self
      obtain ⟨isSealed, ofKey⟩ := List.mem_filter.mp present
      obtain ⟨inOrder, isSealed⟩ := List.mem_filter.mp isSealed
      have idle := apart old inOrder isSealed
      rw [of_decide_eq_true ofKey] at idle
      have none : (new.filter t.isSealedBatch).filter
          (fun bid => t.keyOfBatch bid = key) = [] := by
        apply List.eq_nil_iff_forall_not_mem.mpr
        intro bid inside
        obtain ⟨inside, ofKey⟩ := List.mem_filter.mp inside
        have busy := awaited bid (listed bid (List.mem_of_mem_filter inside))
        rw [of_decide_eq_true ofKey, idle] at busy
        cases busy
      rw [none, List.append_nil] at inGroup
      exact .inl (mem_mergePairs_of_neighbours inGroup)

/-- Without a merge to make, the pass makes none. -/
theorem mergePass_of_none (none : s.mayMergeMore policy = false) :
    s.mergePass policy = s := by
  unfold mergePass
  split
  · next enabled =>
      have full : ¬ s.stats.batchesMerged <
          policy.merge.maxMergesPerCycle.toUInt64 := by
        simpa [mayMergeMore, enabled] using none
      apply Transition.run_invariant (fun current => current = s)
      · rintro current pair _ rfl
        unfold mergeNeighbours
        rw [if_neg full]
      · rfl
  · rfl

/-- The rule of merges where nothing can be absorbed: they are of batches that
the tick has put into the order, and what may not be registered is left. -/
theorem mergePass_apart {P : BatchState → Prop} (registrable : Registrable P)
    (wellFormed : WellFormed s) (registered : s.RegisteredAs P)
    (absorbs : s.absorbsNone policy = true) (Kept : Impl → Prop)
    (merge : ∀ (current : Impl) (pair : BatchId × BatchId) (a b : BatchRec),
      pair ∈ (s.sealedState policy order now).mergePairs →
      pair.1 ∉ s.sealedOrder → Kept current →
      Merging policy current pair.1 pair.2 a b →
        Kept (current.mergeInto pair.1 pair.2 a b))
    (kept : Kept (s.sealedState policy order now)) :
    Kept ((s.sealedState policy order now).mergePass policy) ∧
      ∀ (bid : BatchId) (b : BatchRec), s.batches[bid]? = some b →
        ¬ P b.state →
          ((s.sealedState policy order now).mergePass policy).batches[bid]? =
            (s.sealedState policy order now).batches[bid]? := by
  have stands : Stands P s (s.sealedState policy order now) :=
    Stands.sealedState registrable wellFormed registered order
  cases more : s.mayMergeMore policy with
  | false =>
      rw [mergePass_of_none]
      · exact ⟨kept, fun _ _ _ _ => rfl⟩
      · unfold mayMergeMore at more ⊢
        rw [stands.merged]
        exact more
  | true =>
      rw [absorbsNone, more, Bool.not_true, Bool.false_or, Bool.and_eq_true]
        at absorbs
      have unmergeable := List.all_eq_true.mp absorbs.1
      have apart : ∀ old ∈ s.sealedOrder, s.isSealedBatch old = true →
          s.awaits (s.keyOfBatch old) = false := by
        intro old listed isSealed
        simpa [isSealed] using List.all_eq_true.mp absorbs.2 old listed
      have pairs : ∀ pair ∈ (s.sealedState policy order now).mergePairs,
          _ ∨ _ := fun pair =>
        mergePairs_sealedState registrable wellFormed registered apart
      have before : ∀ other ∈ s.considered policy order now,
          ∀ record : BatchRec, s.batches[other]? = some record →
            P record.state :=
        fun other listed =>
          (considered_awaited registrable wellFormed registered listed).2
      generalize s.sealedState policy order now = t
        at stands pairs kept merge ⊢
      apply mergePass_pairs stands.wellFormed (fun current : Impl =>
        Kept current ∧ ∀ (bid : BatchId) (b : BatchRec),
          s.batches[bid]? = some b → ¬ P b.state →
            current.batches[bid]? = t.batches[bid]?)
      · rintro current pair a c member ⟨held, same⟩ merging
        obtain old | ⟨⟨newFirst, unordered⟩, newSecond⟩ := pairs pair member
        · exfalso
          obtain ⟨isFirst, isSecond⟩ := isSealed_of_mergePairs old
          obtain ⟨a₀, at_first, stateA⟩ := isSealedBatch_iff.mp isFirst
          obtain ⟨c₀, at_second, stateC⟩ := isSealedBatch_iff.mp isSecond
          have notA : ¬ P a₀.state := stateA ▸ registrable.unsealed
          have notC : ¬ P c₀.state := stateC ▸ registrable.unsealed
          obtain ⟨a', found', sameFirst⟩ := stands.found at_first notA
          obtain ⟨c', found'', sameSecond⟩ := stands.found at_second notC
          have first := merging.first
          have second := merging.second
          have possible := merging.possible
          rw [same _ _ at_first notA, found'] at first
          rw [same _ _ at_second notC, found''] at second
          cases first
          cases second
          rw [canMerge_congr sameFirst sameSecond] at possible
          have refused := unmergeable pair old
          simp [mergeable, at_first, at_second, possible] at refused
        · refine ⟨merge current pair a c member unordered held merging, ?_⟩
          intro other record at_other past
          rw [elsewhere_mergeInto]
          · exact same other record at_other past
          · rintro rfl
            exact past (before _ newFirst record at_other)
          · rintro rfl
            exact past (before _ newSecond record at_other)
      · exact ⟨kept, fun _ _ _ _ => rfl⟩

/-- A tick that has nothing to absorb gives no member to a batch that was past
forming. -/
theorem doTick_closed (wellFormed : WellFormed s)
    (registered : s.RegisteredForming)
    (absorbs : s.absorbsNone policy = true) {bid : BatchId} {b : BatchRec}
    (found : s.batches[bid]? = some b) (closed : b.state ≠ .forming) :
    ∃ b', (s.doTick policy order now).batches[bid]? = some b' ∧
      b'.members ⊆ b.members := by
  have stands : Stands (· = .forming) s (s.sealedState policy order now) :=
    Stands.sealedState registrable_forming wellFormed registered order
  obtain ⟨b₁, found₁, same⟩ := stands.found found closed
  have merged : ((s.sealedState policy order now).mergePass
      policy).batches[bid]? = (s.sealedState policy order now).batches[bid]? :=
    (mergePass_apart registrable_forming wellFormed registered absorbs
      (fun _ => True) (fun _ _ _ _ _ _ _ _ => trivial) trivial).2 bid b found
        closed
  have rule : MergeRule policy WellFormed :=
    (WellFormed.tickRule policy now).toMergeRule
  have formed := rule.mergePass stands.wellFormed
  obtain ⟨b₂, found₂, kept⟩ :=
    sizePass_evolves formed bid b₁ (merged.trans found₁)
  have state : b₁.state = b.state := congrArg (·.2.2.1) same
  have members : b₁.members = b.members := congrArg (·.2.2.2.2) same
  refine ⟨b₂, ?_, ?_⟩
  · unfold doTick
    rw [tickUntilSizePass_eq]
    exact found₂
  · rw [← members]
    exact kept.members (state ▸ closed) (kept.unmerged id)

end Merges

/-- The tick of the operation, if it has one, has nothing to absorb. -/
def ticksApart (policy : BatchPolicy) (s : Impl) : Op → Bool
  | .tick _ _ => s.absorbsNone policy
  | .retry request _ now =>
      match s.retryQueued policy request now with
      | (.error _, _) => true
      | (.ok _, queued) => queued.absorbsNone policy
  | _ => true

/-- In a run that splits no batch reported in part and merges none with itself,
a batch that is past forming gains no member: by no operation but a merge, and
by no tick that has nothing to absorb. -/
theorem closed_gains_no_member (policy : BatchPolicy) (ops : List Op)
    (guarded : Transition.Along (step policy)
      (fun s op => keepsClosed policy s op = true) fresh ops)
    (op : Op) (apart : ∀ x y, op ≠ .merge x y)
    (absorbs : ticksApart policy (run policy ops) op = true)
    (bid : BatchId) (b : BatchRec)
    (found : (run policy ops).batches[bid]? = some b)
    (closed : b.state ≠ .forming) :
    ∃ b', (step policy (run policy ops) op).batches[bid]? = some b' ∧
      b'.members ⊆ b.members := by
  have held : WellFormed (run policy ops) ∧
      (run policy ops).RegisteredForming :=
    guarded.invariant (fun s => WellFormed s ∧ s.RegisteredForming)
      (fun _ op _ held allowed =>
        ⟨held.1.step op, RegisteredForming.step held.1 held.2 allowed⟩)
      ⟨WellFormed.fresh, RegisteredAs.fresh⟩
  generalize run policy ops = s at held absorbs found
  have merged : mayMerge policy op = false →
      ∃ b', (step policy s op).batches[bid]? = some b' ∧
        b'.members ⊆ b.members := by
    intro never
    obtain ⟨b', found', kept⟩ := closing_step held.1 held.2 op bid b found
    refine ⟨b', found', kept.members closed (kept.unmerged ?_)⟩
    rw [never]
    exact nofun
  cases op with
  | merge x y => exact absurd rfl (apart x y)
  | tick order now => exact doTick_closed held.1 held.2 absorbs found closed
  | retry request order now =>
      have formed := held.1.retryQueued policy request now
      show ∃ b', (s.doRetry policy request order now).2.batches[bid]? =
        some b' ∧ _
      dsimp only [ticksApart] at absorbs
      unfold doRetry
      obtain ⟨err, refused⟩ | ⟨r, _, _, _, queued⟩ :=
        retryQueued_cases policy s request now
      · rw [refused]
        exact ⟨b, found, List.Subset.refl _⟩
      · rw [queued] at absorbs formed ⊢
        exact doTick_closed formed held.2 absorbs found closed
  | _ => exact merged rfl

/-- A sealed batch awaits its dispatch while the next tick seals another of its
own key. -/
theorem closed_gains_no_member_of_other_key :
    let ops : List Op := [.submit minimalRequest 0, .tick [] 1,
      .submit { minimalRequest with
        descriptor := KnownKeys.otherModel } 2]
    ∃ b b', (run {} ops).batches[({ value := 1 } : BatchId)]? = some b ∧
      (step {} (run {} ops) (.tick [] 3)).batches[
        ({ value := 1 } : BatchId)]? = some b' ∧
      b'.members ⊆ b.members := by
  intro ops
  have isSealed : ((run {} ops).batches[({ value := 1 } : BatchId)]?).map
      (·.state) = some .sealed := by
    rw [run_eq_runKnown .twoModels]
    decide +kernel
  obtain ⟨b, found, state⟩ := Option.map_eq_some_iff.mp isSealed
  obtain ⟨b', found', kept⟩ := closed_gains_no_member {} ops (by
      rw [step_eq_stepKnown .twoModels]
      decide +kernel) (.tick [] 3) (fun _ _ => nofun) (by
      rw [run_eq_runKnown .twoModels]
      decide +kernel) { value := 1 } b found (by
      rw [state]
      exact nofun)
  exact ⟨b, b', found, found', kept⟩

/-- Batches of three, no merging. -/
def threesUnmerged : BatchPolicy where
  constraints := { minimumPreferredBatch := 3 }
  merge := { enabled := false }

/-- A batch of two is reported for one of them and split, which registers it
as forming. The next tick gives it a third request. -/
theorem closed_gains_member_after_partial_split :
    ¬ ∀ (policy : BatchPolicy) (ops : List Op) (op : Op) (bid : BatchId)
        (b b' : BatchRec), (∀ x y, op ≠ .merge x y) →
      (run policy ops).batches[bid]? = some b → b.state ≠ .forming →
      (step policy (run policy ops) op).batches[bid]? = some b' →
      b'.members ⊆ b.members := by
  intro closed
  let ops : List Op := [
    .submit minimalRequest 0, .submit minimalRequest 0, .tick [] 1,
    .sealBatch { value := 1 } .policyDerived 2,
    .prepareDispatch { value := 1 } .null .null 2,
    .complete {
      epoch := { value := 1 }, generation := { value := 1 }
      batch := { value := 1 }
      members := [{ request := { value := 1 }, attempt := { value := 1 } }] }
      3,
    .split { value := 1 }, .submit minimalRequest 4]
  have before : ((run threesUnmerged ops).batches[
      ({ value := 1 } : BatchId)]?).map (fun b => (b.state, b.members)) =
        some (.partiallyCompleted, [{ value := 1 }]) := by
    rw [run_eq_runKnown .minimal]
    decide +kernel
  have after : ((step threesUnmerged (run threesUnmerged ops)
      (.tick [] 5)).batches[({ value := 1 } : BatchId)]?).map (·.members) =
        some [{ value := 1 }, { value := 3 }] := by
    rw [step_eq_stepKnown .minimal, run_eq_runKnown .minimal]
    decide +kernel
  obtain ⟨b, found, view⟩ := Option.map_eq_some_iff.mp before
  obtain ⟨b', found', members'⟩ := Option.map_eq_some_iff.mp after
  obtain ⟨state, members⟩ := Prod.mk.injEq .. ▸ view
  have gained := closed threesUnmerged ops (.tick [] 5) { value := 1 } b b'
    (fun _ _ => nofun) found (by rw [state]; exact nofun) found'
  rw [members, members'] at gained
  have third : ({ value := 3 } : RequestId) ∈
      [({ value := 1 } : RequestId)] := gained (by decide)
  exact absurd third (by decide)

end Impl

end BatchFabric
