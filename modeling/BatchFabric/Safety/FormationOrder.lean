import BatchFabric.Safety.ExpiryOrder
import BatchFabric.Safety.Placements

namespace BatchFabric

open OrderedMap

/-! The order in which a tick comes to the keys. -/

theorem BatchRec.Alike.refl (ordered : Prop) (b : BatchRec) :
    BatchRec.Alike ordered (fun bid => bid) b b where
  id := rfl
  state := rfl
  key := rfl
  phase := rfl
  accum := rfl
  formedNs := rfl
  allowedWaitNs := rfl
  members := List.Perm.refl _
  inOrder _ := rfl

theorem BatchRec.Alike.trans {ordered : Prop}
    {rename rename' : BatchId → BatchId} {b b' b'' : BatchRec}
    (first : BatchRec.Alike ordered rename b b')
    (second : BatchRec.Alike ordered rename' b' b'') :
    BatchRec.Alike ordered (rename' ∘ rename) b b'' where
  id := by rw [second.id, first.id]; rfl
  state := second.state.trans first.state
  key := second.key.trans first.key
  phase := second.phase.trans first.phase
  accum := second.accum.trans first.accum
  formedNs := second.formedNs.trans first.formedNs
  allowedWaitNs := second.allowedWaitNs.trans first.allowedWaitNs
  members := second.members.trans first.members
  inOrder holds := (second.inOrder holds).trans (first.inOrder holds)

/-- What the partition says of a batch: its key, whether it is sealed, and its
members in no order. -/
def BatchRec.block (b : BatchRec) :
    Option (CompatibilityKey × BatchState × Multiset RequestId) :=
  if b.state = .forming ∨ b.state = .sealed then
    some (b.key, b.state, b.members)
  else none

namespace Impl

/-- Some batches have been opened since `s`, and the keys of `rest` are still
as they were. -/
structure Forms (policy : BatchPolicy) (now : TimePoint) (s u : Impl)
    (rest : List CompatibilityKey) : Prop where
  wellFormed : WellFormed u
  fixed : SameFixed s.requests u.requests
  listed : ∀ key ∈ rest, key ∈ s.waitingIndex.keys
  bucket : ∀ key ∈ rest, u.bucket key = s.bucket key
  seen : ∀ key ∈ rest, ∀ id ∈ s.bucket key,
    (u.requests[id]?).map RequestRec.seen =
      (s.requests[id]?).map RequestRec.seen
  registered : ∀ key ∈ rest,
    u.formingByKey.contains key = s.formingByKey.contains key
  held : ∀ t, s.capped policy t = true →
    FairnessController.amount u.fairness.outstanding t =
      FairnessController.amount s.fairness.outstanding t
  room : Room policy now s u (rest.flatMap (s.offers policy now))
  apart : ∀ key ∈ rest, s.SharesNoTenant policy now key →
    SameTotals policy now s u key

section Forms

variable {policy : BatchPolicy} {now : TimePoint} {s u u' : Impl}
  {key : CompatibilityKey} {rest rest' : List CompatibilityKey}

theorem Forms.perm (forms : Forms policy now s u rest)
    (permuted : rest'.Perm rest) : Forms policy now s u rest' where
  wellFormed := forms.wellFormed
  fixed := forms.fixed
  listed key member := forms.listed key (permuted.mem_iff.mp member)
  bucket key member := forms.bucket key (permuted.mem_iff.mp member)
  seen key member := forms.seen key (permuted.mem_iff.mp member)
  registered key member := forms.registered key (permuted.mem_iff.mp member)
  held := forms.held
  room := by
    intro t
    rw [workOf_perm (permuted.flatMap_right _)]
    exact forms.room t
  apart key member := forms.apart key (permuted.mem_iff.mp member)

theorem Forms.refl (wellFormed : WellFormed s)
    (permuted : rest.Perm s.waitingIndex.keys) :
    Forms policy now s s rest := by
  apply Forms.perm _ permuted
  exact {
    wellFormed := wellFormed
    fixed := SameFixed.refl _
    listed := fun _ member => member
    bucket := fun _ _ => rfl
    seen := fun _ _ _ _ => rfl
    registered := fun _ _ => rfl
    held := fun _ _ => rfl
    room := fun t => Nat.le_refl _
    apart := fun _ _ _ _ _ => ⟨rfl, rfl⟩ }

theorem offers_of_registered (registered : s.formingByKey.contains key = true) :
    s.offers policy now key = [] := by
  unfold offers
  rw [if_pos registered]

theorem offers_of_unregistered
    (unregistered : s.formingByKey.contains key = false) :
    s.offers policy now key =
      ((s.bucket key).filter (s.placeable policy now)).dedup := by
  unfold offers
  rw [if_neg (by simp [unregistered])]

theorem openingPicks_eq (policy : BatchPolicy) (s : Impl)
    (key : CompatibilityKey) (now : TimePoint) :
    s.openingPicks policy key now =
      fillPicks policy { value := s.nextBatch } key now
        (s.bucket key).length (s.openForming key now) (s.bucket key) := by
  unfold openingPicks placements
  have found : (s.openForming key now).batches[
      ({ value := s.nextBatch } : BatchId)]? = some (s.newForming key now) := by
    unfold openForming
    dsimp only
    rw [getElem?_insert, if_pos rfl]
  have queues : (s.openForming key now).waitingIndex = s.waitingIndex := rfl
  rw [found, queues]
  unfold Impl.bucket CompatibilityIndex.bucketOf
  cases s.waitingIndex[key]? with
  | none => rfl
  | some bucket => rfl

/-! What is picked for a key is the same in all these states. -/

theorem Forms.filling (forms : Forms policy now s u (key :: rest))
    (unregistered : s.formingByKey.contains key = false) :
    Filling policy now s (u.openForming key now) (s.bucket key)
      (rest.flatMap (s.offers policy now)) where
  fixed := forms.fixed
  seen := forms.seen key List.mem_cons_self
  held := forms.held
  room := by
    rw [← offers_of_unregistered unregistered, ← List.flatMap_cons]
    exact forms.room

theorem Forms.picks (forms : Forms policy now s u (key :: rest))
    (unregistered : s.formingByKey.contains key = false) :
    (u.openingPicks policy key now).Subperm (s.offers policy now key) := by
  rw [openingPicks_eq]
  apply List.Nodup.subperm (nodup_fillPicks _ _ _)
  intro id placed
  have queued := mem_of_fillPicks _ placed
  rw [forms.bucket key List.mem_cons_self] at placed queued
  exact mem_offers unregistered queued
    ((forms.filling unregistered).placeable_of_fillPicks _ placed)

theorem Forms.samePicks (forms : Forms policy now s u (key :: rest))
    (forms' : Forms policy now s u' (key :: rest'))
    (unregistered : s.formingByKey.contains key = false)
    (free : s.SamePicks policy now key) :
    u'.openingPicks policy key now = u.openingPicks policy key now := by
  rw [openingPicks_eq, openingPicks_eq, forms.bucket key List.mem_cons_self,
    forms'.bucket key List.mem_cons_self]
  apply Alongside.fillPicks unregistered free
  exact {
    here := forms.filling unregistered
    there := forms'.filling unregistered
    same := rfl
    queued := fun _ member => member
    batch := by
      refine ⟨u.newForming key now, u'.newForming key now, ?_, ?_, rfl, rfl⟩
      · unfold openForming
        dsimp only
        rw [getElem?_insert, if_pos rfl]
      · unfold openForming
        dsimp only
        rw [getElem?_insert, if_pos rfl]
    totals := by
      intro apart id offered
      have here := forms.apart key List.mem_cons_self apart id offered
      have there := forms'.apart key List.mem_cons_self apart id offered
      exact ⟨there.1.trans here.1.symm, there.2.trans here.2.symm⟩ }

theorem Forms.allPicks (forms : Forms policy now s u (key :: rest))
    (unregistered : s.formingByKey.contains key = false)
    (below : s.BelowCaps policy now key)
    (holds : HoldsAll policy s.requests (s.offers policy now key)) :
    (u.openingPicks policy key now).Perm (s.offers policy now key) := by
  rw [openingPicks_eq, forms.bucket key List.mem_cons_self]
  have collecting : Collecting policy now s key { value := u.nextBatch }
      (rest.flatMap (s.offers policy now)) (u.openForming key now)
      (s.bucket key) [] := {
    filling := forms.filling unregistered
    queued := fun _ member => member
    batch := by
      refine ⟨u.newForming key now, ?_, rfl, rfl⟩
      unfold openForming
      dsimp only
      rw [getElem?_insert, if_pos rfl]
    known := by
      intro id member
      cases member
    whole := by
      rw [List.nil_append, ← offers_of_unregistered unregistered] }
  exact collecting.fillPicks unregistered below holds (Nat.le_refl _)

theorem Forms.picksAgree (forms : Forms policy now s u (key :: rest))
    (forms' : Forms policy now s u' (key :: rest'))
    (unregistered : s.formingByKey.contains key = false)
    (free : s.TotalsFree policy now key) :
    (u'.openingPicks policy key now).Perm (u.openingPicks policy key now) ∧
      (s.maxWorkerBatchSize ≠ 0 →
        u'.openingPicks policy key now = u.openingPicks policy key now) := by
  have same : s.SamePicks policy now key →
      (u'.openingPicks policy key now).Perm
          (u.openingPicks policy key now) ∧
        (s.maxWorkerBatchSize ≠ 0 →
          u'.openingPicks policy key now = u.openingPicks policy key now) := by
    intro picks
    have equal := forms.samePicks forms' unregistered picks
    exact ⟨by rw [equal], fun _ => equal⟩
  rcases free with apart | ⟨below, one | ⟨holds, unsized⟩⟩
  · exact same (.inl apart)
  · exact same (.inr ⟨below, one⟩)
  · refine ⟨?_, fun sized => absurd unsized sized⟩
    exact (forms'.allPicks unregistered below holds).trans
      (forms.allPicks unregistered below holds).symm

/-- The next key is come to. -/
theorem Forms.step (forms : Forms policy now s u (key :: rest))
    (once : key ∉ rest) :
    Forms policy now s (formMissing policy now u key) rest := by
  have same := forms.registered key List.mem_cons_self
  have wellFormed :=
    (WellFormed.tickRule policy now).formMissing forms.wellFormed key
  unfold formMissing at wellFormed ⊢
  cases registered : s.formingByKey.contains key with
  | true =>
      rw [if_pos (same.trans registered)]
      have room := forms.room
      rw [List.flatMap_cons, offers_of_registered registered,
        List.nil_append] at room
      exact { forms with
        listed := fun key' member =>
          forms.listed key' (List.mem_cons_of_mem _ member)
        bucket := fun key' member =>
          forms.bucket key' (List.mem_cons_of_mem _ member)
        seen := fun key' member =>
          forms.seen key' (List.mem_cons_of_mem _ member)
        registered := fun key' member =>
          forms.registered key' (List.mem_cons_of_mem _ member)
        room := room
        apart := fun key' member =>
          forms.apart key' (List.mem_cons_of_mem _ member) }
  | false =>
      have fresh : ¬ u.formingByKey.contains key = true := by
        rw [same, registered]
        exact Bool.false_ne_true
      rw [if_neg fresh] at wellFormed ⊢
      have opens : Opens u key (u.openingPicks policy key now)
          (u.makeForming policy key now) := opens_makeForming
      have picks := forms.picks registered
      have offered : ∀ id ∈ u.openingPicks policy key now,
          id ∈ s.offers policy now key := fun id member => picks.subset member
      have fairness := opens.fairness
      rw [noteRequest_congr forms.fixed] at fairness
      have different : ∀ other ∈ rest, key ≠ other := by
        intro other member equal
        rw [equal] at once
        exact once member
      constructor
      · exact wellFormed
      · exact forms.fixed.trans opens.fixed
      · exact fun other member =>
          forms.listed other (List.mem_cons_of_mem _ member)
      · intro other member
        rw [opens.bucket (different other member)]
        exact forms.bucket other (List.mem_cons_of_mem _ member)
      · intro other member id queued
        have before := forms.seen other (List.mem_cons_of_mem _ member) id
          queued
        have unpicked : id ∉ u.openingPicks policy key now := by
          intro picked
          rw [openingPicks_eq] at picked
          have keyed := forms.wellFormed.queued key id
            (mem_of_fillPicks _ picked)
          rw [← forms.bucket other (List.mem_cons_of_mem _ member)] at queued
          have keyed' := forms.wellFormed.queued other id queued
          rw [keyed] at keyed'
          exact different other member (Option.some.inj keyed')
        rw [opens.requests id, before]
        cases s.requests[id]? with
        | none => rfl
        | some r => simp [seenAfter, unpicked]
      · intro other member
        rw [opens.formingByKey, Std.ExtTreeMap.contains_insert,
          ← forms.registered other (List.mem_cons_of_mem _ member)]
        simp [different other member]
      · intro t capped
        rw [fairness, ← forms.held t capped]
        refine (noteRequests_other u.fairness fun id member tenant => ?_).2
        have listed := offered id member
        rw [offers_of_unregistered registered, List.mem_dedup,
          List.mem_filter] at listed
        have free := listed.2
        unfold placeable at free
        rw [tenant, capped] at free
        simp at free
      · intro t
        have before := forms.room t
        rw [List.flatMap_cons, workOf_append] at before
        have noted := amount_noteRequests_le (s := s) u.fairness
          (u.openingPicks policy key now) t
        have fewer := workOf_le_of_subperm (s := s) picks t
        rw [fairness]
        omega
      · intro other member apart id listed
        have before := forms.apart other (List.mem_cons_of_mem _ member) apart
          id listed
        have noted := noteRequests_other (s := s) (t := s.tenantOf id)
          u.fairness fun id' member' => apart id listed key
            (forms.listed key List.mem_cons_self) (different other member) id'
            (offered id' member')
        rw [fairness, noted.1, noted.2]
        exact before

end Forms

/-! Two orders of the keys. -/

namespace Renamed

variable {ordered : Prop} {rename rename' : Equiv.Perm BatchId}
  {s s' s'' : Impl}

theorem refl (ordered : Prop) (s : Impl) :
    Renamed ordered (Equiv.refl BatchId) s s where
  requests _ := rfl
  batches := by
    intro bid
    rw [Equiv.refl_apply]
    cases s.batches[bid]? with
    | none => exact .none
    | some b => exact .some (BatchRec.Alike.refl ordered b)
  waitingIndex := rfl
  formingByKey key := by
    cases s.formingByKey[key]? with
    | none => rfl
    | some bid => rfl
  sealedOrder := (List.map_id _).symm
  fairness := rfl
  workers := rfl
  merged := rfl
  nextBatch := rfl
  unused _ _ := rfl

theorem trans (first : Renamed ordered rename s s')
    (second : Renamed ordered rename' s' s'') :
    Renamed ordered (rename.trans rename') s s'' where
  requests id := (second.requests id).trans (first.requests id)
  batches := by
    intro bid
    rw [Equiv.trans_apply]
    cases found : s.batches[bid]? with
    | none =>
        rw [second.batches.missing (first.batches.missing found)]
        exact .none
    | some b =>
        obtain ⟨b', found', alike⟩ := first.batch found
        obtain ⟨b'', found'', alike'⟩ := second.batch found'
        rw [found'']
        exact .some (alike.trans alike')
  waitingIndex := second.waitingIndex.trans first.waitingIndex
  formingByKey key := by
    rw [second.formingByKey, first.formingByKey, Option.map_map]
    rfl
  sealedOrder := by
    rw [second.sealedOrder, first.sealedOrder, List.map_map]
    rfl
  fairness := second.fairness.trans first.fairness
  workers := second.workers.trans first.workers
  merged := second.merged.trans first.merged
  nextBatch := second.nextBatch.trans first.nextBatch
  unused bid later := by
    rw [Equiv.trans_apply, first.unused bid later]
    apply second.unused
    rw [first.nextBatch]
    exact later

theorem formAll (renamed : Renamed ordered rename s s')
    (policy : BatchPolicy) (now : TimePoint) (keys : List CompatibilityKey) :
    Renamed ordered rename
      (Transition.run (Impl.formMissing policy now) s keys)
      (Transition.run (Impl.formMissing policy now) s' keys) := by
  induction keys generalizing s s' with
  | nil => exact renamed
  | cons key keys induction =>
      exact induction (renamed.formMissing policy now key)

end Renamed

section Orders

variable {policy : BatchPolicy} {now : TimePoint} {s u : Impl}
  {key first second : CompatibilityKey} {rest keys keys' : List CompatibilityKey}

theorem Forms.skip (forms : Forms policy now s u (key :: rest))
    (registered : s.formingByKey.contains key = true) :
    formMissing policy now u key = u := by
  unfold formMissing
  rw [forms.registered key List.mem_cons_self, if_pos registered]

theorem Forms.opens (forms : Forms policy now s u (key :: rest))
    (unregistered : s.formingByKey.contains key = false) :
    Makes policy now u key (u.openingPicks policy key now)
      (formMissing policy now u key) := by
  unfold formMissing
  rw [forms.registered key List.mem_cons_self, if_neg (by simp [unregistered])]
  exact makes_makeForming

/-- Two keys one of which comes first. -/
theorem renamed_two (forms : Forms policy now s u (first :: second :: rest))
    (nodup : (first :: second :: rest).Nodup)
    (free : s.TotalsFree policy now first)
    (free' : s.TotalsFree policy now second) :
    ∃ rename : Equiv.Perm BatchId,
      Renamed (s.maxWorkerBatchSize ≠ 0) rename
        (formMissing policy now (formMissing policy now u first) second)
        (formMissing policy now (formMissing policy now u second) first) := by
  have swapped : (second :: first :: rest).Perm (first :: second :: rest) :=
    List.Perm.swap first second rest
  have forms' := forms.perm swapped
  have nodup' := swapped.nodup_iff.mpr nodup
  have afterFirst := forms.step (List.nodup_cons.mp nodup).1
  have afterSecond := forms'.step (List.nodup_cons.mp nodup').1
  have different : first ≠ second := by
    rintro rfl
    exact (List.nodup_cons.mp nodup).1 List.mem_cons_self
  cases registered : s.formingByKey.contains first with
  | true =>
      rw [forms.skip registered, afterSecond.skip registered]
      exact ⟨_, Renamed.refl _ _⟩
  | false =>
      cases registered' : s.formingByKey.contains second with
      | true =>
          rw [forms'.skip registered', afterFirst.skip registered']
          exact ⟨_, Renamed.refl _ _⟩
      | false =>
          have same := forms.picksAgree afterSecond registered free
          have same' := forms'.picksAgree afterFirst registered' free'
          exact ⟨_, renamed_swap forms.wellFormed different
            (forms.opens registered) (afterFirst.opens registered')
            (forms'.opens registered') (afterSecond.opens registered) same.1
            same'.1 fun sized => ⟨same.2 sized, same'.2 sized⟩⟩

/-- All keys in another order. -/
theorem renamed_formAll (permuted : keys.Perm keys')
    (forms : Forms policy now s u keys) (nodup : keys.Nodup)
    (free : ∀ key ∈ keys, s.TotalsFree policy now key) :
    ∃ rename : Equiv.Perm BatchId,
      Renamed (s.maxWorkerBatchSize ≠ 0) rename
        (Transition.run (formMissing policy now) u keys)
        (Transition.run (formMissing policy now) u keys') := by
  induction permuted generalizing u with
  | nil => exact ⟨_, Renamed.refl _ _⟩
  | cons key _ induction =>
      exact induction (forms.step (List.nodup_cons.mp nodup).1)
        (List.nodup_cons.mp nodup).2
        fun key' member => free key' (List.mem_cons_of_mem _ member)
  | swap first second rest =>
      obtain ⟨rename, renamed⟩ := renamed_two forms nodup
        (free second List.mem_cons_self)
        (free first (List.mem_cons_of_mem _ List.mem_cons_self))
      exact ⟨rename, renamed.formAll policy now rest⟩
  | trans permuted _ induction induction' =>
      obtain ⟨rename, renamed⟩ := induction forms nodup free
      obtain ⟨rename', renamed'⟩ := induction'
        (forms.perm permuted.symm) (permuted.nodup_iff.mp nodup)
        fun key member => free key (permuted.mem_iff.mpr member)
      exact ⟨rename.trans rename', renamed.trans renamed'⟩

end Orders

/-- The same requests are together in forming and in sealed batches, up to the
ids of the batches. -/
def SamePartition (s s' : Impl) : Prop :=
  ∃ rename : Equiv.Perm BatchId, ∀ bid : BatchId,
    (s'.batches[rename bid]?).bind BatchRec.block =
      (s.batches[bid]?).bind BatchRec.block

theorem Renamed.samePartition {ordered : Prop} {rename : Equiv.Perm BatchId}
    {s s' : Impl} (renamed : Renamed ordered rename s s') :
    SamePartition s s' := by
  refine ⟨rename, ?_⟩
  intro bid
  cases found : s.batches[bid]? with
  | none =>
      rw [renamed.batches.missing found]
  | some b =>
      obtain ⟨b', found', alike⟩ := renamed.batch found
      rw [found']
      show BatchRec.block b' = BatchRec.block b
      unfold BatchRec.block
      rw [alike.state, alike.key]
      split
      · have members : (b'.members : Multiset RequestId) = b.members :=
          Multiset.coe_eq_coe.mpr alike.members
        rw [members]
      · rfl

/-- In which order a tick comes to the buckets of the index does not show in
which requests it places together. -/
theorem samePartition_of_orders {policy : BatchPolicy} {s : Impl}
    (reachable : Reachable policy s) (order order' : List CompatibilityKey)
    (now : TimePoint)
    (free : ∀ key ∈ (s.expireLocked policy order now).waitingIndex.keys,
      (s.expireLocked policy order now).TotalsFree policy now key) :
    SamePartition (s.doTick policy order now)
      (s.doTick policy order' now) := by
  have wellFormed := (WellFormed.tickRule policy now).expireLocked
    (wellFormed_of_reachable reachable) order
  have expired := expireLocked_order policy s order' order now
  unfold doTick tickUntilSizePass
  dsimp only
  rw [expired]
  generalize s.expireLocked policy order now = e at wellFormed free
  have enumerated : ∀ order, ((e.waitingIndex.enumerate order).map
      (·.1)).Perm e.waitingIndex.keys := by
    intro order
    rw [← Std.ExtTreeMap.map_fst_toList_eq_keys]
    exact (List.perm_insertionSort _ _).map _
  have nodup : e.waitingIndex.keys.Nodup := Std.ExtTreeMap.nodup_keys
  have forms : Forms policy now e e _ :=
    Forms.refl wellFormed (enumerated order)
  obtain ⟨rename, formed⟩ := renamed_formAll
    ((enumerated order).trans (enumerated order').symm) forms
    ((enumerated order).nodup_iff.mpr nodup)
    fun key member => free key ((enumerated order).mem_iff.mp member)
  have passed := (formed.sealPass policy now).mergePass policy
  have kept := (workersRule policy now e.workers).passes ⟨wellFormed, rfl⟩
  by_cases unsized : e.maxWorkerBatchSize = 0
  · have without : ∀ order, (((e.formPass policy order now).sealPass policy
        now).mergePass policy).maxWorkerBatchSize = 0 := by
      intro order
      rw [← unsized]
      unfold maxWorkerBatchSize
      rw [(kept order).2]
    rw [sizePass_of_unsized (without order),
      sizePass_of_unsized (without order')]
    exact passed.samePartition
  · exact (passed.sizePass unsized).samePartition

end Impl

/-- Two models wait, each for another tenant. -/
theorem samePartition_of_two_tenants :
    ∃ s : Impl, s.waitingIndex.keys.length = 2 ∧
      Impl.SamePartition (s.doTick {} s.waitingIndex.keys 1)
        (s.doTick {} s.waitingIndex.keys.reverse 1) := by
  obtain ⟨ops, given⟩ : ∃ ops : List Op, ops =
      [.submit { minimalRequest with tenant := { value := 1 } } 0,
        .submit { minimalRequest with
          tenant := { value := 2 }, descriptor := KnownKeys.otherModel } 0] :=
    ⟨_, rfl⟩
  have apart : ∀ key ∈ ((run {} ops).expireLocked {}
        (run {} ops).waitingIndex.keys 1).waitingIndex.keys,
      ((run {} ops).expireLocked {}
        (run {} ops).waitingIndex.keys 1).SharesNoTenant {} 1 key := by
    rw [given, run_eq_runKnown .twoModels]
    unfold Impl.SharesNoTenant
    decide +kernel
  refine ⟨run {} ops, ?_, ?_⟩
  · rw [given, run_eq_runKnown .twoModels]
    decide +kernel
  · exact Impl.samePartition_of_orders (reachable_run {} ops) _ _ 1
      fun key member => .inl (apart key member)

end BatchFabric
