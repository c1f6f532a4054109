import BatchFabric.Library.Renaming
import BatchFabric.Safety.Submissions

namespace BatchFabric

open OrderedMap

/-! Two states that hold the same requests in the same batches, where the
batches go by other ids. What a tick does to one it does to the other. -/

/-- What a tick reads of a request. -/
def RequestRec.seen (r : RequestRec) :
    (RequestId × RequestMetadata × TimePoint × CompatibilityKey) ×
      RequestState :=
  (r.fixed, r.state)

/-- What a tick reads of a batch is the same, but for its id. The members come
in the same order where `ordered` holds. -/
structure BatchRec.Alike (ordered : Prop) (rename : BatchId → BatchId)
    (b b' : BatchRec) : Prop where
  id : b'.id = rename b.id
  state : b'.state = b.state
  key : b'.key = b.key
  phase : b'.phase = b.phase
  accum : b'.accum = b.accum
  formedNs : b'.formedNs = b.formedNs
  allowedWaitNs : b'.allowedWaitNs = b.allowedWaitNs
  members : b'.members.Perm b.members
  inOrder : ordered → b'.members = b.members

namespace Impl

structure Renamed (ordered : Prop) (rename : Equiv.Perm BatchId)
    (s s' : Impl) : Prop where
  requests : ∀ id : RequestId,
    (s'.requests[id]?).map RequestRec.seen =
      (s.requests[id]?).map RequestRec.seen
  batches : Corresponds rename (BatchRec.Alike ordered rename) s.batches
    s'.batches
  waitingIndex : s'.waitingIndex = s.waitingIndex
  formingByKey : ∀ key : CompatibilityKey,
    s'.formingByKey[key]? = (s.formingByKey[key]?).map rename
  sealedOrder : s'.sealedOrder = s.sealedOrder.map rename
  fairness : s'.fairness = s.fairness
  workers : s'.workers = s.workers
  merged : s'.stats.batchesMerged = s.stats.batchesMerged
  nextBatch : s'.nextBatch = s.nextBatch
  unused : ∀ bid : BatchId, s.nextBatch ≤ bid.value → rename bid = bid

/-! What is read of the requests. -/

section Requests

variable {requests requests' : Map RequestId RequestRec}

theorem found_of_seen {id : RequestId}
    (same : (requests'[id]?).map RequestRec.seen =
      (requests[id]?).map RequestRec.seen) :
    (requests[id]? = none ∧ requests'[id]? = none) ∨
      ∃ r r', requests[id]? = some r ∧ requests'[id]? = some r' ∧
        r'.metadata = r.metadata ∧ r'.submitted = r.submitted ∧
        r'.key = r.key ∧ r'.state = r.state := by
  cases found : requests[id]? with
  | none =>
      rw [found, Option.map_none, Option.map_eq_none_iff] at same
      exact .inl ⟨rfl, same⟩
  | some r =>
      rw [found] at same
      obtain ⟨r', found', equal⟩ := Option.map_eq_some_iff.mp same
      have fixed := congrArg Prod.fst equal
      refine .inr ⟨r, r', rfl, found', ?_, ?_, ?_, congrArg Prod.snd equal⟩
      · exact congrArg (fun fixed => fixed.2.1) fixed
      · exact congrArg (fun fixed => fixed.2.2.1) fixed
      · exact congrArg (fun fixed => fixed.2.2.2) fixed

theorem SameFixed.of_seen
    (same : ∀ id : RequestId, (requests'[id]?).map RequestRec.seen =
      (requests[id]?).map RequestRec.seen) :
    SameFixed requests requests' := by
  intro id
  have projected := congrArg (Option.map Prod.fst) (same id)
  simp only [Option.map_map] at projected
  exact projected

theorem accumOf_congr (fixed : SameFixed requests requests')
    (members : List RequestId) :
    accumOf requests' members = accumOf requests members := by
  unfold accumOf
  apply List.foldl_ext
  intro accum m _
  rcases fixed.found m with
    ⟨none, none'⟩ | ⟨r, r', found, found', metadata, _⟩
  · rw [none, none']
  · rw [found, found']
    dsimp only
    rw [metadata]

variable {s s' : Impl} (fixed : SameFixed s.requests s'.requests)

include fixed

theorem tenantOf_congr : s'.tenantOf = s.tenantOf := by
  funext id
  unfold tenantOf
  rcases fixed.found id with
    ⟨none, none'⟩ | ⟨r, r', found, found', metadata, _⟩
  · rw [none, none']
  · rw [found, found']
    dsimp only
    rw [metadata]

theorem arrivedBefore_congr : s'.arrivedBefore = s.arrivedBefore := by
  funext x y
  unfold arrivedBefore
  rcases fixed.found x with
    ⟨none, none'⟩ | ⟨r, r', found, found', _, submitted⟩
  · rw [none, none']
  · rw [found, found']
    rcases fixed.found y with
      ⟨none, none'⟩ | ⟨q, q', other, other', _, submittedOther⟩
    · rw [none, none']
    · rw [other, other']
      dsimp only
      rw [submitted, submittedOther]

theorem countTenant_congr {b b' : BatchRec}
    (members : b'.members.Perm b.members) (t : TenantId) :
    s'.countTenant b' t = s.countTenant b t := by
  unfold countTenant
  rw [members.countP_eq]
  congr 1
  apply List.countP_congr
  intro m _
  rcases fixed.found m with
    ⟨none, none'⟩ | ⟨r, r', found, found', metadata, _⟩
  · rw [none, none']
  · rw [found, found']
    dsimp only
    rw [metadata]

end Requests

/-! What a round of filling reads. -/

/-- A queued request that may still be placed. -/
def onOffer (s : Impl) (now : TimePoint) (id : RequestId) : Bool :=
  match s.requests[id]? with
  | none => false
  | some r => isWaitingState r.state && !r.metadata.deadline.expired now

section Filling

variable {policy : BatchPolicy} {now : TimePoint} {s s' : Impl}

theorem onOffer_of_fillable {b : BatchRec} {id : RequestId}
    (fillable : s.fillable policy b now id = true) :
    s.onOffer now id = true := by
  obtain ⟨r, found, waiting, live⟩ := fillable_cases fillable
  unfold onOffer
  rw [found]
  simp [waiting, live]

theorem fillable_congr {b b' : BatchRec} {id : RequestId}
    (fixed : SameFixed s.requests s'.requests)
    (seen : (s'.requests[id]?).map RequestRec.seen =
      (s.requests[id]?).map RequestRec.seen)
    (accum : b'.accum = b.accum) (members : b'.members.Perm b.members)
    (capped : s.onOffer now id = true → policy.fairness.enabled = true →
      s'.fairness.atOutstandingCap policy.fairness (s.tenantOf id) =
        s.fairness.atOutstandingCap policy.fairness (s.tenantOf id)) :
    s'.fillable policy b' now id = s.fillable policy b now id := by
  unfold fillable
  rcases found_of_seen seen with
    ⟨none, none'⟩ | ⟨r, r', found, found', metadata, _, _, state⟩
  · rw [none, none']
  · have fits : BatchFormer.fits b'.toFormerBatch (r'.toCandidate id)
        policy.constraints.budget =
          BatchFormer.fits b.toFormerBatch (r.toCandidate id)
            policy.constraints.budget := by
      unfold BatchFormer.fits BatchFormer.Candidate.amounts
        BatchRec.toFormerBatch RequestRec.toCandidate
      rw [accum, metadata]
    have tenant : s.tenantOf id = r.metadata.tenant := by
      unfold tenantOf
      rw [found]
    rw [found, found']
    dsimp only
    rw [fits, state, metadata, countTenant_congr fixed members]
    cases waiting : isWaitingState r.state with
    | false => rfl
    | true =>
        cases live : r.metadata.deadline.expired now with
        | true => rfl
        | false =>
            cases enabled : policy.fairness.enabled with
            | false => rfl
            | true =>
                have offered : s.onOffer now id = true := by
                  unfold onOffer
                  rw [found]
                  simp [waiting, live]
                rw [← tenant, capped offered enabled]

/-- Two states pick the same request when they find the same candidates
fillable and choose the same tenant. -/
theorem fillPick_congr {bid bid' : BatchId} {cands : List RequestId}
    (fixed : SameFixed s.requests s'.requests)
    (batch : Option.Rel (fun b b' => ∀ id ∈ cands,
        s'.fillable policy b' now id = s.fillable policy b now id)
      s.batches[bid]? s'.batches[bid']?)
    (chosen : ∀ b, s.batches[bid]? = some b →
      s'.fairness.selectNext policy.fairness (groupBy s.tenantOf
          (cands.filter (s.fillable policy b now))).keys =
        s.fairness.selectNext policy.fairness (groupBy s.tenantOf
          (cands.filter (s.fillable policy b now))).keys) :
    s'.fillPick policy bid' cands now = s.fillPick policy bid cands now := by
  unfold fillPick
  cases found : s.batches[bid]? with
  | none =>
      rw [found] at batch
      generalize s'.batches[bid']? = found' at batch
      cases batch with
      | none => rfl
  | some b =>
      have choice := chosen b found
      rw [found] at batch
      generalize s'.batches[bid']? = found' at batch
      cases batch with
      | some agree =>
          dsimp only
          rw [List.filter_congr agree, tenantOf_congr fixed,
            arrivedBefore_congr fixed, choice]

end Filling

/-! The times of a batch do not depend on the order of its members. -/

section Times

variable {policy : BatchPolicy} {now : TimePoint}

/-- The waits a member allows. -/
def waitBounds (policy : BatchPolicy) (now : TimePoint)
    (metadata : RequestMetadata) : List TimePoint :=
  (policy.wait.latencyMaxWaitNs metadata.latency).toList ++
    (if metadata.deadline.hasDeadline &&
        decide (metadata.deadline.remaining now ≥ 0) then
      [metadata.deadline.remaining now]
    else [])

/-- The shortest wait is the least of the bounds. -/
def shortestWait (policy : BatchPolicy)
    (requests : Map RequestId RequestRec) (now : TimePoint)
    (allowed : TimePoint) (id : RequestId) : TimePoint :=
  match requests[id]? with
  | none => allowed
  | some r => (waitBounds policy now r.metadata).foldl min allowed

theorem computeAllowedWait_eq (policy : BatchPolicy)
    (requests : Map RequestId RequestRec) (b : BatchRec) (now : TimePoint) :
    computeAllowedWait policy requests b now =
      if policy.wait.immediateSealWhenSolo && b.accum.count == 1 then 0
      else b.members.foldl (shortestWait policy requests now)
        (if policy.constraints.globalMaxWaitNs > 0 then
          min kNoDeadline policy.constraints.globalMaxWaitNs
        else kNoDeadline) := by
  unfold computeAllowedWait
  dsimp only
  congr 1
  apply List.foldl_ext
  intro allowed id _
  unfold shortestWait
  cases requests[id]? with
  | none => rfl
  | some r =>
      unfold waitBounds
      dsimp only
      rw [List.foldl_append]
      cases policy.wait.latencyMaxWaitNs r.metadata.latency <;>
        cases r.metadata.deadline.hasDeadline <;>
          by_cases future : r.metadata.deadline.remaining now ≥ 0 <;>
            simp [future]

theorem foldl_min_comm (allowed : TimePoint) (first second : List TimePoint) :
    second.foldl min (first.foldl min allowed) =
      first.foldl min (second.foldl min allowed) := by
  rw [← List.foldl_append, ← List.foldl_append]
  apply List.perm_append_comm.foldl_eq'
  intro x _ y _ z
  exact min_right_comm z x y

theorem computeAllowedWait_congr {s s' : Impl} {b b' : BatchRec}
    (fixed : SameFixed s.requests s'.requests)
    (members : b'.members.Perm b.members) (accum : b'.accum = b.accum) :
    computeAllowedWait policy s'.requests b' now =
      computeAllowedWait policy s.requests b now := by
  have each : shortestWait policy s'.requests now =
      shortestWait policy s.requests now := by
    funext allowed id
    unfold shortestWait
    rcases fixed.found id with
      ⟨none, none'⟩ | ⟨r, r', found, found', metadata, _⟩
    · rw [none, none']
    · rw [found, found']
      dsimp only
      rw [metadata]
  rw [computeAllowedWait_eq, computeAllowedWait_eq, accum, each]
  congr 1
  apply members.foldl_eq'
  intro x _ y _ allowed
  unfold shortestWait
  cases s.requests[x]? with
  | none => rfl
  | some r =>
      cases s.requests[y]? with
      | none => rfl
      | some q => exact foldl_min_comm allowed _ _

/-- The arrival of the earliest member. -/
def earliestArrival (requests : Map RequestId RequestRec) (now : TimePoint)
    (members : List RequestId) : TimePoint :=
  members.foldl (fun earliest m =>
    match requests[m]? with
    | none => earliest
    | some r => if r.submitted < earliest then r.submitted else earliest) now

theorem earliestArrival_congr {s s' : Impl}
    {members members' : List RequestId}
    (fixed : SameFixed s.requests s'.requests)
    (permuted : members'.Perm members) :
    earliestArrival s'.requests now members' =
      earliestArrival s.requests now members := by
  have same : earliestArrival s'.requests now members' =
      earliestArrival s.requests now members' := by
    unfold earliestArrival
    apply List.foldl_ext
    intro earliest m _
    rcases fixed.found m with
      ⟨none, none'⟩ | ⟨r, r', found, found', _, submitted⟩
    · rw [none, none']
    · rw [found, found']
      dsimp only
      rw [submitted]
  rw [same]
  unfold earliestArrival
  apply permuted.foldl_eq'
  intro x _ y _ earliest
  cases s.requests[x]? with
  | none => rfl
  | some r =>
      cases s.requests[y]? with
      | none => rfl
      | some q =>
          have least : ∀ arrived earliest : TimePoint,
              (if arrived < earliest then arrived else earliest) =
                min earliest arrived := by
            intro arrived earliest
            rw [min_comm, min_def_lt]
          simp only [least]
          exact min_right_comm earliest r.submitted q.submitted

theorem queuedPhase_congr {s s' : Impl} {key : CompatibilityKey}
    (fixed : SameFixed s.requests s'.requests)
    (bucket : s'.bucket key = s.bucket key) :
    s'.queuedPhase key = s.queuedPhase key := by
  unfold queuedPhase
  rw [bucket]
  cases s.bucket key with
  | nil => rfl
  | cons head rest =>
      dsimp only
      rcases fixed.found head with
        ⟨none, none'⟩ | ⟨r, r', found, found', metadata, _⟩
      · rw [none, none']
      · rw [found, found']
        dsimp only
        rw [metadata]

end Times

/-! Filling. -/

namespace Renamed

variable {ordered : Prop} {rename : Equiv.Perm BatchId} {s s' : Impl}

theorem fixed (renamed : Renamed ordered rename s s') :
    SameFixed s.requests s'.requests :=
  SameFixed.of_seen renamed.requests

theorem bucket (renamed : Renamed ordered rename s s') :
    s'.bucket = s.bucket := by
  unfold Impl.bucket
  rw [renamed.waitingIndex]

theorem batch (renamed : Renamed ordered rename s s') {bid : BatchId}
    {b : BatchRec} (found : s.batches[bid]? = some b) :
    ∃ b', s'.batches[rename bid]? = some b' ∧
      BatchRec.Alike ordered rename b b' :=
  renamed.batches.found found

theorem fillPick (renamed : Renamed ordered rename s s')
    (policy : BatchPolicy) (bid : BatchId) (cands : List RequestId)
    (now : TimePoint) :
    s'.fillPick policy (rename bid) cands now =
      s.fillPick policy bid cands now := by
  apply fillPick_congr renamed.fixed
  · cases found : s.batches[bid]? with
    | none =>
        rw [renamed.batches.missing found]
        exact .none
    | some b =>
        obtain ⟨b', found', alike⟩ := renamed.batch found
        rw [found']
        apply Option.Rel.some
        intro id _
        apply fillable_congr renamed.fixed (renamed.requests id) alike.accum
          alike.members
        intro _ _
        rw [renamed.fairness]
  · intro b _
    rw [renamed.fairness]

theorem addMember {b b' : BatchRec}
    (alike : BatchRec.Alike ordered rename b b') (id : RequestId)
    (metadata : RequestMetadata) :
    BatchRec.Alike ordered rename (b.addMember id metadata)
      (b'.addMember id metadata) where
  id := alike.id
  state := alike.state
  key := alike.key
  phase := alike.phase
  accum := by
    unfold BatchRec.addMember
    dsimp only
    rw [alike.accum, (alike.members.append_right [id]).length_eq]
  formedNs := alike.formedNs
  allowedWaitNs := alike.allowedWaitNs
  members := alike.members.append_right [id]
  inOrder inOrder := congrArg (· ++ [id]) (alike.inOrder inOrder)

theorem place (renamed : Renamed ordered rename s s') (bid : BatchId)
    (key : CompatibilityKey) (pick : RequestId) :
    Renamed ordered rename (s.place bid key pick)
      (s'.place (rename bid) key pick) := by
  have queued : s'.waitingIndex.remove key pick =
      s.waitingIndex.remove key pick := by
    rw [renamed.waitingIndex]
  rcases found_of_seen (renamed.requests pick) with
    ⟨none, none'⟩ | ⟨r, r', found, found', metadata, _⟩
  · unfold Impl.place addMemberToBatch
    rw [none, none']
    exact { renamed with waitingIndex := queued }
  · rw [place_eq found, place_eq found', metadata]
    exact {
      requests := view_modify (by
        intro q q' seen
        exact congrArg (fun seen => (seen.1, RequestState.reserved)) seen)
        renamed.requests pick
      batches := renamed.batches.modify rename.injective bid
        fun _ _ _ alike => addMember alike pick r.metadata
      waitingIndex := queued
      formingByKey := renamed.formingByKey
      sealedOrder := renamed.sealedOrder
      fairness := by
        dsimp only
        rw [renamed.fairness]
      workers := renamed.workers
      merged := renamed.merged
      nextBatch := renamed.nextBatch
      unused := renamed.unused }

theorem fillLoop (renamed : Renamed ordered rename s s')
    (policy : BatchPolicy) (bid : BatchId) (key : CompatibilityKey)
    (now : TimePoint) (fuel : Nat) (cands : List RequestId) :
    Renamed ordered rename (Impl.fillLoop policy bid key now fuel s cands)
      (Impl.fillLoop policy (rename bid) key now fuel s' cands) := by
  induction fuel generalizing s s' cands with
  | zero => exact renamed
  | succ fuel induction =>
      unfold Impl.fillLoop
      rw [renamed.fillPick]
      split
      · exact renamed
      · exact induction (renamed.place bid key _) _

theorem fillForming (renamed : Renamed ordered rename s s')
    (policy : BatchPolicy) (bid : BatchId) (key : CompatibilityKey)
    (now : TimePoint) :
    Renamed ordered rename (s.fillForming policy bid key now)
      (s'.fillForming policy (rename bid) key now) := by
  unfold Impl.fillForming
  rw [renamed.waitingIndex]
  cases found : s.batches[bid]? with
  | none =>
      rw [renamed.batches.missing found]
      exact renamed
  | some b =>
      obtain ⟨b', found', _⟩ := renamed.batch found
      rw [found']
      cases s.waitingIndex[key]? with
      | none => exact renamed
      | some bucket => exact renamed.fillLoop policy bid key now _ bucket

/-! Opening a batch. -/

theorem setAllowedWait (renamed : Renamed ordered rename s s')
    (policy : BatchPolicy) (bid : BatchId) (now : TimePoint) :
    Renamed ordered rename (s.setAllowedWait policy bid now)
      (s'.setAllowedWait policy (rename bid) now) :=
  { renamed with
    batches := renamed.batches.modify rename.injective bid (by
      intro b b' _ alike
      rw [computeAllowedWait_congr renamed.fixed alike.members alike.accum]
      exact { alike with allowedWaitNs := rfl }) }

theorem setFormed (renamed : Renamed ordered rename s s') (bid : BatchId)
    (now : TimePoint) :
    Renamed ordered rename (s.setFormed bid now)
      (s'.setFormed (rename bid) now) :=
  { renamed with
    batches := renamed.batches.modify rename.injective bid (by
      intro b b' _ alike
      exact { alike with
        formedNs := earliestArrival_congr renamed.fixed alike.members }) }

theorem queuedPhase (renamed : Renamed ordered rename s s')
    (key : CompatibilityKey) : s'.queuedPhase key = s.queuedPhase key :=
  queuedPhase_congr renamed.fixed (congrFun renamed.bucket key)

theorem next (renamed : Renamed ordered rename s s') :
    rename { value := s.nextBatch } = { value := s'.nextBatch } := by
  rw [renamed.unused _ (Nat.le_refl _), renamed.nextBatch]

theorem openForming (renamed : Renamed ordered rename s s')
    (key : CompatibilityKey) (now : TimePoint) :
    Renamed ordered rename (s.openForming key now)
      (s'.openForming key now) where
  requests := renamed.requests
  batches := by
    unfold Impl.openForming
    dsimp only
    rw [← renamed.next]
    apply renamed.batches.insert rename.injective
    exact {
      id := renamed.next.symm
      state := rfl
      key := rfl
      phase := renamed.queuedPhase key
      accum := rfl
      formedNs := rfl
      allowedWaitNs := rfl
      members := List.Perm.refl _
      inOrder := fun _ => rfl }
  waitingIndex := renamed.waitingIndex
  formingByKey := by
    unfold Impl.openForming
    dsimp only
    rw [← renamed.next]
    exact insert_image renamed.formingByKey key _
  sealedOrder := renamed.sealedOrder
  fairness := renamed.fairness
  workers := renamed.workers
  merged := renamed.merged
  nextBatch := congrArg (· + 1) renamed.nextBatch
  unused bid later := renamed.unused bid (Nat.le_of_succ_le later)

theorem makeForming (renamed : Renamed ordered rename s s')
    (policy : BatchPolicy) (key : CompatibilityKey) (now : TimePoint) :
    Renamed ordered rename (s.makeForming policy key now)
      (s'.makeForming policy key now) := by
  unfold Impl.makeForming
  dsimp only
  rw [← renamed.next]
  have opened := renamed.openForming key now
  have filled := opened.fillForming policy { value := s.nextBatch } key now
  exact (filled.setAllowedWait policy _ now).setFormed _ now

theorem formMissing (renamed : Renamed ordered rename s s')
    (policy : BatchPolicy) (now : TimePoint) (key : CompatibilityKey) :
    Renamed ordered rename (s.formMissing policy now key)
      (s'.formMissing policy now key) := by
  have registered : s'.formingByKey.contains key =
      s.formingByKey.contains key := by
    rw [Std.ExtTreeMap.contains_eq_isSome_getElem?,
      Std.ExtTreeMap.contains_eq_isSome_getElem?, renamed.formingByKey,
      Option.isSome_map]
  unfold Impl.formMissing
  rw [registered]
  split
  · exact renamed
  · exact renamed.makeForming policy key now

end Renamed

end Impl

end BatchFabric
