import BatchFabric.Safety.Renaming

namespace BatchFabric.Impl

open OrderedMap

/-! The passes of a tick that follow the forming of batches, on two states whose
batches go by different ids. -/

namespace Renamed

variable {ordered : Prop} {rename : Equiv.Perm BatchId} {s s' : Impl}

/-! Sealing. -/

theorem refill (renamed : Renamed ordered rename s s')
    (policy : BatchPolicy) (now : TimePoint) (bid : BatchId) :
    Renamed ordered rename (s.refill policy now bid)
      (s'.refill policy now (rename bid)) := by
  unfold Impl.refill
  cases found : s.batches[bid]? with
  | none =>
      rw [renamed.batches.missing found]
      exact renamed
  | some b =>
      obtain ⟨b', found', alike⟩ := renamed.batch found
      rw [found']
      dsimp only
      rw [alike.key]
      exact (renamed.fillForming policy bid b.key now).setAllowedWait policy
        bid now

theorem remainingCandidates (renamed : Renamed ordered rename s s')
    (key : CompatibilityKey) :
    s'.remainingCandidates key = s.remainingCandidates key := by
  unfold Impl.remainingCandidates
  rw [renamed.bucket]
  apply List.filterMap_congr
  intro m _
  rcases found_of_seen (renamed.requests m) with
    ⟨none, none'⟩ | ⟨r, r', found, found', metadata, submitted, _, state⟩
  · rw [none, none']
  · rw [found, found']
    dsimp only
    unfold RequestRec.toCandidate
    rw [metadata, submitted, state]

theorem decidesToSeal (renamed : Renamed ordered rename s s')
    (policy : BatchPolicy) (bid : BatchId) (now : TimePoint) :
    s'.decidesToSeal policy (rename bid) now =
      s.decidesToSeal policy bid now := by
  unfold Impl.decidesToSeal
  cases found : s.batches[bid]? with
  | none => rw [renamed.batches.missing found]
  | some b =>
      obtain ⟨b', found', alike⟩ := renamed.batch found
      rw [found']
      dsimp only
      rw [alike.key, renamed.remainingCandidates]
      unfold BatchFormer.decide BatchRec.toFormerBatch
      dsimp only
      rw [alike.accum, alike.allowedWaitNs, alike.formedNs]

theorem decidePass (renamed : Renamed ordered rename s s')
    (policy : BatchPolicy) (now : TimePoint) (bids : List BatchId) :
    Renamed ordered rename (Impl.decidePass policy now s bids).1
        (Impl.decidePass policy now s' (bids.map rename)).1 ∧
      (Impl.decidePass policy now s' (bids.map rename)).2 =
        (Impl.decidePass policy now s bids).2.map rename := by
  induction bids generalizing s s' with
  | nil => exact ⟨renamed, rfl⟩
  | cons bid rest induction =>
      have filled := renamed.refill policy now bid
      obtain ⟨passed, decided⟩ := induction filled
      rw [List.map_cons, Impl.decidePass, Impl.decidePass]
      dsimp only
      rw [filled.decidesToSeal, decided]
      refine ⟨passed, ?_⟩
      split
      · rfl
      · rfl

theorem advance {source target : RequestState} {r r' : RequestRec}
    (seen : r'.seen = r.seen) :
    (r'.advance source target).seen = (r.advance source target).seen := by
  have state : r'.state = r.state := congrArg Prod.snd seen
  have fixed : r'.fixed = r.fixed := congrArg Prod.fst seen
  unfold RequestRec.advance
  rw [state]
  split
  · exact congrArg (fun fixed => (fixed, target)) fixed
  · exact seen

theorem sealForming (renamed : Renamed ordered rename s s') {b b' : BatchRec}
    (alike : BatchRec.Alike ordered rename b b') (bid : BatchId)
    (reason reason' : SealReason) (now : TimePoint) :
    Renamed ordered rename (s.sealForming bid b reason now)
      (s'.sealForming (rename bid) b' reason' now) where
  requests := by
    intro id
    unfold Impl.sealForming
    dsimp only
    rw [modifyAll_perm _ alike.members]
    apply view_modifyAll _ renamed.requests b.members id
    intro r r' seen
    exact advance seen
  batches := renamed.batches.modify rename.injective bid
    fun _ _ _ alike => { alike with state := rfl }
  waitingIndex := renamed.waitingIndex
  formingByKey := by
    unfold Impl.sealForming
    dsimp only
    rw [alike.key]
    exact erase_image renamed.formingByKey b.key
  sealedOrder := by
    unfold Impl.sealForming
    dsimp only
    rw [renamed.sealedOrder, List.map_append]
    rfl
  fairness := renamed.fairness
  workers := renamed.workers
  merged := renamed.merged
  nextBatch := renamed.nextBatch
  unused := renamed.unused

theorem sealDecided (renamed : Renamed ordered rename s s') (now : TimePoint)
    (bid : BatchId) :
    Renamed ordered rename (s.sealDecided now bid)
      (s'.sealDecided now (rename bid)) := by
  unfold Impl.sealDecided doSeal
  cases found : s.batches[bid]? with
  | none =>
      rw [renamed.batches.missing found]
      exact renamed
  | some b =>
      obtain ⟨b', found', alike⟩ := renamed.batch found
      rw [found']
      dsimp only
      rw [alike.state]
      split
      · exact renamed
      · exact renamed.sealForming alike bid _ _ now

theorem sealPass (renamed : Renamed ordered rename s s')
    (policy : BatchPolicy) (now : TimePoint) :
    Renamed ordered rename (s.sealPass policy now)
      (s'.sealPass policy now) := by
  have registered : s'.formingByKey.toList.map (·.2) =
      (s.formingByKey.toList.map (·.2)).map rename := by
    rw [toList_of_image renamed.formingByKey, List.map_map, List.map_map]
    rfl
  unfold Impl.sealPass
  rw [registered]
  obtain ⟨passed, decided⟩ := renamed.decidePass policy now
    (s.formingByKey.toList.map (·.2))
  dsimp only
  rw [decided]
  unfold Transition.run
  rw [List.foldl_map]
  exact Transition.run_related
    (fun _ _ bid held => held.sealDecided now bid) passed _

/-! Merging. -/

theorem add_swap (a b c : UInt64) : a + b + c = a + c + b := by
  rw [UInt64.add_assoc, UInt64.add_comm b c, ← UInt64.add_assoc]

theorem accumOf_perm (requests : Map RequestId RequestRec)
    {members members' : List RequestId} (permuted : members'.Perm members) :
    accumOf requests members' = accumOf requests members := by
  unfold accumOf
  apply permuted.foldl_eq'
  intro x _ y _ accum
  cases requests[x]? with
  | none => rfl
  | some r =>
      cases requests[y]? with
      | none => rfl
      | some q =>
          dsimp only
          simp only [BatchAccum.mk.injEq, true_and]
          exact ⟨add_swap _ _ _, add_swap _ _ _, add_swap _ _ _,
            add_swap _ _ _⟩

theorem recompute {requests requests' : Map RequestId RequestRec}
    {b b' : BatchRec} (fixed : SameFixed requests requests')
    (alike : BatchRec.Alike ordered rename b
      { b' with accum := b.accum }) :
    BatchRec.Alike ordered rename (recomputeAccum requests b)
      (recomputeAccum requests' b') :=
  { alike with
    accum := by
      unfold recomputeAccum
      dsimp only
      rw [accumOf_congr fixed, accumOf_perm requests alike.members] }

theorem isSealedBatch (renamed : Renamed ordered rename s s')
    (bid : BatchId) : s'.isSealedBatch (rename bid) = s.isSealedBatch bid := by
  unfold Impl.isSealedBatch
  cases found : s.batches[bid]? with
  | none => rw [renamed.batches.missing found]
  | some b =>
      obtain ⟨b', found', alike⟩ := renamed.batch found
      rw [found']
      dsimp only
      rw [alike.state]

theorem keyOfBatch (renamed : Renamed ordered rename s s') (bid : BatchId) :
    s'.keyOfBatch (rename bid) = s.keyOfBatch bid := by
  unfold Impl.keyOfBatch
  cases found : s.batches[bid]? with
  | none => rw [renamed.batches.missing found]
  | some b =>
      obtain ⟨b', found', alike⟩ := renamed.batch found
      rw [found']
      exact alike.key

theorem mergePairs (renamed : Renamed ordered rename s s') :
    s'.mergePairs = s.mergePairs.map (Prod.map rename rename) := by
  have candidates : s'.sealedOrder.filter s'.isSealedBatch =
      (s.sealedOrder.filter s.isSealedBatch).map rename := by
    rw [renamed.sealedOrder, List.filter_map]
    congr 1
    apply List.filter_congr
    intro bid _
    exact renamed.isSealedBatch bid
  have grouped := toList_of_image (groupBy_image
    (s.sealedOrder.filter s.isSealedBatch)
    fun bid _ => renamed.keyOfBatch bid)
  unfold Impl.mergePairs
  rw [candidates, grouped, List.flatMap_map, List.map_flatMap]
  apply List.flatMap_congr
  intro entry _
  unfold neighbours
  rw [← List.map_tail, List.zip_map]

theorem canMerge {policy : BatchPolicy} {a a' b b' : BatchRec}
    (first : BatchRec.Alike ordered rename a a')
    (second : BatchRec.Alike ordered rename b b') :
    Impl.canMerge policy a' b' = Impl.canMerge policy a b := by
  unfold Impl.canMerge
  rw [first.key, first.phase, first.state, first.accum, second.key,
    second.phase, second.state, second.accum]

theorem mergeInto (renamed : Renamed ordered rename s s') {a a' b b' : BatchRec}
    (first : BatchRec.Alike ordered rename a a')
    (second : BatchRec.Alike ordered rename b b') (aid bid : BatchId) :
    Renamed ordered rename (s.mergeInto aid bid a b)
      (s'.mergeInto (rename aid) (rename bid) a' b') := by
  have moved : ∀ id : RequestId,
      ((modifyAll s'.requests b'.members
        (RequestRec.setBatch (rename aid)))[id]?).map RequestRec.seen =
      ((modifyAll s.requests b.members
        (RequestRec.setBatch aid))[id]?).map RequestRec.seen := by
    intro id
    have kept : ∀ batch (r : RequestRec), (r.setBatch batch).seen = r.seen :=
      fun _ _ => rfl
    rw [map_getElem?_modifyAll (kept _), map_getElem?_modifyAll (kept _)]
    exact renamed.requests id
  exact {
    requests := moved
    batches := by
      apply Corresponds.modify _ rename.injective bid
      · intro _ _ _ alike
        exact { alike with state := rfl }
      · apply renamed.batches.insert rename.injective aid
        apply recompute (SameFixed.of_seen moved)
        exact { first with
          accum := rfl
          members := first.members.append second.members
          inOrder := fun inOrder => by
            dsimp only
            rw [first.inOrder inOrder, second.inOrder inOrder] }
    waitingIndex := renamed.waitingIndex
    formingByKey := by
      have registered : s'.formingByKey[b'.key]? = some (rename bid) ↔
          s.formingByKey[b.key]? = some bid := by
        rw [second.key, renamed.formingByKey, Option.map_eq_some_iff]
        constructor
        · rintro ⟨other, found, equal⟩
          rw [found, rename.injective equal]
        · intro found
          exact ⟨bid, found, rfl⟩
      intro key
      unfold Impl.mergeInto
      dsimp only
      by_cases at_key : s.formingByKey[b.key]? = some bid
      · rw [if_pos at_key, if_pos (registered.mpr at_key), second.key]
        exact insert_image renamed.formingByKey b.key aid key
      · rw [if_neg at_key, if_neg fun found => at_key (registered.mp found)]
        exact renamed.formingByKey key
    sealedOrder := by
      unfold Impl.mergeInto
      dsimp only
      rw [renamed.sealedOrder, List.filter_map]
      congr 1
      apply List.filter_congr
      intro other _
      simp
    fairness := renamed.fairness
    workers := renamed.workers
    merged := congrArg (· + 1) renamed.merged
    nextBatch := renamed.nextBatch
    unused := renamed.unused }

theorem mergeNeighbours (renamed : Renamed ordered rename s s')
    (policy : BatchPolicy) (pair : BatchId × BatchId) :
    Renamed ordered rename (s.mergeNeighbours policy pair)
      (s'.mergeNeighbours policy (Prod.map rename rename pair)) := by
  obtain ⟨aid, bid⟩ := pair
  unfold Impl.mergeNeighbours
  rw [renamed.merged]
  split
  · unfold doMerge
    dsimp only [Prod.map]
    cases foundA : s.batches[aid]? with
    | none =>
        rw [renamed.batches.missing foundA]
        exact renamed
    | some a =>
        obtain ⟨a', foundA', first⟩ := renamed.batch foundA
        rw [foundA']
        cases foundB : s.batches[bid]? with
        | none =>
            rw [renamed.batches.missing foundB]
            exact renamed
        | some b =>
            obtain ⟨b', foundB', second⟩ := renamed.batch foundB
            rw [foundB']
            dsimp only
            rw [canMerge first second]
            split
            · exact renamed
            · exact renamed.mergeInto first second aid bid
  · exact renamed

theorem mergePass (renamed : Renamed ordered rename s s')
    (policy : BatchPolicy) :
    Renamed ordered rename (s.mergePass policy) (s'.mergePass policy) := by
  unfold Impl.mergePass
  rw [renamed.mergePairs]
  split
  · unfold Transition.run
    rw [List.foldl_map]
    exact Transition.run_related
      (fun _ _ pair held => held.mergeNeighbours policy pair) renamed _
  · exact renamed

/-! Splitting cuts the members in two, so their order counts. -/

section Splitting

variable {b b' : BatchRec} (inOrder : ordered)

theorem seen_splitRequests (renamed : Renamed ordered rename s s')
    (b b' : BatchRec) (bid child bid' child' : BatchId) (id : RequestId) :
    ((s'.splitRequests bid' child' b')[id]?).map RequestRec.seen =
      ((s.splitRequests bid child b)[id]?).map RequestRec.seen := by
  have kept : ∀ batch (r : RequestRec), (r.setBatch batch).seen = r.seen :=
    fun _ _ => rfl
  unfold Impl.splitRequests
  rw [map_getElem?_modifyAll (kept _), map_getElem?_modifyAll (kept _),
    map_getElem?_modifyAll (kept _), map_getElem?_modifyAll (kept _)]
  exact renamed.requests id

theorem splitFirst {requests requests' : Map RequestId RequestRec}
    (fixed : SameFixed requests requests')
    (alike : BatchRec.Alike ordered rename b b') {firstid : BatchId}
    (kept : rename firstid = firstid) (bid child : BatchId) :
    BatchRec.Alike ordered rename
      (Impl.splitFirst requests bid firstid child b)
      (Impl.splitFirst requests' (rename bid) firstid child b') := by
  apply recompute fixed
  exact { alike with
    id := kept.symm
    state := rfl
    accum := rfl }

include inOrder

theorem halves (alike : BatchRec.Alike ordered rename b b') :
    firstHalf b' = firstHalf b ∧ secondHalf b' = secondHalf b := by
  unfold firstHalf secondHalf
  rw [alike.inOrder inOrder]
  exact ⟨rfl, rfl⟩

theorem splitChild {requests requests' : Map RequestId RequestRec}
    (fixed : SameFixed requests requests')
    (alike : BatchRec.Alike ordered rename b b') {child : BatchId}
    (kept : rename child = child) (bid : BatchId) :
    BatchRec.Alike ordered rename (Impl.splitChild requests bid child b)
      (Impl.splitChild requests' (rename bid) child b') := by
  have same := (halves inOrder alike).2
  apply recompute fixed
  exact {
    id := kept.symm
    state := alike.state
    key := alike.key
    phase := alike.phase
    accum := rfl
    formedNs := alike.formedNs
    allowedWaitNs := alike.allowedWaitNs
    members := by rw [same]
    inOrder := fun _ => same }

theorem splitParent {requests requests' : Map RequestId RequestRec}
    (fixed : SameFixed requests requests')
    (alike : BatchRec.Alike ordered rename b b') (child : BatchId) :
    BatchRec.Alike ordered rename (Impl.splitParent requests child b)
      (Impl.splitParent requests' child b') := by
  have same := (halves inOrder alike).1
  apply recompute fixed
  exact { alike with
    accum := rfl
    members := by
      dsimp only
      rw [same]
    inOrder := fun _ => same }

theorem splitSealed (renamed : Renamed ordered rename s s')
    (alike : BatchRec.Alike ordered rename b b') (bid : BatchId) :
    Renamed ordered rename (s.splitSealed bid b)
      (s'.splitSealed (rename bid) b') := by
  have child : rename { value := s.nextBatch } = { value := s.nextBatch } :=
    renamed.unused _ (Nat.le_refl _)
  have firstid : rename { value := s.nextBatch + 1 } =
      { value := s.nextBatch + 1 } := renamed.unused _ (Nat.le_succ _)
  have seen := renamed.seen_splitRequests b b' bid { value := s.nextBatch }
    (rename bid) { value := s.nextBatch }
  have fixed := SameFixed.of_seen seen
  have parent := splitParent inOrder fixed alike { value := s.nextBatch }
  unfold Impl.splitSealed
  rw [renamed.nextBatch]
  exact {
    requests := seen
    batches := by
      refine Corresponds.insert_same (Corresponds.insert_same
        (renamed.batches.insert rename.injective bid ?_)
        rename.injective child ?_) rename.injective firstid ?_
      · exact { parent with state := rfl }
      · exact { splitChild inOrder fixed alike child bid with
          state := alike.state }
      · exact splitFirst fixed parent firstid bid _
    waitingIndex := renamed.waitingIndex
    formingByKey := renamed.formingByKey
    sealedOrder := by
      dsimp only
      rw [renamed.sealedOrder, List.map_append,
        List.map_erase rename.injective]
      rw [List.map_singleton, firstid]
    fairness := renamed.fairness
    workers := renamed.workers
    merged := renamed.merged
    nextBatch := rfl
    unused := fun bid later => renamed.unused bid (by
      dsimp only at later
      omega) }

theorem splitOpen (renamed : Renamed ordered rename s s')
    (alike : BatchRec.Alike ordered rename b b') (bid : BatchId) :
    Renamed ordered rename (s.splitOpen bid b)
      (s'.splitOpen (rename bid) b') := by
  have child : rename { value := s.nextBatch } = { value := s.nextBatch } :=
    renamed.unused _ (Nat.le_refl _)
  have seen := renamed.seen_splitRequests b b' bid { value := s.nextBatch }
    (rename bid) { value := s.nextBatch }
  have fixed := SameFixed.of_seen seen
  unfold Impl.splitOpen
  rw [renamed.nextBatch]
  exact {
    requests := seen
    batches := Corresponds.insert_same
      (renamed.batches.insert rename.injective bid
        (splitParent inOrder fixed alike _))
      rename.injective child (splitChild inOrder fixed alike child bid)
    waitingIndex := renamed.waitingIndex
    formingByKey := by
      dsimp only
      rw [alike.key]
      exact insert_image renamed.formingByKey b.key bid
    sealedOrder := renamed.sealedOrder
    fairness := renamed.fairness
    workers := renamed.workers
    merged := renamed.merged
    nextBatch := rfl
    unused := fun bid later => renamed.unused bid (Nat.le_of_succ_le later) }

theorem doSplit (renamed : Renamed ordered rename s s') (bid : BatchId) :
    Renamed ordered rename (s.doSplit bid).2 (s'.doSplit (rename bid)).2 := by
  unfold Impl.doSplit
  cases found : s.batches[bid]? with
  | none =>
      rw [renamed.batches.missing found]
      exact renamed
  | some b =>
      obtain ⟨b', found', alike⟩ := renamed.batch found
      have splits : splittable b' = splittable b := by
        unfold splittable
        rw [alike.state, alike.members.length_eq]
      rw [found']
      dsimp only
      rw [splits, alike.state]
      split
      · exact renamed
      · split
        · exact renamed.splitSealed inOrder alike bid
        · exact renamed.splitOpen inOrder alike bid

theorem splitOversized (renamed : Renamed ordered rename s s') (i : Nat) :
    Renamed ordered rename (s.splitOversized i) (s'.splitOversized i) := by
  have oversized : s'.oversizedAt i = (s.oversizedAt i).map rename := by
    unfold Impl.oversizedAt
    rw [renamed.sealedOrder, List.getElem?_map]
    cases s.sealedOrder[i]? with
    | none => rfl
    | some bid =>
        dsimp only [Option.map_some]
        cases found : s.batches[bid]? with
        | none =>
            rw [renamed.batches.missing found]
            rfl
        | some b =>
            obtain ⟨b', found', alike⟩ := renamed.batch found
            have largest : s'.maxWorkerBatchSize = s.maxWorkerBatchSize := by
              unfold Impl.maxWorkerBatchSize
              rw [renamed.workers]
            rw [found']
            dsimp only
            rw [largest, alike.state, alike.accum, alike.id]
            split
            · rfl
            · rfl
  unfold Impl.splitOversized
  rw [oversized]
  cases s.oversizedAt i with
  | none => exact renamed
  | some bid => exact renamed.doSplit inOrder bid

theorem sizePass (renamed : Renamed ordered rename s s') :
    Renamed ordered rename s.sizePass s'.sizePass := by
  unfold Impl.sizePass
  rw [renamed.sealedOrder, List.length_map]
  exact Transition.run_related
    (fun _ _ i held => held.splitOversized inOrder i) renamed _

end Splitting

end Renamed

end BatchFabric.Impl
