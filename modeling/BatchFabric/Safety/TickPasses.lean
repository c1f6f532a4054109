import BatchFabric.Safety.Reachable

namespace BatchFabric

open OrderedMap

/-! What the passes of a tick do to one batch. Filling touches the batch it
fills and no other, sealing the batches decided on, and the passes after it
only sealed ones. -/

/-- What filling leaves of the batch it fills. -/
def BatchRec.opening (b : BatchRec) :
    BatchId × BatchState × CompatibilityKey × TimePoint :=
  (b.id, b.state, b.key, b.formedNs)

namespace Impl

/-- The state in which a tick begins to fill the registered batches. -/
def formedState (policy : BatchPolicy) (s : Impl)
    (order : List CompatibilityKey) (now : TimePoint) : Impl :=
  (s.expireLocked policy order now).formPass policy order now

/-- The batches that a tick goes through, filling and perhaps sealing them. -/
def considered (policy : BatchPolicy) (s : Impl)
    (order : List CompatibilityKey) (now : TimePoint) : List BatchId :=
  (s.formedState policy order now).formingByKey.toList.map (·.2)

/-! Filling. -/

/-- Filling one batch: no other changes, and no request changes in what is
fixed of it. -/
structure FillFrame (bid : BatchId) (s s' : Impl) : Prop where
  requests : ∀ id : RequestId,
    (s'.requests[id]?).map RequestRec.fixed =
      (s.requests[id]?).map RequestRec.fixed
  elsewhere : ∀ other : BatchId, bid ≠ other →
    s'.batches[other]? = s.batches[other]?
  opening : (s'.batches[bid]?).map BatchRec.opening =
    (s.batches[bid]?).map BatchRec.opening
  registry : s'.formingByKey = s.formingByKey
  order : s'.sealedOrder = s.sealedOrder

namespace FillFrame

variable {bid : BatchId} {s s' s'' : Impl}

theorem refl (bid : BatchId) (s : Impl) : FillFrame bid s s :=
  ⟨fun _ => rfl, fun _ _ => rfl, rfl, rfl, rfl⟩

theorem trans (first : FillFrame bid s s') (second : FillFrame bid s' s'') :
    FillFrame bid s s'' where
  requests id := (second.requests id).trans (first.requests id)
  elsewhere other different :=
    (second.elsewhere other different).trans (first.elsewhere other different)
  opening := second.opening.trans first.opening
  registry := second.registry.trans first.registry
  order := second.order.trans first.order

theorem place {pick : RequestId} {r : RequestRec}
    (request : s.requests[pick]? = some r) (bid : BatchId)
    (key : CompatibilityKey) : FillFrame bid s (s.place bid key pick) := by
  rw [place_eq request]
  exact {
    requests := map_getElem?_modify (fun _ => by rfl) s.requests pick
    elsewhere := fun other different => by
      rw [getElem?_modify, if_neg different]
    opening := map_getElem?_modify (fun _ => by rfl) s.batches bid bid
    registry := rfl
    order := rfl }

theorem fillLoop (policy : BatchPolicy) (bid : BatchId)
    (key : CompatibilityKey) (now : TimePoint) (fuel : Nat) (s : Impl)
    (cands : List RequestId) :
    FillFrame bid s (Impl.fillLoop policy bid key now fuel s cands) := by
  induction fuel generalizing s cands with
  | zero => exact refl bid s
  | succ fuel induction =>
      unfold Impl.fillLoop
      cases picked : s.fillPick policy bid cands now with
      | none => exact refl bid s
      | some pick =>
          obtain ⟨b, _, _, fillable⟩ := fillPick_cases picked
          obtain ⟨r, request, _⟩ := fillable_cases fillable
          exact (place request bid key).trans (induction _ _)

theorem fillForming (policy : BatchPolicy) (s : Impl) (bid : BatchId)
    (key : CompatibilityKey) (now : TimePoint) :
    FillFrame bid s (s.fillForming policy bid key now) := by
  unfold Impl.fillForming
  split
  · exact fillLoop policy bid key now _ s _
  · exact refl bid s

theorem setAllowedWait (policy : BatchPolicy) (s : Impl) (bid : BatchId)
    (now : TimePoint) : FillFrame bid s (s.setAllowedWait policy bid now) where
  requests _ := rfl
  elsewhere other different := by
    unfold Impl.setAllowedWait
    dsimp only
    rw [getElem?_modify, if_neg different]
  opening := map_getElem?_modify (fun _ => by rfl) s.batches bid bid
  registry := rfl
  order := rfl

theorem refill (policy : BatchPolicy) (now : TimePoint) (s : Impl)
    (bid : BatchId) : FillFrame bid s (s.refill policy now bid) := by
  unfold Impl.refill
  split
  · exact refl bid s
  · exact (fillForming policy s bid _ now).trans
      (setAllowedWait policy _ bid now)

/-- The filled batch is still there. -/
theorem found_after (frame : FillFrame bid s s') {other : BatchId}
    {b : BatchRec} (found : s.batches[other]? = some b) :
    ∃ b', s'.batches[other]? = some b' ∧ b'.opening = b.opening := by
  by_cases same : bid = other
  · subst same
    have viewed := frame.opening
    rw [found] at viewed
    exact Option.map_eq_some_iff.mp viewed
  · exact ⟨b, (frame.elsewhere other same).trans found, rfl⟩

end FillFrame

/-- The refills of a list of batches, one after another. -/
def refillAll (policy : BatchPolicy) (now : TimePoint) (s : Impl)
    (bids : List BatchId) : Impl :=
  Transition.run (refill policy now) s bids

theorem decidePass_fst (policy : BatchPolicy) (now : TimePoint) (s : Impl)
    (bids : List BatchId) :
    (decidePass policy now s bids).1 = s.refillAll policy now bids := by
  induction bids generalizing s with
  | nil => rfl
  | cons bid rest induction => exact induction _

section Refills

variable {policy : BatchPolicy} {now : TimePoint}

theorem refillAll_append (s : Impl) (first second : List BatchId) :
    s.refillAll policy now (first ++ second) =
      (s.refillAll policy now first).refillAll policy now second :=
  Transition.run_append _ s first second

/-- Refills of other batches leave a batch as it is. -/
theorem refillAll_elsewhere (s : Impl) {bids : List BatchId} {other : BatchId}
    (apart : other ∉ bids) :
    (s.refillAll policy now bids).batches[other]? = s.batches[other]? := by
  have kept : ∀ current bid, bid ∈ bids →
      current.batches[other]? = s.batches[other]? →
      (refill policy now current bid).batches[other]? =
        s.batches[other]? := by
    intro current bid member same
    have different : bid ≠ other := by
      rintro rfl
      exact apart member
    exact ((FillFrame.refill policy now current bid).elsewhere other
      different).trans same
  exact Transition.run_invariant
    (fun current : Impl => current.batches[other]? = s.batches[other]?) kept
    rfl

theorem refillAll_registry (s : Impl) (bids : List BatchId) :
    (s.refillAll policy now bids).formingByKey = s.formingByKey :=
  Transition.run_invariant (fun current : Impl =>
      current.formingByKey = s.formingByKey)
    (fun current bid _ same =>
      (FillFrame.refill policy now current bid).registry.trans same) rfl

theorem refillAll_found (s : Impl) (bids : List BatchId) {other : BatchId}
    {b : BatchRec} (found : s.batches[other]? = some b) :
    ∃ b', (s.refillAll policy now bids).batches[other]? = some b' ∧
      b'.opening = b.opening := by
  refine Transition.run_invariant (fun current : Impl =>
    ∃ b', current.batches[other]? = some b' ∧ b'.opening = b.opening) ?_
      ⟨b, found, rfl⟩
  rintro current bid _ ⟨b', found', same⟩
  obtain ⟨b'', found'', same'⟩ :=
    (FillFrame.refill policy now current bid).found_after found'
  exact ⟨b'', found'', same'.trans same⟩

theorem mem_of_decidePass {s : Impl} {bids : List BatchId} {bid : BatchId}
    (decided : bid ∈ (decidePass policy now s bids).2) : bid ∈ bids := by
  induction bids generalizing s with
  | nil => exact decided
  | cons first rest induction =>
      unfold decidePass at decided
      dsimp only at decided
      split at decided
      · rcases List.mem_cons.mp decided with same | later
        · exact List.mem_cons.mpr (.inl same)
        · exact List.mem_cons_of_mem first (induction later)
      · exact List.mem_cons_of_mem first (induction decided)

/-- The decision on a batch is taken when it has been filled. -/
theorem mem_decidePass_iff (s : Impl) {before after : List BatchId}
    {bid : BatchId} (once : (before ++ bid :: after).Nodup) :
    bid ∈ (decidePass policy now s (before ++ bid :: after)).2 ↔
      (s.refillAll policy now (before ++ [bid])).decidesToSeal policy bid
        now = true := by
  have within : ∀ (bids : List BatchId) (s : Impl), bid ∉ bids →
      bid ∉ (decidePass policy now s bids).2 := by
    intro bids
    induction bids with
    | nil => exact fun _ _ => List.not_mem_nil
    | cons first rest induction =>
        intro s apart listed
        unfold decidePass at listed
        dsimp only at listed
        have apart' : bid ≠ first ∧ bid ∉ rest := by
          rw [List.mem_cons, not_or] at apart
          exact apart
        split at listed
        · rcases List.mem_cons.mp listed with same | later
          · exact apart'.1 same
          · exact induction _ apart'.2 later
        · exact induction _ apart'.2 listed
  induction before generalizing s with
  | nil =>
      have absent := within after (s.refill policy now bid)
        (List.nodup_cons.mp once).1
      show bid ∈ (decidePass policy now s (bid :: after)).2 ↔
        (s.refill policy now bid).decidesToSeal policy bid now = true
      unfold decidePass
      dsimp only
      split
      · next decided => exact iff_of_true List.mem_cons_self decided
      · next undecided => exact iff_of_false absent undecided
  | cons first before induction =>
      have once' := List.nodup_cons.mp once
      have different : bid ≠ first := by
        rintro rfl
        exact once'.1 (List.mem_append_right before List.mem_cons_self)
      have rest := induction (s.refill policy now first) once'.2
      rw [List.cons_append, decidePass]
      dsimp only
      split
      · rw [List.mem_cons]
        exact (or_iff_right different).trans rest
      · exact rest

end Refills

/-! Sealing. -/

theorem sealDecided_elsewhere (now : TimePoint) (s : Impl) {bid other : BatchId}
    (different : bid ≠ other) :
    (sealDecided now s bid).batches[other]? = s.batches[other]? := by
  unfold sealDecided
  split
  · rfl
  · obtain unchanged | ⟨b, _, _, closed⟩ :=
      doSeal_cases s bid (s.sealedReasonFor bid) now
    · rw [unchanged]
    · rw [closed]
      unfold sealForming
      dsimp only
      rw [getElem?_modify, if_neg different]

theorem closed_sealDecided (now : TimePoint) {s : Impl} {bid : BatchId}
    {b : BatchRec} (found : s.batches[bid]? = some b) :
    (sealDecided now s bid).Closed bid := by
  unfold sealDecided
  rw [found]
  unfold doSeal
  rw [found]
  dsimp only
  split
  · next closed => exact ⟨b, found, closed⟩
  · refine ⟨_, getElem?_modify_self found _, ?_⟩
    exact nofun

theorem sealAll_elsewhere (now : TimePoint) (s : Impl) {bids : List BatchId}
    {other : BatchId} (apart : other ∉ bids) :
    (Transition.run (sealDecided now) s bids).batches[other]? =
      s.batches[other]? := by
  refine Transition.run_invariant (fun current : Impl =>
    current.batches[other]? = s.batches[other]?) ?_ rfl
  intro current bid member same
  have different : bid ≠ other := by
    rintro rfl
    exact apart member
  exact (sealDecided_elsewhere now current different).trans same

theorem closed_sealAll (now : TimePoint) {s : Impl} {bids : List BatchId}
    {bid : BatchId} {b : BatchRec} (member : bid ∈ bids)
    (found : s.batches[bid]? = some b) :
    (Transition.run (sealDecided now) s bids).Closed bid := by
  refine Transition.run_establishes (fun current : Impl =>
      ∃ b, current.batches[bid]? = some b) (fun current => current.Closed bid)
    ?_ ?_ ?_ member ⟨b, found⟩
  · rintro current next _ ⟨b, found⟩
    by_cases same : next = bid
    · subst same
      obtain ⟨b', found', _⟩ := closed_sealDecided now found
      exact ⟨b', found'⟩
    · exact ⟨b, (sealDecided_elsewhere now current same).trans found⟩
  · rintro current next _ ⟨b, found, closed⟩
    by_cases same : next = bid
    · subst same
      exact closed_sealDecided now found
    · exact ⟨b, (sealDecided_elsewhere now current same).trans found, closed⟩
  · rintro current ⟨b, found⟩
    exact closed_sealDecided now found

/-! The passes over sealed batches. -/

def mergeable (policy : BatchPolicy) (s : Impl) (pair : BatchId × BatchId) :
    Bool :=
  match s.batches[pair.1]?, s.batches[pair.2]? with
  | some a, some b => canMerge policy a b
  | _, _ => false

section Pairs

variable {policy : BatchPolicy} {s : Impl} {pair : BatchId × BatchId}

theorem doMerge_of_mergeable (possible : s.mergeable policy pair = true) :
    ∃ a b, s.batches[pair.1]? = some a ∧ s.batches[pair.2]? = some b ∧
      canMerge policy a b = true ∧
      (s.doMerge policy pair.1 pair.2).2 = s.mergeInto pair.1 pair.2 a b := by
  unfold mergeable at possible
  split at possible
  · next a b first second =>
      refine ⟨a, b, first, second, possible, ?_⟩
      unfold doMerge
      simp [first, second, possible]
  · cases possible

theorem doMerge_of_not_mergeable (possible : s.mergeable policy pair = false) :
    (s.doMerge policy pair.1 pair.2).2 = s := by
  obtain unchanged | ⟨a, b, first, second, merges, _⟩ :=
    doMerge_cases policy s pair.1 pair.2
  · exact unchanged
  · simp [mergeable, first, second, merges] at possible

theorem ordered_of_mergePairs (member : pair ∈ s.mergePairs) :
    pair.1 ∈ s.sealedOrder ∧ pair.2 ∈ s.sealedOrder := by
  unfold mergePairs at member
  obtain ⟨⟨key, group⟩, listed, inGroup⟩ := List.mem_flatMap.mp member
  have found := (mem_toList_iff _ key group).mp listed
  have items := (mem_of_getElem?_groupBy found).2
  obtain ⟨first, second⟩ := List.of_mem_zip inGroup
  exact ⟨List.mem_of_mem_filter (items pair.1 first).1,
    List.mem_of_mem_filter (items pair.2 (List.mem_of_mem_tail second)).1⟩

/-- A merge of closed neighbours is one of two sealed batches. -/
theorem mergeNeighbours_cases (first : s.Closed pair.1)
    (different : pair.1 ≠ pair.2) :
    mergeNeighbours policy s pair = s ∨
      ∃ a b, Merging policy s pair.1 pair.2 a b ∧
        s.mergeable policy pair = true ∧
        s.stats.batchesMerged < policy.merge.maxMergesPerCycle.toUInt64 ∧
        mergeNeighbours policy s pair = s.mergeInto pair.1 pair.2 a b := by
  unfold mergeNeighbours
  split
  · next room =>
      cases possible : s.mergeable policy pair with
      | false => exact .inl (doMerge_of_not_mergeable possible)
      | true =>
          obtain ⟨a, b, foundA, foundB, merges, merged⟩ :=
            doMerge_of_mergeable possible
          obtain ⟨keys, _, states, isSealed | forming⟩ := canMerge_cases merges
          · exact .inr ⟨a, b, {
                different := different, first := foundA, second := foundB,
                keyed := keys, firstSealed := isSealed,
                secondSealed := states.symm.trans isSealed,
                possible := merges }, rfl, room, merged⟩
          · obtain ⟨record, found, closed⟩ := first
            rw [foundA] at found
            cases found
            exact absurd forming closed
  · exact .inl rfl

/-- The pass keeps what its merges keep, each of a pair tried. -/
theorem mergePass_pairs (wellFormed : WellFormed s) (Kept : Impl → Prop)
    (merge : ∀ (current : Impl) (pair : BatchId × BatchId) (a b : BatchRec),
      pair ∈ s.mergePairs → Kept current →
      Merging policy current pair.1 pair.2 a b →
        Kept (current.mergeInto pair.1 pair.2 a b))
    (kept : Kept s) : Kept (s.mergePass policy) := by
  unfold mergePass
  split
  · have merged : Kept (Transition.run (mergeNeighbours policy) s
        s.mergePairs) ∧ _ :=
      Transition.run_invariant (fun current : Impl => Kept current ∧
          ∀ pair ∈ s.mergePairs, current.Closed pair.1)
        (by
          rintro current pair member ⟨held, closed⟩
          have different := (mem_mergePairs wellFormed member).1
          obtain unchanged | ⟨a, b, merging, _, _, merged⟩ :
              mergeNeighbours policy current pair = current ∨ _ :=
            mergeNeighbours_cases (closed pair member) different
          · rw [unchanged]
            exact ⟨held, closed⟩
          · rw [merged]
            exact ⟨merge current pair a b member held merging,
              fun other listed =>
                closed_mergeInto merging.first (closed other listed)⟩)
        ⟨kept, fun pair member => (mem_mergePairs wellFormed member).2.1⟩
    exact merged.1
  · exact kept

end Pairs

/-- Every batch that is not sealed is left as it is. -/
def LeavesUnsealed (s s' : Impl) : Prop :=
  Everywhere s.batches fun bid b =>
    b.state ≠ .sealed → s'.batches[bid]? = some b

section Later

variable {policy : BatchPolicy} {s : Impl}

theorem leavesUnsealed_rule (policy : BatchPolicy) (s : Impl) :
    MergeRule policy fun s' => WellFormed s' ∧ LeavesUnsealed s s' where
  wellFormed _ held := held.1
  merge s' aid bid a b held merging := by
    refine ⟨held.1.mergeInto merging.first merging.second merging.keyed, ?_⟩
    intro other record found unsealed
    have kept := held.2 other record found unsealed
    unfold Impl.mergeInto
    dsimp only
    rw [getElem?_modify, getElem?_insert]
    have apart : bid ≠ other := by
      rintro rfl
      rw [merging.second] at kept
      cases kept
      exact unsealed merging.secondSealed
    have apart' : aid ≠ other := by
      rintro rfl
      rw [merging.first] at kept
      cases kept
      exact unsealed merging.firstSealed
    rw [if_neg apart, if_neg apart']
    exact kept

theorem leavesUnsealed_splitSealed {s' : Impl} (wellFormed : WellFormed s')
    (leaves : LeavesUnsealed s s') {bid : BatchId} {b : BatchRec}
    (found : s'.batches[bid]? = some b) (isSealed : b.state = .sealed) :
    LeavesUnsealed s (s'.splitSealed bid b) := by
  intro other record at_other unsealed
  have kept := leaves other record at_other unsealed
  have known := (wellFormed.batch other record kept).2.2
  have apart : bid ≠ other := by
    rintro rfl
    rw [found] at kept
    cases kept
    exact unsealed isSealed
  have old : ∀ n, s'.nextBatch ≤ n → ({ value := n } : BatchId) ≠ other := by
    rintro n fresh rfl
    exact absurd known (Nat.not_lt.mpr fresh)
  unfold Impl.splitSealed
  dsimp only
  rw [getElem?_insert, if_neg (old _ (Nat.le_succ _)), getElem?_insert,
    if_neg (old _ (Nat.le_refl _)), getElem?_insert, if_neg apart]
  exact kept

theorem leavesUnsealed_later (wellFormed : WellFormed s) :
    LeavesUnsealed s (s.mergePass policy).sizePass := by
  have rule := leavesUnsealed_rule policy s
  have merged := rule.mergePass ⟨wellFormed, fun _ _ found _ => found⟩
  exact (rule.sizePass (fun _ _ _ held found isSealed _ =>
    ⟨held.1.splitSealed found,
      leavesUnsealed_splitSealed held.1 held.2 found isSealed⟩) merged).2

theorem closed_splitSealed {other bid : BatchId} {b : BatchRec}
    (wellFormed : WellFormed s) (closed : s.Closed other) :
    (s.splitSealed bid b).Closed other := by
  obtain ⟨record, found, notForming⟩ := closed
  have known := (wellFormed.batch other record found).2.2
  have old : ∀ n, s.nextBatch ≤ n → ({ value := n } : BatchId) ≠ other := by
    rintro n fresh rfl
    exact absurd known (Nat.not_lt.mpr fresh)
  unfold Closed Impl.splitSealed
  dsimp only
  rw [getElem?_insert, if_neg (old _ (Nat.le_succ _)), getElem?_insert,
    if_neg (old _ (Nat.le_refl _)), getElem?_insert]
  split
  · exact ⟨_, rfl, nofun⟩
  · exact ⟨record, found, notForming⟩

theorem closed_later (wellFormed : WellFormed s) {bid : BatchId}
    (closed : s.Closed bid) : ((s.mergePass policy).sizePass).Closed bid := by
  have rule : MergeRule policy fun s' => WellFormed s' ∧ s'.Closed bid := {
    wellFormed := fun _ held => held.1
    merge := fun s' aid bid' a b held merging =>
      ⟨held.1.mergeInto merging.first merging.second merging.keyed,
        closed_mergeInto merging.first held.2⟩ }
  exact (rule.sizePass (fun _ _ _ held found _ _ =>
    ⟨held.1.splitSealed found, closed_splitSealed held.1 held.2⟩)
    (rule.mergePass ⟨wellFormed, closed⟩)).2

end Later

/-! The workers a tick finds, it leaves. -/

section Workers

variable {policy : BatchPolicy} {now : TimePoint} {s : Impl}

theorem workers_expireLocked (order : List CompatibilityKey) :
    (s.expireLocked policy order now).workers = s.workers := by
  apply kept_expireLocked (fun s' : Impl => s'.workers = s.workers)
  · intro s' id same
    obtain unchanged | ⟨r, _, ⟨_, removed⟩ | ⟨_, stats, ended⟩⟩ :=
      expireWaiting_cases now s' id
    · rw [unchanged]
      exact same
    · rw [removed]
      exact same
    · rw [ended]
      exact same
  · intro s' id same
    obtain unchanged | ⟨r, _, _, ⟨_, outside⟩ |
        ⟨_, b, _, ⟨_, forming⟩ | ⟨_, later⟩⟩⟩ :=
      doCancel_cases policy s' id now
    · rw [unchanged]
      exact same
    · rw [outside]
      exact same
    · rw [forming]
      exact same
    · rw [later]
      exact same
  · rfl

theorem workersRule (policy : BatchPolicy) (now : TimePoint)
    (workers : Map WorkerId WorkerRec) :
    FillRule policy now fun s => WellFormed s ∧ s.workers = workers where
  wellFormed _ kept := kept.1
  openForming _ key kept _ := ⟨kept.1.openForming key now, kept.2⟩
  place s bid key pick b r kept placing := by
    refine ⟨(WellFormed.tickRule policy now).place s bid key pick b r kept.1
      placing, ?_⟩
    rw [place_eq placing.request]
    exact kept.2
  retime _ bid _ kept retimes := ⟨kept.1.retime bid retimes, kept.2⟩
  merge s aid bid a b kept merging := by
    refine ⟨kept.1.mergeInto merging.first merging.second merging.keyed, ?_⟩
    unfold Impl.mergeInto
    exact kept.2
  close _ _ _ reason kept found forming :=
    ⟨kept.1.sealForming found forming reason now, kept.2⟩

theorem sizePass_of_unsized (unsized : s.maxWorkerBatchSize = 0) :
    s.sizePass = s := by
  have unchanged : ∀ i, s.splitOversized i = s := by
    intro i
    have none : s.oversizedAt i = none := by
      unfold oversizedAt
      rw [unsized]
      cases s.sealedOrder[i]? with
      | none => rfl
      | some bid =>
          dsimp only
          cases s.batches[bid]? with
          | none => rfl
          | some b => simp
    unfold splitOversized
    rw [none]
  unfold sizePass
  exact Transition.run_invariant (· = s)
    (fun current i _ same => by rw [same, unchanged i]) rfl

end Workers

/-! The tick as a whole. -/

section Ticks

variable {policy : BatchPolicy} {s : Impl} {order : List CompatibilityKey}
  {now : TimePoint}

theorem wellFormed_formedState (wellFormed : WellFormed s) :
    WellFormed (s.formedState policy order now) :=
  have rule := WellFormed.tickRule policy now
  rule.formPass (rule.expireLocked wellFormed order) order

/-- The batches considered are registered under different keys. -/
theorem considered_nodup (wellFormed : WellFormed s) :
    (s.considered policy order now).Nodup := by
  have formed : WellFormed (s.formedState policy order now) :=
    wellFormed_formedState wellFormed
  unfold considered
  generalize s.formedState policy order now = t at formed
  have keys : (t.formingByKey.toList.map Prod.fst).Nodup := by
    rw [Std.ExtTreeMap.map_fst_toList_eq_keys]
    exact Std.ExtTreeMap.nodup_keys
  apply List.Nodup.map_on _ keys.of_map
  rintro ⟨key, bid⟩ entry ⟨key', bid'⟩ entry' same
  have same : bid = bid' := same
  subst same
  have keyed : (t.batches[bid]?).map (·.key) = some key :=
    formed.registered key bid ((mem_toList_iff _ key bid).mp entry)
  have keyed' : (t.batches[bid]?).map (·.key) = some key' :=
    formed.registered key' bid ((mem_toList_iff _ key' bid).mp entry')
  rw [keyed] at keyed'
  cases keyed'
  rfl

theorem doTick_eq (policy : BatchPolicy) (s : Impl)
    (order : List CompatibilityKey) (now : TimePoint) :
    s.doTick policy order now =
      (((s.formedState policy order now).sealPass policy now).mergePass
        policy).sizePass := rfl

theorem wellFormed_sealPass (wellFormed : WellFormed s) :
    WellFormed ((s.formedState policy order now).sealPass policy now) :=
  (WellFormed.tickRule policy now).sealPass (wellFormed_formedState wellFormed)

theorem sealPass_eq (policy : BatchPolicy) (s : Impl)
    (order : List CompatibilityKey) (now : TimePoint) :
    (s.formedState policy order now).sealPass policy now =
      Transition.run (sealDecided now)
        ((s.formedState policy order now).refillAll policy now
          (s.considered policy order now))
        (decidePass policy now (s.formedState policy order now)
          (s.considered policy order now)).2 := by
  rw [← decidePass_fst]
  rfl

/-- A batch that is forming when it has been filled is closed by the tick
exactly if the decision is to seal it. Otherwise its record stays. -/
theorem doTick_filled (wellFormed : WellFormed s) {before after : List BatchId}
    {bid : BatchId}
    (listed : s.considered policy order now = before ++ bid :: after)
    {b : BatchRec}
    (found : ((s.formedState policy order now).refillAll policy now
      (before ++ [bid])).batches[bid]? = some b)
    (forming : b.state = .forming) :
    if ((s.formedState policy order now).refillAll policy now
        (before ++ [bid])).decidesToSeal policy bid now = true then
      (s.doTick policy order now).Closed bid
    else (s.doTick policy order now).batches[bid]? = some b := by
  have once : (s.considered policy order now).Nodup :=
    considered_nodup wellFormed
  have formed : WellFormed ((s.formedState policy order now).sealPass policy
      now) := wellFormed_sealPass wellFormed
  rw [listed] at once
  have decides : bid ∈ (decidePass policy now (s.formedState policy order now)
      (before ++ bid :: after)).2 ↔ _ :=
    mem_decidePass_iff (s.formedState policy order now) once
  have apart : bid ∉ after :=
    (List.nodup_cons.mp (List.nodup_append.mp once).2.1).1
  have kept : ((s.formedState policy order now).refillAll policy now
      (before ++ bid :: after)).batches[bid]? = some b := by
    rw [List.append_cons, refillAll_append, refillAll_elsewhere _ apart]
    exact found
  rw [doTick_eq]
  rw [sealPass_eq, listed] at formed ⊢
  split
  · next decided =>
      exact closed_later formed (closed_sealAll now (decides.mpr decided) kept)
  · next undecided =>
      have unlisted := mt decides.mp undecided
      apply leavesUnsealed_later formed bid b
      · rw [sealAll_elsewhere now _ unlisted]
        exact kept
      · rw [forming]
        exact nofun

end Ticks

end Impl

end BatchFabric
