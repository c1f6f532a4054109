import BatchFabric.Safety.WellFormed

namespace BatchFabric.Impl

open OrderedMap

/-! The rule of a tick: what each of its single updates keeps, the tick keeps.
The updates are stated with everything the tick knows when it makes them. -/

/-- A round of filling moves a queued request into a registered batch. -/
structure Placing (policy : BatchPolicy) (s : Impl) (bid : BatchId)
    (key : CompatibilityKey) (pick : RequestId) (now : TimePoint)
    (b : BatchRec) (r : RequestRec) : Prop where
  batch : s.batches[bid]? = some b
  keyed : b.key = key
  registered : s.formingByKey[key]? = some bid
  queued : pick ∈ s.bucket key
  request : s.requests[pick]? = some r
  waiting : isWaitingState r.state = true
  live : r.metadata.deadline.expired now = false
  fillable : s.fillable policy b now pick = true

theorem Placing.requestKeyed {policy : BatchPolicy} {s : Impl} {bid : BatchId}
    {key : CompatibilityKey} {pick : RequestId} {now : TimePoint}
    {b : BatchRec} {r : RequestRec}
    (placing : Placing policy s bid key pick now b r)
    (wellFormed : WellFormed s) : r.key = key := by
  have keyed := wellFormed.queued key pick placing.queued
  unfold keyOf? at keyed
  rw [placing.request] at keyed
  exact Option.some.inj keyed

/-- Two sealed batches of one key, in the order of sealing. -/
structure Merging (policy : BatchPolicy) (s : Impl) (aid bid : BatchId)
    (a b : BatchRec) : Prop where
  different : aid ≠ bid
  first : s.batches[aid]? = some a
  second : s.batches[bid]? = some b
  keyed : a.key = b.key
  firstSealed : a.state = .sealed
  secondSealed : b.state = .sealed
  possible : canMerge policy a b = true

/-- Only the times of a batch that govern its sealing. -/
def Retimes (change : BatchRec → BatchRec) : Prop :=
  ∀ b, ∃ allowed formed,
    change b = { b with allowedWaitNs := allowed, formedNs := formed }

/-- What keeps an invariant while batches are opened and filled. -/
structure PlaceRule (policy : BatchPolicy) (now : TimePoint)
    (Kept : Impl → Prop) : Prop where
  wellFormed : ∀ s, Kept s → WellFormed s
  openForming : ∀ s key, Kept s → s.formingByKey[key]? = none →
    Kept (s.openForming key now)
  place : ∀ s bid key pick b r, Kept s →
    Placing policy s bid key pick now b r → Kept (s.place bid key pick)
  retime : ∀ s bid change, Kept s → Retimes change →
    Kept { s with batches := s.batches.modify bid change }

/-- What keeps it while sealed batches are merged. -/
structure MergeRule (policy : BatchPolicy) (Kept : Impl → Prop) : Prop where
  wellFormed : ∀ s, Kept s → WellFormed s
  merge : ∀ s aid bid a b, Kept s → Merging policy s aid bid a b →
    Kept (s.mergeInto aid bid a b)

/-- What the passes of a tick keep once it has expired what is due. -/
structure FillRule (policy : BatchPolicy) (now : TimePoint)
    (Kept : Impl → Prop) : Prop
    extends PlaceRule policy now Kept, MergeRule policy Kept where
  close : ∀ s bid b reason, Kept s → s.batches[bid]? = some b →
    b.state = .forming → Kept (s.sealForming bid b reason now)

structure TickRule (policy : BatchPolicy) (now : TimePoint)
    (Kept : Impl → Prop) : Prop extends FillRule policy now Kept where
  expire : ∀ s id, Kept s → Kept (expireWaiting now s id)
  cancel : ∀ s id, Kept s → Kept (s.doCancel policy id now).2

theorem TickRule.and {policy : BatchPolicy} {now : TimePoint}
    {Kept Kept' : Impl → Prop} (first : TickRule policy now Kept)
    (second : TickRule policy now Kept') :
    TickRule policy now (fun s => Kept s ∧ Kept' s) where
  wellFormed s kept := first.wellFormed s kept.1
  expire s id kept := ⟨first.expire s id kept.1, second.expire s id kept.2⟩
  cancel s id kept := ⟨first.cancel s id kept.1, second.cancel s id kept.2⟩
  openForming s key kept absent :=
    ⟨first.openForming s key kept.1 absent,
      second.openForming s key kept.2 absent⟩
  place s bid key pick b r kept placing :=
    ⟨first.place s bid key pick b r kept.1 placing,
      second.place s bid key pick b r kept.2 placing⟩
  retime s bid change kept retimes :=
    ⟨first.retime s bid change kept.1 retimes,
      second.retime s bid change kept.2 retimes⟩
  close s bid b reason kept found forming :=
    ⟨first.close s bid b reason kept.1 found forming,
      second.close s bid b reason kept.2 found forming⟩
  merge s aid bid a b kept merging :=
    ⟨first.merge s aid bid a b kept.1 merging,
      second.merge s aid bid a b kept.2 merging⟩

/-- A batch that exists and is past forming. -/
def Closed (s : Impl) (bid : BatchId) : Prop :=
  ∃ b, s.batches[bid]? = some b ∧ b.state ≠ .forming

theorem closed_mergeInto {s : Impl} {aid bid other : BatchId}
    {a b : BatchRec} (first : s.batches[aid]? = some a)
    (closed : s.Closed other) : (s.mergeInto aid bid a b).Closed other := by
  obtain ⟨record, found, notForming⟩ := closed
  have target : ∃ b', (s.batches.insert aid (mergeTarget
      (modifyAll s.requests b.members (RequestRec.setBatch aid)) bid a
        b))[other]? = some b' ∧ b'.state ≠ .forming := by
    rw [getElem?_insert]
    split
    · next same =>
        subst same
        rw [first] at found
        cases found
        exact ⟨_, rfl, notForming⟩
    · exact ⟨record, found, notForming⟩
  obtain ⟨b', at_other, open'⟩ := target
  unfold Closed Impl.mergeInto
  dsimp only
  rw [getElem?_modify]
  split
  · rw [at_other]
    exact ⟨_, rfl, BatchState.noConfusion⟩
  · exact ⟨b', at_other, open'⟩

/-- Neighbours in a list without repetition differ. -/
theorem ne_of_mem_neighbours {v : List BatchId} (once : v.Nodup)
    {pair : BatchId × BatchId} (member : pair ∈ neighbours v) :
    pair.1 ≠ pair.2 ∧ pair.1 ∈ v ∧ pair.2 ∈ v := by
  unfold neighbours at member
  induction v with
  | nil => cases member
  | cons first rest induction =>
      cases rest with
      | nil => cases member
      | cons second rest =>
          rw [List.nodup_cons] at once
          simp only [List.tail_cons, List.zip_cons_cons] at member
          rcases List.mem_cons.mp member with rfl | later
          · refine ⟨?_, List.mem_cons_self, ?_⟩
            · intro same
              exact once.1 (List.mem_cons.mpr (.inl same))
            · exact List.mem_cons_of_mem first List.mem_cons_self
          · have known := induction once.2 later
            exact ⟨known.1, List.mem_cons_of_mem first known.2.1,
              List.mem_cons_of_mem first known.2.2⟩

/-- The pairs the merge pass tries are of distinct closed batches. -/
theorem mem_mergePairs {s : Impl} (wellFormed : WellFormed s)
    {pair : BatchId × BatchId} (member : pair ∈ s.mergePairs) :
    pair.1 ≠ pair.2 ∧ s.Closed pair.1 ∧ s.Closed pair.2 := by
  unfold mergePairs at member
  obtain ⟨⟨key, group⟩, listed, inGroup⟩ := List.mem_flatMap.mp member
  have found := (OrderedMap.mem_toList_iff _ key group).mp listed
  have items := (OrderedMap.mem_of_getElem?_groupBy found).2
  rw [OrderedMap.getElem?_groupBy] at found
  split at found
  · cases found
  · cases found
    have once := (wellFormed.orderedOnce.filter s.isSealedBatch).filter
      (fun bid => decide (s.keyOfBatch bid = key))
    have known := ne_of_mem_neighbours once inGroup
    have closed : ∀ bid ∈ (s.sealedOrder.filter s.isSealedBatch).filter
        (fun bid => decide (s.keyOfBatch bid = key)), s.Closed bid := by
      intro bid listed
      exact wellFormed.ordered bid
        (List.mem_of_mem_filter (List.mem_of_mem_filter listed))
    exact ⟨known.1, closed _ known.2.1, closed _ known.2.2⟩

theorem kept_expireLocked (Kept : Impl → Prop) {policy : BatchPolicy}
    {now : TimePoint}
    (expire : ∀ s id, Kept s → Kept (expireWaiting now s id))
    (cancel : ∀ s id, Kept s → Kept (s.doCancel policy id now).2) {s : Impl}
    (kept : Kept s) (order : List CompatibilityKey) :
    Kept (s.expireLocked policy order now) := by
  unfold Impl.expireLocked
  dsimp only
  apply Transition.run_invariant Kept
  · intro current id _ held
    unfold cancelExpired
    split
    · exact held
    · exact cancel current id held
  · apply Transition.run_invariant Kept
    · intro current id _ held
      exact expire current id held
    · exact kept

namespace PlaceRule

variable {policy : BatchPolicy} {now : TimePoint} {Kept : Impl → Prop}

/-- The filling loop keeps its batch registered and its candidates queued. -/
theorem fillLoop (rule : PlaceRule policy now Kept) {bid : BatchId}
    {key : CompatibilityKey} (fuel : Nat) {s : Impl} {cands : List RequestId}
    (kept : Kept s) (keyed : (s.batches[bid]?).map (·.key) = some key)
    (registered : s.formingByKey[key]? = some bid)
    (queued : ∀ id ∈ cands, id ∈ s.bucket key) :
    Kept (Impl.fillLoop policy bid key now fuel s cands) ∧
      (Impl.fillLoop policy bid key now fuel s cands).formingByKey =
        s.formingByKey := by
  induction fuel generalizing s cands with
  | zero => exact ⟨kept, rfl⟩
  | succ fuel induction =>
      unfold Impl.fillLoop
      cases picked : s.fillPick policy bid cands now with
      | none => exact ⟨kept, rfl⟩
      | some pick =>
          obtain ⟨b, found, candidate, fillable⟩ := fillPick_cases picked
          obtain ⟨r, request, waiting, live⟩ := fillable_cases fillable
          have sameKey : b.key = key := by
            rw [found] at keyed
            exact Option.some.inj keyed
          have placed := rule.place s bid key pick b r kept {
            batch := found, keyed := sameKey, registered := registered,
            queued := queued pick candidate, request := request,
            waiting := waiting, live := live, fillable := fillable }
          have registry : (s.place bid key pick).formingByKey =
              s.formingByKey := by
            rw [place_eq request]
          have rest := induction placed
            (by
              rw [place_eq request]
              exact (map_getElem?_modify (fun _ => by rfl) s.batches bid
                bid).trans keyed)
            (by rw [registry, registered])
            (by
              intro id member
              obtain ⟨member, different⟩ := List.mem_filter.mp member
              have different : id ≠ pick := of_decide_eq_true different
              rw [place_eq request]
              unfold bucket
              dsimp only
              rw [CompatibilityIndex.bucketOf_remove, if_pos rfl]
              exact (List.mem_erase_of_ne different).mpr (queued id member))
          exact ⟨rest.1, rest.2.trans registry⟩

theorem fillForming (rule : PlaceRule policy now Kept) {bid : BatchId}
    {key : CompatibilityKey} {s : Impl} (kept : Kept s)
    (registered : s.formingByKey[key]? = some bid) :
    Kept (s.fillForming policy bid key now) ∧
      (s.fillForming policy bid key now).formingByKey = s.formingByKey := by
  have keyed := (rule.wellFormed s kept).registered key bid registered
  unfold Impl.fillForming
  split
  · next bucket _ at_key =>
      apply rule.fillLoop bucket.length kept keyed registered
      intro id member
      unfold Impl.bucket CompatibilityIndex.bucketOf
      rw [at_key]
      exact member
  · exact ⟨kept, rfl⟩

theorem setAllowedWait (rule : PlaceRule policy now Kept) {s : Impl}
    (kept : Kept s) (bid : BatchId) :
    Kept (s.setAllowedWait policy bid now) :=
  rule.retime s bid _ kept fun b => ⟨_, b.formedNs, rfl⟩

theorem setFormed (rule : PlaceRule policy now Kept) {s : Impl}
    (kept : Kept s) (bid : BatchId) : Kept (s.setFormed bid now) :=
  rule.retime s bid _ kept fun b => ⟨b.allowedWaitNs, _, rfl⟩

theorem makeForming (rule : PlaceRule policy now Kept) {s : Impl}
    (kept : Kept s) {key : CompatibilityKey}
    (unregistered : s.formingByKey[key]? = none) :
    Kept (s.makeForming policy key now) := by
  have opened := rule.openForming s key kept unregistered
  have registered : (s.openForming key now).formingByKey[key]? =
      some { value := s.nextBatch } := by
    unfold Impl.openForming
    dsimp only
    rw [getElem?_insert, if_pos rfl]
  have filled := (rule.fillForming opened registered).1
  exact rule.setFormed (rule.setAllowedWait filled _) _

theorem formMissing (rule : PlaceRule policy now Kept) {s : Impl}
    (kept : Kept s) (key : CompatibilityKey) :
    Kept (Impl.formMissing policy now s key) := by
  unfold Impl.formMissing
  split
  · exact kept
  · next unregistered =>
      apply rule.makeForming kept
      simpa using unregistered

theorem refill (rule : PlaceRule policy now Kept) {s : Impl} (kept : Kept s)
    {key : CompatibilityKey} {bid : BatchId}
    (registered : s.formingByKey[key]? = some bid) :
    Kept (s.refill policy now bid) ∧
      (s.refill policy now bid).formingByKey = s.formingByKey := by
  have keyed : (s.batches[bid]?).map (·.key) = some key :=
    (rule.wellFormed s kept).registered key bid registered
  unfold Impl.refill
  cases found : s.batches[bid]? with
  | none => exact ⟨kept, rfl⟩
  | some b =>
      have sameKey : b.key = key := by
        rw [found] at keyed
        exact Option.some.inj keyed
      dsimp only
      rw [sameKey]
      have filled := rule.fillForming kept registered
      exact ⟨rule.setAllowedWait filled.1 bid, filled.2⟩

theorem decidePass (rule : PlaceRule policy now Kept) {s : Impl}
    {bids : List BatchId} (kept : Kept s)
    (registered : ∀ bid ∈ bids, ∃ key : CompatibilityKey,
      s.formingByKey[key]? = some bid) :
    Kept (Impl.decidePass policy now s bids).1 := by
  induction bids generalizing s with
  | nil => exact kept
  | cons bid rest induction =>
      obtain ⟨key, at_key⟩ := registered bid List.mem_cons_self
      have filled := rule.refill kept at_key
      apply induction filled.1
      intro other member
      rw [filled.2]
      exact registered other (List.mem_cons_of_mem bid member)

theorem formPass (rule : PlaceRule policy now Kept) {s : Impl} (kept : Kept s)
    (order : List CompatibilityKey) : Kept (s.formPass policy order now) := by
  unfold Impl.formPass
  apply Transition.run_invariant Kept
  · intro current key _ held
    exact rule.formMissing held key
  · exact kept

theorem sealPass (rule : PlaceRule policy now Kept)
    (close : ∀ s bid b reason, Kept s → s.batches[bid]? = some b →
      b.state = .forming → Kept (s.sealForming bid b reason now)) {s : Impl}
    (kept : Kept s) : Kept (s.sealPass policy now) := by
  unfold Impl.sealPass
  dsimp only
  apply Transition.run_invariant Kept
  · intro current bid _ held
    unfold Impl.sealDecided
    split
    · exact held
    · rcases doSeal_cases current bid (current.sealedReasonFor bid) now with
        unchanged | ⟨b, found, forming, closed⟩
      · rw [unchanged]
        exact held
      · rw [closed]
        exact close current bid b _ held found forming
  · apply rule.decidePass kept
    intro bid member
    obtain ⟨⟨key, _⟩, listed, rfl⟩ := List.mem_map.mp member
    exact ⟨key, (OrderedMap.mem_toList_iff _ key _).mp listed⟩

end PlaceRule

namespace MergeRule

variable {policy : BatchPolicy} {Kept : Impl → Prop}

theorem mergeNeighbours (rule : MergeRule policy Kept) {s : Impl}
    (kept : Kept s) {pair : BatchId × BatchId} (different : pair.1 ≠ pair.2)
    (first : s.Closed pair.1) :
    Kept (Impl.mergeNeighbours policy s pair) ∧
      ∀ other, s.Closed other →
        (Impl.mergeNeighbours policy s pair).Closed other := by
  unfold Impl.mergeNeighbours
  split
  · rcases doMerge_cases policy s pair.1 pair.2 with
      unchanged | ⟨a, b, foundA, foundB, possible, merged⟩
    · rw [unchanged]
      exact ⟨kept, fun _ closed => closed⟩
    · rw [merged]
      obtain ⟨keys, _, states, isSealed | forming⟩ := canMerge_cases possible
      · exact ⟨rule.merge s pair.1 pair.2 a b kept {
            different := different, first := foundA, second := foundB,
            keyed := keys, firstSealed := isSealed,
            secondSealed := states.symm.trans isSealed,
            possible := possible },
          fun _ closed => closed_mergeInto foundA closed⟩
      · obtain ⟨record, found, notForming⟩ := first
        rw [foundA] at found
        cases found
        exact absurd forming notForming
  · exact ⟨kept, fun _ closed => closed⟩

theorem mergePass (rule : MergeRule policy Kept) {s : Impl}
    (kept : Kept s) : Kept (s.mergePass policy) := by
  unfold Impl.mergePass
  split
  · have pairs : ∀ pair ∈ s.mergePairs,
        pair.1 ≠ pair.2 ∧ s.Closed pair.1 ∧ s.Closed pair.2 :=
      fun _ => mem_mergePairs (rule.wellFormed s kept)
    have merged : Kept (Transition.run (Impl.mergeNeighbours policy) s
        s.mergePairs) ∧ _ :=
      Transition.run_invariant (fun current => Kept current ∧
          ∀ pair ∈ s.mergePairs,
            current.Closed pair.1 ∧ current.Closed pair.2)
        (by
          intro current pair member held
          have known := held.2 pair member
          have next := rule.mergeNeighbours held.1 (pairs pair member).1
            known.1
          exact ⟨next.1, fun other listed =>
            ⟨next.2 _ (held.2 other listed).1,
              next.2 _ (held.2 other listed).2⟩⟩)
        ⟨kept, fun pair member => (pairs pair member).2⟩
    exact merged.1
  · exact kept

end MergeRule

namespace FillRule

variable {policy : BatchPolicy} {now : TimePoint} {Kept : Impl → Prop}

theorem sealPass (rule : FillRule policy now Kept) {s : Impl}
    (kept : Kept s) : Kept (s.sealPass policy now) :=
  rule.toPlaceRule.sealPass rule.close kept

theorem passes (rule : FillRule policy now Kept) {s : Impl} (kept : Kept s)
    (order : List CompatibilityKey) :
    Kept (((s.formPass policy order now).sealPass policy now).mergePass
      policy) :=
  rule.mergePass (rule.sealPass (rule.formPass kept order))

end FillRule

namespace TickRule

variable {policy : BatchPolicy} {now : TimePoint} {Kept : Impl → Prop}

theorem expireLocked (rule : TickRule policy now Kept) {s : Impl}
    (kept : Kept s) (order : List CompatibilityKey) :
    Kept (s.expireLocked policy order now) :=
  kept_expireLocked Kept rule.expire rule.cancel kept order

theorem untilSizePass (rule : TickRule policy now Kept) {s : Impl}
    (kept : Kept s) (order : List CompatibilityKey) :
    Kept (s.tickUntilSizePass policy order now) :=
  rule.passes (rule.expireLocked kept order) order

end TickRule

/-! The pass over oversized batches. -/

/-- A split of the pass takes a sealed batch apart. -/
theorem splitOversized_cases {s : Impl} (wellFormed : WellFormed s) (i : Nat) :
    splitOversized s i = s ∨
      ∃ bid b, s.batches[bid]? = some b ∧ b.state = .sealed ∧
        splittable b = true ∧ s.oversizedAt i = some bid ∧
        splitOversized s i = s.splitSealed bid b := by
  unfold splitOversized
  cases oversized : s.oversizedAt i with
  | none => exact .inl rfl
  | some bid =>
      dsimp only
      rcases doSplit_cases s bid with
        unchanged | ⟨b, found, possible, ⟨isSealed, taken⟩ | ⟨open', _⟩⟩
      · exact .inl unchanged
      · exact .inr ⟨bid, b, found, isSealed, possible, rfl, taken⟩
      · exfalso
        unfold oversizedAt at oversized
        split at oversized
        · cases oversized
        · next other _ =>
          split at oversized
          · cases oversized
          · next before at_other =>
              dsimp only at oversized
              split at oversized
              · next large =>
                  have sameId := (wellFormed.batch other before at_other).1
                  have named : before.id = bid := Option.some.inj oversized
                  rw [← named, sameId, at_other] at found
                  cases found
                  simp only [Bool.and_eq_true, decide_eq_true_eq] at large
                  exact open' large.1.1
              · cases oversized

theorem MergeRule.sizePass {policy : BatchPolicy} {Kept : Impl → Prop}
    (rule : MergeRule policy Kept)
    (split : ∀ s bid b, Kept s → s.batches[bid]? = some b →
      b.state = .sealed → splittable b = true → Kept (s.splitSealed bid b))
    {s : Impl} (kept : Kept s) : Kept s.sizePass := by
  unfold Impl.sizePass
  apply Transition.run_invariant Kept
  · intro current i _ held
    rcases splitOversized_cases (rule.wellFormed current held) i with
      unchanged | ⟨bid, b, found, isSealed, possible, _, taken⟩
    · rw [unchanged]
      exact held
    · rw [taken]
      exact split current bid b held found isSealed possible
  · exact kept

theorem TickRule.doTick {policy : BatchPolicy} {now : TimePoint}
    {Kept : Impl → Prop} (rule : TickRule policy now Kept)
    (split : ∀ s bid b, Kept s → s.batches[bid]? = some b →
      b.state = .sealed → splittable b = true → Kept (s.splitSealed bid b))
    {s : Impl} (kept : Kept s) (order : List CompatibilityKey) :
    Kept (s.doTick policy order now) :=
  rule.sizePass split (rule.untilSizePass kept order)

/-- A retry queues the request, then ticks. -/
theorem kept_doRetry (Kept : Impl → Prop) {policy : BatchPolicy}
    {now : TimePoint} {s : Impl} {id : RequestId}
    {order : List CompatibilityKey}
    (queued : Kept (s.retryQueued policy id now).2)
    (ticked : ∀ s : Impl, Kept s → Kept (s.doTick policy order now)) :
    Kept (s.doRetry policy id order now).2 := by
  rw [doRetry_eq]
  split
  · exact queued
  · next taken =>
      rw [taken] at queued
      exact ticked _ queued

end BatchFabric.Impl
