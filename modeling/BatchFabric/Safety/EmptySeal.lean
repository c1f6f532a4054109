import BatchFabric.Safety.Cancellation
import BatchFabric.Safety.FillOrder
import BatchFabric.Safety.Saturation
import BatchFabric.Safety.SealReport
import BatchFabric.Safety.Totals

namespace BatchFabric.Impl

open OrderedMap

/-! When a tick seals a batch without members. -/

/-- What the filling loop leaves of an empty batch that is then sealed. None of
the requests queued under its key may join it, and either none of them waits
at all or the batch has waited as long as it may. -/
structure LeftEmpty (policy : BatchPolicy) (s : Impl) (b : BatchRec)
    (now : TimePoint) : Prop where
  members : b.members = []
  blocked : ∀ m ∈ s.bucket b.key, s.fillable policy b now m = false
  due : s.NoneWaiting b.key ∨
    (b.allowedWaitNs ≠ kNoDeadline ∧ b.allowedWaitNs ≤ now - b.formedNs)

/-- The tick comes to the batch while it is forming and leaves it empty. -/
def FilledEmpty (policy : BatchPolicy) (s : Impl)
    (order : List CompatibilityKey) (now : TimePoint) (bid : BatchId) : Prop :=
  ∃ before after, s.considered policy order now = before ++ bid :: after ∧
    ∃ filled, filled = (s.formedState policy order now).refillAll policy now
        (before ++ [bid]) ∧
      ∃ b, filled.batches[bid]? = some b ∧ b.state = .forming ∧
        LeftEmpty policy filled b now

/-- The tick moves the batch to the sealed ones without members. -/
def SealsEmpty (policy : BatchPolicy) (s : Impl)
    (order : List CompatibilityKey) (now : TimePoint) (bid : BatchId) : Prop :=
  s.isSealedBatch bid = false ∧
    ∃ b, (s.sealedState policy order now).batches[bid]? = some b ∧
      b.state = .sealed ∧ b.members = []

theorem isSealedBatch_iff {s : Impl} {bid : BatchId} :
    s.isSealedBatch bid = true ↔
      ∃ b, s.batches[bid]? = some b ∧ b.state = .sealed := by
  unfold isSealedBatch
  cases s.batches[bid]? with
  | none => simp
  | some b => simp

/-! What filling leaves empty. -/

theorem fillPick_isSome {policy : BatchPolicy} {s : Impl} {bid : BatchId}
    {b : BatchRec} (found : s.batches[bid]? = some b) {now : TimePoint}
    {cands : List RequestId} {m : RequestId} (candidate : m ∈ cands)
    (fillable : s.fillable policy b now m = true) :
    (s.fillPick policy bid cands now).isSome = true := by
  have member : m ∈ cands.filter (s.fillable policy b now) :=
    List.mem_filter.mpr ⟨candidate, fillable⟩
  unfold fillPick
  rw [found]
  dsimp only
  generalize cands.filter (s.fillable policy b now) = joining at member
  have grouped : (groupBy s.tenantOf joining)[s.tenantOf m]? ≠ none := by
    rw [getElem?_groupBy, if_neg]
    · exact nofun
    · exact List.ne_nil_of_mem
        (List.mem_filter.mpr ⟨member, decide_eq_true rfl⟩)
  have offered : (groupBy s.tenantOf joining).keys ≠ [] := by
    intro none
    apply grouped
    apply Std.ExtTreeMap.getElem?_eq_none
    rw [← Std.ExtTreeMap.mem_keys, none]
    exact List.not_mem_nil
  have chosen := s.fairness.selectNext_mem policy.fairness offered
  rw [Std.ExtTreeMap.mem_keys, Std.ExtTreeMap.mem_iff_isSome_getElem?,
    Option.isSome_iff_exists] at chosen
  obtain ⟨pool, pooled⟩ := chosen
  have nonempty := (mem_of_getElem?_groupBy pooled).1
  rw [pooled, Option.getD_some]
  cases sorted : pool.insertionSort fun x y => s.arrivedBefore x y with
  | nil =>
      have length := (List.perm_insertionSort
        (fun x y => s.arrivedBefore x y) pool).length_eq
      rw [sorted] at length
      exact absurd (List.eq_nil_of_length_eq_zero length.symm) nonempty
  | cons first rest => rfl

/-- A run of filling that places nothing finds nothing to place. -/
theorem not_fillable_of_placements {policy : BatchPolicy} {s : Impl}
    {bid : BatchId} {b : BatchRec} (found : s.batches[bid]? = some b)
    {key : CompatibilityKey} {now : TimePoint}
    (none : s.placements policy bid key now = []) :
    ∀ m ∈ s.bucket key, s.fillable policy b now m = false := by
  intro m queued
  unfold bucket CompatibilityIndex.bucketOf at queued
  unfold placements at none
  rw [found] at none
  cases at_key : s.waitingIndex[key]? with
  | none => simp [at_key] at queued
  | some bucket =>
      rw [at_key] at queued none
      dsimp only [Option.getD_some] at queued none
      cases fillable : s.fillable policy b now m with
      | false => rfl
      | true =>
          obtain ⟨pick, picked⟩ := Option.isSome_iff_exists.mp
            (fillPick_isSome found queued fillable)
          obtain ⟨fuel, length⟩ := Nat.exists_eq_succ_of_ne_zero
            (List.length_pos_of_mem queued).ne'
          rw [length, fillPicks, picked] at none
          cases none

theorem refill_of_empty {policy : BatchPolicy} {now : TimePoint} {s : Impl}
    {bid : BatchId} {b : BatchRec}
    (found : (s.refill policy now bid).batches[bid]? = some b)
    (empty : b.members = []) :
    ∀ m ∈ (s.refill policy now bid).bucket b.key,
      (s.refill policy now bid).fillable policy b now m = false := by
  cases before : s.batches[bid]? with
  | none =>
      simp [refill, before] at found
  | some b₀ =>
      have refilled : s.refill policy now bid =
          (s.fillForming policy bid b₀.key now).setAllowedWait policy bid
            now := by
        unfold refill
        rw [before]
      have retimed : ∃ b₁, (s.fillForming policy bid b₀.key now).batches[bid]? =
          some b₁ ∧ ∃ allowed, b = { b₁ with allowedWaitNs := allowed } := by
        rw [refilled] at found
        obtain ⟨b₁, at_bid, ⟨_, changed⟩ | ⟨different, _⟩⟩ :=
          getElem?_modify_cases found
        · exact ⟨b₁, at_bid, _, changed⟩
        · exact absurd rfl different
      obtain ⟨b₁, at_bid, allowed, rfl⟩ := retimed
      have members : some b₁.members =
          some (b₀.members ++ s.placements policy bid b₀.key now) := by
        have grown : ((s.fillForming policy bid b₀.key now).batches[bid]?).map
            (·.members) = _ := members_fillForming
        rw [at_bid, before] at grown
        exact grown
      have none : s.placements policy bid b₀.key now = [] := by
        have joined := Option.some.inj members
        rw [show b₁.members = [] from empty] at joined
        exact (List.append_eq_nil_iff.mp joined.symm).2
      have idle : s.fillForming policy bid b₀.key now = s := by
        rw [fillForming_eq_placeAll, none]
        rfl
      rw [idle, before] at at_bid
      cases at_bid
      rw [refilled, idle]
      exact not_fillable_of_placements before none

/-! The decision on an empty batch. -/

theorem decide_empty_eq_seal {policy : BatchPolicy}
    {batch : BatchFormer.FormingBatch} (empty : batch.used = {})
    (candidates : List BatchFormer.Candidate) (now : TimePoint) :
    (BatchFormer.decide policy batch candidates now).action = .seal ↔
      (batch.allowedWaitNs ≠ kNoDeadline ∧
          batch.allowedWaitNs ≤ now - batch.formedNs) ∨
        candidates.isEmpty = true := by
  have unreached := (reached_iff policy.constraints.budget batch.used).not.mpr
    (by
      rintro ⟨d, _, limited, reached⟩
      apply limited
      apply Nat.eq_zero_of_le_zero
      apply Nat.le_trans reached
      rw [empty]
      cases d <;> exact Nat.le_refl 0)
  rw [Bool.not_eq_true] at unreached
  simp only [Bool.or_eq_false_iff] at unreached
  obtain ⟨⟨requests, input, output⟩, work⟩ := unreached
  have none : batch.used.count = 0 := congrArg BatchAccum.count empty
  rw [← bne_iff_ne, ← ge_iff_le, ← decide_eq_true_iff
    (p := now - batch.formedNs ≥ batch.allowedWaitNs), ← Bool.and_eq_true]
  unfold BatchFormer.decide
  dsimp only
  rw [requests, input, output, work, none]
  generalize (batch.allowedWaitNs != kNoDeadline &&
    decide (now - batch.formedNs ≥ batch.allowedWaitNs)) = waited
  cases waited <;> cases candidates <;> simp

theorem decidesToSeal_empty_iff {policy : BatchPolicy} {s : Impl}
    (totalled : s.Totalled) {bid : BatchId} {b : BatchRec}
    (found : s.batches[bid]? = some b) (empty : b.members = [])
    (now : TimePoint) :
    s.decidesToSeal policy bid now = true ↔
      s.NoneWaiting b.key ∨ (b.allowedWaitNs ≠ kNoDeadline ∧
        b.allowedWaitNs ≤ now - b.formedNs) := by
  have zero : b.accum = {} := by
    rw [totalled bid b found, empty]
    rfl
  unfold decidesToSeal
  rw [found]
  dsimp only
  rw [beq_iff_eq, decide_empty_eq_seal zero, remainingCandidates_isEmpty_iff]
  exact or_comm

/-! What the passes do to the state and the members of a batch. -/

/-- Nothing is sealed that was not. -/
def NoneSealed (s s' : Impl) : Prop :=
  Everywhere s'.batches fun bid b =>
    b.state = .sealed → s.isSealedBatch bid = true

section Passes

variable {policy : BatchPolicy} {now : TimePoint} {s s' : Impl}

theorem NoneSealed.of_states {s'' : Impl} (none : NoneSealed s s')
    (states : ∀ bid : BatchId, (s''.batches[bid]?).map (·.state) =
      (s'.batches[bid]?).map (·.state)) : NoneSealed s s'' := by
  intro bid b found isSealed
  have viewed := states bid
  rw [found, Option.map_some, eq_comm, Option.map_eq_some_iff] at viewed
  obtain ⟨b', found', same⟩ := viewed
  exact none bid b' found' (same.trans isSealed)

theorem NoneSealed.placeRule (policy : BatchPolicy) (now : TimePoint)
    (s : Impl) :
    PlaceRule policy now (fun s' => WellFormed s' ∧ NoneSealed s s') where
  wellFormed _ held := held.1
  openForming s' key held _ :=
    ⟨held.1.openForming key now, Everywhere.insert held.2 nofun⟩
  place s' bid key pick b r held placing := by
    refine ⟨(WellFormed.tickRule policy now).place s' bid key pick b r held.1
      placing, held.2.of_states ?_⟩
    rw [place_eq placing.request]
    exact map_getElem?_modify (fun _ => by rfl) s'.batches bid
  retime s' bid change held retimes := by
    refine ⟨held.1.retime bid retimes, held.2.of_states ?_⟩
    apply map_getElem?_modify
    intro b
    obtain ⟨allowed, formed, changed⟩ := retimes b
    rw [changed]

theorem noneSealed_formedState (wellFormed : WellFormed s)
    (order : List CompatibilityKey) :
    WellFormed (s.formedState policy order now) ∧
      NoneSealed s (s.formedState policy order now) := by
  apply (NoneSealed.placeRule policy now s).formPass
  refine ⟨(WellFormed.tickRule policy now).expireLocked wellFormed order, ?_⟩
  apply kept_expireLocked (NoneSealed s)
  · intro s' id none
    apply none.of_states
    intro bid
    rw [batches_expireWaiting]
  · intro s' id none
    exact none.of_states (states_doCancel policy s' id now)
  · intro bid b found isSealed
    exact isSealedBatch_iff.mpr ⟨b, found, isSealed⟩

/-- Refills of registered batches keep what places keep. -/
theorem PlaceRule.refillAll {Kept : Impl → Prop}
    (rule : PlaceRule policy now Kept) {bids : List BatchId} (kept : Kept s)
    (registered : ∀ bid ∈ bids, ∃ key : CompatibilityKey,
      s.formingByKey[key]? = some bid) :
    Kept (s.refillAll policy now bids) := by
  rw [← decidePass_fst]
  exact rule.decidePass kept registered

theorem registered_of_considered {order : List CompatibilityKey}
    {bid : BatchId} (listed : bid ∈ s.considered policy order now) :
    ∃ key : CompatibilityKey,
      (s.formedState policy order now).formingByKey[key]? = some bid := by
  obtain ⟨⟨key, _⟩, entry, rfl⟩ := List.mem_map.mp listed
  exact ⟨key, (mem_toList_iff _ key _).mp entry⟩

/-- The seals of a list of batches. -/
theorem view_sealAll (now : TimePoint) (s : Impl) (bids : List BatchId)
    (bid : BatchId) :
    ((Transition.run (sealDecided now) s bids).batches[bid]?).map
        (fun b => (b.members, b.state)) =
      (s.batches[bid]?).map fun b => (b.members,
        if bid ∈ bids ∧ b.state = .forming then .sealed else b.state) := by
  induction bids generalizing s with
  | nil => simp
  | cons next rest induction =>
      rw [Transition.run_cons, induction]
      by_cases same : next = bid
      · subst same
        unfold sealDecided
        cases found : s.batches[next]? with
        | none => simp [found]
        | some b =>
            dsimp only
            unfold doSeal
            rw [found]
            dsimp only
            split
            · next closed => simp [found, closed]
            · next forming =>
                unfold sealForming
                dsimp only
                rw [getElem?_modify_self found]
                simp [not_not.mp forming]
      · rw [sealDecided_elsewhere now s same]
        simp [Ne.symm same]

/-- A pass over sealed batches leaves no batch empty that was not. -/
def EmptyBefore (start s : Impl) : Prop :=
  Everywhere s.batches fun bid b => b.state = .sealed → b.members = [] →
    ∃ b₀, start.batches[bid]? = some b₀ ∧ b₀.state = .sealed ∧
      b₀.members = []

theorem halves_ne_nil {b : BatchRec} (possible : splittable b = true) :
    firstHalf b ≠ [] ∧ secondHalf b ≠ [] := by
  have half : b.members.length / 2 ≠ 0 := by
    intro none
    simp [splittable, none] at possible
  unfold firstHalf secondHalf
  rw [← List.length_pos_iff, ← List.length_pos_iff, List.length_take,
    List.length_drop]
  omega

theorem emptyBefore_later (wellFormed : WellFormed s) :
    EmptyBefore s (s.mergePass policy).sizePass := by
  have rule : MergeRule policy fun s' => WellFormed s' ∧ EmptyBefore s s' := {
    wellFormed := fun _ held => held.1
    merge := by
      intro s' aid bid a b held merging
      refine ⟨held.1.mergeInto merging.first merging.second merging.keyed, ?_⟩
      intro other record found isSealed empty
      obtain ⟨_, superseded⟩ | ⟨rfl, _, members, state⟩ | ⟨_, _, at_other⟩ :=
        found_mergeInto found
      · rw [isSealed] at superseded
        cases superseded
      · rw [members, List.append_eq_nil_iff] at empty
        exact held.2 _ a merging.first (state.symm.trans isSealed) empty.1
      · exact held.2 other record at_other isSealed empty }
  have split : ∀ (s' : Impl) (bid : BatchId) (b : BatchRec),
      WellFormed s' ∧ EmptyBefore s s' → s'.batches[bid]? = some b →
      b.state = .sealed → splittable b = true →
      WellFormed (s'.splitSealed bid b) ∧
        EmptyBefore s (s'.splitSealed bid b) := by
    intro s' bid b held at_bid _ possible
    refine ⟨held.1.splitSealed at_bid, ?_⟩
    intro other record found isSealed empty
    obtain ⟨_, members, _⟩ | ⟨_, members, _⟩ | ⟨_, superseded⟩ |
      ⟨_, at_other⟩ := found_splitSealed found
    · exact absurd (members.symm.trans empty) (halves_ne_nil possible).1
    · exact absurd (members.symm.trans empty) (halves_ne_nil possible).2
    · rw [isSealed] at superseded
      cases superseded
    · exact held.2 other record at_other isSealed empty
  have passed := rule.sizePass split (rule.mergePass ⟨wellFormed,
    fun _ b found isSealed empty => ⟨b, found, isSealed, empty⟩⟩)
  exact passed.2

end Passes

section Ticks

variable {policy : BatchPolicy} {s : Impl}

theorem totalled_refillAll (reachable : Reachable policy s)
    (order : List CompatibilityKey) (now : TimePoint) {bids : List BatchId}
    (listed : ∀ bid ∈ bids, bid ∈ s.considered policy order now) :
    ((s.formedState policy order now).refillAll policy now bids).Totalled := by
  have rule := totalsRule policy
  have wellFormed := wellFormed_of_reachable reachable
  have expired : WellFormed (s.expireLocked policy order now) ∧
      (s.expireLocked policy order now).Contents fun requests b =>
        b.accum = accumOf requests b.members :=
    ⟨(WellFormed.tickRule policy now).expireLocked wellFormed order,
      rule.expireLocked (totalled_of_reachable reachable) order now⟩
  have formed := (rule.placeRule now).formPass expired order
  exact ((rule.placeRule now).refillAll formed fun bid member =>
    registered_of_considered (listed bid member)).2

theorem noneSealed_refillAll (wellFormed : WellFormed s)
    {order : List CompatibilityKey} {now : TimePoint} :
    NoneSealed s ((s.formedState policy order now).refillAll policy now
      (s.considered policy order now)) := by
  have registered : ∀ bid ∈ s.considered policy order now,
      ∃ key : CompatibilityKey,
        (s.formedState policy order now).formingByKey[key]? = some bid :=
    fun _ => registered_of_considered
  exact ((NoneSealed.placeRule policy now s).refillAll
    (noneSealed_formedState wellFormed order) registered).2

/-- A batch that comes to be sealed was decided on while forming. -/
theorem sealedState_cases (wellFormed : WellFormed s)
    {order : List CompatibilityKey} {now : TimePoint} {bid : BatchId}
    {b' : BatchRec} (unsealed : s.isSealedBatch bid = false)
    (found : (s.sealedState policy order now).batches[bid]? = some b')
    (isSealed : b'.state = .sealed) :
    ∃ b, ((s.formedState policy order now).refillAll policy now
        (s.considered policy order now)).batches[bid]? = some b ∧
      b.state = .forming ∧ b.members = b'.members ∧
      bid ∈ (decidePass policy now (s.formedState policy order now)
        (s.considered policy order now)).2 := by
  have none : NoneSealed s ((s.formedState policy order now).refillAll policy
      now (s.considered policy order now)) := noneSealed_refillAll wellFormed
  unfold sealedState at found
  rw [sealPass_eq] at found
  have viewed := view_sealAll now ((s.formedState policy order now).refillAll
      policy now (s.considered policy order now))
    (decidePass policy now (s.formedState policy order now)
      (s.considered policy order now)).2 bid
  rw [found, Option.map_some, eq_comm, Option.map_eq_some_iff] at viewed
  obtain ⟨b, at_bid, same⟩ := viewed
  have members : b.members = b'.members := congrArg Prod.fst same
  have state := congrArg Prod.snd same
  dsimp only at state
  split at state
  · next decided => exact ⟨b, at_bid, decided.2, members, decided.1⟩
  · have before := none bid b at_bid (state.trans isSealed)
    rw [unsealed] at before
    cases before

/-- A forming batch that is decided on comes to be sealed. -/
theorem sealedState_of_decided {order : List CompatibilityKey}
    {now : TimePoint} {bid : BatchId} {b : BatchRec}
    (found : ((s.formedState policy order now).refillAll policy now
      (s.considered policy order now)).batches[bid]? = some b)
    (forming : b.state = .forming)
    (decided : bid ∈ (decidePass policy now (s.formedState policy order now)
      (s.considered policy order now)).2) :
    ∃ b', (s.sealedState policy order now).batches[bid]? = some b' ∧
      b'.state = .sealed ∧ b'.members = b.members := by
  have viewed := view_sealAll now ((s.formedState policy order now).refillAll
      policy now (s.considered policy order now))
    (decidePass policy now (s.formedState policy order now)
      (s.considered policy order now)).2 bid
  rw [found, Option.map_some, if_pos ⟨decided, forming⟩,
    Option.map_eq_some_iff] at viewed
  obtain ⟨b', at_bid, same⟩ := viewed
  unfold sealedState
  rw [sealPass_eq]
  exact ⟨b', at_bid, congrArg Prod.snd same, congrArg Prod.fst same⟩

/-- A batch that the tick goes through, as its own fill leaves it. -/
theorem refillAll_considered (wellFormed : WellFormed s)
    {order : List CompatibilityKey} {now : TimePoint}
    {before after : List BatchId} {bid : BatchId}
    (listed : s.considered policy order now = before ++ bid :: after) :
    ((s.formedState policy order now).refillAll policy now
        (s.considered policy order now)).batches[bid]? =
      ((s.formedState policy order now).refillAll policy now
        (before ++ [bid])).batches[bid]? := by
  have once : (s.considered policy order now).Nodup :=
    considered_nodup wellFormed
  rw [listed] at once ⊢
  have apart : bid ∉ after :=
    (List.nodup_cons.mp (List.nodup_append.mp once).2.1).1
  rw [List.append_cons, refillAll_append, refillAll_elsewhere _ apart]

theorem sealsEmpty_iff (reachable : Reachable policy s)
    (order : List CompatibilityKey) (now : TimePoint) (bid : BatchId) :
    SealsEmpty policy s order now bid ↔
      FilledEmpty policy s order now bid := by
  have wellFormed := wellFormed_of_reachable reachable
  have once : (s.considered policy order now).Nodup :=
    considered_nodup wellFormed
  have totals : ∀ before after,
      s.considered policy order now = before ++ bid :: after →
      ((s.formedState policy order now).refillAll policy now
        (before ++ [bid])).Totalled := by
    intro before after listed
    apply totalled_refillAll reachable
    intro other member
    rw [listed, List.append_cons]
    exact List.mem_append_left after member
  constructor
  · rintro ⟨unsealed, b', found', isSealed, empty⟩
    obtain ⟨b, found, forming, members, decided⟩ :=
      sealedState_cases wellFormed unsealed found' isSealed
    have empty : b.members = [] := members.trans empty
    obtain ⟨before, after, listed⟩ :=
      List.append_of_mem (mem_of_decidePass decided)
    rw [refillAll_considered wellFormed listed] at found
    rw [listed] at decided once
    have decides := (mem_decidePass_iff _ once).mp decided
    refine ⟨before, after, listed, _, rfl, b, found, forming, empty, ?_,
      (decidesToSeal_empty_iff (totals before after listed) found empty
        now).mp decides⟩
    rw [refillAll_append] at found ⊢
    exact refill_of_empty found empty
  · rintro ⟨before, after, listed, filled, rfl, b, found, forming, left⟩
    have decides : ((s.formedState policy order now).refillAll policy now
        (before ++ [bid])).decidesToSeal policy bid now = true :=
      (decidesToSeal_empty_iff (totals before after listed) found
        left.members now).mpr left.due
    have found := (refillAll_considered wellFormed listed).trans found
    have decided : bid ∈ (decidePass policy now (s.formedState policy order
        now) (s.considered policy order now)).2 := by
      rw [listed] at once ⊢
      exact (mem_decidePass_iff _ once).mpr decides
    obtain ⟨b', found', isSealed, members⟩ :=
      sealedState_of_decided found forming decided
    refine ⟨?_, b', found', isSealed, members.trans left.members⟩
    cases before : s.isSealedBatch bid with
    | false => rfl
    | true =>
        obtain ⟨b₀, at_bid, state⟩ := isSealedBatch_iff.mp before
        have quiet : Quiet s ((s.formedState policy order now).refillAll policy
            now (s.considered policy order now)) :=
          (Quiet.formedState wellFormed order).refillAll
        obtain ⟨b₁, found₁, closed⟩ := quiet.later.2 bid b₀ at_bid
        rw [found] at found₁
        cases found₁
        exact absurd forming (closed (by rw [state]; exact nofun))

/-- A tick seals a batch empty exactly if its fill leaves it so and the batch
is due, and it leaves no other empty batch sealed. -/
theorem tick_sealsEmpty_iff (reachable : Reachable policy s)
    (order : List CompatibilityKey) (now : TimePoint) (bid : BatchId) :
    (SealsEmpty policy s order now bid ↔
        FilledEmpty policy s order now bid) ∧
      ∀ b, (s.tick policy order now).2.batches[bid]? = some b →
        b.state = .sealed → s.isSealedBatch bid = false →
        b.members ≠ [] ∨ FilledEmpty policy s order now bid := by
  refine ⟨sealsEmpty_iff reachable order now bid, ?_⟩
  intro b found isSealed unsealed
  have wellFormed : WellFormed (s.sealedState policy order now) :=
    wellFormed_sealPass (wellFormed_of_reachable reachable)
  have kept : EmptyBefore (s.sealedState policy order now)
      (s.doTick policy order now) := emptyBefore_later wellFormed
  by_cases empty : b.members = []
  · obtain ⟨b₀, found₀, sealed₀, empty₀⟩ := kept bid b found isSealed empty
    exact .inr ((sealsEmpty_iff reachable order now bid).mp
      ⟨unsealed, b₀, found₀, sealed₀, empty₀⟩)
  · exact .inl empty

end Ticks

/-- The only member of a forming batch is cancelled before it is sealed. -/
theorem tick_sealsEmpty_of_cancelled :
    ∃ (policy : BatchPolicy) (s : Impl),
      FilledEmpty policy s [] 3 { value := 1 } := by
  obtain ⟨policy, known⟩ : ∃ policy : BatchPolicy,
      policy = { constraints.minimumPreferredBatch := 2 } := ⟨_, rfl⟩
  obtain ⟨s, ran⟩ : ∃ s, s = BatchFabric.run policy
      [.submit minimalRequest 0, .tick [] 1, .cancel { value := 1 } 2] :=
    ⟨_, rfl⟩
  have reachable : Reachable policy s := ran ▸ reachable_run policy _
  have views : s.isSealedBatch { value := 1 } = false ∧
      ((s.sealedState policy [] 3).batches[({ value := 1 } : BatchId)]?).any
        (fun b => b.state == .sealed && b.members.isEmpty) = true := by
    rw [ran, known, run_eq_runKnown .minimal]
    decide +kernel
  obtain ⟨unsealed, view⟩ := views
  obtain ⟨b, found, seen⟩ := (Option.any_eq_true _ _).mp view
  obtain ⟨state, members⟩ := Bool.and_eq_true_iff.mp seen
  exact ⟨policy, s, (tick_sealsEmpty_iff reachable [] 3 _).1.mp ⟨unsealed, b,
    found, eq_of_beq state, List.isEmpty_iff.mp members⟩⟩

theorem not_tick_seals_nonempty :
    ¬ ∀ (policy : BatchPolicy) (s : Impl) (order : List CompatibilityKey)
      (now : TimePoint) (bid : BatchId) (b : BatchRec), Reachable policy s →
      (s.tick policy order now).2.batches[bid]? = some b →
      b.state = .sealed → s.isSealedBatch bid = false → b.members ≠ [] := by
  intro nonempty
  obtain ⟨policy, known⟩ : ∃ policy : BatchPolicy,
      policy = { constraints.minimumPreferredBatch := 2 } := ⟨_, rfl⟩
  obtain ⟨s, ran⟩ : ∃ s, s = BatchFabric.run policy
      [.submit minimalRequest 0, .tick [] 1, .cancel { value := 1 } 2] :=
    ⟨_, rfl⟩
  have reachable : Reachable policy s := ran ▸ reachable_run policy _
  have views : s.isSealedBatch { value := 1 } = false ∧
      ((s.tick policy [] 3).2.batches[({ value := 1 } : BatchId)]?).any
        (fun b => b.state == .sealed && b.members.isEmpty) = true := by
    rw [ran, known, run_eq_runKnown .minimal]
    decide +kernel
  obtain ⟨unsealed, view⟩ := views
  obtain ⟨b, found, seen⟩ := (Option.any_eq_true _ _).mp view
  obtain ⟨state, members⟩ := Bool.and_eq_true_iff.mp seen
  exact nonempty policy s [] 3 _ b reachable found (eq_of_beq state) unsealed
    (List.isEmpty_iff.mp members)

end BatchFabric.Impl
