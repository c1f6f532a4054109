import BatchFabric.Safety.Expiry
import BatchFabric.Safety.TickReport

namespace BatchFabric.Impl

open OrderedMap

/-! Expiry is complete when a tick seals no work that is past its deadline. A
batch is sealed when the tick closes it, and again when a split for size makes
two of it. -/

/-- After an expiry and after a tick no request that awaits sealing is past its
deadline, and no member that a tick seals, unless it has ended. -/
structure ExpiryComplete (policy : BatchPolicy) (s : Impl)
    (order : List CompatibilityKey) (now : TimePoint) : Prop where
  expired : NoneOverdue (s.expireLocked policy order now) now
  ticked : NoneOverdue (s.tick policy order now).2 now
  closed : ∀ bid ∈ (s.sealedState policy order now).sealedOrder,
    bid ∉ s.sealedOrder →
      ∀ m ∈ (s.sealedState policy order now).membersOf bid,
        (s.tick policy order now).2.HasTime now m
  isSealed : ∀ (bid : BatchId) (b : BatchRec),
    (s.tick policy order now).2.batches[bid]? = some b → b.state = .sealed →
      s.isSealedBatch bid = false ∨
        bid ∈ (s.tick policy order now).1.sealedBatches →
      ∀ m ∈ b.members, (s.tick policy order now).2.HasTime now m

/-- Before the tick, each member of a batch that it closes or splits has ended
or has time left, or the expiry ends it. -/
structure SealsInTime (policy : BatchPolicy) (s : Impl)
    (order : List CompatibilityKey) (now : TimePoint) : Prop where
  closes : ∀ bid ∈ (s.sealedState policy order now).sealedOrder,
    bid ∉ s.sealedOrder →
      ∀ m ∈ (s.sealedState policy order now).membersOf bid,
        s.inTime now m = true
  splits : ∀ split ∈ (s.tickUntilSizePass policy order now).sizeSplits,
    ∀ m ∈ split.record.members, s.inTime now m = true

/-- So it is, before the tick, with the members of every sealed batch of the
order that is too large for some worker, or may be when others are merged into
it. -/
def SplitsInTime (policy : BatchPolicy) (s : Impl) (now : TimePoint) : Prop :=
  s.maxWorkerBatchSize ≠ 0 → ∀ bid ∈ s.sealedOrder, ∀ b ∈ s.batches[bid]?,
    b.state = .sealed →
      s.absorbsNone policy = false ∨ s.maxWorkerBatchSize < b.accum.count →
    ∀ m ∈ b.members, s.inTime now m = true

instance (policy : BatchPolicy) (s : Impl) (now : TimePoint) :
    Decidable (SplitsInTime policy s now) :=
  inferInstanceAs (Decidable (_ → _))

/-! The members of the batches that a tick seals. -/

/-- The sealed ones of the batches list only such requests. -/
def ListsOnly (Among : BatchId → Prop) (Allowed : RequestId → Prop)
    (s : Impl) : Prop :=
  Everywhere s.batches fun bid b => b.state = .sealed → Among bid →
    ∀ m ∈ b.members, Allowed m

namespace ListsOnly

variable {Among : BatchId → Prop} {Allowed : RequestId → Prop} {s : Impl}
  {policy : BatchPolicy}

theorem mergePass (wellFormed : WellFormed s)
    (carried : ∀ pair ∈ s.mergePairs, Among pair.1 → Among pair.2)
    (only : ListsOnly Among Allowed s) :
    ListsOnly Among Allowed (s.mergePass policy) := by
  apply mergePass_pairs wellFormed (ListsOnly Among Allowed) _ only
  intro current pair a b member held merging bid record found isSealed among
  obtain ⟨_, superseded⟩ | ⟨rfl, _, members, _⟩ | ⟨_, _, at_bid⟩ :=
    found_mergeInto found
  · rw [isSealed] at superseded
    cases superseded
  · rw [members]
    intro m listed
    rcases List.mem_append.mp listed with first | second
    · exact held _ a merging.first merging.firstSealed among m first
    · exact held _ b merging.second merging.secondSealed
        (carried pair member among) m second
  · exact held bid record at_bid isSealed among

theorem splitSealed (only : ListsOnly Among Allowed s) {bid : BatchId}
    {b : BatchRec} (allowed : ∀ m ∈ b.members, Allowed m) :
    ListsOnly Among Allowed (s.splitSealed bid b) := by
  intro other record found isSealed among m listed
  obtain ⟨_, members, _⟩ | ⟨_, members, _⟩ | ⟨_, superseded⟩ | ⟨_, at_other⟩ :=
    found_splitSealed found
  · rw [members] at listed
    exact allowed m (List.mem_of_mem_take listed)
  · rw [members] at listed
    exact allowed m (List.mem_of_mem_drop listed)
  · rw [isSealed] at superseded
    cases superseded
  · exact only other record at_other isSealed among m listed

end ListsOnly

/-- What has come to be sealed lists only such requests, and whatever has come
into the order has come to be sealed. -/
structure SealsOnly (Allowed : RequestId → Prop) (s s' : Impl) : Prop where
  later : Later s s'
  only : ListsOnly (fun bid => s.isSealedBatch bid = false) Allowed s'
  ordered : ∀ bid ∈ s'.sealedOrder, bid ∉ s.sealedOrder →
    s.isSealedBatch bid = false

/-- An identifier that a split hands out. -/
theorem Later.unsealed_of_fresh {s s' : Impl} (later : Later s s')
    {bid : BatchId} (fresh : s'.nextBatch ≤ bid.value) :
    s.isSealedBatch bid = false := by
  rw [← Bool.not_eq_true]
  intro isSealed
  obtain ⟨b, found, _⟩ := isSealedBatch_iff.mp isSealed
  obtain ⟨b', found', _⟩ := later.2 bid b found
  exact absurd (later.1.batch bid b' found').2.2 (Nat.not_lt.mpr fresh)

theorem SealsOnly.splitSealed {Allowed : RequestId → Prop} {s s' : Impl}
    (seals : SealsOnly Allowed s s') {bid : BatchId} {b : BatchRec}
    (found : s'.batches[bid]? = some b) (isSealed : b.state = .sealed)
    (allowed : ∀ m ∈ b.members, Allowed m) :
    SealsOnly Allowed s (s'.splitSealed bid b) where
  later := seals.later.splitSealed found isSealed
  only := seals.only.splitSealed allowed
  ordered other listed new := by
    rcases List.mem_append.mp listed with earlier | last
    · exact seals.ordered other (List.mem_of_mem_erase earlier) new
    · rw [List.mem_singleton.mp last]
      exact seals.later.unsealed_of_fresh (Nat.le_succ _)

section Sealing

variable {policy : BatchPolicy} {s : Impl} {order : List CompatibilityKey}
  {now : TimePoint}

/-- A batch that comes to be sealed comes into the order. -/
theorem ordered_of_sealedState (wellFormed : WellFormed s) {bid : BatchId}
    {b : BatchRec} (unsealed : s.isSealedBatch bid = false)
    (found : (s.sealedState policy order now).batches[bid]? = some b)
    (isSealed : b.state = .sealed) :
    bid ∈ (s.sealedState policy order now).sealedOrder := by
  have none : NoneSealed s ((s.formedState policy order now).refillAll policy
      now (s.considered policy order now)) := noneSealed_refillAll wellFormed
  have ordered : Everywhere (s.sealedState policy order now).batches
      fun bid b => b.state = .sealed → s.isSealedBatch bid = true ∨
        bid ∈ (s.sealedState policy order now).sealedOrder := by
    unfold sealedState
    rw [sealPass_eq]
    apply Transition.run_invariant (fun current : Impl =>
      Everywhere current.batches fun bid b => b.state = .sealed →
        s.isSealedBatch bid = true ∨ bid ∈ current.sealedOrder)
    · intro current next _ known
      unfold sealDecided
      split
      · exact known
      · obtain unchanged | ⟨record, at_next, _, closed⟩ :=
          doSeal_cases current next (current.sealedReasonFor next) now
        · rw [unchanged]
          exact known
        · rw [closed]
          intro other record' at_other still
          obtain ⟨before, at_before, ⟨rfl, _⟩ | ⟨_, rfl⟩⟩ :=
            getElem?_modify_cases at_other
          · exact .inr (List.mem_append_right _ (List.mem_singleton_self _))
          · exact (known other record' at_before still).imp_right
              (List.mem_append_left _)
    · exact fun bid b found isSealed => .inl (none bid b found isSealed)
  obtain was | listed := ordered bid b found isSealed
  · rw [unsealed] at was
    cases was
  · exact listed

/-- The members of what the tick closes are those of what comes to be sealed
until it splits. -/
theorem sealsOnly_tickUntilSizePass (reachable : Reachable policy s)
    (closes : ∀ bid ∈ (s.sealedState policy order now).sealedOrder,
      bid ∉ s.sealedOrder →
        ∀ m ∈ (s.sealedState policy order now).membersOf bid,
          s.inTime now m = true) :
    SealsOnly (fun m => s.inTime now m = true) s
      (s.tickUntilSizePass policy order now) := by
  have wellFormed := wellFormed_of_reachable reachable
  have registered := registeredUnsealed_of_reachable reachable
  have listed : Listed s (s.sealedState policy order now) :=
    (Announced.sealedState wellFormed order now).toListed
  have only : ListsOnly (fun bid => s.isSealedBatch bid = false)
      (fun m => s.inTime now m = true) (s.sealedState policy order now) := by
    intro bid b found isSealed unsealed m member
    apply closes bid (ordered_of_sealedState wellFormed unsealed found isSealed)
    · intro old
      have was := isSealed_ordered wellFormed old
        (isSealedBatch_iff.mpr ⟨b, found, isSealed⟩)
      rw [unsealed] at was
      cases was
    · rwa [membersOf_eq found]
  have ordered : ∀ bid ∈ (s.sealedState policy order now).sealedOrder,
      bid ∉ s.sealedOrder → s.isSealedBatch bid = false := by
    obtain ⟨new, appended, considered⟩ : ∃ new,
        (s.sealedState policy order now).sealedOrder = s.sealedOrder ++ new ∧
          _ := order_sealedState wellFormed order
    intro bid among new
    rw [appended] at among
    rcases List.mem_append.mp among with old | last
    · exact absurd old new
    · exact unsealed_of_considered registrable_unsealed wellFormed registered
        (considered bid last)
  have rule : MergeRule policy (fun current => Later s current ∧
      ∀ bid ∈ current.sealedOrder, bid ∉ s.sealedOrder →
        s.isSealedBatch bid = false) := {
    wellFormed := fun _ held => held.1.1
    merge := fun _ _ _ _ _ held merging =>
      ⟨(laterRule policy 0 s).merge _ _ _ _ _ held.1 merging,
        fun bid among => held.2 bid (List.mem_of_mem_filter among)⟩ }
  rw [tickUntilSizePass_eq]
  have merged := rule.mergePass ⟨listed.later, ordered⟩
  exact ⟨merged.1, only.mergePass listed.later.1 (fun pair =>
    unsealed_of_mergePairs registrable_unsealed wellFormed registered),
    merged.2⟩

end Sealing

/-! What the splits for size leave in new batches. -/

/-- The request is a member of a batch that has come to be sealed. -/
def InNew (s : Impl) (m : RequestId) (s' : Impl) : Prop :=
  ∃ bid b, s'.batches[bid]? = some b ∧ b.state = .sealed ∧
    s.isSealedBatch bid = false ∧ m ∈ b.members

section Splits

variable {s current : Impl} {m : RequestId}

/-- The members of a batch that is split end in the one half or the other. -/
theorem inNew_halves (later : Later s current) {bid : BatchId} {b : BatchRec}
    (isSealed : b.state = .sealed) (member : m ∈ b.members) :
    InNew s m (current.splitSealed bid b) := by
  obtain ⟨⟨first, at_first, firstSealed, firstMembers⟩,
    ⟨second, at_second, secondState, secondMembers⟩⟩ :=
    halves_splitSealed current bid b
  have parted : m ∈ firstHalf b ++ secondHalf b := by
    unfold firstHalf secondHalf
    rwa [List.take_append_drop]
  rcases List.mem_append.mp parted with inFirst | inSecond
  · exact ⟨_, first, at_first, firstSealed,
      later.unsealed_of_fresh (Nat.le_succ _), firstMembers ▸ inFirst⟩
  · exact ⟨_, second, at_second, secondState.trans isSealed,
      later.unsealed_of_fresh (Nat.le_refl _), secondMembers ▸ inSecond⟩

theorem InNew.splitSealed (inNew : InNew s m current)
    (later : Later s current) {bid : BatchId} {b : BatchRec}
    (found : current.batches[bid]? = some b) (isSealed : b.state = .sealed) :
    InNew s m (current.splitSealed bid b) := by
  obtain ⟨other, record, at_other, still, unsealed, member⟩ := inNew
  by_cases same : bid = other
  · subst same
    rw [found] at at_other
    cases at_other
    exact inNew_halves later isSealed member
  · exact ⟨other, record,
      getElem?_splitSealed_of_old later.1 same at_other, still, unsealed,
      member⟩

theorem InNew.sizeSplits (inNew : InNew s m current)
    (later : Later s current) (turns : List Nat) :
    InNew s m (Transition.run splitOversized current turns) := by
  have kept : Later s (Transition.run splitOversized current turns) ∧
      InNew s m (Transition.run splitOversized current turns) := by
    apply Transition.run_invariant (fun current : Impl =>
      Later s current ∧ InNew s m current)
    · rintro current i _ ⟨later, inNew⟩
      obtain ⟨_, unchanged⟩ | ⟨bid, b, _, found, isSealed, _, _, taken⟩ :=
        turnSplits_cases later.1 i
      · rw [unchanged]
        exact ⟨later, inNew⟩
      · rw [taken]
        exact ⟨later.splitSealed found isSealed,
          inNew.splitSealed later found isSealed⟩
    · exact ⟨later, inNew⟩
  exact kept.2

/-- The members of every batch that the loop splits end in new batches. -/
theorem inNew_of_split (later : Later s current) (turns : List Nat) :
    ∀ split ∈ Transition.outputs splitOversized turnSplits current turns,
      ∀ m ∈ split.record.members,
        InNew s m (Transition.run splitOversized current turns) := by
  induction turns generalizing current with
  | nil =>
      intro split among
      rw [Transition.outputs] at among
      cases among
  | cons i rest induction =>
      intro split among m member
      rw [Transition.outputs] at among
      rw [Transition.run_cons]
      obtain ⟨none, unchanged⟩ |
          ⟨bid, b, _, found, isSealed, _, split', taken⟩ :=
        turnSplits_cases later.1 i
      · rw [none, List.nil_append] at among
        rw [unchanged] at among ⊢
        exact induction later split among m member
      · rw [split', List.singleton_append] at among
        rw [taken] at among ⊢
        have after := later.splitSealed found isSealed
        rcases List.mem_cons.mp among with rfl | coming
        · exact (inNew_halves later isSealed member).sizeSplits after rest
        · exact induction after split coming m member

/-- Splits of batches with only such members make batches with only such
members. -/
theorem SealsOnly.sizeSplits {Allowed : RequestId → Prop}
    (seals : SealsOnly Allowed s current) (turns : List Nat)
    (allowed : ∀ split ∈ Transition.outputs splitOversized turnSplits current
      turns, ∀ m ∈ split.record.members, Allowed m) :
    SealsOnly Allowed s (Transition.run splitOversized current turns) := by
  induction turns generalizing current with
  | nil => exact seals
  | cons i rest induction =>
      rw [Transition.outputs] at allowed
      rw [Transition.run_cons]
      obtain ⟨none, unchanged⟩ |
          ⟨bid, b, _, found, isSealed, _, split, taken⟩ :=
        turnSplits_cases seals.later.1 i
      · rw [none, List.nil_append] at allowed
        rw [unchanged] at allowed ⊢
        exact induction seals allowed
      · rw [split, List.singleton_append] at allowed
        rw [taken] at allowed ⊢
        apply induction
        · exact seals.splitSealed found isSealed
            (allowed _ List.mem_cons_self)
        · exact fun split coming =>
            allowed split (List.mem_cons_of_mem _ coming)

/-- The batches of the order that are too large list only such requests. -/
def OversizedOnly (Allowed : RequestId → Prop) (s : Impl) : Prop :=
  s.maxWorkerBatchSize ≠ 0 → ∀ bid ∈ s.sealedOrder, ∀ b : BatchRec,
    s.batches[bid]? = some b → b.state = .sealed →
      s.maxWorkerBatchSize < b.accum.count → ∀ m ∈ b.members, Allowed m

theorem OversizedOnly.splitSealed {Allowed : RequestId → Prop}
    (oversized : OversizedOnly Allowed s) (wellFormed : WellFormed s)
    {bid : BatchId} {b : BatchRec} (allowed : ∀ m ∈ b.members, Allowed m) :
    OversizedOnly Allowed (s.splitSealed bid b) := by
  intro sized other ordered record found isSealed counted m member
  obtain ⟨_, members, _⟩ | ⟨_, members, _⟩ | ⟨_, superseded⟩ |
      ⟨different, at_other⟩ := found_splitSealed found
  · rw [members] at member
    exact allowed m (List.mem_of_mem_take member)
  · rw [members] at member
    exact allowed m (List.mem_of_mem_drop member)
  · rw [isSealed] at superseded
    cases superseded
  · rcases List.mem_append.mp ordered with earlier | last
    · exact oversized sized other (List.mem_of_mem_erase earlier) record
        at_other isSealed counted m member
    · have known := (wellFormed.batch other record at_other).2.2
      rw [List.mem_singleton.mp last] at known
      exact absurd known (Nat.not_lt.mpr (Nat.le_succ _))

theorem OversizedOnly.sizeSplits {Allowed : RequestId → Prop}
    (wellFormed : WellFormed s) (oversized : OversizedOnly Allowed s)
    (turns : List Nat) :
    ∀ split ∈ Transition.outputs splitOversized turnSplits s turns,
      ∀ m ∈ split.record.members, Allowed m := by
  induction turns generalizing s with
  | nil =>
      intro split among
      rw [Transition.outputs] at among
      cases among
  | cons i rest induction =>
      intro split among
      rw [Transition.outputs] at among
      obtain ⟨none, unchanged⟩ |
          ⟨bid, b, listed, found, isSealed, limited, split', taken⟩ :=
        turnSplits_cases wellFormed i
      · rw [none, unchanged] at among
        exact induction wellFormed oversized split among
      · rw [split', taken, List.singleton_append] at among
        have allowed := oversized limited.1 bid (List.mem_of_getElem? listed) b
          found isSealed limited.2
        rcases List.mem_cons.mp among with rfl | coming
        · exact allowed
        · exact induction (wellFormed.splitSealed found)
            (oversized.splitSealed wellFormed allowed) split coming

end Splits

section Ticks

variable {policy : BatchPolicy} {s : Impl} {order : List CompatibilityKey}
  {now : TimePoint}

/-- What a tick closes is in time where the expiry can end the members of the
registered batches. -/
theorem closes_inTime (wellFormed : WellFormed s)
    (ends : s.EndsMembers now) :
    ∀ bid ∈ (s.sealedState policy order now).sealedOrder,
      bid ∉ s.sealedOrder →
        ∀ m ∈ (s.sealedState policy order now).membersOf bid,
          s.inTime now m = true := by
  have closes : ClosesInTime s now (s.considered policy order now)
      (s.sealedState policy order now) :=
    closesInTime_sealedState wellFormed ends
  intro bid listed new m member
  exact (hasTime_sealedState_iff wellFormed).mp
    (closes.ordered bid listed new m member)

/-- No merge makes a batch sealed. -/
theorem noneSealed_mergePass (wellFormed : WellFormed s) :
    NoneSealed s (s.mergePass policy) := by
  apply mergePass_pairs wellFormed (NoneSealed s)
  · intro current pair a b _ none merging bid record found isSealed
    obtain ⟨_, superseded⟩ | ⟨rfl, _, _, _⟩ | ⟨_, _, at_bid⟩ :=
      found_mergeInto found
    · rw [isSealed] at superseded
      cases superseded
    · exact none _ a merging.first merging.firstSealed
    · exact none bid record at_bid isSealed
  · exact fun bid b found isSealed => isSealedBatch_iff.mpr ⟨b, found, isSealed⟩

/-- A sealed batch that was in the order stands as it did when the merges
begin. -/
theorem standing_of_ordered (reachable : Reachable policy s) {bid : BatchId}
    (old : bid ∈ s.sealedOrder) {b : BatchRec}
    (found : (s.sealedState policy order now).batches[bid]? = some b)
    (isSealed : b.state = .sealed) :
    ∃ b₀, s.batches[bid]? = some b₀ ∧ b₀.state = .sealed ∧
      b.standing = b₀.standing := by
  have wellFormed := wellFormed_of_reachable reachable
  have stands : Stands (· ≠ .sealed) s (s.sealedState policy order now) :=
    Stands.sealedState registrable_unsealed wellFormed
      (registeredUnsealed_of_reachable reachable) order
  have was : s.isSealedBatch bid = true := isSealed_ordered wellFormed old
    (isSealedBatch_iff.mpr ⟨b, found, isSealed⟩)
  obtain ⟨b₀, at_bid, state⟩ := isSealedBatch_iff.mp was
  obtain ⟨b', found', same⟩ := stands.found at_bid (fun other => other state)
  rw [found] at found'
  cases found'
  exact ⟨b₀, at_bid, state, same⟩

/-- Where nothing can be absorbed, it comes out of the merges so, too. -/
theorem standing_of_apart (reachable : Reachable policy s)
    (absorbs : s.absorbsNone policy = true) {bid : BatchId}
    (old : bid ∈ s.sealedOrder) {b : BatchRec}
    (found : (s.tickUntilSizePass policy order now).batches[bid]? = some b)
    (isSealed : b.state = .sealed) :
    ∃ b₀, s.batches[bid]? = some b₀ ∧ b₀.state = .sealed ∧
      b.standing = b₀.standing := by
  have wellFormed := wellFormed_of_reachable reachable
  have registered := registeredUnsealed_of_reachable reachable
  have listed : Listed s (s.sealedState policy order now) :=
    (Announced.sealedState wellFormed order now).toListed
  rw [tickUntilSizePass_eq] at found
  have still : (s.sealedState policy order now).isSealedBatch bid = true :=
    noneSealed_mergePass listed.later.1 bid b found isSealed
  obtain ⟨b₁, found₁, isSealed₁⟩ := isSealedBatch_iff.mp still
  obtain ⟨b₀, at_bid, state, same⟩ :=
    standing_of_ordered reachable old found₁ isSealed₁
  have kept : ((s.sealedState policy order now).mergePass
      policy).batches[bid]? = (s.sealedState policy order now).batches[bid]? :=
    (mergePass_apart registrable_unsealed wellFormed registered absorbs
      (fun _ => True) (fun _ _ _ _ _ _ _ _ => trivial) trivial).2 bid b₀ at_bid
        (fun other => other state)
  rw [kept, found₁] at found
  cases found
  exact ⟨b₀, at_bid, state, same⟩

/-- Where something can be, the batches of the order are in time before they
are merged, and so are those they are merged into. -/
theorem listsOnly_tickUntilSizePass (reachable : Reachable policy s)
    (ends : s.EndsMembers now) (inTime : SplitsInTime policy s now)
    (limited : s.maxWorkerBatchSize ≠ 0)
    (absorbs : s.absorbsNone policy = false) :
    ListsOnly (· ∈ (s.sealedState policy order now).sealedOrder)
      (fun m => s.inTime now m = true)
      (s.tickUntilSizePass policy order now) := by
  have wellFormed := wellFormed_of_reachable reachable
  have listed : Listed s (s.sealedState policy order now) :=
    (Announced.sealedState wellFormed order now).toListed
  rw [tickUntilSizePass_eq]
  refine ListsOnly.mergePass listed.later.1
    (fun pair member _ => (ordered_of_mergePairs member).2) ?_
  intro bid b found isSealed among
  by_cases old : bid ∈ s.sealedOrder
  · obtain ⟨b₀, at_bid, state, same⟩ :=
      standing_of_ordered reachable old found isSealed
    have members : b.members = b₀.members := congrArg (·.2.2.2.2) same
    rw [members]
    exact inTime limited bid old b₀ at_bid state (.inl absorbs)
  · have closed := closes_inTime wellFormed ends bid among old
    rwa [membersOf_eq found] at closed

theorem oversizedOnly_tickUntilSizePass (reachable : Reachable policy s)
    (ends : s.EndsMembers now) (inTime : SplitsInTime policy s now) :
    OversizedOnly (fun m => s.inTime now m = true)
      (s.tickUntilSizePass policy order now) := by
  have wellFormed := wellFormed_of_reachable reachable
  have seals : SealsOnly (fun m => s.inTime now m = true) s
      (s.tickUntilSizePass policy order now) :=
    sealsOnly_tickUntilSizePass reachable (closes_inTime wellFormed ends)
  intro limited bid listed b found isSealed counted
  rw [maxWorkerBatchSize_tickUntilSizePass wellFormed] at limited counted
  by_cases old : bid ∈ s.sealedOrder
  · cases absorbs : s.absorbsNone policy with
    | true =>
        obtain ⟨b₀, at_bid, state, same⟩ :=
          standing_of_apart reachable absorbs old found isSealed
        have members : b.members = b₀.members := congrArg (·.2.2.2.2) same
        have accum : b.accum = b₀.accum := congrArg (·.2.2.2.1) same
        rw [accum] at counted
        rw [members]
        exact inTime limited bid old b₀ at_bid state (.inr counted)
    | false =>
        obtain ⟨new, appended, _⟩ : ∃ new,
            (s.sealedState policy order now).sealedOrder =
              s.sealedOrder ++ new ∧ _ := order_sealedState wellFormed order
        refine listsOnly_tickUntilSizePass reachable ends inTime limited absorbs
          bid b found isSealed ?_
        rw [appended]
        exact List.mem_append_left _ old
  · exact seals.only bid b found isSealed (seals.ordered bid listed old)

theorem sealsInTime_of_members (reachable : Reachable policy s)
    (ends : s.EndsMembers now) (inTime : SplitsInTime policy s now) :
    SealsInTime policy s order now where
  closes := closes_inTime (wellFormed_of_reachable reachable) ends
  splits := by
    have wellFormed := wellFormed_of_reachable reachable
    have formed : WellFormed (s.tickUntilSizePass policy order now) :=
      (listed_tickUntilSizePass wellFormed).later.1
    exact (oversizedOnly_tickUntilSizePass reachable ends inTime).sizeSplits
      formed _

/-- What a tick closes and splits is in time exactly if what it seals has
time. -/
theorem sealsInTime_iff (reachable : Reachable policy s) :
    SealsInTime policy s order now ↔
      (∀ bid ∈ (s.sealedState policy order now).sealedOrder,
        bid ∉ s.sealedOrder →
          ∀ m ∈ (s.sealedState policy order now).membersOf bid,
            (s.doTick policy order now).HasTime now m) ∧
      ∀ (bid : BatchId) (b : BatchRec),
        (s.doTick policy order now).batches[bid]? = some b →
          b.state = .sealed →
          s.isSealedBatch bid = false ∨
            bid ∈ (s.tick policy order now).1.sealedBatches →
          ∀ m ∈ b.members, (s.doTick policy order now).HasTime now m := by
  have wellFormed := wellFormed_of_reachable reachable
  have timely : ∀ m, (s.doTick policy order now).HasTime now m ↔
      s.inTime now m = true := fun _ => hasTime_doTick_iff wellFormed
  simp only [timely]
  constructor
  · intro inTime
    refine ⟨inTime.closes, ?_⟩
    have seals : SealsOnly (fun m => s.inTime now m = true) s
        (s.doTick policy order now) :=
      (sealsOnly_tickUntilSizePass reachable inTime.closes).sizeSplits _
        inTime.splits
    rintro bid b found isSealed (unsealed | reported)
    · exact seals.only bid b found isSealed unsealed
    · obtain ⟨ordered, new⟩ := mem_sealedBatches_iff.mp reported
      exact seals.only bid b found isSealed (seals.ordered bid ordered new)
  · rintro ⟨closes, sealedInTime⟩
    refine ⟨closes, ?_⟩
    intro split among m member
    obtain ⟨bid, b, found, isSealed, unsealed, listed⟩ :
        InNew s m (s.doTick policy order now) :=
      inNew_of_split (listed_tickUntilSizePass wellFormed).later _ split among
        m member
    exact sealedInTime bid b found isSealed (.inl unsealed) m listed

/-- Expiry is complete exactly if it comes across every overdue request and the
members of what the tick closes or splits are in time. They are where the expiry
can end those of the registered batches, and those of the batches that are too
large, or may be after a merge, have time. -/
theorem expiryComplete_iff (reachable : Reachable policy s)
    (order : List CompatibilityKey) (now : TimePoint) :
    (ExpiryComplete policy s order now ↔
      s.FindsOverdue now ∧ SealsInTime policy s order now) ∧
    (s.FindsOverdue now ∧ s.EndsMembers now ∧ SplitsInTime policy s now →
      ExpiryComplete policy s order now) := by
  have wellFormed := wellFormed_of_reachable reachable
  have complete : ExpiryComplete policy s order now ↔
      s.FindsOverdue now ∧ SealsInTime policy s order now := by
    rw [sealsInTime_iff reachable]
    constructor
    · intro complete
      exact ⟨noneOverdue_expireLocked_iff.mp complete.expired, complete.closed,
        complete.isSealed⟩
    · rintro ⟨finds, closed, isSealed⟩
      have expired : NoneOverdue (s.expireLocked policy order now) now :=
        noneOverdue_expireLocked_iff.mpr finds
      exact ⟨expired, noneOverdue_doTick wellFormed expired, closed, isSealed⟩
  refine ⟨complete, ?_⟩
  rintro ⟨finds, ends, inTime⟩
  exact complete.mpr ⟨finds, sealsInTime_of_members reachable ends inTime⟩

end Ticks

/-- A member of a forming batch and a request in the queue, both past their
deadlines. -/
theorem expiryComplete_of_due :
    ∃ (policy : BatchPolicy) (s : Impl), ¬ s.NoneOverdue 20 ∧
      ExpiryComplete policy s [] 20 := by
  let policy : BatchPolicy := {
    constraints := { globalMaxWaitNs := 1000, minimumPreferredBatch := 2 } }
  let due : RequestMetadata :=
    { minimalRequest with deadline := { absoluteNs := 10 } }
  obtain ⟨s, ran⟩ : ∃ s, s = BatchFabric.run policy
      [.submit due 0, .tick [] 1, .submit due 2] := ⟨_, rfl⟩
  have reachable : Reachable policy s := ran ▸ reachable_run policy _
  have views : ¬ s.NoneOverdue 20 ∧ s.FindsOverdue 20 ∧ s.EndsMembers 20 ∧
      SplitsInTime policy s 20 := by
    rw [ran, run_eq_runKnown .minimal]
    decide +kernel
  exact ⟨policy, s, views.1, (expiryComplete_iff reachable [] 20).2 views.2⟩

/-- A deferred request is in no bucket of the waiting index. -/
theorem not_expiryComplete_of_deferred :
    ¬ ∀ (policy : BatchPolicy) (s : Impl) (order : List CompatibilityKey)
      (now : TimePoint), Reachable policy s →
      ExpiryComplete policy s order now := by
  intro complete
  let policy : BatchPolicy := { fairness.maxOutstandingPerTenant := 1 }
  obtain ⟨s, ran⟩ : ∃ s, s = BatchFabric.run policy [
      .submit minimalRequest 0,
      .submit { minimalRequest with deadline := { absoluteNs := 10 } } 0] :=
    ⟨_, rfl⟩
  have reachable : Reachable policy s := ran ▸ reachable_run policy _
  have overdue : ¬ NoneOverdue (s.expireLocked policy [] 20) 20 := by
    rw [ran, run_eq_runKnown .minimal]
    decide +kernel
  exact overdue (complete policy s [] 20 reachable).expired

end BatchFabric.Impl
