import BatchFabric.Safety.BatchRule
import BatchFabric.Safety.Membership
import BatchFabric.Safety.ReportFrame
import BatchFabric.Safety.TickPasses
import BatchFabric.Scheduler.KnownKeys

namespace BatchFabric.Impl

open OrderedMap

/-! What a tick reports of the work that it seals. -/

def isBatched (s : Impl) (id : RequestId) : Bool :=
  match s.requests[id]? with
  | none => false
  | some r => r.state == .batched

/-- The request has become batched since. -/
def isNews (s s' : Impl) (id : RequestId) : Bool :=
  !s.isBatched id && s'.isBatched id

/-- The state in which a tick begins to merge. -/
def sealedState (policy : BatchPolicy) (s : Impl)
    (order : List CompatibilityKey) (now : TimePoint) : Impl :=
  (s.formedState policy order now).sealPass policy now

/-! Batches that have been closed stay so. -/

def StaysClosed (b b' : BatchRec) : Prop :=
  b.state ≠ .forming → b'.state ≠ .forming

theorem closedRule : BatchRule StaysClosed (fun _ => True) True where
  refl _ closed := closed
  trans earlier later closed := later (earlier closed)
  join _ _ _ _ closed := closed
  retime _ _ _ closed := closed
  leave _ _ _ _ closed := closed
  record _ _ same closed := by
    rw [BatchRec.state_of_listing same]
    exact closed
  close _ _ _ _ _ := nofun
  halve _ _ _ _ _ closed := closed
  replace _ _ _ _ _ _ := nofun
  absorb _ _ _ _ _ closed := closed
  supersede _ _ _ _ := nofun
  dispatch _ _ _ _ _ _ := nofun
  start _ _ _ := nofun
  complete _ _ _ _ := nofun
  stop _ _ _ := nofun

/-- Well-formed, and every batch that was closed still is. -/
def Later (s s' : Impl) : Prop :=
  WellFormed s' ∧ Evolves StaysClosed s.batches s'.batches

theorem laterRule (policy : BatchPolicy) (now : TimePoint) (s : Impl) :
    TickRule policy now (Later s) :=
  closedRule.ticks (WellFormed.tickInvariant policy)
    (fun _ _ _ _ _ _ _ => trivial) (fun _ => trivial) now s

namespace Later

variable {s s' : Impl}

theorem refl (wellFormed : WellFormed s) : Later s s :=
  ⟨wellFormed, .refl closedRule.refl s.batches⟩

theorem closed_ordered (later : Later s s') (wellFormed : WellFormed s)
    {bid : BatchId} (listed : bid ∈ s.sealedOrder) : s'.Closed bid := by
  obtain ⟨b, found, closed⟩ := wellFormed.ordered bid listed
  obtain ⟨b', found', stays⟩ := later.2 bid b found
  exact ⟨b', found', stays closed⟩

theorem splitSealed (later : Later s s') {bid : BatchId} {b : BatchRec}
    (found : s'.batches[bid]? = some b) (isSealed : b.state = .sealed) :
    Later s (s'.splitSealed bid b) :=
  ⟨later.1.splitSealed found,
    closedRule.chain later.2 (closedRule.splitSealed later.1 found isSealed)⟩

end Later

/-! Until a tick seals, it orders nothing and no request becomes batched. -/

structure Quiet (s s' : Impl) : Prop where
  later : Later s s'
  order : s'.sealedOrder = s.sealedOrder
  still : ∀ id, s'.isBatched id = true → s.isBatched id = true

theorem isBatched_iff {s : Impl} {id : RequestId} :
    s.isBatched id = true ↔ ∃ r, s.requests[id]? = some r ∧
      r.state = .batched := by
  unfold isBatched
  cases found : s.requests[id]? with
  | none => simp
  | some r => simp

/-- An update of one request that is not batched afterwards. -/
theorem still_of_modify {s s' : Impl} {id : RequestId}
    {change : RequestRec → RequestRec}
    (requests : s'.requests = s.requests.modify id change)
    (unbatched : ∀ r, (change r).state ≠ .batched) (other : RequestId)
    (batched : s'.isBatched other = true) : s.isBatched other = true := by
  obtain ⟨r', found', state⟩ := isBatched_iff.mp batched
  rw [requests] at found'
  obtain ⟨r, found, ⟨_, rfl⟩ | ⟨_, rfl⟩⟩ := getElem?_modify_cases found'
  · exact absurd state (unbatched r)
  · exact isBatched_iff.mpr ⟨r', found, state⟩

namespace Quiet

variable {policy : BatchPolicy} {now : TimePoint} {s s' : Impl}

theorem refl (wellFormed : WellFormed s) : Quiet s s :=
  ⟨.refl wellFormed, rfl, fun _ batched => batched⟩

theorem doCancel (quiet : Quiet s s') (id : RequestId) :
    Quiet s (s'.doCancel policy id now).2 := by
  have later := (laterRule policy now s).cancel s' id quiet.later
  obtain unchanged | ⟨r, _, _, ⟨_, outside⟩ |
      ⟨_, b, _, ⟨_, forming⟩ | ⟨_, closed⟩⟩⟩ := doCancel_cases policy s' id now
  · rw [unchanged]
    exact quiet
  · rw [outside] at later ⊢
    exact ⟨later, quiet.order, fun other batched => quiet.still other
      (still_of_modify (s := s') rfl (fun _ => by exact nofun) other batched)⟩
  · rw [forming] at later ⊢
    exact ⟨later, quiet.order, fun other batched => quiet.still other
      (still_of_modify (s := s') rfl (fun _ => by exact nofun) other batched)⟩
  · rw [closed] at later ⊢
    exact ⟨later, quiet.order, fun other batched => quiet.still other
      (still_of_modify (s := s') rfl (fun _ => by exact nofun) other batched)⟩

theorem expireWaiting (quiet : Quiet s s') (now : TimePoint)
    (id : RequestId) : Quiet s (expireWaiting now s' id) := by
  have later := (laterRule {} now s).expire s' id quiet.later
  obtain unchanged | ⟨r, _, ⟨_, removed⟩ | ⟨_, stats, ended⟩⟩ :=
    expireWaiting_cases now s' id
  · rw [unchanged]
    exact quiet
  · rw [removed] at later ⊢
    exact ⟨later, quiet.order, quiet.still⟩
  · rw [ended] at later ⊢
    exact ⟨later, quiet.order, fun other batched => quiet.still other
      (still_of_modify (s := s') rfl (fun _ => by exact nofun) other batched)⟩

theorem placeRule (policy : BatchPolicy) (now : TimePoint) (s : Impl) :
    PlaceRule policy now (Quiet s) where
  wellFormed _ quiet := quiet.later.1
  openForming s' key quiet absent :=
    ⟨(laterRule policy now s).openForming s' key quiet.later absent,
      quiet.order, quiet.still⟩
  place s' bid key pick b r quiet placing := by
    have later := (laterRule policy now s).place s' bid key pick b r
      quiet.later placing
    rw [place_eq placing.request] at later ⊢
    exact ⟨later, quiet.order, fun other batched => quiet.still other
      (still_of_modify (s := s') rfl (fun _ => by exact nofun) other batched)⟩
  retime s' bid change quiet retimes :=
    ⟨(laterRule policy now s).retime s' bid change quiet.later retimes,
      quiet.order, quiet.still⟩

theorem formedState (wellFormed : WellFormed s)
    (order : List CompatibilityKey) :
    Quiet s (s.formedState policy order now) := by
  apply (placeRule policy now s).formPass
  exact kept_expireLocked (Quiet s)
    (fun _ id quiet => quiet.expireWaiting now id)
    (fun _ id quiet => quiet.doCancel id) (.refl wellFormed) order

theorem refillAll (quiet : Quiet s s') :
    Quiet s (s'.refillAll policy now (s'.formingByKey.toList.map (·.2))) := by
  rw [← decidePass_fst]
  apply (placeRule policy now s).decidePass quiet
  intro bid member
  obtain ⟨⟨key, _⟩, listed, rfl⟩ := List.mem_map.mp member
  exact ⟨key, (mem_toList_iff _ key _).mp listed⟩

end Quiet

/-! From then on every new entry of the order is sealed, and every request that
has become batched is a member of one as long as nothing is merged or split. -/

structure Listed (s s' : Impl) : Prop where
  later : Later s s'
  listed : ∀ bid ∈ s'.sealedOrder, bid ∉ s.sealedOrder →
    ∃ b, s'.batches[bid]? = some b ∧ b.state = .sealed

/-- The requests that have become batched are members of new entries. -/
structure Announced (s s' : Impl) : Prop extends Listed s s' where
  news : ∀ id, s.isNews s' id = true →
    ∃ bid ∈ s'.sealedOrder, bid ∉ s.sealedOrder ∧
      ∃ b, s'.batches[bid]? = some b ∧ id ∈ b.members

theorem isNews_iff {s s' : Impl} {id : RequestId} :
    s.isNews s' id = true ↔
      s.isBatched id = false ∧ s'.isBatched id = true := by
  unfold isNews
  rw [Bool.and_eq_true, Bool.not_eq_true']

theorem isBatched_congr {s s' : Impl}
    (states : ∀ id : RequestId, (s'.requests[id]?).map (·.state) =
      (s.requests[id]?).map (·.state)) (id : RequestId) :
    s'.isBatched id = s.isBatched id := by
  have viewed : ∀ current : Impl, current.isBatched id =
      (((current.requests[id]?).map (·.state)) == some .batched) := by
    intro current
    unfold isBatched
    cases current.requests[id]? <;> rfl
  rw [viewed, viewed, states]

theorem isBatched_mergeInto (s : Impl) (aid bid : BatchId) (a b : BatchRec)
    (id : RequestId) :
    (s.mergeInto aid bid a b).isBatched id = s.isBatched id := by
  apply isBatched_congr
  exact map_getElem?_modifyAll (fun _ => by rfl) s.requests b.members

theorem elsewhere_mergeInto {s : Impl} {aid bid other : BatchId}
    (apart : aid ≠ other) (apart' : bid ≠ other) (a b : BatchRec) :
    (s.mergeInto aid bid a b).batches[other]? = s.batches[other]? := by
  unfold mergeInto
  dsimp only
  rw [getElem?_modify, if_neg apart', getElem?_insert, if_neg apart]

theorem Quiet.announced {s s' : Impl} (quiet : Quiet s s') :
    Announced s s' where
  later := quiet.later
  listed bid listed new := by
    rw [quiet.order] at listed
    exact absurd listed new
  news id news := by
    obtain ⟨before, after⟩ := isNews_iff.mp news
    rw [quiet.still id after] at before
    cases before

namespace Listed

variable {s s' : Impl}

/-- A batch that is forming has not been ordered. -/
theorem unordered (listed : Listed s s') (wellFormed : WellFormed s)
    {bid : BatchId} {b : BatchRec} (found : s'.batches[bid]? = some b)
    (forming : b.state = .forming) : bid ∉ s.sealedOrder := by
  intro old
  obtain ⟨b', found', closed⟩ := listed.later.closed_ordered wellFormed old
  rw [found] at found'
  cases found'
  exact closed forming

theorem sealForming (listed : Listed s s') {bid : BatchId} {b : BatchRec}
    (found : s'.batches[bid]? = some b) (forming : b.state = .forming)
    (reason : SealReason) (now : TimePoint) :
    Listed s (s'.sealForming bid b reason now) := by
  constructor
  · exact (laterRule {} now s).close s' bid b reason listed.later found forming
  · intro other ordered fresh
    unfold Impl.sealForming
    dsimp only
    by_cases same : bid = other
    · subst same
      exact ⟨_, getElem?_modify_self found _, rfl⟩
    · rw [getElem?_modify, if_neg same]
      rcases List.mem_append.mp ordered with earlier | last
      · exact listed.listed other earlier fresh
      · exact absurd (List.mem_singleton.mp last).symm same

theorem mergeInto (listed : Listed s s') {policy : BatchPolicy}
    {aid bid : BatchId} {a b : BatchRec}
    (merging : Merging policy s' aid bid a b) :
    Listed s (s'.mergeInto aid bid a b) := by
  constructor
  · exact (laterRule policy 0 s).merge s' aid bid a b listed.later merging
  · intro other ordered new
    obtain ⟨ordered, apart⟩ := List.mem_filter.mp ordered
    have apart : bid ≠ other := Ne.symm (of_decide_eq_true apart)
    obtain ⟨record, found, isSealed⟩ := listed.listed other ordered new
    unfold Impl.mergeInto
    dsimp only
    rw [getElem?_modify, if_neg apart, getElem?_insert]
    split
    · exact ⟨_, rfl, merging.firstSealed⟩
    · exact ⟨record, found, isSealed⟩

theorem splitSealed (listed : Listed s s') {bid : BatchId} {b : BatchRec}
    (found : s'.batches[bid]? = some b) (isSealed : b.state = .sealed) :
    Listed s (s'.splitSealed bid b) := by
  have formed := listed.later.1
  constructor
  · exact listed.later.splitSealed found isSealed
  · intro other ordered new
    rcases List.mem_append.mp ordered with earlier | last
    · obtain ⟨different, ordered⟩ :=
        formed.orderedOnce.mem_erase_iff.mp earlier
      obtain ⟨record, at_other, still⟩ := listed.listed other ordered new
      exact ⟨record, getElem?_splitSealed_of_old formed (Ne.symm different)
        at_other, still⟩
    · rw [List.mem_singleton.mp last]
      unfold Impl.splitSealed
      dsimp only
      rw [getElem?_insert, if_pos rfl]
      exact ⟨_, rfl, rfl⟩

end Listed

namespace Announced

variable {s s' : Impl}

/-- Sealing a batch orders it, and its members become batched. -/
theorem sealForming (announced : Announced s s') (wellFormed : WellFormed s)
    {bid : BatchId} {b : BatchRec} (found : s'.batches[bid]? = some b)
    (forming : b.state = .forming) (reason : SealReason) (now : TimePoint) :
    Announced s (s'.sealForming bid b reason now) := by
  have new := announced.unordered wellFormed found forming
  have elsewhere : ∀ {other : BatchId}, bid ≠ other →
      (s'.sealForming bid b reason now).batches[other]? =
        s'.batches[other]? := by
    intro other different
    unfold Impl.sealForming
    dsimp only
    rw [getElem?_modify, if_neg different]
  have here := getElem?_modify_self found fun b =>
    { b with
      state := BatchState.sealed, sealReason := reason, sealedNs := now }
  refine ⟨announced.toListed.sealForming found forming reason now, ?_⟩
  intro id news
  obtain ⟨before, after⟩ := isNews_iff.mp news
  obtain ⟨r', found', state⟩ := isBatched_iff.mp after
  have settles : ∀ r : RequestRec,
      (r.advance .reserved .batched).advance .reserved .batched =
        r.advance .reserved .batched := by
    intro r
    by_cases reserved : r.state = .reserved
    · simp [RequestRec.advance, reserved]
    · simp [RequestRec.advance, reserved]
  obtain ⟨r, at_id, ⟨member, _⟩ | ⟨_, unchanged⟩⟩ :=
    getElem?_modifyAll_cases settles found'
  · exact ⟨bid, List.mem_append_right _ (List.mem_singleton_self bid), new, _,
      here, member⟩
  · rw [unchanged] at state
    have known : s.isNews s' id = true :=
      isNews_iff.mpr ⟨before, isBatched_iff.mpr ⟨r, at_id, state⟩⟩
    obtain ⟨other, ordered, fresh, record, at_other, member⟩ :=
      announced.news id known
    have different : bid ≠ other := by
      rintro rfl
      obtain ⟨record', at_bid, isSealed⟩ :=
        announced.listed _ ordered fresh
      rw [found] at at_bid
      cases at_bid
      rw [forming] at isSealed
      cases isSealed
    exact ⟨other, List.mem_append_left _ ordered, fresh, record,
      (elsewhere different).trans at_other, member⟩

theorem sealDecided (announced : Announced s s') (wellFormed : WellFormed s)
    (now : TimePoint) (bid : BatchId) :
    Announced s (sealDecided now s' bid) := by
  unfold Impl.sealDecided
  split
  · exact announced
  · obtain unchanged | ⟨b, found, forming, closed⟩ :=
      doSeal_cases s' bid (s'.sealedReasonFor bid) now
    · rw [unchanged]
      exact announced
    · rw [closed]
      exact announced.sealForming wellFormed found forming _ now

theorem sealedState {policy : BatchPolicy} (wellFormed : WellFormed s)
    (order : List CompatibilityKey) (now : TimePoint) :
    Announced s (s.sealedState policy order now) := by
  have formed : Quiet s (s.formedState policy order now) :=
    Quiet.formedState wellFormed order
  have refilled : Quiet s ((s.formedState policy order now).refillAll policy
      now (s.considered policy order now)) := formed.refillAll
  unfold Impl.sealedState
  rw [sealPass_eq]
  exact Transition.run_invariant (Announced s)
    (fun _ bid _ held => held.sealDecided wellFormed now bid)
    refilled.announced

/-- A merge into a new batch keeps what is announced. -/
theorem mergeInto (announced : Announced s s') {policy : BatchPolicy}
    {aid bid : BatchId} {a b : BatchRec}
    (merging : Merging policy s' aid bid a b) (ordered : aid ∈ s'.sealedOrder)
    (fresh : aid ∉ s.sealedOrder) :
    Announced s (s'.mergeInto aid bid a b) := by
  have target : (s'.mergeInto aid bid a b).batches[aid]? = some (mergeTarget
      (modifyAll s'.requests b.members (RequestRec.setBatch aid)) bid a b) := by
    unfold Impl.mergeInto
    dsimp only
    rw [getElem?_modify, if_neg merging.different.symm, getElem?_insert,
      if_pos rfl]
  have order : ∀ {other : BatchId},
      other ∈ (s'.mergeInto aid bid a b).sealedOrder ↔
        other ∈ s'.sealedOrder ∧ bid ≠ other := by
    intro other
    show other ∈ s'.sealedOrder.filter (· ≠ bid) ↔ _
    rw [List.mem_filter, decide_eq_true_iff]
    exact and_congr_right fun _ => ne_comm
  refine ⟨announced.toListed.mergeInto merging, ?_⟩
  intro id news
  have known : s.isNews s' id = true := by
    rw [isNews_iff, isBatched_mergeInto, ← isNews_iff] at news
    exact news
  obtain ⟨other, listed, new, record, found, member⟩ := announced.news id known
  by_cases taken : bid = other
  · subst taken
    rw [merging.second] at found
    cases found
    exact ⟨aid, order.mpr ⟨ordered, merging.different.symm⟩, fresh, _, target,
      List.mem_append_right _ member⟩
  · by_cases same : aid = other
    · subst same
      rw [merging.first] at found
      cases found
      exact ⟨aid, order.mpr ⟨listed, taken⟩, new, _, target,
        List.mem_append_left _ member⟩
    · exact ⟨other, order.mpr ⟨listed, taken⟩, new, record,
        (elsewhere_mergeInto same taken a b).trans found, member⟩

end Announced

/-- A closed batch that is ordered as long as it is sealed. -/
structure Pending (s : Impl) (bid : BatchId) : Prop where
  closed : s.Closed bid
  ordered : ∀ b, s.batches[bid]? = some b → b.state = .sealed →
    bid ∈ s.sealedOrder

theorem Pending.mergeInto {policy : BatchPolicy} {s : Impl}
    {aid bid other : BatchId} {a b : BatchRec}
    (merging : Merging policy s aid bid a b) (ordered : aid ∈ s.sealedOrder)
    (pending : s.Pending other) : (s.mergeInto aid bid a b).Pending other := by
  refine ⟨closed_mergeInto merging.first pending.closed, ?_⟩
  intro record found isSealed
  have kept : ∀ {x : BatchId}, x ∈ s.sealedOrder → x ≠ bid →
      x ∈ (s.mergeInto aid bid a b).sealedOrder := by
    intro x listed different
    exact List.mem_filter.mpr ⟨listed, decide_eq_true different⟩
  obtain ⟨_, superseded⟩ | ⟨rfl, different, _⟩ | ⟨_, different, at_other⟩ :=
    found_mergeInto found
  · rw [isSealed] at superseded
    cases superseded
  · exact kept ordered different
  · exact kept (pending.ordered record at_other isSealed) different

theorem tickUntilSizePass_eq (policy : BatchPolicy) (s : Impl)
    (order : List CompatibilityKey) (now : TimePoint) :
    s.tickUntilSizePass policy order now =
      (s.sealedState policy order now).mergePass policy := by
  unfold tickUntilSizePass sealedState formedState
  rfl

end BatchFabric.Impl
