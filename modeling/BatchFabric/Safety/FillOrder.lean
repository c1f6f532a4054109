import BatchFabric.Scheduler.Effects
import BatchFabric.Scheduler.KnownKeys
import BatchFabric.TenantSelection
import Mathlib.Data.Int.Order.Basic

/-! The requests a run of the filling loop places, and in which order. -/

namespace BatchFabric.Impl

open OrderedMap

/-- The picks of the filling loop. -/
def fillPicks (policy : BatchPolicy) (bid : BatchId) (key : CompatibilityKey)
    (now : TimePoint) : Nat → Impl → List RequestId → List RequestId
  | 0, _, _ => []
  | fuel + 1, s, cands =>
      match s.fillPick policy bid cands now with
      | none => []
      | some pick =>
          pick :: fillPicks policy bid key now fuel (s.place bid key pick)
            (cands.filter (· ≠ pick))

/-- The requests one run of `fillForming` places, in order. -/
def placements (policy : BatchPolicy) (s : Impl) (bid : BatchId)
    (key : CompatibilityKey) (now : TimePoint) : List RequestId :=
  match s.batches[bid]?, s.waitingIndex[key]? with
  | some _, some bucket =>
      fillPicks policy bid key now bucket.length s bucket
  | _, _ => []

/-- The state once these requests have been placed. -/
def placeAll (bid : BatchId) (key : CompatibilityKey) (s : Impl)
    (picks : List RequestId) : Impl :=
  Transition.run (fun s pick => s.place bid key pick) s picks

section Picks

variable {policy : BatchPolicy} {bid : BatchId} {key : CompatibilityKey}
  {now : TimePoint}

theorem fillLoop_eq_placeAll (fuel : Nat) (s : Impl)
    (cands : List RequestId) :
    fillLoop policy bid key now fuel s cands =
      placeAll bid key s (fillPicks policy bid key now fuel s cands) := by
  induction fuel generalizing s cands with
  | zero => rfl
  | succ fuel induction =>
      unfold fillLoop fillPicks
      cases picked : s.fillPick policy bid cands now with
      | none => rfl
      | some pick => exact induction (s.place bid key pick) _

theorem fillForming_eq_placeAll (s : Impl) :
    s.fillForming policy bid key now =
      placeAll bid key s (s.placements policy bid key now) := by
  unfold fillForming placements
  cases s.batches[bid]? with
  | none => rfl
  | some b =>
      cases s.waitingIndex[key]? with
      | none => rfl
      | some bucket => exact fillLoop_eq_placeAll bucket.length s bucket

/-- Each request is picked from the candidates not yet placed, in the state
the earlier ones leave. -/
theorem fillPick_of_picks {fuel : Nat} {s : Impl}
    {cands before after : List RequestId} {pick : RequestId}
    (picks : fillPicks policy bid key now fuel s cands =
      before ++ pick :: after) :
    (placeAll bid key s before).fillPick policy bid
      (cands.filter (· ∉ before)) now = some pick := by
  induction before generalizing fuel s cands with
  | nil =>
      cases fuel with
      | zero => cases picks
      | succ fuel =>
          unfold fillPicks at picks
          have all : cands.filter (· ∉ ([] : List RequestId)) = cands := by
            simp
          rw [all]
          cases picked : s.fillPick policy bid cands now with
          | none =>
              rw [picked] at picks
              cases picks
          | some first =>
              rw [picked] at picks
              rw [(List.cons.inj picks).1] at picked
              exact picked
  | cons first before induction =>
      cases fuel with
      | zero => cases picks
      | succ fuel =>
          unfold fillPicks at picks
          cases picked : s.fillPick policy bid cands now with
          | none =>
              rw [picked] at picks
              cases picks
          | some first' =>
              rw [picked] at picks
              obtain ⟨rfl, rest⟩ := List.cons.inj picks
              have later := induction rest
              rw [List.filter_filter] at later
              have same : cands.filter (· ∉ first' :: before) =
                  cands.filter fun id =>
                    decide (id ∉ before) && decide (id ≠ first') := by
                apply List.filter_congr
                intro id _
                rw [Bool.and_comm, ← Bool.decide_and]
                simp only [List.mem_cons, not_or]
              rw [same]
              exact later

/-- The same of a run of `fillForming`. -/
theorem fillPick_of_placements {s : Impl} {before after : List RequestId}
    {pick : RequestId}
    (picks : s.placements policy bid key now = before ++ pick :: after) :
    (placeAll bid key s before).fillPick policy bid
      ((s.bucket key).filter (· ∉ before)) now = some pick := by
  unfold placements at picks
  split at picks
  · next bucket _ at_key =>
      have queued : s.bucket key = bucket := by
        unfold Impl.bucket CompatibilityIndex.bucketOf
        rw [at_key]
        rfl
      rw [queued]
      exact fillPick_of_picks picks
  · exact absurd picks (by simp)

end Picks

/-! What is known of a pick. -/

/-- When a request arrived, with its identifier to break ties. -/
def arrival (s : Impl) (id : RequestId) : ℤ ×ₗ ℕ :=
  toLex (((s.requests[id]?).map (·.submitted)).getD 0, id.value)

theorem arrivedBefore_iff {s : Impl} {x y : RequestId} {rx ry : RequestRec}
    (foundX : s.requests[x]? = some rx) (foundY : s.requests[y]? = some ry) :
    s.arrivedBefore x y = true ↔ s.arrival x ≤ s.arrival y := by
  unfold arrivedBefore arrival
  rw [foundX, foundY, Prod.Lex.toLex_le_toLex]
  simp only [Option.map_some, Option.getD_some]
  split
  · next different =>
      rw [decide_eq_true_iff]
      exact ⟨.inl, fun before => before.resolve_right fun same =>
        different same.1⟩
  · next same =>
      have equal := not_not.mp same
      rw [decide_eq_true_iff, equal]
      simp

/-- The first of a sorted pool arrived first. -/
theorem arrival_head_le {s : Impl} {pool : List RequestId}
    (found : ∀ id ∈ pool, ∃ r, s.requests[id]? = some r) {first : RequestId}
    (head : (pool.insertionSort fun x y => s.arrivedBefore x y).head? =
      some first) : ∀ id ∈ pool, s.arrival first ≤ s.arrival id := by
  have sorted : ((pool.insertionSort fun x y => s.arrivedBefore x y).map
      s.arrival) = (pool.map s.arrival).insertionSort (· ≤ ·) := by
    apply List.map_insertionSort
    intro x memberX y memberY
    obtain ⟨rx, foundX⟩ := found x memberX
    obtain ⟨ry, foundY⟩ := found y memberY
    exact arrivedBefore_iff foundX foundY
  have ordered := List.pairwise_insertionSort (· ≤ ·) (pool.map s.arrival)
  rw [← sorted] at ordered
  obtain ⟨rest, split⟩ := List.head?_eq_some_iff.mp head
  rw [split, List.map_cons, List.pairwise_cons] at ordered
  intro id member
  have listed : id ∈ first :: rest := by
    rw [← split]
    exact (List.perm_insertionSort _ pool).mem_iff.mpr member
  rcases List.mem_cons.mp listed with same | later
  · rw [same]
  · exact ordered.1 _ (List.mem_map.mpr ⟨id, later, rfl⟩)

/-- The pick is of the tenant that ranks first among those with a request that
may join, and the first to have arrived of that tenant's. -/
structure Picked (policy : BatchPolicy) (s : Impl) (cands : List RequestId)
    (now : TimePoint) (b : BatchRec) (pick : RequestId) : Prop where
  candidate : pick ∈ cands
  fillable : s.fillable policy b now pick = true
  tenant : ∀ id ∈ cands, s.fillable policy b now id = true →
    s.fairness.rank policy.fairness (s.tenantOf pick) ≤
      s.fairness.rank policy.fairness (s.tenantOf id)
  first : ∀ id ∈ cands, s.fillable policy b now id = true →
    s.tenantOf id = s.tenantOf pick → s.arrival pick ≤ s.arrival id

theorem picked_of_fillPick {policy : BatchPolicy} {s : Impl} {bid : BatchId}
    {cands : List RequestId} {now : TimePoint} {pick : RequestId}
    (picked : s.fillPick policy bid cands now = some pick) :
    ∃ b, s.batches[bid]? = some b ∧ Picked policy s cands now b pick := by
  unfold fillPick at picked
  cases found : s.batches[bid]? with
  | none => simp [found] at picked
  | some b =>
      refine ⟨b, rfl, ?_⟩
      simp only [found] at picked
      have offered : ∀ id ∈ cands, s.fillable policy b now id = true →
          s.tenantOf id ∈ (groupBy s.tenantOf
            (cands.filter (s.fillable policy b now))).keys := by
        intro id member fillable
        rw [Std.ExtTreeMap.mem_keys, Std.ExtTreeMap.mem_iff_isSome_getElem?,
          getElem?_groupBy, if_neg]
        · rfl
        · apply List.ne_nil_of_mem
          exact List.mem_filter.mpr
            ⟨List.mem_filter.mpr ⟨member, fillable⟩, decide_eq_true rfl⟩
      have least := fun id member fillable =>
        s.fairness.rank_selectNext_le policy.fairness
          (offered id member fillable)
      generalize s.fairness.selectNext policy.fairness _ = chosen
        at picked least
      rw [getElem?_groupBy] at picked
      split at picked
      · cases picked
      · rw [Option.getD_some] at picked
        have pooled := List.mem_of_mem_head? (Option.mem_def.mpr picked)
        rw [(List.perm_insertionSort _ _).mem_iff, List.mem_filter,
          List.mem_filter, decide_eq_true_iff] at pooled
        obtain ⟨⟨candidate, fillable⟩, ofChosen⟩ := pooled
        have known : ∀ id ∈ (cands.filter (s.fillable policy b now)).filter
            (fun id => decide (s.tenantOf id = chosen)),
            ∃ r, s.requests[id]? = some r := by
          intro id member
          have fillable := (List.mem_filter.mp
            (List.mem_filter.mp member).1).2
          obtain ⟨r, request, _⟩ := fillable_cases fillable
          exact ⟨r, request⟩
        have earliest := arrival_head_le known picked
        refine {
          candidate := candidate
          fillable := fillable
          tenant := ?_
          first := ?_ }
        · intro id member fillable
          rw [ofChosen]
          exact least id member fillable
        · intro id member fillable same
          apply earliest
          exact List.mem_filter.mpr ⟨List.mem_filter.mpr ⟨member, fillable⟩,
            decide_eq_true (same.trans ofChosen)⟩

/-! What placing changes of the requests. -/

section Place

variable (bid : BatchId) (key : CompatibilityKey)

theorem getElem?_place_of_ne (s : Impl) {pick id : RequestId}
    (other : id ≠ pick) :
    (s.place bid key pick).requests[id]? = s.requests[id]? := by
  unfold place addMemberToBatch
  split
  · rfl
  · dsimp only
    rw [getElem?_modify, if_neg other.symm]

theorem getElem?_placeAll_of_not_mem (s : Impl) {picks : List RequestId}
    {id : RequestId} (unplaced : id ∉ picks) :
    (placeAll bid key s picks).requests[id]? = s.requests[id]? := by
  apply Transition.run_invariant
    (fun current : Impl => current.requests[id]? = s.requests[id]?)
  · intro current pick member same
    have other : id ≠ pick := fun equal => unplaced (equal ▸ member)
    rw [getElem?_place_of_ne bid key current other, same]
  · rfl

theorem metadata_place (s : Impl) (pick id : RequestId) :
    ((s.place bid key pick).requests[id]?).map (·.metadata) =
      (s.requests[id]?).map (·.metadata) := by
  unfold place addMemberToBatch
  split
  · rfl
  · exact map_getElem?_modify (fun _ => by rfl) s.requests pick id

theorem metadata_placeAll (s : Impl) (picks : List RequestId)
    (id : RequestId) :
    ((placeAll bid key s picks).requests[id]?).map (·.metadata) =
      (s.requests[id]?).map (·.metadata) :=
  Transition.run_invariant
    (fun current : Impl => (current.requests[id]?).map (·.metadata) =
      (s.requests[id]?).map (·.metadata))
    (fun current pick _ same =>
      (metadata_place bid key current pick id).trans same) rfl

theorem found_placeAll_iff (s : Impl) (picks : List RequestId)
    (id : RequestId) :
    ((placeAll bid key s picks).requests[id]?).isSome =
      (s.requests[id]?).isSome := by
  have same := congrArg Option.isSome (metadata_placeAll bid key s picks id)
  rwa [Option.isSome_map, Option.isSome_map] at same

theorem members_placeAll (s : Impl) {picks : List RequestId}
    (known : ∀ id ∈ picks, (s.requests[id]?).isSome = true) :
    ((placeAll bid key s picks).batches[bid]?).map (·.members) =
      (s.batches[bid]?).map (·.members ++ picks) := by
  induction picks generalizing s with
  | nil =>
      show (s.batches[bid]?).map (·.members) = _
      simp
  | cons pick picks induction =>
      obtain ⟨r, request⟩ := Option.isSome_iff_exists.mp
        (known pick List.mem_cons_self)
      have rest := induction (s.place bid key pick) fun id member =>
        (found_placeAll_iff bid key s [pick] id).trans
          (known id (List.mem_cons_of_mem pick member))
      have stepped : placeAll bid key s (pick :: picks) =
          placeAll bid key (s.place bid key pick) picks := rfl
      rw [stepped, rest, place_eq request]
      dsimp only
      rw [getElem?_modify, if_pos rfl, Option.map_map]
      cases s.batches[bid]? with
      | none => rfl
      | some b => simp [BatchRec.addMember]

end Place

section Overtaking

variable {policy : BatchPolicy} {s : Impl} {bid : BatchId}
  {key : CompatibilityKey} {now : TimePoint}

theorem known_of_placements {pick : RequestId}
    (placed : pick ∈ s.placements policy bid key now) :
    (s.requests[pick]?).isSome = true := by
  obtain ⟨before, after, split⟩ := List.append_of_mem placed
  obtain ⟨b, _, picked⟩ := picked_of_fillPick (fillPick_of_placements split)
  obtain ⟨r, request, _⟩ := fillable_cases picked.fillable
  rw [← found_placeAll_iff bid key s before, request]
  rfl

theorem members_fillForming :
    ((s.fillForming policy bid key now).batches[bid]?).map (·.members) =
      (s.batches[bid]?).map
        (·.members ++ s.placements policy bid key now) := by
  rw [fillForming_eq_placeAll]
  exact members_placeAll bid key s fun _ => known_of_placements

/-- Requests alike in everything the filling loop asks for may join together
or not at all. -/
theorem fillable_of_same {b : BatchRec} {x y : RequestId} {rx ry : RequestRec}
    (foundX : s.requests[x]? = some rx) (foundY : s.requests[y]? = some ry)
    (waitingX : isWaitingState rx.state = true)
    (waitingY : isWaitingState ry.state = true)
    (tenant : rx.metadata.tenant = ry.metadata.tenant)
    (tokens : rx.metadata.tokens = ry.metadata.tokens)
    (work : rx.metadata.work = ry.metadata.work)
    (memory : rx.metadata.memoryBytes = ry.metadata.memoryBytes)
    (deadlineX : rx.metadata.deadline.hasDeadline = false)
    (deadlineY : ry.metadata.deadline.hasDeadline = false) :
    s.fillable policy b now x = s.fillable policy b now y := by
  have amounts : (rx.toCandidate x).amounts = (ry.toCandidate y).amounts := by
    unfold RequestRec.toCandidate BatchFormer.Candidate.amounts
    dsimp only
    rw [tokens, work, memory]
  unfold fillable BatchFormer.fits Deadline.expired
  simp only [foundX, foundY, waitingX, waitingY, tenant, deadlineX, deadlineY,
    amounts, Bool.false_and]

theorem mem_of_overtaken {x y : RequestId} {rx ry : RequestRec}
    (foundX : s.requests[x]? = some rx) (foundY : s.requests[y]? = some ry)
    (queuedX : x ∈ s.bucket key)
    (fillableX : ∀ (t : Impl) (b : BatchRec), t.requests[x]? = some rx →
      t.requests[y]? = some ry → t.fillable policy b now y = true →
      t.fillable policy b now x = true)
    (tenant : rx.metadata.tenant = ry.metadata.tenant)
    (earlier : s.arrival x < s.arrival y) {before after : List RequestId}
    (split : s.placements policy bid key now = before ++ y :: after) :
    x ∈ before := by
  by_contra unplaced
  obtain ⟨b, _, picked⟩ := picked_of_fillPick (fillPick_of_placements split)
  have newY : y ∉ before :=
    of_decide_eq_true (List.mem_filter.mp picked.candidate).2
  have sameX := getElem?_placeAll_of_not_mem bid key s unplaced
  have sameY := getElem?_placeAll_of_not_mem bid key s newY
  have candidate : x ∈ (s.bucket key).filter (· ∉ before) :=
    List.mem_filter.mpr ⟨queuedX, decide_eq_true unplaced⟩
  have fillable := fillableX _ b (sameX.trans foundX) (sameY.trans foundY)
    picked.fillable
  have tenants : (placeAll bid key s before).tenantOf x =
      (placeAll bid key s before).tenantOf y := by
    unfold tenantOf
    rw [sameX, sameY, foundX, foundY]
    exact tenant
  have order := picked.first x candidate fillable tenants
  unfold arrival at earlier order
  rw [sameX, sameY] at order
  exact absurd earlier (not_lt.mpr order)

/-- Among requests of one tenant that ask for the same, none is placed in a
batch before one that arrived earlier. -/
theorem placed_in_order {x y : RequestId} {rx ry : RequestRec}
    (foundX : s.requests[x]? = some rx) (foundY : s.requests[y]? = some ry)
    (queuedX : x ∈ s.bucket key)
    (waitingX : isWaitingState rx.state = true)
    (waitingY : isWaitingState ry.state = true)
    (tenant : rx.metadata.tenant = ry.metadata.tenant)
    (tokens : rx.metadata.tokens = ry.metadata.tokens)
    (work : rx.metadata.work = ry.metadata.work)
    (memory : rx.metadata.memoryBytes = ry.metadata.memoryBytes)
    (deadlineX : rx.metadata.deadline.hasDeadline = false)
    (deadlineY : ry.metadata.deadline.hasDeadline = false)
    (earlier : rx.submitted < ry.submitted ∨
      (rx.submitted = ry.submitted ∧ x.value < y.value))
    {b b' : BatchRec} {added : List RequestId}
    (batch : s.batches[bid]? = some b)
    (filled : (s.fillForming policy bid key now).batches[bid]? = some b')
    (members : b'.members = b.members ++ added) (placed : y ∈ added) :
    ∃ first middle last, added = first ++ x :: (middle ++ y :: last) := by
  have grown : ((s.fillForming policy bid key now).batches[bid]?).map
      (·.members) = (s.batches[bid]?).map
        (·.members ++ s.placements policy bid key now) := members_fillForming
  rw [filled, batch, Option.map_some, Option.map_some, Option.some_inj,
    members, List.append_right_inj] at grown
  subst grown
  obtain ⟨before, after, split⟩ := List.append_of_mem placed
  have ordered : s.arrival x < s.arrival y := by
    unfold arrival
    rw [foundX, foundY, Prod.Lex.toLex_lt_toLex]
    exact earlier
  have member : x ∈ before := mem_of_overtaken foundX foundY queuedX
    (fun t b stillX stillY fillable =>
      (fillable_of_same stillX stillY waitingX waitingY tenant tokens work
        memory deadlineX deadlineY).trans fillable)
    tenant ordered split
  obtain ⟨first, middle, rfl⟩ := List.append_of_mem member
  exact ⟨first, middle, after, by rw [split]; simp⟩

end Overtaking

/-- Two requests join the batch in which two others wait already. -/
theorem placed_in_order_of_two :
    let policy : BatchPolicy := { constraints.minimumPreferredBatch := 3 }
    let s := run policy [.submit minimalRequest 0, .submit minimalRequest 0,
      .tick [] 1, .submit minimalRequest 2, .submit minimalRequest 3]
    ∃ key b b' added, s.batches[({ value := 1 } : BatchId)]? = some b ∧
      (s.fillForming policy { value := 1 } key 4).batches[
        ({ value := 1 } : BatchId)]? = some b' ∧
      b'.members = b.members ++ added ∧
      ∃ first middle last : List RequestId, added =
        first ++ { value := 3 } :: (middle ++ { value := 4 } :: last) := by
  intro policy s
  have views : ((s.requests[({ value := 3 } : RequestId)]?).any fun rx =>
      (s.requests[({ value := 4 } : RequestId)]?).any fun ry =>
      (s.batches[({ value := 1 } : BatchId)]?).any fun b =>
      ((s.fillForming policy { value := 1 } rx.key 4).batches[
        ({ value := 1 } : BatchId)]?).any fun b' => decide (
          { value := 3 } ∈ s.bucket rx.key ∧
          isWaitingState rx.state = true ∧ isWaitingState ry.state = true ∧
          rx.metadata = ry.metadata ∧
          ry.metadata.deadline.hasDeadline = false ∧
          rx.submitted < ry.submitted ∧
          b'.members = b.members ++ [{ value := 3 }, { value := 4 }])) =
      true := by
    unfold s
    rw [run_eq_runKnown .minimal]
    decide +kernel
  obtain ⟨rx, foundX, views⟩ := (Option.any_eq_true _ _).mp views
  obtain ⟨ry, foundY, views⟩ := (Option.any_eq_true _ _).mp views
  obtain ⟨b, batch, views⟩ := (Option.any_eq_true _ _).mp views
  obtain ⟨b', filled, views⟩ := (Option.any_eq_true _ _).mp views
  obtain ⟨queued, waitingX, waitingY, same, deadline, earlier, members⟩ :=
    of_decide_eq_true views
  exact ⟨rx.key, b, b', _, batch, filled, members,
    placed_in_order foundX foundY queued waitingX waitingY (by rw [same])
      (by rw [same]) (by rw [same]) (by rw [same]) (by rw [same, deadline])
      deadline (.inl earlier) batch filled members (by decide)⟩

end BatchFabric.Impl
