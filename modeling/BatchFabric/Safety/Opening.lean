import BatchFabric.Safety.FillOrder
import BatchFabric.Safety.RenamedTick
import BatchFabric.Safety.Totals
import Mathlib.Logic.Equiv.Basic

namespace BatchFabric

open OrderedMap

/-! Opening batches for two keys, one after the other. Which comes first shows
in the ids of the two batches only. -/

namespace FairnessController

theorem insert_amount_comm (table : Map TenantId UInt64) (t t' : TenantId)
    (work work' : UInt64) :
    (table.insert t (amount table t + work)).insert t'
        (amount (table.insert t (amount table t + work)) t' + work') =
      (table.insert t' (amount table t' + work')).insert t
        (amount (table.insert t' (amount table t' + work')) t + work) := by
  apply Std.ExtTreeMap.ext_getElem?
  intro other
  rw [amount_insert, amount_insert, getElem?_insert, getElem?_insert,
    getElem?_insert, getElem?_insert]
  by_cases same : t = t'
  · subst same
    by_cases at_other : t = other
    · rw [if_pos at_other, if_pos rfl, if_pos at_other, if_pos rfl,
        UInt64.add_assoc, UInt64.add_comm work work', ← UInt64.add_assoc]
    · rw [if_neg at_other, if_neg at_other, if_neg at_other, if_neg at_other]
  · rw [if_neg same, if_neg (Ne.symm same)]
    by_cases at_first : t = other
    · have elsewhere : t' ≠ other := fun equal =>
        same (at_first.trans equal.symm)
      rw [if_neg elsewhere, if_pos at_first, if_pos at_first]
    · rw [if_neg at_first, if_neg at_first]

theorem notePlaced_comm (fairness : FairnessController) (t t' : TenantId)
    (work work' : UInt64) :
    (fairness.notePlaced t work).notePlaced t' work' =
      (fairness.notePlaced t' work').notePlaced t work := by
  unfold notePlaced
  dsimp only
  rw [insert_amount_comm fairness.served,
    insert_amount_comm fairness.outstanding]

end FairnessController

namespace Impl

/-- What placing a request adds to the totals of its tenant. -/
def noteRequest (requests : Map RequestId RequestRec)
    (fairness : FairnessController) (id : RequestId) : FairnessController :=
  match requests[id]? with
  | none => fairness
  | some r => fairness.notePlaced r.metadata.tenant r.metadata.work.value

theorem noteRequest_congr {requests requests' : Map RequestId RequestRec}
    (fixed : SameFixed requests requests') :
    noteRequest requests' = noteRequest requests := by
  funext fairness id
  unfold noteRequest
  rcases fixed.found id with
    ⟨none, none'⟩ | ⟨r, r', found, found', metadata, _⟩
  · rw [none, none']
  · rw [found, found']
    dsimp only
    rw [metadata]

theorem noteRequest_comm (requests : Map RequestId RequestRec)
    (fairness : FairnessController) (x y : RequestId) :
    noteRequest requests (noteRequest requests fairness x) y =
      noteRequest requests (noteRequest requests fairness y) x := by
  unfold noteRequest
  cases requests[x]? with
  | none => rfl
  | some r =>
      cases requests[y]? with
      | none => rfl
      | some q => exact FairnessController.notePlaced_comm fairness _ _ _ _

/-- A list of requests leaves the queue of a key. -/
def dequeueAll (key : CompatibilityKey) (index : CompatibilityIndex)
    (picks : List RequestId) : CompatibilityIndex :=
  picks.foldl (fun index id => index.remove key id) index

/-- Two queues may be emptied in either order, and each in any order. -/
theorem dequeueAll_swap (index : CompatibilityIndex)
    (key key' : CompatibilityKey) {picks again picks' again' : List RequestId}
    (same : again.Perm picks) (same' : again'.Perm picks') :
    dequeueAll key (dequeueAll key' index picks') again =
      dequeueAll key' (dequeueAll key index picks) again' := by
  have listed : ∀ (key : CompatibilityKey) (index : CompatibilityIndex)
      (picks : List RequestId), dequeueAll key index picks =
        (picks.map fun id => (key, id)).foldl
          (fun index entry => index.remove entry.1 entry.2) index := by
    intro key index picks
    unfold dequeueAll
    rw [List.foldl_map]
  rw [listed, listed, listed, listed, ← List.foldl_append,
    ← List.foldl_append]
  apply List.Perm.foldl_eq'
  · exact List.perm_append_comm.trans ((same.map _).append (same'.symm.map _))
  · intro x _ y _ current
    exact CompatibilityIndex.remove_comm current x.1 y.1 x.2 y.2

theorem bucketOf_dequeueAll {key other : CompatibilityKey}
    (different : key ≠ other) (index : CompatibilityIndex)
    (picks : List RequestId) :
    (dequeueAll key index picks).bucketOf other = index.bucketOf other := by
  induction picks generalizing index with
  | nil => rfl
  | cons pick picks induction =>
      have stepped : dequeueAll key index (pick :: picks) =
          dequeueAll key (index.remove key pick) picks := rfl
      rw [stepped, induction, CompatibilityIndex.bucketOf_remove,
        if_neg different]

/-- What a tick sees of a request once the requests of a list are reserved. -/
def seenAfter (picks : List RequestId) (id : RequestId)
    (seen : (RequestId × RequestMetadata × TimePoint × CompatibilityKey) ×
      RequestState) :
    (RequestId × RequestMetadata × TimePoint × CompatibilityKey) ×
      RequestState :=
  if id ∈ picks then (seen.1, .reserved) else seen

/-- The batch opened for a key, holding the requests picked for it. -/
structure Opened (s : Impl) (key : CompatibilityKey) (picks : List RequestId)
    (b : BatchRec) : Prop where
  id : b.id = { value := s.nextBatch }
  state : b.state = .forming
  keyed : b.key = key
  phase : b.phase = s.queuedPhase key
  accum : b.accum = accumOf s.requests picks
  members : b.members = picks

/-- A batch has been opened for a key and the requests of a list placed in
it. -/
structure Opens (s : Impl) (key : CompatibilityKey) (picks : List RequestId)
    (s' : Impl) : Prop where
  requests : ∀ id : RequestId, (s'.requests[id]?).map RequestRec.seen =
    ((s.requests[id]?).map RequestRec.seen).map (seenAfter picks id)
  batches : ∃ b, s'.batches = s.batches.insert { value := s.nextBatch } b ∧
    Opened s key picks b
  waitingIndex : s'.waitingIndex = dequeueAll key s.waitingIndex picks
  formingByKey : s'.formingByKey =
    s.formingByKey.insert key { value := s.nextBatch }
  sealedOrder : s'.sealedOrder = s.sealedOrder
  fairness : s'.fairness = picks.foldl (noteRequest s.requests) s.fairness
  workers : s'.workers = s.workers
  merged : s'.stats.batchesMerged = s.stats.batchesMerged
  nextBatch : s'.nextBatch = s.nextBatch + 1

namespace Opens

variable {s s' : Impl} {key : CompatibilityKey} {picks : List RequestId}

theorem fixed (opens : Opens s key picks s') :
    SameFixed s.requests s'.requests := by
  intro id
  have seen := congrArg (Option.map Prod.fst) (opens.requests id)
  rw [Option.map_map, Option.map_map, Option.map_map] at seen
  refine Eq.trans (Eq.trans ?_ seen) ?_
  · rfl
  · cases s.requests[id]? with
    | none => rfl
    | some r =>
        simp only [Option.map_some, Function.comp_apply, seenAfter]
        split
        · rfl
        · rfl

theorem openForming (s : Impl) (key : CompatibilityKey) (now : TimePoint) :
    Opens s key [] (s.openForming key now) where
  requests := by
    intro id
    unfold Impl.openForming
    cases s.requests[id]? with
    | none => rfl
    | some r => rfl
  batches := ⟨s.newForming key now, rfl, {
    id := rfl
    state := rfl
    keyed := rfl
    phase := rfl
    accum := rfl
    members := rfl }⟩
  waitingIndex := rfl
  formingByKey := rfl
  sealedOrder := rfl
  fairness := rfl
  workers := rfl
  merged := rfl
  nextBatch := rfl

theorem modify_insert (map : Map BatchId BatchRec) (bid : BatchId)
    (b : BatchRec) (change : BatchRec → BatchRec) :
    (map.insert bid b).modify bid change = map.insert bid (change b) := by
  apply Std.ExtTreeMap.ext_getElem?
  intro other
  rw [getElem?_modify, getElem?_insert, getElem?_insert]
  split
  · rfl
  · rfl

theorem place (opens : Opens s key picks s')
    (known : ∀ id ∈ picks, ∃ r, s.requests[id]? = some r) {pick : RequestId}
    {r : RequestRec} (found : s.requests[pick]? = some r) :
    Opens s key (picks ++ [pick])
      (s'.place { value := s.nextBatch } key pick) := by
  obtain ⟨b, batches, opened⟩ := opens.batches
  obtain ⟨r', found', metadata⟩ : ∃ r', s'.requests[pick]? = some r' ∧
      r'.metadata = r.metadata := by
    rcases opens.fixed.found pick with ⟨missing, _⟩ | ⟨q, r', at_s, at_s', same⟩
    · rw [found] at missing
      cases missing
    · rw [found] at at_s
      cases at_s
      exact ⟨r', at_s', same.1⟩
  rw [place_eq found']
  exact {
    requests := by
      intro id
      dsimp only
      rw [getElem?_modify]
      have before := opens.requests id
      by_cases same : pick = id
      · subst same
        rw [if_pos rfl, found', found]
        have fixed : r'.fixed = r.fixed := by
          have equal := opens.fixed pick
          rw [found, found'] at equal
          exact Option.some.inj equal
        simp only [Option.map_some, seenAfter, List.mem_append,
          List.mem_singleton, or_true, if_true]
        exact congrArg (fun fixed => some (fixed, RequestState.reserved)) fixed
      · have listed : id ∈ picks ++ [pick] ↔ id ∈ picks := by
          simp [Ne.symm same]
        rw [if_neg same, before]
        unfold seenAfter
        simp only [listed]
    batches := ⟨b.addMember pick r'.metadata, by
        dsimp only
        rw [batches, modify_insert], {
      id := opened.id
      state := opened.state
      keyed := opened.keyed
      phase := opened.phase
      accum := by
        rw [accumOf_concat found, ← opened.accum, metadata]
        unfold BatchRec.addMember BatchAccum.add
        dsimp only
        congr 1
        rw [opened.accum, count_accumOf known, opened.members,
          List.length_append, UInt32.ofNat_add]
        rfl
      members := by
        show b.members ++ [pick] = _
        rw [opened.members] }⟩
    waitingIndex := by
      dsimp only
      rw [opens.waitingIndex]
      unfold dequeueAll
      rw [List.foldl_append]
      rfl
    formingByKey := opens.formingByKey
    sealedOrder := opens.sealedOrder
    fairness := by
      dsimp only
      rw [opens.fairness, List.foldl_append, List.foldl_cons, List.foldl_nil,
        metadata]
      unfold noteRequest
      rw [found]
    workers := opens.workers
    merged := opens.merged
    nextBatch := opens.nextBatch }

theorem placeAll (s : Impl) (key : CompatibilityKey) (now : TimePoint)
    (known : ∀ id ∈ picks, ∃ r, s.requests[id]? = some r) :
    Opens s key picks (Impl.placeAll { value := s.nextBatch } key
      (s.openForming key now) picks) := by
  induction picks using List.reverseRecOn with
  | nil => exact openForming s key now
  | append_singleton picks pick induction =>
      have before := fun id member => known id (List.mem_append_left _ member)
      obtain ⟨r, found⟩ :=
        known pick (List.mem_append_right _ (List.mem_singleton_self pick))
      unfold Impl.placeAll
      rw [Transition.run_append]
      exact (induction before).place before found

/-- Changing the times of the new batch. -/
theorem retime (opens : Opens s key picks s') {change : BatchRec → BatchRec}
    (retimes : Retimes change) :
    Opens s key picks
      { s' with
        batches := s'.batches.modify { value := s.nextBatch } change } := by
  obtain ⟨b, batches, opened⟩ := opens.batches
  obtain ⟨allowed, formed, changed⟩ := retimes b
  exact { opens with
    batches := ⟨change b, by
      dsimp only
      rw [batches, modify_insert], by
      rw [changed]
      exact {
        id := opened.id
        state := opened.state
        keyed := opened.keyed
        phase := opened.phase
        accum := opened.accum
        members := opened.members }⟩ }

end Opens

/-! A batch opened and filled. -/

/-- The requests placed in the batch that is opened for a key. -/
def openingPicks (policy : BatchPolicy) (s : Impl) (key : CompatibilityKey)
    (now : TimePoint) : List RequestId :=
  (s.openForming key now).placements policy { value := s.nextBatch } key now

/-- A batch carries the times that follow from its members. -/
structure TimedBy (policy : BatchPolicy) (requests : Map RequestId RequestRec)
    (now : TimePoint) (b : BatchRec) : Prop where
  allowed : b.allowedWaitNs = computeAllowedWait policy requests b now
  formed : b.formedNs = earliestArrival requests now b.members

/-- Everything a tick reads of the state once a batch has been opened for a
key and the requests of a list placed in it. -/
structure Makes (policy : BatchPolicy) (now : TimePoint) (s : Impl)
    (key : CompatibilityKey) (picks : List RequestId) (s' : Impl) : Prop
    extends Opens s key picks s' where
  made : ∃ b, s'.batches = s.batches.insert { value := s.nextBatch } b ∧
    Opened s key picks b ∧ TimedBy policy s.requests now b

section Making

variable {policy : BatchPolicy} {s : Impl} {key : CompatibilityKey}
  {now : TimePoint}

theorem known_of_openingPicks :
    ∀ id ∈ s.openingPicks policy key now, ∃ r, s.requests[id]? = some r := by
  intro id placed
  unfold openingPicks at placed
  have known := known_of_placements placed
  exact Option.isSome_iff_exists.mp known

theorem opens_fillForming :
    Opens s key (s.openingPicks policy key now)
      ((s.openForming key now).fillForming policy { value := s.nextBatch } key
        now) := by
  rw [fillForming_eq_placeAll]
  exact Opens.placeAll s key now known_of_openingPicks

theorem opens_makeForming :
    Opens s key (s.openingPicks policy key now)
      (s.makeForming policy key now) := by
  have filled : Opens s key (s.openingPicks policy key now) _ :=
    opens_fillForming
  exact (filled.retime fun b => ⟨_, b.formedNs, rfl⟩).retime
    fun b => ⟨b.allowedWaitNs, _, rfl⟩

theorem makes_makeForming :
    Makes policy now s key (s.openingPicks policy key now)
      (s.makeForming policy key now) := by
  refine { opens_makeForming with made := ?_ }
  have filling : Opens s key (s.openingPicks policy key now) _ :=
    opens_fillForming
  obtain ⟨filled, batches, opened⟩ := filling.batches
  have fixed := filling.fixed
  generalize held : (s.openForming key now).fillForming policy
    { value := s.nextBatch } key now = u at filling batches fixed
  refine ⟨{ filled with
    allowedWaitNs := computeAllowedWait policy u.requests filled now
    formedNs := earliestArrival u.requests now filled.members }, ?_, ?_, ?_⟩
  · unfold makeForming setFormed setAllowedWait
    dsimp only
    rw [held, batches, Opens.modify_insert, Opens.modify_insert]
    rfl
  · exact {
      id := opened.id
      state := opened.state
      keyed := opened.keyed
      phase := opened.phase
      accum := opened.accum
      members := opened.members }
  · constructor
    · exact computeAllowedWait_congr fixed (List.Perm.refl _) rfl
    · exact earliestArrival_congr fixed (List.Perm.refl _)

end Making

/-! Two batches opened in either order. -/

section Swapping

variable {policy : BatchPolicy} {s : Impl} {first second : CompatibilityKey}
  {now : TimePoint}

theorem SameFixed.symm {requests requests' : Map RequestId RequestRec}
    (fixed : SameFixed requests requests') : SameFixed requests' requests :=
  fun id => (fixed id).symm

theorem Opens.bucket {s' : Impl} {key other : CompatibilityKey}
    {picks : List RequestId} (opens : Opens s key picks s')
    (different : key ≠ other) : s'.bucket other = s.bucket other := by
  unfold Impl.bucket
  rw [opens.waitingIndex, bucketOf_dequeueAll different]

/-- The batch opened for a key second is like the one opened for it first, if
the same requests are picked for it. -/
theorem alike_of_opened {s' : Impl} {ordered : Prop}
    {rename : BatchId → BatchId} {key : CompatibilityKey}
    {picks picks' : List RequestId} {b b' : BatchRec}
    (fixed : SameFixed s.requests s'.requests)
    (bucket : s'.bucket key = s.bucket key) (picked : picks'.Perm picks)
    (inOrder : ordered → picks' = picks) (opened : Opened s key picks b)
    (opened' : Opened s' key picks' b') (timed : TimedBy policy s.requests now b)
    (timed' : TimedBy policy s'.requests now b')
    (renamed : { value := s'.nextBatch } = rename { value := s.nextBatch }) :
    BatchRec.Alike ordered rename b b' := by
  have accum : b'.accum = b.accum := by
    rw [opened'.accum, opened.accum, accumOf_congr fixed,
      Renamed.accumOf_perm s.requests picked]
  have members : b'.members.Perm b.members := by
    rw [opened'.members, opened.members]
    exact picked
  exact {
    id := by rw [opened'.id, opened.id, renamed]
    state := by rw [opened'.state, opened.state]
    key := by rw [opened'.keyed, opened.keyed]
    phase := by
      rw [opened'.phase, opened.phase, queuedPhase_congr fixed bucket]
    accum := accum
    formedNs := by
      rw [timed'.formed, timed.formed]
      exact earliestArrival_congr fixed members
    allowedWaitNs := by
      rw [timed'.allowed, timed.allowed]
      exact computeAllowedWait_congr fixed members accum
    members := members
    inOrder := fun holds => by
      rw [opened'.members, opened.members, inOrder holds] }

/-- The requests seen after both batches have been opened. -/
theorem seen_of_both {s' s'' : Impl} {picks picks' : List RequestId}
    (opens : Opens s first picks s') (opens' : Opens s' second picks' s'')
    (id : RequestId) :
    (s''.requests[id]?).map RequestRec.seen =
      ((s.requests[id]?).map RequestRec.seen).map
        (seenAfter (picks ++ picks') id) := by
  rw [opens'.requests id, opens.requests id, Option.map_map]
  congr 1
  funext seen
  simp only [Function.comp_apply, seenAfter, List.mem_append]
  by_cases early : id ∈ picks
  · by_cases late : id ∈ picks'
    · simp [early, late]
    · simp [early, late]
  · simp [early]

theorem seenAfter_perm {picks picks' : List RequestId}
    (permuted : picks'.Perm picks) (id : RequestId) :
    seenAfter picks' id = seenAfter picks id := by
  funext seen
  simp only [seenAfter, permuted.mem_iff]

variable {s₁ s₂ s₁₂ s₂₁ : Impl} {picks picks' again again' : List RequestId}
  {ordered : Prop}

theorem corresponds_swap (wellFormed : WellFormed s) (different : first ≠ second)
    (one : Makes policy now s first picks s₁)
    (oneTwo : Makes policy now s₁ second again' s₁₂)
    (two : Makes policy now s second picks' s₂)
    (twoOne : Makes policy now s₂ first again s₂₁)
    (same : again.Perm picks) (same' : again'.Perm picks')
    (inOrder : ordered → again = picks ∧ again' = picks') :
    Corresponds
      (Equiv.swap { value := s.nextBatch } { value := s.nextBatch + 1 })
      (BatchRec.Alike ordered (Equiv.swap { value := s.nextBatch }
        { value := s.nextBatch + 1 })) s₁₂.batches s₂₁.batches := by
  obtain ⟨a, batches₁, openedA, timedA⟩ := one.made
  obtain ⟨b', batches₁₂, openedB', timedB'⟩ := oneTwo.made
  obtain ⟨b, batches₂, openedB, timedB⟩ := two.made
  obtain ⟨a', batches₂₁, openedA', timedA'⟩ := twoOne.made
  rw [one.nextBatch] at batches₁₂
  rw [two.nextBatch] at batches₂₁
  intro bid
  rw [batches₁₂, batches₂₁, batches₁, batches₂, getElem?_insert,
    getElem?_insert, getElem?_insert, getElem?_insert]
  have apart : ({ value := s.nextBatch + 1 } : BatchId) ≠
      { value := s.nextBatch } := by simp
  by_cases later : ({ value := s.nextBatch + 1 } : BatchId) = bid
  · subst later
    rw [if_pos rfl, Equiv.swap_apply_right, if_neg apart, if_pos rfl]
    apply Option.Rel.some
    exact alike_of_opened one.fixed.symm (one.bucket different).symm same'.symm
      (fun holds => (inOrder holds).2.symm) openedB' openedB timedB' timedB (by
        rw [one.nextBatch, Equiv.swap_apply_right])
  · by_cases earlier : ({ value := s.nextBatch } : BatchId) = bid
    · subst earlier
      rw [if_neg later, if_pos rfl, Equiv.swap_apply_left, if_pos rfl]
      apply Option.Rel.some
      exact alike_of_opened (two.fixed) (two.bucket (Ne.symm different)) same
        (fun holds => (inOrder holds).1) openedA openedA' timedA timedA' (by
          rw [two.nextBatch, Equiv.swap_apply_left])
    · rw [if_neg later, if_neg earlier,
        Equiv.swap_apply_of_ne_of_ne (Ne.symm earlier) (Ne.symm later),
        if_neg later, if_neg earlier]
      cases found : s.batches[bid]? with
      | none => exact .none
      | some kept =>
          apply Option.Rel.some
          have named := (wellFormed.batch bid kept found).1
          exact {
            id := by
              rw [named, Equiv.swap_apply_of_ne_of_ne (Ne.symm earlier)
                (Ne.symm later)]
            state := rfl
            key := rfl
            phase := rfl
            accum := rfl
            formedNs := rfl
            allowedWaitNs := rfl
            members := List.Perm.refl _
            inOrder := fun _ => rfl }

/-- Opened in the other order, the two batches have changed names. -/
theorem renamed_swap (wellFormed : WellFormed s) (different : first ≠ second)
    (one : Makes policy now s first picks s₁)
    (oneTwo : Makes policy now s₁ second again' s₁₂)
    (two : Makes policy now s second picks' s₂)
    (twoOne : Makes policy now s₂ first again s₂₁)
    (same : again.Perm picks) (same' : again'.Perm picks')
    (inOrder : ordered → again = picks ∧ again' = picks') :
    Renamed ordered
      (Equiv.swap { value := s.nextBatch } { value := s.nextBatch + 1 })
      s₁₂ s₂₁ := by
  have kept : ∀ bid : BatchId, bid.value < s.nextBatch →
      Equiv.swap ({ value := s.nextBatch } : BatchId)
        { value := s.nextBatch + 1 } bid = bid := by
    intro bid low
    apply Equiv.swap_apply_of_ne_of_ne
    · rintro rfl
      exact Nat.lt_irrefl _ low
    · rintro rfl
      exact Nat.not_succ_lt_self low
  exact {
    requests := by
      intro id
      rw [seen_of_both two.toOpens twoOne.toOpens,
        seen_of_both one.toOpens oneTwo.toOpens]
      congr 1
      exact seenAfter_perm (List.perm_append_comm.trans
        (same.append same'.symm)) id
    batches := corresponds_swap wellFormed different one oneTwo two twoOne same
      same' inOrder
    waitingIndex := by
      rw [twoOne.waitingIndex, two.waitingIndex, oneTwo.waitingIndex,
        one.waitingIndex]
      exact dequeueAll_swap s.waitingIndex first second same same'
    formingByKey := by
      intro key
      rw [twoOne.formingByKey, two.formingByKey, oneTwo.formingByKey,
        one.formingByKey, one.nextBatch, two.nextBatch, getElem?_insert,
        getElem?_insert, getElem?_insert, getElem?_insert]
      by_cases atFirst : first = key
      · subst atFirst
        rw [if_pos rfl, if_neg (Ne.symm different), if_pos rfl,
          Option.map_some, Equiv.swap_apply_left]
      · by_cases atSecond : second = key
        · subst atSecond
          rw [if_neg atFirst, if_pos rfl, if_pos rfl, Option.map_some,
            Equiv.swap_apply_right]
        · rw [if_neg atFirst, if_neg atSecond, if_neg atSecond, if_neg atFirst]
          cases registered : s.formingByKey[key]? with
          | none => rfl
          | some bid =>
              have keyed := wellFormed.registered key bid registered
              obtain ⟨b, found, _⟩ := Option.map_eq_some_iff.mp keyed
              rw [Option.map_some, kept bid (wellFormed.batch bid b found).2.2]
    sealedOrder := by
      rw [twoOne.sealedOrder, two.sealedOrder, oneTwo.sealedOrder,
        one.sealedOrder]
      symm
      apply (List.map_congr_left fun bid listed => ?_).trans (List.map_id _)
      obtain ⟨b, found, _⟩ := wellFormed.ordered bid listed
      exact kept bid (wellFormed.batch bid b found).2.2
    fairness := by
      rw [twoOne.fairness, two.fairness, oneTwo.fairness, one.fairness,
        noteRequest_congr one.fixed, noteRequest_congr two.fixed,
        ← List.foldl_append, ← List.foldl_append]
      apply List.Perm.foldl_eq'
      · exact List.perm_append_comm.trans (same.append same'.symm)
      · intro x _ y _ current
        exact noteRequest_comm s.requests current x y
    workers := by
      rw [twoOne.workers, two.workers, oneTwo.workers, one.workers]
    merged := by rw [twoOne.merged, two.merged, oneTwo.merged, one.merged]
    nextBatch := by
      rw [twoOne.nextBatch, two.nextBatch, oneTwo.nextBatch, one.nextBatch]
    unused := by
      intro bid unused
      rw [oneTwo.nextBatch, one.nextBatch] at unused
      apply Equiv.swap_apply_of_ne_of_ne
      · rintro rfl
        dsimp only at unused
        omega
      · rintro rfl
        dsimp only at unused
        omega }

end Swapping

end Impl

end BatchFabric
