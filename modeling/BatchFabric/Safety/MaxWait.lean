import BatchFabric.Safety.FormingClock
import BatchFabric.Scheduler.KnownKeys

namespace BatchFabric

open OrderedMap

/-! How long the members of a forming batch may wait. A tick seals a batch that
has waited long enough, but measures the wait by the clock of the batch. -/

def Op.time? : Op → Option TimePoint
  | .submit _ now | .cancel _ now | .complete _ now | .sealBatch _ _ now
  | .retry _ _ now | .tick _ now | .expire _ now | .dispatchAndRun _ _ now
  | .prepareDispatch _ _ _ now => some now
  | .split _ | .merge _ _ | .registerWorker _ _ _ | .rollEpoch => none

namespace Impl

def earliestSubmission (s : Impl) (b : BatchRec) : Option TimePoint :=
  (b.members.filterMap fun m => (s.requests[m]?).map (·.submitted)).min?

/-- Less than the global wait, if there is one, and than that of every
member's latency class. -/
structure BelowWaits (policy : BatchPolicy) (s : Impl) (b : BatchRec)
    (waited : TimePoint) : Prop where
  global : 0 < policy.constraints.globalMaxWaitNs →
    waited < policy.constraints.globalMaxWaitNs
  latency : ∀ m ∈ b.members, ∀ r ∈ s.requests[m]?,
    ∀ wait ∈ policy.wait.latencyMaxWaitNs r.metadata.latency, waited < wait

/-- No forming batch has kept its earliest member waiting for too long. -/
def WithinMaxWait (policy : BatchPolicy) (s : Impl) (now : TimePoint) : Prop :=
  Everywhere s.batches fun _ b => b.state = .forming →
    ∀ earliest ∈ s.earliestSubmission b,
      s.BelowWaits policy b (now - earliest)

/-! What may go wrong: an old request joins a batch that has formed already. -/

/-- The clock of the batch started no later than the request was submitted. -/
def joinsInTime (s : Impl) (bid : BatchId) (id : RequestId) : Bool :=
  match s.batches[bid]?, s.requests[id]? with
  | some b, some r => b.formedNs ≤ r.submitted
  | _, _ => true

/-- So it did for everything the filling loop places. -/
def fillsInTime (policy : BatchPolicy) (bid : BatchId) (key : CompatibilityKey)
    (now : TimePoint) : Nat → Impl → List RequestId → Bool
  | 0, _, _ => true
  | fuel + 1, s, cands =>
      match s.fillPick policy bid cands now with
      | none => true
      | some pick =>
          s.joinsInTime bid pick &&
            fillsInTime policy bid key now fuel (s.place bid key pick)
              (cands.filter (· ≠ pick))

def refillsInTime (policy : BatchPolicy) (now : TimePoint) (s : Impl)
    (bid : BatchId) : Bool :=
  match s.batches[bid]? with
  | none => true
  | some b =>
      match s.waitingIndex[b.key]? with
      | none => true
      | some bucket => fillsInTime policy bid b.key now bucket.length s bucket

/-- Every batch that a tick leaves waiting it fills in time. -/
def ticksInTime (policy : BatchPolicy) (s : Impl)
    (order : List CompatibilityKey) (now : TimePoint) : Bool :=
  decide (Transition.Along (refill policy now)
    (fun s bid => (refillsInTime policy now s bid ||
      (refill policy now s bid).decidesToSeal policy bid now) = true)
    (s.formedState policy order now) (s.considered policy order now))

def formsUnder (s : Impl) (key : CompatibilityKey) : Bool :=
  match s.formingByKey[key]? with
  | none => false
  | some bid =>
      match s.batches[bid]? with
      | none => false
      | some b => b.state == .forming

/-- What keeps every member's wait measured: no forming batch is split or has
its place in the registry taken, ticks fill in time what they leave waiting,
and none comes `kNoDeadline` after a submission. -/
def measuresWaits (policy : BatchPolicy) (s : Impl) : Op → Bool
  | .split batch =>
      match s.batches[batch]? with
      | none => true
      | some b =>
          !splittable b || b.state == .sealed ||
            (b.state != .forming && !s.formsUnder b.key)
  | .retry request order now =>
      match s.retryQueued policy request now with
      | (.error _, _) => true
      | (.ok _, queued) => queued.ticksInTime policy order now
  | .tick order now =>
      s.ticksInTime policy order now &&
        s.requests.toList.all fun entry =>
          now - entry.2.submitted < kNoDeadline
  | _ => true

theorem measuresWaits_tick (policy : BatchPolicy) (s : Impl)
    (order : List CompatibilityKey) (now : TimePoint) :
    measuresWaits policy s (.tick order now) = true ↔
      s.ticksInTime policy order now = true ∧
        (s.requests.toList.all fun entry =>
          now - entry.2.submitted < kNoDeadline) = true := by
  unfold measuresWaits
  dsimp only
  rw [Bool.and_eq_true]

instance (policy : BatchPolicy) (s : Impl) (b : BatchRec)
    (waited : TimePoint) : Decidable (s.BelowWaits policy b waited) :=
  decidable_of_iff
    ((0 < policy.constraints.globalMaxWaitNs →
        waited < policy.constraints.globalMaxWaitNs) ∧
      ∀ m ∈ b.members, ∀ r ∈ s.requests[m]?,
        ∀ wait ∈ policy.wait.latencyMaxWaitNs r.metadata.latency,
          waited < wait)
    ⟨fun below => ⟨below.1, below.2⟩, fun below => ⟨below.1, below.2⟩⟩

instance (policy : BatchPolicy) (s : Impl) (now : TimePoint) :
    Decidable (s.WithinMaxWait policy now) :=
  inferInstanceAs (Decidable (Everywhere _ _))

theorem BelowWaits.narrow {policy : BatchPolicy} {s s' : Impl}
    {b b' : BatchRec} {waited : TimePoint} (below : s.BelowWaits policy b waited)
    (known : ∀ m ∈ b.members, ∃ r, s.requests[m]? = some r)
    (requests : Evolves SameSubmission s.requests s'.requests)
    (members : b'.members ⊆ b.members) : s'.BelowWaits policy b' waited where
  global := below.global
  latency := by
    intro m member r' found' wait listed
    obtain ⟨r, found⟩ := known m (members member)
    obtain ⟨r'', found'', metadata, _⟩ := requests m r found
    rw [Option.mem_def.mp found'] at found''
    cases found''
    rw [metadata] at listed
    exact below.latency m (members member) r found wait listed

/-! What a refill does to the wait. -/

section Refill

variable {policy : BatchPolicy} {s : Impl} {bid : BatchId} {now : TimePoint}

/-- The step lemma of the filling loop: the pick joins in time. -/
theorem startsInTime_place {b b' : BatchRec} {key : CompatibilityKey}
    {pick : RequestId} {r : RequestRec}
    (found : s.batches[bid]? = some b) (starts : s.StartsInTime b)
    (known : ∀ m ∈ b.members, ∃ r, s.requests[m]? = some r)
    (request : s.requests[pick]? = some r) (joins : b.formedNs ≤ r.submitted)
    (found' : (s.place bid key pick).batches[bid]? = some b') :
    b'.formedNs = b.formedNs ∧
      (∀ m ∈ b'.members, ∃ r, (s.place bid key pick).requests[m]? = some r) ∧
      (s.place bid key pick).StartsInTime b' := by
  have evolves : Evolves SameSubmission s.requests
      (s.place bid key pick).requests :=
    SameFixed.evolves (FillFrame.place request bid key).requests
  have joined : b' = b.addMember pick r.metadata := by
    rw [place_eq request] at found'
    have same := found'.symm.trans (getElem?_modify_self found _)
    exact Option.some.inj same
  have members : ∀ m ∈ b'.members, ∃ r, s.requests[m]? = some r ∧
      b.formedNs ≤ r.submitted := by
    intro m member
    rw [joined] at member
    rcases List.mem_append.mp member with old | new
    · obtain ⟨r, found⟩ := known m old
      exact ⟨r, found, starts m old r found⟩
    · rw [List.mem_singleton.mp new]
      exact ⟨r, request, joins⟩
  have clock : b'.formedNs = b.formedNs := by
    rw [joined]
    rfl
  refine ⟨clock, ?_, ?_⟩
  · intro m member
    obtain ⟨r, found, _⟩ := members m member
    obtain ⟨r', found', _⟩ := evolves m r found
    exact ⟨r', found'⟩
  · intro m member r' at_m
    obtain ⟨r, found, inTime⟩ := members m member
    obtain ⟨r'', at_m', _, time⟩ := evolves m r found
    rw [at_m] at at_m'
    cases at_m'
    rw [clock, time]
    exact inTime

theorem startsInTime_fillLoop {key : CompatibilityKey} (fuel : Nat)
    {cands : List RequestId} {b b' : BatchRec}
    (found : s.batches[bid]? = some b) (starts : s.StartsInTime b)
    (known : ∀ m ∈ b.members, ∃ r, s.requests[m]? = some r)
    (inTime : fillsInTime policy bid key now fuel s cands = true)
    (found' : (fillLoop policy bid key now fuel s cands).batches[bid]? =
      some b') : (fillLoop policy bid key now fuel s cands).StartsInTime b' := by
  induction fuel generalizing s cands b with
  | zero =>
      have same := found'.symm.trans found
      cases same
      exact starts
  | succ fuel induction =>
      unfold fillLoop at found' ⊢
      unfold fillsInTime at inTime
      cases picked : s.fillPick policy bid cands now with
      | none =>
          rw [picked] at found'
          have same := found'.symm.trans found
          cases same
          exact starts
      | some pick =>
          rw [picked] at found' inTime
          obtain ⟨_, _, _, fillable⟩ := fillPick_cases picked
          obtain ⟨r, request, _⟩ := fillable_cases fillable
          obtain ⟨joins, rest⟩ := Bool.and_eq_true_iff.mp inTime
          unfold joinsInTime at joins
          rw [found, request] at joins
          have frame := FillFrame.place request bid key
          obtain ⟨next, at_next, _⟩ := frame.found_after found
          obtain ⟨_, known', starts'⟩ := startsInTime_place found starts known
            request (of_decide_eq_true joins) at_next
          exact induction at_next starts' known' rest found'

/-- A refill in time leaves a clock that is right. -/
theorem startsInTime_refill {b b' : BatchRec} (wellFormed : WellFormed s)
    (found : s.batches[bid]? = some b) (starts : s.StartsInTime b)
    (inTime : refillsInTime policy now s bid = true)
    (found' : (refill policy now s bid).batches[bid]? = some b') :
    (refill policy now s bid).StartsInTime b' := by
  have known : ∀ m ∈ b.members, ∃ r, s.requests[m]? = some r :=
    fun _ member => wellFormed.found_member found member
  have filled : ∀ b₁, (s.fillForming policy bid b.key now).batches[bid]? =
      some b₁ → (s.fillForming policy bid b.key now).StartsInTime b₁ := by
    unfold refillsInTime at inTime
    rw [found] at inTime
    dsimp only at inTime
    intro b₁ found₁
    unfold fillForming at found₁ ⊢
    rw [found] at found₁ ⊢
    cases at_key : s.waitingIndex[b.key]? with
    | none =>
        rw [at_key] at found₁
        have same := found₁.symm.trans found
        cases same
        exact starts
    | some bucket =>
        rw [at_key] at found₁ inTime
        exact startsInTime_fillLoop bucket.length found starts known inTime
          found₁
  unfold refill at found' ⊢
  rw [found] at found' ⊢
  dsimp only at found' ⊢
  obtain ⟨b₁, found₁, ⟨_, changed⟩ | ⟨different, _⟩⟩ :=
    getElem?_modify_cases found'
  · subst changed
    exact filled b₁ found₁
  · exact absurd rfl different

theorem allowedWait_refill {b' : BatchRec}
    (found' : (refill policy now s bid).batches[bid]? = some b') :
    b'.allowedWaitNs =
      computeAllowedWait policy (refill policy now s bid).requests b' now := by
  unfold refill at found' ⊢
  split at found'
  · next missing =>
      rw [missing] at found'
      cases found'
  · obtain ⟨b₁, _, ⟨_, changed⟩ | ⟨different, _⟩⟩ :=
      getElem?_modify_cases found'
    · subst changed
      rfl
    · exact absurd rfl different

/-- A deadline only shortens the wait. -/
theorem deadline_shortens (deadline : Deadline) (allowed now : TimePoint) :
    (if deadline.hasDeadline then
      let rem := deadline.remaining now
      if rem ≥ 0 then min allowed rem else allowed
    else allowed) ≤ allowed := by
  dsimp only
  split
  · split
    · exact Int.min_le_left _ _
    · exact Int.le_refl _
  · exact Int.le_refl _

/-- The wait once a member has been looked at. -/
def waitWith (policy : BatchPolicy) (requests : Map RequestId RequestRec)
    (now allowed : TimePoint) (id : RequestId) : TimePoint :=
  match requests[id]? with
  | none => allowed
  | some r =>
      let allowed :=
        match policy.wait.latencyMaxWaitNs r.metadata.latency with
        | none => allowed
        | some wait => min allowed wait
      if r.metadata.deadline.hasDeadline then
        let rem := r.metadata.deadline.remaining now
        if rem ≥ 0 then min allowed rem else allowed
      else allowed

/-- No member lengthens the wait. -/
theorem waitWith_le {requests : Map RequestId RequestRec}
    {allowed bound : TimePoint} (id : RequestId) (within : allowed ≤ bound) :
    waitWith policy requests now allowed id ≤ bound := by
  unfold waitWith
  cases requests[id]? with
  | none => exact within
  | some r =>
      refine Int.le_trans (deadline_shortens r.metadata.deadline _ now) ?_
      cases policy.wait.latencyMaxWaitNs r.metadata.latency with
      | none => exact within
      | some wait => exact Int.le_trans (Int.min_le_left _ _) within

/-- The wait of a batch is none of its members' beyond what the policy sets. -/
theorem allowed_le {requests : Map RequestId RequestRec} {b : BatchRec}
    (patient : ¬ (policy.wait.immediateSealWhenSolo &&
      b.accum.count == 1) = true) :
    (0 < policy.constraints.globalMaxWaitNs →
      computeAllowedWait policy requests b now ≤
        policy.constraints.globalMaxWaitNs) ∧
    ∀ m ∈ b.members, ∀ r ∈ requests[m]?,
      ∀ wait ∈ policy.wait.latencyMaxWaitNs r.metadata.latency,
        computeAllowedWait policy requests b now ≤ wait := by
  unfold computeAllowedWait
  dsimp only
  rw [if_neg patient]
  generalize initially : (if policy.constraints.globalMaxWaitNs > 0 then
    min kNoDeadline policy.constraints.globalMaxWaitNs else kNoDeadline) = first
  constructor
  · intro positive
    apply Transition.run_invariant
      (· ≤ policy.constraints.globalMaxWaitNs)
    · exact fun current id _ within => waitWith_le id within
    · rw [← initially, if_pos positive]
      exact Int.min_le_right _ _
  · intro m member r found wait listed
    apply Transition.run_establishes (fun _ : TimePoint => True) (· ≤ wait) _ _
      _ member trivial
    · exact fun _ _ _ _ => trivial
    · exact fun current id _ within => waitWith_le id within
    · intro current _
      rw [Option.mem_def.mp found]
      refine Int.le_trans (deadline_shortens r.metadata.deadline _ now) ?_
      rw [Option.mem_def.mp listed]
      exact Int.min_le_right _ _

/-- What is left waiting has been measured by its clock, and found below every
wait. -/
theorem belowWaits_of_undecided {b : BatchRec}
    (found : (refill policy now s bid).batches[bid]? = some b)
    (undecided : ¬ (refill policy now s bid).decidesToSeal policy bid now =
      true) {waited : TimePoint} (within : waited ≤ now - b.formedNs)
    (positive : 0 ≤ waited) (short : waited < kNoDeadline) :
    (refill policy now s bid).BelowWaits policy b waited := by
  have allowed := allowedWait_refill found
  have less : waited < b.allowedWaitNs := by
    apply Int.not_le.mp
    intro reached
    apply undecided
    have bounded : b.allowedWaitNs ≠ kNoDeadline := by
      intro unbounded
      rw [unbounded] at reached
      exact Int.not_le.mpr short reached
    have elapsed : now - b.formedNs ≥ b.allowedWaitNs :=
      Int.le_trans reached within
    unfold decidesToSeal BatchFormer.decide BatchRec.toFormerBatch
    rw [found]
    simp [bounded, elapsed]
  rw [allowed] at less
  have patient : ¬ (policy.wait.immediateSealWhenSolo &&
      b.accum.count == 1) = true := by
    intro solo
    unfold computeAllowedWait at less
    rw [if_pos solo] at less
    exact Int.not_lt.mpr positive less
  obtain ⟨global, latency⟩ : _ ∧ ∀ m ∈ b.members, ∀ r ∈
      (refill policy now s bid).requests[m]?, ∀ wait ∈
        policy.wait.latencyMaxWaitNs r.metadata.latency,
          computeAllowedWait policy (refill policy now s bid).requests b now ≤
            wait := allowed_le patient
  constructor
  · exact fun bounded => Int.lt_of_lt_of_le less (global bounded)
  · exact fun m member r found wait listed =>
      Int.lt_of_lt_of_le less (latency m member r found wait listed)

end Refill

/-! What a tick leaves waiting. -/

section Ticks

variable {policy : BatchPolicy} {s : Impl} {order : List CompatibilityKey}
  {now : TimePoint} {bid : BatchId}

theorem fixed_refillAll (s : Impl) (bids : List BatchId) :
    SameFixed s.requests (s.refillAll policy now bids).requests :=
  Transition.run_invariant
    (fun current : Impl => SameFixed s.requests current.requests)
    (fun current bid _ fixed =>
      fixed.trans (FillFrame.refill policy now current bid).requests)
    (SameFixed.refl _)

theorem fixed_sealAll (s : Impl) (bids : List BatchId) :
    SameFixed s.requests
      (Transition.run (sealDecided now) s bids).requests := by
  apply Transition.run_invariant
    (fun current : Impl => SameFixed s.requests current.requests)
  · intro current bid _ fixed
    unfold sealDecided
    split
    · exact fixed
    · obtain unchanged | ⟨b, _, _, closed⟩ :=
        doSeal_cases current bid (current.sealedReasonFor bid) now
      · rw [unchanged]
        exact fixed
      · rw [closed]
        exact fixed.trans (SameFixed.sealForming current now bid b _)
  · exact SameFixed.refl _

/-- The passes over sealed batches leave what is forming. -/
theorem narrows_later (wellFormed : WellFormed s) :
    Narrows s (s.mergePass policy).sizePass := by
  have rule : MergeRule policy fun s' => WellFormed s' ∧ Narrows s s' := {
    wellFormed := fun _ held => held.1
    merge := fun s' aid bid a b held merging =>
      ⟨held.1.mergeInto merging.first merging.second merging.keyed,
        held.2.trans (Narrows.mergeInto
          (merging.firstSealed.trans merging.secondSealed.symm)
          (by rw [merging.secondSealed]; exact nofun))⟩ }
  exact (rule.sizePass
    (fun _ _ _ held found isSealed _ => ⟨held.1.splitSealed found,
      held.2.trans (Narrows.splitSealed isSealed)⟩)
    (rule.mergePass ⟨wellFormed, Narrows.refl s⟩)).2

/-- What is forming when batches have been sealed was considered, filled and
left waiting. -/
theorem waiting_sealPass (wellFormed : WellFormed s) (registered : Registered s)
    {b : BatchRec} (found : ((s.formedState policy order now).sealPass policy
      now).batches[bid]? = some b) (forming : b.state = .forming) :
    ∃ before after, s.considered policy order now = before ++ bid :: after ∧
      ((s.formedState policy order now).refillAll policy now
        (before ++ [bid])).batches[bid]? = some b ∧
      ¬ ((s.formedState policy order now).refillAll policy now
        (before ++ [bid])).decidesToSeal policy bid now = true := by
  have formed : WellFormed (s.formedState policy order now) ∧
      Registered (s.formedState policy order now) :=
    (Registered.tickRule policy now).formPass
      ((Registered.tickRule policy now).expireLocked ⟨wellFormed, registered⟩
        order) order
  have once : (s.considered policy order now).Nodup :=
    considered_nodup wellFormed
  have unsealed : bid ∉ (decidePass policy now (s.formedState policy order now)
      (s.considered policy order now)).2 := by
    intro decided
    obtain ⟨⟨key, other⟩, listed, same⟩ := List.mem_map.mp
      (mem_of_decidePass decided)
    have same : other = bid := same
    subst same
    have at_key := (mem_toList_iff _ key other).mp listed
    obtain ⟨b₀, found₀, _⟩ := Option.map_eq_some_iff.mp
      (formed.1.registered key other at_key)
    obtain ⟨b₁, found₁, _⟩ : ∃ b₁, ((s.formedState policy order
        now).refillAll policy now (s.considered policy order
          now)).batches[other]? = some b₁ ∧ _ := refillAll_found _ _ found₀
    rw [sealPass_eq] at found
    obtain ⟨b₂, found₂, closed⟩ := closed_sealAll now decided found₁
    rw [found] at found₂
    cases found₂
    exact closed forming
  rw [sealPass_eq, sealAll_elsewhere now _ unsealed] at found
  have listed : bid ∈ s.considered policy order now := by
    by_contra apart
    rw [refillAll_elsewhere _ apart] at found
    have at_key := formed.2 bid b found forming
    exact apart (List.mem_map.mpr
      ⟨(b.key, bid), (mem_toList_iff _ b.key bid).mpr at_key, rfl⟩)
  obtain ⟨before, after, split⟩ := List.append_of_mem listed
  rw [split] at once found unsealed
  have apart : bid ∉ after :=
    (List.nodup_cons.mp (List.nodup_append.mp once).2.1).1
  rw [List.append_cons, refillAll_append, refillAll_elsewhere _ apart] at found
  exact ⟨before, after, split, found,
    mt (mem_decidePass_iff _ once).mpr unsealed⟩

/-- The batch was filled in time and left waiting, and has lost members at most
since then. -/
structure LeftWaiting (policy : BatchPolicy) (now : TimePoint) (bid : BatchId)
    (u s' : Impl) (b b' : BatchRec) : Prop where
  wellFormed : WellFormed (refill policy now u bid)
  found : (refill policy now u bid).batches[bid]? = some b
  undecided : ¬ (refill policy now u bid).decidesToSeal policy bid now = true
  starts : (refill policy now u bid).StartsInTime b
  requests : Evolves SameSubmission (refill policy now u bid).requests
    s'.requests
  clock : b'.formedNs = b.formedNs
  members : b'.members ⊆ b.members

namespace LeftWaiting

variable {u s' : Impl} {b b' : BatchRec}

theorem startsInTime (waiting : LeftWaiting policy now bid u s' b b') :
    s'.StartsInTime b' :=
  waiting.starts.narrow
    (fun _ member => waiting.wellFormed.found_member waiting.found member)
    waiting.requests waiting.clock waiting.members

theorem belowWaits (waiting : LeftWaiting policy now bid u s' b b')
    {waited : TimePoint} (within : waited ≤ now - b'.formedNs)
    (positive : 0 ≤ waited) (short : waited < kNoDeadline) :
    s'.BelowWaits policy b' waited := by
  rw [waiting.clock] at within
  exact (belowWaits_of_undecided waiting.found waiting.undecided within
    positive short).narrow
    (fun _ member => waiting.wellFormed.found_member waiting.found member)
    waiting.requests waiting.members

end LeftWaiting

theorem wellFormed_refillAll (wellFormed : WellFormed s) {bids : List BatchId}
    (registered : ∀ bid ∈ bids, ∃ key : CompatibilityKey,
      s.formingByKey[key]? = some bid) :
    WellFormed (s.refillAll policy now bids) := by
  rw [← decidePass_fst]
  exact (WellFormed.tickRule policy now).decidePass wellFormed registered

/-- Every batch that forms after a tick has been left waiting by it. -/
theorem leftWaiting_doTick (wellFormed : WellFormed s)
    (registered : Registered s) (clocked : Clocked s)
    (inTime : s.ticksInTime policy order now = true) {b' : BatchRec}
    (found' : (s.doTick policy order now).batches[bid]? = some b')
    (forming' : b'.state = .forming) :
    ∃ u b, LeftWaiting policy now bid u (s.doTick policy order now) b b' := by
  let formed : Impl := s.formedState policy order now
  have wellFormed' : WellFormed formed := wellFormed_formedState wellFormed
  have clocked' : Clocked formed :=
    clocked_formedState wellFormed clocked order now
  have narrows : Narrows (formed.sealPass policy now)
      (s.doTick policy order now) := by
    rw [doTick_eq]
    exact narrows_later (wellFormed_sealPass wellFormed)
  obtain ⟨b, found, forming, _, clock, members, _⟩ :=
    narrows.forming bid b' found' forming'
  obtain ⟨before, after, listed, filled, undecided⟩ :=
    waiting_sealPass wellFormed registered found forming
  have once : (s.considered policy order now).Nodup :=
    considered_nodup wellFormed
  have atKey : ∀ other ∈ s.considered policy order now,
      ∃ key : CompatibilityKey, formed.formingByKey[key]? = some other := by
    intro other considered
    obtain ⟨⟨key, _⟩, entry, rfl⟩ := List.mem_map.mp considered
    exact ⟨key, (mem_toList_iff _ key _).mp entry⟩
  rw [listed] at once atKey
  -- The batch is as it was when the tick began to fill, until its own refill.
  obtain ⟨u, unfilled⟩ : ∃ u, u = formed.refillAll policy now before :=
    ⟨_, rfl⟩
  have next : formed.refillAll policy now (before ++ [bid]) =
      refill policy now u bid := by
    rw [unfilled]
    exact refillAll_append formed before [bid]
  rw [next] at filled undecided
  obtain ⟨b₀, found₀, opened⟩ : ∃ b₀, u.batches[bid]? = some b₀ ∧
      b₀.opening = b.opening := by
    have viewed := (FillFrame.refill policy now u bid).opening
    rw [filled] at viewed
    exact Option.map_eq_some_iff.mp viewed.symm
  have apart : bid ∉ before := fun earlier =>
    (List.nodup_append.mp once).2.2 bid earlier bid List.mem_cons_self rfl
  have forming₀ : b₀.state = .forming := by
    have state := congrArg (fun opening => opening.2.1) opened
    exact state.trans forming
  have at_bid : formed.batches[bid]? = some b₀ := by
    rw [← refillAll_elsewhere formed apart, ← unfilled]
    exact found₀
  have starts : u.StartsInTime b₀ := by
    rw [unfilled]
    exact (clocked' bid b₀ at_bid forming₀).narrow
      (fun _ member => wellFormed'.found_member at_bid member)
      (fixed_refillAll formed before).evolves rfl fun _ member => member
  have wellFormedU : WellFormed u := by
    rw [unfilled]
    exact wellFormed_refillAll wellFormed'
      fun other earlier => atKey other (List.mem_append_left _ earlier)
  have filledInTime : refillsInTime policy now u bid = true := by
    unfold ticksInTime at inTime
    rw [decide_eq_true_eq, listed, Transition.along_append] at inTime
    have guarded := inTime.2.1
    dsimp only at guarded
    rw [Bool.or_eq_true] at guarded
    rw [unfilled] at undecided ⊢
    exact guarded.resolve_right undecided
  have wellFormed'' : WellFormed (refill policy now u bid) := by
    rw [← next]
    apply wellFormed_refillAll wellFormed'
    intro other earlier
    apply atKey other
    rcases List.mem_append.mp earlier with first | last
    · exact List.mem_append_left _ first
    · rw [List.mem_singleton.mp last]
      exact List.mem_append_right before List.mem_cons_self
  have later : SameFixed (refill policy now u bid).requests
      (formed.sealPass policy now).requests := by
    rw [sealPass_eq, listed, List.append_cons, refillAll_append, next]
    exact (fixed_refillAll _ after).trans (fixed_sealAll _ _)
  have inTime' : (refill policy now u bid).StartsInTime b :=
    startsInTime_refill wellFormedU found₀ starts filledInTime filled
  have requests : Evolves SameSubmission (refill policy now u bid).requests
      (s.doTick policy order now).requests :=
    Evolves.trans SameSubmission.trans later.evolves narrows.requests
  exact ⟨u, b, wellFormed'', filled, undecided, inTime', requests, clock,
    members⟩

theorem clocked_doTick (wellFormed : WellFormed s) (registered : Registered s)
    (clocked : Clocked s) (inTime : s.ticksInTime policy order now = true) :
    Clocked (s.doTick policy order now) := by
  intro bid b' found' forming'
  obtain ⟨_, _, waiting⟩ :=
    leftWaiting_doTick wellFormed registered clocked inTime found' forming'
  exact waiting.startsInTime

/-- A tick that measures the waits leaves none too long. -/
theorem withinMaxWait_doTick (wellFormed : WellFormed s)
    (registered : Registered s) (clocked : Clocked s)
    (inTime : s.ticksInTime policy order now = true)
    (past : Everywhere s.requests fun _ r =>
      r.submitted ≤ now ∧ now - r.submitted < kNoDeadline) :
    (s.doTick policy order now).WithinMaxWait policy now := by
  intro bid b' found' forming' earliest first
  obtain ⟨_, _, waiting⟩ :=
    leftWaiting_doTick wellFormed registered clocked inTime found' forming'
  obtain ⟨m, member, viewed⟩ :=
    List.mem_filterMap.mp (List.min?_mem first)
  obtain ⟨r', at_m, rfl⟩ := Option.map_eq_some_iff.mp viewed
  have starts : b'.formedNs ≤ r'.submitted :=
    waiting.startsInTime m member r' at_m
  have fixed : SameFixed s.requests (s.doTick policy order now).requests :=
    SameFixed.doTick policy now wellFormed order
  obtain ⟨r, found, _, time⟩ := fixed.found_before at_m
  rw [time] at starts ⊢
  obtain ⟨before, short⟩ := past m r found
  exact waiting.belowWaits (Int.sub_le_sub_left starts now)
    (Int.sub_nonneg.mpr before) short

end Ticks

/-! Whole runs. -/

/-- What makes the wait of every member measured by the clock of its batch. -/
structure Timed (s : Impl) : Prop where
  wellFormed : WellFormed s
  registered : Registered s
  clocked : Clocked s

namespace Timed

variable {policy : BatchPolicy} {s s' : Impl}

theorem fresh : Timed fresh :=
  ⟨WellFormed.fresh, Registered.fresh, everywhere_empty⟩

theorem narrow (timed : Timed s) (narrows : Narrows s s')
    (wellFormed : WellFormed s') : Timed s' :=
  ⟨wellFormed, narrows.registered timed.registered,
    narrows.clocked timed.wellFormed timed.clocked⟩

theorem doTick (timed : Timed s) {order : List CompatibilityKey}
    {now : TimePoint} (inTime : s.ticksInTime policy order now = true) :
    Timed (s.doTick policy order now) :=
  ⟨timed.wellFormed.doTick policy order now,
    timed.registered.doTick timed.wellFormed policy order now,
    clocked_doTick timed.wellFormed timed.registered timed.clocked inTime⟩

theorem splitOpen (timed : Timed s) {bid : BatchId} {b : BatchRec}
    (found : s.batches[bid]? = some b) (possible : splittable b = true)
    (unsealed : b.state ≠ .sealed)
    (measured : measuresWaits policy s (.split bid) = true) :
    Timed (s.splitOpen bid b) := by
  have allowed : b.state ≠ .forming ∧ s.formsUnder b.key = false := by
    simpa [measuresWaits, found, possible, unsealed] using measured
  apply timed.narrow _ (timed.wellFormed.splitOpen found)
  apply Narrows.splitOpen allowed.1
  intro other at_key c at_other forming
  have under := allowed.2
  unfold formsUnder at under
  rw [at_key] at under
  dsimp only at under
  rw [at_other] at under
  simp [forming] at under

/-- Two forming batches of one key are the same. -/
theorem mergeInto (timed : Timed s) {aid bid : BatchId} {a b : BatchRec}
    (first : s.batches[aid]? = some a) (second : s.batches[bid]? = some b)
    (possible : canMerge policy a b = true) :
    Timed (s.mergeInto aid bid a b) := by
  obtain ⟨keyed, _, states, _⟩ := canMerge_cases possible
  apply timed.narrow _ (timed.wellFormed.mergeInto first second keyed)
  apply Narrows.mergeInto states
  intro forming
  have at_key := timed.registered aid a first (states.trans forming)
  have at_key' := timed.registered bid b second forming
  rw [keyed, at_key'] at at_key
  exact (Option.some.inj at_key).symm

theorem step (timed : Timed s) {op : Op}
    (measured : measuresWaits policy s op = true) :
    Timed (BatchFabric.step policy s op) := by
  have wellFormed : WellFormed (BatchFabric.step policy s op) :=
    timed.wellFormed.step op
  cases op with
  | submit metadata now =>
      exact timed.narrow (Narrows.doSubmit policy timed.wellFormed metadata now)
        wellFormed
  | cancel request now =>
      exact timed.narrow (Narrows.doCancel policy s request now) wellFormed
  | complete completion now =>
      exact timed.narrow ((Narrows.recordRule policy now s).reports.doComplete
        (Narrows.refl s) (allowsReport_always policy s completion now))
        wellFormed
  | sealBatch batch reason now =>
      have narrows : Narrows s (s.sealBatch batch reason now).2 := by
        obtain unchanged | ⟨b, found, forming, closed⟩ :=
          sealBatch_cases s batch reason now
        · rw [unchanged]
          exact Narrows.refl s
        · rw [closed]
          exact Narrows.sealForming (timed.registered batch b found forming)
            reason now
      exact timed.narrow narrows wellFormed
  | split batch =>
      show Timed (s.doSplit batch).2
      obtain unchanged | ⟨b, found, possible, ⟨isSealed, taken⟩ |
          ⟨unsealed, taken⟩⟩ := doSplit_cases s batch
      · rw [unchanged]
        exact timed
      · rw [taken]
        exact timed.narrow (Narrows.splitSealed isSealed)
          (timed.wellFormed.splitSealed found)
      · rw [taken]
        exact timed.splitOpen found possible unsealed measured
  | merge a b =>
      show Timed (s.doMerge policy a b).2
      obtain unchanged | ⟨first, second, foundA, foundB, possible, merged⟩ :=
        doMerge_cases policy s a b
      · rw [unchanged]
        exact timed
      · rw [merged]
        exact timed.mergeInto foundA foundB possible
  | retry request order now =>
      show Timed (s.doRetry policy request order now).2
      have queued : Timed (s.retryQueued policy request now).2 :=
        timed.narrow (Narrows.retryQueued policy s request now)
          (timed.wellFormed.retryQueued policy request now)
      unfold measuresWaits at measured
      rw [doRetry_eq]
      split
      · exact queued
      · next taken =>
          dsimp only at measured
          rw [taken] at queued measured
          exact queued.doTick measured
  | tick order now =>
      rw [measuresWaits_tick] at measured
      exact timed.doTick measured.1
  | expire order now =>
      exact timed.narrow (Narrows.expireLocked policy s order now) wellFormed
  | dispatchAndRun batch executor now =>
      exact timed.narrow
        ((Narrows.recordRule policy now s).reports.doDispatchAndRun
          (Narrows.refl s) (allowsRun_always policy s batch executor now))
        wellFormed
  | prepareDispatch batch worker boot now =>
      exact timed.narrow
        ((Narrows.recordRule policy now s).reports.prepareDispatch
          (Narrows.refl s) batch worker boot) wellFormed
  | registerWorker worker boot cap =>
      exact timed.narrow (Narrows.of_batches
        (.refl SameSubmission.refl s.requests) rfl rfl) wellFormed
  | rollEpoch =>
      exact timed.narrow (Narrows.of_batches
        (.refl SameSubmission.refl s.requests) rfl rfl) wellFormed

end Timed

/-- No tick leaves a member waiting for too long, in a run that measures the
waits. -/
theorem withinMaxWait_of_run (policy : BatchPolicy) (ops : List Op)
    (order : List CompatibilityKey) (now : TimePoint)
    (measured : Transition.Along (BatchFabric.step policy)
      (fun s op => measuresWaits policy s op = true) fresh
      (ops ++ [.tick order now]))
    (past : ∀ op ∈ ops, ∀ time ∈ op.time?, time ≤ now) :
    (run policy (ops ++ [.tick order now])).WithinMaxWait policy now := by
  obtain ⟨before, last, _⟩ :=
    (Transition.along_append _ _ fresh ops _).mp measured
  have timed : Timed (run policy ops) :=
    before.invariant Timed (fun _ _ _ timed allowed => timed.step allowed)
      Timed.fresh
  rw [measuresWaits_tick] at last
  obtain ⟨inTime, short⟩ := last
  have ticked : run policy (ops ++ [.tick order now]) =
      (run policy ops).doTick policy order now :=
    Transition.run_append _ fresh ops _
  rw [ticked]
  apply withinMaxWait_doTick timed.wellFormed timed.registered timed.clocked
    inTime
  intro id r found
  have submitted := submitted_of_run policy ops id r found
  have within := List.all_eq_true.mp short (id, r)
    ((mem_toList_iff _ id r).mpr found)
  exact ⟨past _ submitted r.submitted rfl, of_decide_eq_true within⟩

/-- Two requests wait in a batch that would have three. -/
theorem withinMaxWait_of_joining :
    (run { constraints := {
        globalMaxWaitNs := 1000, minimumPreferredBatch := 3 } }
      ([.submit minimalRequest 0, .tick [] 1, .submit minimalRequest 2] ++
        [.tick [] 3])).WithinMaxWait { constraints := {
          globalMaxWaitNs := 1000, minimumPreferredBatch := 3 } } 3 :=
  withinMaxWait_of_run _ _ _ _ (by
    rw [step_eq_stepKnown .minimal]
    decide +kernel) (by decide)

/-- The larger tenant's request waits in the queue while a younger one is alone
in the batch, and joins it when that one is cancelled. -/
theorem not_withinMaxWait_of_joining_late :
    ¬ ∀ (policy : BatchPolicy) (ops : List Op)
      (order : List CompatibilityKey) (now : TimePoint),
      (∀ op ∈ ops, ∀ time ∈ op.time?, time ≤ now) →
        (run policy (ops ++ [.tick order now])).WithinMaxWait policy now := by
  intro within
  let policy : BatchPolicy := {
    constraints := {
      budget := { maxInputTokens := 10 }
      globalMaxWaitNs := 100, minimumPreferredBatch := 2 } }
  let request : Nat → RequestMetadata := fun tenant =>
    { minimalRequest with
      tenant := { value := tenant }, tokens := { input := 6 } }
  have waits := within policy [.submit (request 2) 0, .submit (request 1) 5,
    .tick [] 5, .cancel { value := 2 } 6] [] 100 (by decide)
  revert waits
  rw [run_eq_runKnown .minimal]
  decide +kernel

end Impl

end BatchFabric
