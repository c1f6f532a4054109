import BatchFabric.Safety.BatchLifecycle

namespace BatchFabric

open OrderedMap

/-! Which batches are in flight, and the generation their report must name. -/

def BatchRec.flight (b : BatchRec) : Option Generation :=
  if isInFlight b.state then some b.generation else none

theorem BatchRec.flight_eq_none {b : BatchRec}
    (landed : isInFlight b.state = false) : b.flight = none := by
  unfold flight
  rw [landed]
  rfl

namespace Impl

def flight (s : Impl) (bid : BatchId) : Option Generation :=
  (s.batches[bid]?).bind BatchRec.flight

theorem flight_of_found {s : Impl} {bid : BatchId} {b : BatchRec}
    (found : s.batches[bid]? = some b) : s.flight bid = b.flight := by
  unfold flight
  rw [found]
  rfl

theorem isSome_flight_iff {s : Impl} {bid : BatchId} :
    (s.flight bid).isSome = true ↔
      ∃ b, s.batches[bid]? = some b ∧ isInFlight b.state = true := by
  unfold flight BatchRec.flight
  cases s.batches[bid]? with
  | none => simp
  | some b =>
      cases isInFlight b.state with
      | false => simp
      | true => simp

/-- No batch takes off, and none lands. -/
def SameFlights (s s' : Impl) : Prop :=
  ∀ bid, s'.flight bid = s.flight bid

namespace SameFlights

variable {s s' s'' : Impl}

theorem of_batches (same : s'.batches = s.batches) : SameFlights s s' := by
  intro bid
  unfold Impl.flight
  rw [same]

theorem trans (earlier : SameFlights s s') (later : SameFlights s' s'') :
    SameFlights s s'' :=
  fun bid => (later bid).trans (earlier bid)

theorem modify {bid : BatchId} {change : BatchRec → BatchRec}
    (batches : s'.batches = s.batches.modify bid change)
    (kept : ∀ b, s.batches[bid]? = some b → (change b).flight = b.flight) :
    SameFlights s s' := by
  intro other
  unfold Impl.flight
  rw [batches]
  exact bind_getElem?_modify kept other

/-- A batch is written that is not in flight, where none was before. -/
theorem insert {bid : BatchId} {b : BatchRec} (landed : b.flight = none)
    (before : s.flight bid = none) :
    SameFlights s { s with batches := s.batches.insert bid b } := by
  intro other
  unfold Impl.flight
  dsimp only
  rw [getElem?_insert]
  split
  · next here =>
      subst here
      exact landed.trans before.symm
  · rfl

theorem doSubmit (policy : BatchPolicy) (s : Impl) (metadata : RequestMetadata)
    (now : TimePoint) :
    SameFlights s (s.doSubmit policy metadata now).2 := by
  obtain ⟨stats, taken⟩ | ⟨_, ⟨_, _, _, _, taken⟩ | ⟨_, _, taken⟩⟩ :=
    doSubmit_cases policy s metadata now
  · exact of_batches (by rw [taken])
  · exact of_batches (by rw [taken]; rfl)
  · exact of_batches (by rw [taken]; rfl)

theorem doCancel (policy : BatchPolicy) (s : Impl) (id : RequestId)
    (now : TimePoint) : SameFlights s (s.doCancel policy id now).2 := by
  obtain unchanged | ⟨r, _, _, ⟨_, outside⟩ |
      ⟨_, b, _, ⟨_, forming⟩ | ⟨_, later⟩⟩⟩ := doCancel_cases policy s id now
  · rw [unchanged]
    exact fun _ => rfl
  · rw [outside]
    exact of_batches rfl
  · rw [forming]
    exact modify rfl fun _ _ => rfl
  · rw [later]
    exact modify rfl fun _ _ => rfl

theorem openForming (wellFormed : WellFormed s) (key : CompatibilityKey)
    (now : TimePoint) : SameFlights s (s.openForming key now) := by
  have absent : s.flight { value := s.nextBatch } = none := by
    unfold Impl.flight
    rw [wellFormed.no_batch (Nat.le_refl _)]
    rfl
  have landed : (s.newForming key now).flight = none := rfl
  exact (insert landed absent).trans (of_batches rfl)

theorem sealForming {bid : BatchId} {b : BatchRec}
    (found : s.batches[bid]? = some b) (forming : b.state = .forming)
    (reason : SealReason) (now : TimePoint) :
    SameFlights s (s.sealForming bid b reason now) := by
  apply modify rfl
  intro b' found'
  rw [found] at found'
  cases found'
  have before : b.flight = none := BatchRec.flight_eq_none (by rw [forming]; rfl)
  exact before.symm

theorem mergeInto {policy : BatchPolicy} {aid bid : BatchId} {a b : BatchRec}
    (merging : Merging policy s aid bid a b) :
    SameFlights s (s.mergeInto aid bid a b) := by
  have landed : ∀ b : BatchRec, b.state = .sealed → b.flight = none :=
    fun b isSealed => BatchRec.flight_eq_none (by rw [isSealed]; rfl)
  have joined := insert (landed (mergeTarget (OrderedMap.modifyAll s.requests
      b.members (RequestRec.setBatch aid)) bid a b) merging.firstSealed)
    ((flight_of_found merging.first).trans (landed a merging.firstSealed))
  apply joined.trans
  apply modify rfl
  intro b' found
  dsimp only at found
  rw [getElem?_insert, if_neg merging.different, merging.second] at found
  cases found
  exact (landed b merging.secondSealed).symm

theorem splitSealed (wellFormed : WellFormed s) {bid : BatchId} {b : BatchRec}
    (found : s.batches[bid]? = some b) (isSealed : b.state = .sealed) :
    SameFlights s (s.splitSealed bid b) := by
  have landed : ∀ b : BatchRec, b.state = .sealed → b.flight = none :=
    fun b isSealed => BatchRec.flight_eq_none (by rw [isSealed]; rfl)
  have absent : ∀ n, s.nextBatch ≤ n → s.flight { value := n } = none := by
    intro n fresh
    unfold Impl.flight
    rw [wellFormed.no_batch fresh]
    rfl
  have before := (flight_of_found found).trans (landed b isSealed)
  let child : BatchId := { value := s.nextBatch }
  let firstid : BatchId := { value := s.nextBatch + 1 }
  let requests := s.splitRequests bid child b
  let parent := splitParent requests child b
  let c := splitChild requests bid child b
  have superseded : ({ parent with
      state := .superseded
      children := parent.children ++ [firstid] } : BatchRec).flight = none :=
    BatchRec.flight_eq_none rfl
  have first := insert superseded before
  have halved : ({ c with parents := c.parents ++ [firstid] } :
      BatchRec).flight = none := landed _ isSealed
  have second := first.trans (insert halved
    ((first child).trans (absent s.nextBatch (Nat.le_refl _))))
  have anew : (splitFirst requests bid firstid child parent).flight = none :=
    landed _ rfl
  have third := second.trans (insert anew
    ((second firstid).trans (absent (s.nextBatch + 1) (Nat.le_succ _))))
  exact third.trans (of_batches rfl)

/-- The flights of a tick are those it starts with. -/
theorem tickRule (policy : BatchPolicy) (now : TimePoint) (start : Impl) :
    TickRule policy now fun s => WellFormed s ∧ SameFlights start s where
  wellFormed _ held := held.1
  expire s id held :=
    ⟨held.1.expireWaiting now id,
      held.2.trans (of_batches (batches_expireWaiting now s id))⟩
  cancel s id held :=
    ⟨held.1.doCancel policy id now,
      held.2.trans (doCancel policy s id now)⟩
  openForming _ key held _ :=
    ⟨held.1.openForming key now, held.2.trans (openForming held.1 key now)⟩
  place s bid key pick b r held placing := by
    refine ⟨(WellFormed.tickRule policy now).place s bid key pick b r held.1
      placing, held.2.trans ?_⟩
    rw [place_eq placing.request]
    exact modify rfl fun _ _ => rfl
  retime s bid change held retimes := by
    refine ⟨held.1.retime bid retimes, held.2.trans (modify rfl ?_)⟩
    intro b _
    obtain ⟨allowed, formed, changed⟩ := retimes b
    rw [changed]
    rfl
  close _ _ _ reason held found forming :=
    ⟨held.1.sealForming found forming reason now,
      held.2.trans (sealForming found forming reason now)⟩
  merge _ _ _ _ _ held merging :=
    ⟨held.1.mergeInto merging.first merging.second merging.keyed,
      held.2.trans (mergeInto merging)⟩

theorem doTick (wellFormed : WellFormed s) (policy : BatchPolicy)
    (order : List CompatibilityKey) (now : TimePoint) :
    SameFlights s (s.doTick policy order now) :=
  ((tickRule policy now s).doTick
    (fun _ _ _ held found isSealed _ =>
      ⟨held.1.splitSealed found,
        held.2.trans (splitSealed held.1 found isSealed)⟩)
    ⟨wellFormed, fun _ => rfl⟩ order).2

theorem of_outcomes (frame : OutcomeFrame s s') : SameFlights s s' := by
  intro bid
  have same := congrArg (Option.bind · BatchRec.flight) (frame.listings bid)
  simp only [Option.bind_map] at same
  exact same

end SameFlights

theorem flight_modify_landed {batches : Map BatchId BatchRec} {bid : BatchId}
    {change : BatchRec → BatchRec} (landed : ∀ b, (change b).flight = none)
    (other : BatchId) :
    ((batches.modify bid change)[other]?).bind BatchRec.flight =
      if bid = other then none else (batches[other]?).bind BatchRec.flight := by
  rw [getElem?_modify]
  split
  · cases batches[other]? with
    | none => rfl
    | some b => exact landed b
  · rfl

theorem flight_finishBatch (s : Impl) (bid : BatchId) (worker : WorkerId)
    (now : TimePoint) (other : BatchId) :
    (s.finishBatch bid worker now).flight other =
      if bid = other then none else s.flight other := by
  unfold finishBatch
  cases found : s.batches[bid]? with
  | none =>
      dsimp only
      split
      · next here =>
          subst here
          unfold flight
          rw [found]
          rfl
      · rfl
  | some b =>
      dsimp only
      unfold flight
      split
      · exact flight_modify_landed (fun _ => rfl) other
      · exact flight_modify_landed (fun _ => rfl) other

/-- A report that is accepted lands its batch and no other. -/
theorem flight_doComplete_ok {policy : BatchPolicy} {s : Impl}
    {comp : BatchCompletion} {now : TimePoint}
    (accepted : (s.doComplete policy comp now).1.isOk = true) (bid : BatchId) :
    (s.doComplete policy comp now).2.flight bid =
      if comp.batch = bid then none else s.flight bid := by
  obtain ⟨err, stale, refused⟩ | ⟨b, accepts, taken⟩ :=
    doComplete_cases policy s comp now
  · rw [refused] at accepted
    cases accepted
  · rw [taken]
    have recorded := SameFlights.of_outcomes
      (OutcomeFrame.completeMembers policy now s comp.members)
    rw [flight_finishBatch, recorded]

/-- A report that is refused lands none. -/
theorem flight_doComplete_error {policy : BatchPolicy} {s : Impl}
    {comp : BatchCompletion} {now : TimePoint}
    (refused : (s.doComplete policy comp now).1.isOk = false) :
    SameFlights s (s.doComplete policy comp now).2 := by
  obtain ⟨err, stale, refused⟩ | ⟨b, _, taken⟩ :=
    doComplete_cases policy s comp now
  · rw [refused]
    exact SameFlights.of_batches rfl
  · rw [taken] at refused
    cases refused

theorem flight_markDispatched {s : Impl} {bid : BatchId} {b : BatchRec}
    (found : s.batches[bid]? = some b) (worker : WorkerId)
    (boot : WorkerBootId) (now : TimePoint) (other : BatchId) :
    (s.markDispatched bid b worker boot now).flight other =
      if bid = other then some b.generation else s.flight other := by
  unfold flight markDispatched
  dsimp only
  rw [getElem?_modify]
  split
  · next here =>
      subst here
      rw [found]
      rfl
  · rfl

/-! The generation a batch was made with stays its own. -/

theorem sameGeneration :
    BatchRule (fun b b' => b'.generation = b.generation) (fun _ => True)
      True where
  refl _ := rfl
  trans earlier later := later.trans earlier
  join _ _ _ _ := rfl
  retime _ _ _ := rfl
  leave _ _ _ _ := rfl
  record _ _ same := congrArg (fun b => b.generation) same
  close _ _ _ _ := rfl
  halve _ _ _ _ _ := rfl
  replace _ _ _ _ _ := rfl
  absorb _ _ _ _ _ := rfl
  supersede _ _ _ := rfl
  dispatch _ _ _ _ _ := rfl
  start _ _ := rfl
  complete _ _ _ := rfl
  stop _ _ := rfl

/-- The batch of this number was made with this generation. -/
def Issued (s : Impl) (bid : BatchId) (generation : Generation) : Prop :=
  ∃ b, s.batches[bid]? = some b ∧ b.generation = generation

theorem Issued.step {policy : BatchPolicy} {s : Impl} {bid : BatchId}
    {generation : Generation} (issued : s.Issued bid generation)
    (reachable : Reachable policy s) (op : Op) :
    (BatchFabric.step policy s op).Issued bid generation := by
  obtain ⟨b, found, named⟩ := issued
  have evolves : Evolves (fun b b' => b'.generation = b.generation) s.batches
      (BatchFabric.step policy s op).batches :=
    sameGeneration.step (WellFormed.tickInvariant policy)
      (fun _ _ _ _ _ _ _ => trivial) (wellFormed_of_reachable reachable)
      fun _ => trivial
  obtain ⟨b', found', same⟩ := evolves bid b found
  exact ⟨b', found', same.trans named⟩

end Impl

end BatchFabric
