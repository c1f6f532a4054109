import BatchFabric.Safety.ReportEffect
import BatchFabric.Safety.StepRule
import BatchFabric.Scheduler.KnownKeys

namespace BatchFabric

open OrderedMap

/-! The counters that speak of the present: how many batches are forming and
how many requests have ended in each of three states. -/

/-- The states of requests that are counted. -/
def isCounted : RequestState → Bool
  | .completed | .cancelled | .expired => true
  | _ => false

/-- The counter of the requests in a state. -/
def BatchStats.ended (stats : BatchStats) : RequestState → UInt64
  | .completed => stats.requestsCompleted
  | .cancelled => stats.cancelled
  | .expired => stats.expired
  | _ => 0

/-- One more request has ended in the state. -/
def BatchStats.countEnd (stats : BatchStats) : RequestState → BatchStats
  | .completed =>
      { stats with requestsCompleted := stats.requestsCompleted + 1 }
  | .cancelled => { stats with cancelled := stats.cancelled + 1 }
  | .expired => { stats with expired := stats.expired + 1 }
  | _ => stats

theorem BatchStats.ended_countEnd (stats : BatchStats)
    (state : RequestState) {counted : RequestState}
    (is_counted : isCounted counted = true) :
    (stats.countEnd state).ended counted =
      stats.ended counted + UInt64.ofNat (state == counted).toNat := by
  cases counted <;> cases is_counted
  all_goals cases state <;> first | rfl | exact (UInt64.add_zero _).symm

theorem uncounted_of_going {state : RequestState}
    (going : isRequestTerminal state = false) : isCounted state = false := by
  cases state <;> first | rfl | cases going

theorem uncounted_of_unsettled {state : RequestState}
    (unsettled : isSettledAttempt state = false) :
    isCounted state = false := by
  cases state <;> first | rfl | cases unsettled

theorem state_advance_beq {source target state : RequestState}
    (from_uncounted : isCounted source = false)
    (to_uncounted : isCounted target = false)
    (counted : isCounted state = true) (r : RequestRec) :
    ((r.advance source target).state == state) = (r.state == state) := by
  have apart : ∀ other, isCounted other = false → (other == state) = false := by
    rintro other uncounted
    refine beq_eq_false_iff_ne.mpr ?_
    rintro rfl
    rw [counted] at uncounted
    cases uncounted
  unfold RequestRec.advance
  split
  · next here => rw [here, apart source from_uncounted,
      apart target to_uncounted]
  · rfl

def censusOfRequests (state : RequestState)
    (requests : Map RequestId RequestRec) : Nat :=
  count (fun r => r.state == state) requests

def censusOfBatches (state : BatchState) (batches : Map BatchId BatchRec) :
    Nat :=
  count (fun b => b.state == state) batches

namespace Impl

/-- The counters agree with the records, as far as 64 bits hold the numbers. -/
structure CountersMatch (s : Impl) : Prop where
  forming : s.doStats.formingNow =
    UInt64.ofNat (censusOfBatches .forming s.batches)
  completed : s.doStats.requestsCompleted =
    UInt64.ofNat (censusOfRequests .completed s.requests)
  cancelled : s.doStats.cancelled =
    UInt64.ofNat (censusOfRequests .cancelled s.requests)
  expired : s.doStats.expired =
    UInt64.ofNat (censusOfRequests .expired s.requests)

/-- The same, state by state. -/
structure Census (s : Impl) : Prop where
  forming : s.stats.formingNow =
    UInt64.ofNat (censusOfBatches .forming s.batches)
  ended : ∀ state, isCounted state = true → s.stats.ended state =
    UInt64.ofNat (censusOfRequests state s.requests)

theorem Census.countersMatch {s : Impl} (census : Census s) :
    CountersMatch s where
  forming := census.forming
  completed := census.ended .completed rfl
  cancelled := census.ended .cancelled rfl
  expired := census.ended .expired rfl

theorem Census.fresh : Census fresh where
  forming := rfl
  ended state _ := by
    cases state <;> rfl

/-- The request is in none of the states counted. -/
def uncounted (s : Impl) (id : RequestId) : Bool :=
  !(s.requests[id]?).any fun r => isCounted r.state

theorem uncounted_of_found {s : Impl} {id : RequestId} {r : RequestRec}
    (found : s.requests[id]? = some r) :
    s.uncounted id = !isCounted r.state := by
  rw [uncounted, found]
  rfl

/-! What a step does to the batches and to the requests. -/

/-- The number of forming batches stays as it is. -/
structure SameForming (s s' : Impl) : Prop where
  census : censusOfBatches .forming s'.batches =
    censusOfBatches .forming s.batches
  counter : s'.stats.formingNow = s.stats.formingNow

/-- No request enters or leaves a state counted. -/
structure SameEndings (s s' : Impl) : Prop where
  census : ∀ state, isCounted state = true →
    censusOfRequests state s'.requests = censusOfRequests state s.requests
  counters : s'.stats.ended = s.stats.ended

/-- One request enters a state, from none that is counted. -/
structure Enters (s s' : Impl) (id : RequestId) (state : RequestState) :
    Prop where
  elsewhere : ∀ other, id ≠ other → s'.requests[other]? = s.requests[other]?
  before : s.uncounted id = true
  after : (s'.requests[id]?).map (·.state) = some state
  counters : s'.stats.ended = (s.stats.countEnd state).ended

section Changes

variable {s s' : Impl}

theorem SameForming.modify {bid : BatchId} {change : BatchRec → BatchRec}
    (batches : s'.batches = s.batches.modify bid change)
    (counter : s'.stats.formingNow = s.stats.formingNow)
    (kept : ∀ b, s.batches[bid]? = some b →
      ((change b).state == .forming) = (b.state == .forming)) :
    SameForming s s' where
  census := by
    rw [batches]
    cases found : s.batches[bid]? with
    | none =>
        apply count_congr
        intro other
        rw [getElem?_modify]
        split
        · next same =>
            rw [← same, found]
            rfl
        · rfl
    | some b =>
        have changed := count_modify (p := fun b => b.state == .forming) found
          change
        rw [kept b found] at changed
        exact Nat.add_right_cancel changed
  counter := counter

theorem SameForming.of_batches (batches : s'.batches = s.batches)
    (counter : s'.stats.formingNow = s.stats.formingNow) :
    SameForming s s' :=
  ⟨by rw [batches], counter⟩

theorem SameEndings.of_requests (requests : s'.requests = s.requests)
    (counters : s'.stats.ended = s.stats.ended) : SameEndings s s' :=
  ⟨fun _ _ => by rw [requests], counters⟩

theorem SameEndings.modifyAll {members : List RequestId}
    {change : RequestRec → RequestRec}
    (requests : s'.requests = modifyAll s.requests members change)
    (counters : s'.stats.ended = s.stats.ended)
    (kept : ∀ state, isCounted state = true → ∀ r,
      ((change r).state == state) = (r.state == state)) :
    SameEndings s s' where
  census state counted := by
    rw [requests]
    exact count_modifyAll (kept state counted) s.requests members
  counters := counters

theorem Enters.modify {id : RequestId} {r : RequestRec}
    {change : RequestRec → RequestRec}
    (found : s.requests[id]? = some r)
    (uncounted : isCounted r.state = false)
    (requests : s'.requests = s.requests.modify id change)
    (counters : s'.stats.ended = (s.stats.countEnd (change r).state).ended) :
    Enters s s' id (change r).state where
  elsewhere other different := by
    rw [requests, getElem?_modify, if_neg different]
  before := by
    rw [uncounted_of_found found, uncounted]
    rfl
  after := by
    rw [requests, getElem?_modify_self found]
    rfl
  counters := counters

theorem Enters.create (wellFormed : WellFormed s) {r : RequestRec}
    (requests : s'.requests =
      s.requests.insert { value := s.nextRequest } r)
    (counters : s'.stats.ended = (s.stats.countEnd r.state).ended) :
    Enters s s' { value := s.nextRequest } r.state where
  elsewhere other different := by
    rw [requests, getElem?_insert, if_neg different]
  before := by
    unfold uncounted
    rw [wellFormed.no_request]
    rfl
  after := by
    rw [requests, getElem?_insert, if_pos rfl]
    rfl
  counters := counters

theorem Enters.census {id : RequestId} {target : RequestState}
    (enters : Enters s s' id target) {state : RequestState}
    (counted : isCounted state = true) :
    censusOfRequests state s'.requests =
      censusOfRequests state s.requests + (target == state).toNat := by
  have before : (s.requests[id]?).any (fun r => r.state == state) = false := by
    have uncounted := enters.before
    cases found : s.requests[id]? with
    | none => rfl
    | some r =>
        rw [uncounted_of_found found] at uncounted
        refine beq_eq_false_iff_ne.mpr ?_
        rintro rfl
        rw [counted] at uncounted
        cases uncounted
  have after : (s'.requests[id]?).any (fun r => r.state == state) =
      (target == state) := by
    obtain ⟨r, found, entered⟩ := Option.map_eq_some_iff.mp enters.after
    rw [found, ← entered]
    rfl
  have changed := count_of_change (p := fun r : RequestRec => r.state == state)
    id fun other different =>
      congrArg (Option.any fun r : RequestRec => r.state == state)
        (enters.elsewhere other different)
  rw [before, after] at changed
  exact changed

end Changes

namespace Census

variable {s s' : Impl}

theorem forming_of_same (census : Census s) (same : SameForming s s') :
    s'.stats.formingNow =
      UInt64.ofNat (censusOfBatches .forming s'.batches) := by
  rw [same.counter, same.census]
  exact census.forming

theorem ended_of_same (census : Census s) (same : SameEndings s s')
    (state : RequestState) (counted : isCounted state = true) :
    s'.stats.ended state =
      UInt64.ofNat (censusOfRequests state s'.requests) := by
  rw [same.counters, same.census state counted]
  exact census.ended state counted

theorem of_same (census : Census s) (forming : SameForming s s')
    (ended : SameEndings s s') : Census s' :=
  ⟨census.forming_of_same forming, census.ended_of_same ended⟩

theorem of_enters (census : Census s) {id : RequestId}
    {state : RequestState} (forming : SameForming s s')
    (enters : Enters s s' id state) : Census s' where
  forming := census.forming_of_same forming
  ended other counted := by
    rw [enters.counters, BatchStats.ended_countEnd _ _ counted,
      enters.census counted, UInt64.ofNat_add, census.ended other counted]

/-- A batch opened or split off is one more that forms. -/
theorem of_more (census : Census s)
    (counter : s'.stats.formingNow = s.stats.formingNow + 1)
    (more : censusOfBatches .forming s'.batches =
      censusOfBatches .forming s.batches + 1)
    (ended : SameEndings s s') : Census s' where
  forming := by
    rw [counter, more, census.forming, UInt64.ofNat_add]
    rfl
  ended := census.ended_of_same ended

/-- A batch sealed is one fewer. -/
theorem of_fewer (census : Census s)
    (counter : s'.stats.formingNow = s.stats.formingNow - 1)
    (fewer : censusOfBatches .forming s'.batches + 1 =
      censusOfBatches .forming s.batches)
    (ended : SameEndings s s') : Census s' where
  forming := by
    rw [counter, census.forming, ← fewer, UInt64.ofNat_add]
    exact UInt64.add_sub_cancel _ 1
  ended := census.ended_of_same ended

/-! The operations on requests. -/

theorem doSubmit (census : Census s) (wellFormed : WellFormed s)
    (policy : BatchPolicy) (metadata : RequestMetadata) (now : TimePoint) :
    Census (s.doSubmit policy metadata now).2 := by
  unfold Impl.doSubmit
  dsimp only
  split
  · exact census.of_same (.of_batches rfl rfl) (.of_requests rfl rfl)
  · split
    · exact census.of_enters (.of_batches rfl rfl)
        (.create wellFormed rfl rfl)
    · split
      · exact census.of_enters (.of_batches rfl rfl)
          (.create wellFormed rfl rfl)
      · split
        · exact census.of_enters (.of_batches rfl rfl)
            (.create wellFormed rfl rfl)
        · exact census.of_enters (.of_batches rfl rfl)
            (.create wellFormed rfl rfl)

theorem expireWaiting (census : Census s) (now : TimePoint) (id : RequestId) :
    Census (expireWaiting now s id) := by
  unfold Impl.expireWaiting
  cases found : s.requests[id]? with
  | none => exact census
  | some r =>
      dsimp only
      unfold completeRequestTerminal
      dsimp only
      rw [found]
      dsimp only
      split
      · exact census.of_same (.of_batches rfl rfl) (.of_requests rfl rfl)
      · next going =>
          have uncounted : isCounted r.state = false :=
            uncounted_of_going (Bool.eq_false_iff.mpr going)
          exact census.of_enters (.of_batches rfl rfl)
            (.modify found uncounted rfl rfl)

theorem doCancel (census : Census s) (policy : BatchPolicy) (id : RequestId)
    (now : TimePoint) : Census (s.doCancel policy id now).2 := by
  obtain unchanged | ⟨r, found, going, ⟨_, outside⟩ | ⟨_, b, listed,
      ⟨_, forming⟩ | ⟨_, afterSeal⟩⟩⟩ := doCancel_cases policy s id now
  · rw [unchanged]
    exact census
  · rw [outside]
    exact census.of_enters (.of_batches rfl rfl)
      (.modify found (uncounted_of_going going) rfl rfl)
  · rw [forming]
    exact census.of_enters (.modify rfl rfl fun _ _ => rfl)
      (.modify found (uncounted_of_going going) rfl rfl)
  · rw [afterSeal]
    exact census.of_enters (.modify rfl rfl fun _ _ => rfl)
      (.modify found (uncounted_of_going going) rfl rfl)

theorem requeue (census : Census s) {id : RequestId}
    (uncounted : s.uncounted id = true) {found : RequestRec}
    (listed : s.requests[id]? = some found) (r : RequestRec)
    (number : UInt32) : Census (s.requeue id r number) := by
  rw [uncounted_of_found listed, Bool.not_eq_true'] at uncounted
  exact census.of_enters (.of_batches rfl rfl)
    (.modify listed uncounted rfl rfl)

theorem place (census : Census s) {bid : BatchId} {key : CompatibilityKey}
    {pick : RequestId} {r : RequestRec}
    (found : s.requests[pick]? = some r)
    (waiting : isWaitingState r.state = true) :
    Census (s.place bid key pick) := by
  rw [place_eq found]
  exact census.of_enters (.modify rfl rfl fun _ _ => rfl)
    (.modify found (uncounted_of_going (not_terminal_of_isWaiting waiting))
      rfl rfl)

/-! The operations on batches. -/

theorem openForming (census : Census s) (wellFormed : WellFormed s)
    (key : CompatibilityKey) (now : TimePoint) :
    Census (s.openForming key now) := by
  refine census.of_more rfl ?_ (.of_requests rfl rfl)
  have added := count_insert (p := fun b => b.state == .forming) s.batches
    { value := s.nextBatch } (s.newForming key now)
  rw [wellFormed.no_batch (Nat.le_refl _)] at added
  exact added

theorem retime (census : Census s) (bid : BatchId)
    {change : BatchRec → BatchRec} (retimes : Retimes change) :
    Census { s with batches := s.batches.modify bid change } := by
  refine census.of_same (.modify rfl rfl ?_) (.of_requests rfl rfl)
  intro b _
  obtain ⟨allowed, formed, changed⟩ := retimes b
  rw [changed]

theorem sealForming (census : Census s) {bid : BatchId} {b : BatchRec}
    (found : s.batches[bid]? = some b) (forming : b.state = .forming)
    (reason : SealReason) (now : TimePoint) :
    Census (s.sealForming bid b reason now) := by
  refine census.of_fewer rfl ?_ (.modifyAll rfl rfl fun _ counted =>
    state_advance_beq rfl rfl counted)
  have closed := count_modify (p := fun b => b.state == .forming) found fun b =>
    { b with state := .sealed, sealReason := reason, sealedNs := now }
  rw [forming] at closed
  exact closed

theorem markDispatched (census : Census s) {bid : BatchId} {b : BatchRec}
    (found : s.batches[bid]? = some b) (isSealed : b.state = .sealed)
    (worker : WorkerId) (boot : WorkerBootId) (now : TimePoint) :
    Census (s.markDispatched bid b worker boot now) := by
  refine census.of_same (.modify rfl rfl ?_) (.modifyAll rfl rfl
    fun _ counted => state_advance_beq rfl rfl counted)
  intro b' at_bid
  rw [found] at at_bid
  cases at_bid
  rw [isSealed]
  rfl

theorem markRunning (census : Census s) {bid : BatchId} {b : BatchRec}
    (found : s.batches[bid]? = some b) (dispatched : b.state = .dispatched) :
    Census (s.markRunning bid b) := by
  refine census.of_same (.modify rfl rfl ?_) (.modifyAll rfl rfl
    fun _ counted => state_advance_beq rfl rfl counted)
  intro b' at_bid
  rw [found] at at_bid
  cases at_bid
  rw [dispatched]
  rfl

theorem finishBatch (census : Census s) {bid : BatchId} {b : BatchRec}
    (found : s.batches[bid]? = some b)
    (inFlight : b.state = .dispatched ∨ b.state = .running)
    (worker : WorkerId) (now : TimePoint) :
    Census (s.finishBatch bid worker now) := by
  have notForming : (b.state == .forming) = false := by
    rcases inFlight with state | state
    · rw [state]
      rfl
    · rw [state]
      rfl
  unfold Impl.finishBatch
  rw [found]
  dsimp only
  split
  · refine census.of_same (.modify rfl rfl ?_) (.of_requests rfl rfl)
    intro b' at_bid
    rw [found] at at_bid
    cases at_bid
    rw [notForming]
    rfl
  · refine census.of_same (.modify rfl rfl ?_) (.of_requests rfl rfl)
    intro b' at_bid
    rw [found] at at_bid
    cases at_bid
    rw [notForming]
    rfl

theorem sameEndings_splitRequests (s : Impl) (bid child : BatchId)
    (b : BatchRec) {s' : Impl}
    (requests : s'.requests = s.splitRequests bid child b)
    (counters : s'.stats.ended = s.stats.ended) : SameEndings s s' where
  census state _ := by
    rw [requests]
    unfold splitRequests censusOfRequests
    rw [count_modifyAll fun _ => by rfl, count_modifyAll fun _ => by rfl]
  counters := counters

/-- The sealed halves take the place of a sealed batch. -/
theorem splitSealed (census : Census s) (wellFormed : WellFormed s)
    {bid : BatchId} {b : BatchRec} (found : s.batches[bid]? = some b)
    (isSealed : b.state = .sealed) : Census (s.splitSealed bid b) := by
  refine census.of_same ⟨?_, rfl⟩
    (sameEndings_splitRequests s bid { value := s.nextBatch } b rfl rfl)
  apply count_congr
  intro other
  unfold Impl.splitSealed
  dsimp only
  rw [getElem?_insert]
  split
  · next same =>
      rw [← same, wellFormed.no_batch (Nat.le_succ _)]
      rfl
  · rw [getElem?_insert]
    split
    · next same =>
        rw [← same, wellFormed.no_batch (Nat.le_refl _)]
        unfold splitChild recomputeAccum
        dsimp only [Option.any_some]
        rw [isSealed]
        rfl
    · rw [getElem?_insert]
      split
      · next same =>
          rw [← same, found]
          dsimp only [Option.any_some]
          rw [isSealed]
          rfl
      · rfl

/-- Both halves of a forming batch form. -/
theorem splitOpen (census : Census s) (wellFormed : WellFormed s)
    {bid : BatchId} {b : BatchRec} (found : s.batches[bid]? = some b)
    (forming : b.state = .forming) : Census (s.splitOpen bid b) := by
  let child : BatchId := { value := s.nextBatch }
  let requests := s.splitRequests bid child b
  refine census.of_more rfl ?_
    (sameEndings_splitRequests s bid child b rfl rfl)
  have fresh : s.batches[child]? = none := wellFormed.no_batch (Nat.le_refl _)
  have different : bid ≠ child := by
    rintro rfl
    rw [fresh] at found
    cases found
  have halved := count_insert (p := fun b => b.state == .forming) s.batches
    bid (splitParent requests child b)
  have added := count_insert (p := fun b => b.state == .forming)
    (s.batches.insert bid (splitParent requests child b)) child
    (splitChild requests bid child b)
  rw [getElem?_insert, if_neg different, fresh] at added
  rw [found] at halved
  have parent_forms : (splitParent requests child b).state = .forming := forming
  have child_forms : (splitChild requests bid child b).state = .forming :=
    forming
  dsimp only [Option.any_some] at halved
  rw [parent_forms, forming] at halved
  rw [child_forms, Nat.add_right_cancel halved] at added
  exact added

/-- A sealed batch is superseded by another. -/
theorem mergeInto (census : Census s) {aid bid : BatchId} {a b : BatchRec}
    (first : s.batches[aid]? = some a) (second : s.batches[bid]? = some b)
    (secondSealed : b.state = .sealed) :
    Census (s.mergeInto aid bid a b) := by
  refine census.of_same ⟨?_, rfl⟩
    (.modifyAll rfl rfl fun _ _ _ => rfl)
  apply count_congr
  intro other
  unfold Impl.mergeInto
  dsimp only
  have target : ((s.batches.insert aid (mergeTarget
      (modifyAll s.requests b.members (RequestRec.setBatch aid)) bid a
        b))[other]?).any (fun b => b.state == .forming) =
      (s.batches[other]?).any fun b => b.state == .forming := by
    rw [getElem?_insert]
    split
    · next same =>
        rw [← same, first]
        rfl
    · rfl
  rw [getElem?_modify]
  split
  · next same =>
      subst same
      rw [second, Option.any_some, secondSealed]
      cases (s.batches.insert aid (mergeTarget
        (modifyAll s.requests b.members (RequestRec.setBatch aid)) bid a
          b))[bid]? <;> rfl
  · exact target

/-! Outcomes, which are to meet no request that has been counted. -/

theorem conclude (census : Census s) {mc : MemberCompletion} {r : RequestRec}
    (found : s.requests[mc.request]? = some r)
    (uncounted : isCounted r.state = false) {state : RequestState}
    {now : TimePoint} {fairness : FairnessController} {stats : BatchStats}
    (forming : stats.formingNow = s.stats.formingNow)
    (counters : stats.ended = (s.stats.countEnd state).ended) :
    Census { s.conclude r mc state now with
      fairness := fairness, stats := stats } := by
  have entered : (r.conclude mc state).state = state := state_conclude r mc state
  refine census.of_enters (.modify rfl forming fun b _ => ?_)
    (.modify found uncounted rfl (counters.trans (by rw [entered])))
  rw [BatchRec.state_of_listing (BatchRec.listing_conclude b mc)]

theorem applyMemberOutcome (census : Census s) (policy : BatchPolicy)
    (now : TimePoint) {mc : MemberCompletion}
    (uncounted : (endState mc.status).isSome →
      s.uncounted mc.request = true) :
    Census (s.applyMemberOutcome policy now mc) := by
  unfold Impl.applyMemberOutcome
  cases found : s.requests[mc.request]? with
  | none => exact census
  | some r =>
      rw [uncounted_of_found found, Bool.not_eq_true'] at uncounted
      dsimp only
      split
      · exact census
      · next a current =>
        cases status : mc.status with
        | success =>
            exact census.conclude found (uncounted (by rw [status]; rfl)) rfl
              rfl
        | retryableFailure =>
            have failed : Census { s.conclude r mc .failed now with
                stats.retryableFailures := s.stats.retryableFailures + 1 } :=
              census.conclude found (uncounted (by rw [status]; rfl)) rfl rfl
            dsimp only
            unfold applyRetryable
            dsimp only
            split
            · have concluded : ({ s.conclude r mc .failed now with
                  stats.retryableFailures := s.stats.retryableFailures + 1 } :
                    Impl).requests[mc.request]? =
                  some (r.conclude mc .failed) :=
                getElem?_modify_self found _
              apply failed.requeue _ concluded
              rw [uncounted_of_found concluded, state_conclude]
              rfl
            · exact failed
        | nonRetryableFailure =>
            exact census.conclude found (uncounted (by rw [status]; rfl)) rfl
              rfl
        | cancelled =>
            exact census.conclude found (uncounted (by rw [status]; rfl)) rfl
              rfl
        | expired =>
            exact census.conclude found (uncounted (by rw [status]; rfl)) rfl
              rfl
        | stale | deferred | undeclared =>
            exact census.of_same (.of_batches rfl rfl) (.of_requests rfl rfl)

/-! Over a tick, a report and any operation. -/

theorem tickRule (policy : BatchPolicy) (now : TimePoint) :
    TickRule policy now (fun s => WellFormed s ∧ Census s) where
  wellFormed _ held := held.1
  expire _ id held :=
    ⟨held.1.expireWaiting now id, held.2.expireWaiting now id⟩
  cancel _ id held :=
    ⟨held.1.doCancel policy id now, held.2.doCancel policy id now⟩
  openForming _ key held _ :=
    ⟨held.1.openForming key now, held.2.openForming held.1 key now⟩
  place s bid key pick b r held placing :=
    ⟨(WellFormed.tickRule policy now).place s bid key pick b r held.1 placing,
      held.2.place placing.request placing.waiting⟩
  retime _ bid _ held retimes :=
    ⟨held.1.retime bid retimes, held.2.retime bid retimes⟩
  close _ _ _ reason held found forming :=
    ⟨held.1.sealForming found forming reason now,
      held.2.sealForming found forming reason now⟩
  merge _ _ _ _ _ held merging :=
    ⟨held.1.mergeInto merging.first merging.second merging.keyed,
      held.2.mergeInto merging.first merging.second merging.secondSealed⟩

theorem reportRule (policy : BatchPolicy) (now : TimePoint) :
    ReportRule policy now (fun s id _ => s.uncounted id) Census where
  count _ _ census :=
    census.of_same (.of_batches rfl rfl) (.of_requests rfl rfl)
  outcome _ _ census uncounted := census.applyMemberOutcome policy now uncounted
  dispatch _ _ _ worker boot census found isSealed :=
    census.markDispatched found isSealed worker boot now
  running _ _ _ census found dispatched := census.markRunning found dispatched
  finish _ _ _ worker census found inFlight :=
    census.finishBatch found inFlight worker now

end Census

/-! Runs. A report takes up no request that has been counted, since the
attempt it names would have ended with it. -/

theorem allowsReport_uncounted {s : Impl} (owns : s.OwnsAttempts)
    (policy : BatchPolicy) (comp : BatchCompletion) (now : TimePoint) :
    s.allowsReport policy (fun s id _ => s.uncounted id) comp now = true := by
  unfold allowsReport
  rw [Bool.or_eq_true]
  refine .inr (decide_eq_true ?_)
  have kept : ∀ (current : Impl) (mc : MemberCompletion),
      current.OwnsAttempts →
        (current.completeMember policy now mc).OwnsAttempts :=
    fun _ _ owns => (OwnsAttempts.recordRule policy
      now).reports.completeMember owns (Bool.or_true _)
  apply (Transition.along_congr OwnsAttempts kept
    (fun current mc owns => iff_of_true ?_ trivial) owns comp.members).mpr
    (Transition.along_of_forall _ (fun _ _ => trivial) s comp.members)
  cases taken : current.takesUp mc with
  | false => rfl
  | true =>
      obtain ⟨r, found, unsettled⟩ := unsettled_of_takesUp owns taken
      dsimp only
      rw [uncounted_of_found found, uncounted_of_unsettled unsettled]
      rfl

/-- The merge joins forming batches. -/
def mergesForming (policy : BatchPolicy) (s : Impl) (aid bid : BatchId) :
    Bool :=
  match s.batches[aid]?, s.batches[bid]? with
  | some a, some b => canMerge policy a b && a.state == .forming
  | _, _ => false

/-- The split takes apart a batch that neither forms nor is sealed. -/
def splitsReported (s : Impl) (bid : BatchId) : Bool :=
  match s.batches[bid]? with
  | none => false
  | some b => splittable b && b.state != .sealed && b.state != .forming

/-- The operations under which the counters keep up with the records. -/
def keepsCensus (policy : BatchPolicy) (s : Impl) : Op → Bool
  | .merge a b => !s.mergesForming policy a b
  | .split batch => !s.splitsReported batch
  | .retry request _ now =>
      !s.takesRetry policy request now || s.uncounted request
  | .dispatchAndRun batch executor now =>
      s.allowsRun policy (fun s id _ => s.uncounted id) batch executor now
  | _ => true

theorem Census.stepRule (policy : BatchPolicy) :
    StepRule policy (fun s op => s.keepsCensus policy op = true)
      (fun s id _ => s.uncounted id) Census where
  ticks := tickRule policy
  reports now := (reportRule policy now).formed
  complete _ comp now reachable _ _ :=
    allowsReport_uncounted (ownsAttempts_of_reachable reachable) policy comp now
  dispatchAndRun _ _ _ _ _ _ allows := allows
  submit _ metadata now reachable census _ :=
    census.doSubmit (wellFormed_of_reachable reachable) policy metadata now
  splitSealed _ _ _ wellFormed census found isSealed _ :=
    census.splitSealed wellFormed found isSealed
  splitOpen s bid b reachable census allows found unsealed possible := by
    apply census.splitOpen (wellFormed_of_reachable reachable) found
    simpa [keepsCensus, splitsReported, found, possible, unsealed] using allows
  mergeInto s aid bid a b _ census allows first second possible := by
    apply census.mergeInto first second
    obtain ⟨_, _, same, isSealed | forming⟩ := canMerge_cases possible
    · exact same.symm.trans isSealed
    · simp [keepsCensus, mergesForming, first, second, possible, forming]
        at allows
  requeue s id r order now _ census allows found taken := by
    apply census.requeue _ found
    simpa [keepsCensus, taken] using allows
  registerWorker _ _ _ _ census :=
    census.of_same (.of_batches rfl rfl) (.of_requests rfl rfl)
  rollEpoch _ census :=
    census.of_same (.of_batches rfl rfl) (.of_requests rfl rfl)

/-- The counters equal the numbers of records in every run that merges no
forming batches, splits none that is partly reported, and neither retries a
request that has been counted nor fails one under an executor's error. -/
theorem countersMatch_of_run (policy : BatchPolicy) (ops : List Op)
    (guarded : Transition.Along (BatchFabric.step policy)
      (fun s op => s.keepsCensus policy op = true) fresh ops) :
    (run policy ops).CountersMatch :=
  ((Census.stepRule policy).of_run Census.fresh ops guarded).countersMatch

/-- One member is cancelled, and the other completed. -/
theorem countersMatch_of_report :
    (run {} [.submit minimalRequest 0, .submit minimalRequest 0, .tick [] 1,
      .cancel { value := 2 } 2,
      .prepareDispatch { value := 1 } .null .null 3,
      .complete {
        epoch := { value := 1 }, generation := { value := 1 }
        batch := { value := 1 }
        members := [
          { request := { value := 1 }, attempt := { value := 1 } }] } 4
      ]).CountersMatch :=
  countersMatch_of_run _ _ (by
    rw [step_eq_stepKnown .minimal]
    decide +kernel)

/-- A forming batch is split and its halves are merged again. One batch forms,
and two are counted. -/
theorem not_countersMatch_of_merged :
    ¬ ∀ (policy : BatchPolicy) (ops : List Op),
      (run policy ops).CountersMatch := by
  intro counted
  let policy : BatchPolicy := { constraints.minimumPreferredBatch := 3 }
  let ops : List Op := [.submit minimalRequest 0, .submit minimalRequest 0,
    .tick [] 1, .split { value := 1 },
    .merge { value := 1 } { value := 2 }]
  have counter : (run policy ops).doStats.formingNow = 2 := by
    rw [run_eq_runKnown .minimal]
    decide +kernel
  have census : censusOfBatches .forming (run policy ops).batches = 1 := by
    rw [run_eq_runKnown .minimal]
    decide +kernel
  have equal := (counted policy ops).forming
  rw [counter, census] at equal
  exact absurd equal (by decide)

end Impl

end BatchFabric
