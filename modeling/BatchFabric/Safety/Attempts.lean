import BatchFabric.Safety.Reachable

namespace BatchFabric

open OrderedMap

/-! Attempts belong to one request each, and the current one ends with its
request. -/

/-- An attempt ends when its request does, in the same state. -/
def inStep (request attempt : RequestState) : Prop :=
  if isRequestTerminal request = true then attempt = request
  else isRequestTerminal attempt = false

theorem inStep_of_going {request attempt : RequestState}
    (request_going : isRequestTerminal request = false)
    (attempt_going : isRequestTerminal attempt = false) :
    inStep request attempt := by
  unfold inStep
  rw [request_going]
  exact attempt_going

theorem inStep_self {state : RequestState} : inStep state state := by
  unfold inStep
  split
  · rfl
  · next going => exact Bool.eq_false_iff.mpr going

theorem inStep.eq_of_terminal {request attempt : RequestState}
    (agrees : inStep request attempt)
    (ended : isRequestTerminal attempt = true) : attempt = request := by
  unfold inStep at agrees
  split at agrees
  · exact agrees
  · rw [agrees] at ended
    cases ended

theorem inStep.going {request attempt : RequestState}
    (agrees : inStep request attempt)
    (going : isRequestTerminal request = false) :
    isRequestTerminal attempt = false := by
  unfold inStep at agrees
  rw [going] at agrees
  exact agrees

namespace Impl

/-- The current attempt of a request exists and is in step with it. -/
def AttemptKnown (s : Impl) (r : RequestRec) : Prop :=
  r.currentAttempt ∈ r.attempts ∧
    ∃ a, s.attempts[r.currentAttempt]? = some a ∧ inStep r.state a.state

structure OwnsAttempts (s : Impl) : Prop where
  known : Everywhere s.requests fun _ r => s.AttemptKnown r
  allocated : Everywhere s.requests fun _ r =>
    ∀ aid ∈ r.attempts, aid.value < s.nextAttempt
  apart : ∀ (id id' : RequestId) (r r' : RequestRec) (aid : AttemptId),
    s.requests[id]? = some r → s.requests[id']? = some r' →
    aid ∈ r.attempts → aid ∈ r'.attempts → id = id'

/-- A record comes from one with the same attempts. Its state is the same, or
neither has ended. -/
def GoesOnFrom (s : Impl) (id : RequestId) (r' : RequestRec) : Prop :=
  ∃ r, s.requests[id]? = some r ∧ r'.currentAttempt = r.currentAttempt ∧
    r'.attempts = r.attempts ∧
    (r'.state = r.state ∨ (isRequestTerminal r.state = false ∧
      isRequestTerminal r'.state = false))

theorem everywhere_goesOnFrom (s : Impl) :
    Everywhere s.requests (GoesOnFrom s) :=
  fun _ r found => ⟨r, found, rfl, rfl, .inl rfl⟩

theorem GoesOnFrom.advance {s : Impl} {id : RequestId} {r : RequestRec}
    (goes : GoesOnFrom s id r) {source target : RequestState}
    (before : isRequestTerminal source = false)
    (after : isRequestTerminal target = false) :
    GoesOnFrom s id (r.advance source target) := by
  obtain ⟨r₀, found, current, attempts, states⟩ := goes
  unfold RequestRec.advance
  split
  · next atSource =>
      refine ⟨r₀, found, current, attempts, .inr ⟨?_, after⟩⟩
      rcases states with same | going
      · rw [← same, atSource, before]
      · exact going.1
  · exact ⟨r₀, found, current, attempts, states⟩

theorem GoesOnFrom.setBatch {s : Impl} {id : RequestId} {r : RequestRec}
    (goes : GoesOnFrom s id r) (bid : BatchId) :
    GoesOnFrom s id (r.setBatch bid) :=
  goes

theorem attempts_conclude (r : RequestRec) (mc : MemberCompletion)
    (state : RequestState) :
    (r.conclude mc state).currentAttempt = r.currentAttempt ∧
      (r.conclude mc state).attempts = r.attempts := by
  unfold RequestRec.conclude
  split <;> exact ⟨rfl, rfl⟩

theorem state_attempt_conclude (a : AttemptRec) (mc : MemberCompletion)
    (state : RequestState) (now : TimePoint) :
    (a.conclude mc state now).state = state := by
  unfold AttemptRec.conclude
  split <;> rfl

namespace OwnsAttempts

variable {s s' : Impl}

theorem fresh : OwnsAttempts fresh where
  known := everywhere_empty
  allocated := everywhere_empty
  apart := by
    intro id _ r _ _ found
    exact absurd found (by simp [Impl.fresh])

theorem goOn (owns : s.OwnsAttempts)
    (goes : Everywhere s'.requests (GoesOnFrom s))
    (attempts : s'.attempts = s.attempts)
    (next : s'.nextAttempt = s.nextAttempt) : s'.OwnsAttempts where
  known := by
    intro id r' found'
    obtain ⟨r, found, current, listed, states⟩ := goes id r' found'
    obtain ⟨member, a, at_current, agrees⟩ := owns.known id r found
    unfold AttemptKnown
    rw [current, listed, attempts]
    refine ⟨member, a, at_current, ?_⟩
    rcases states with same | ⟨before, after⟩
    · rw [same]
      exact agrees
    · exact inStep_of_going after (agrees.going before)
  allocated := by
    intro id r' found' aid member
    obtain ⟨r, found, _, listed, _⟩ := goes id r' found'
    rw [listed] at member
    rw [next]
    exact owns.allocated id r found aid member
  apart := by
    intro id id' r₁ r₂ aid found₁ found₂ member₁ member₂
    obtain ⟨r, found, _, listed, _⟩ := goes id r₁ found₁
    obtain ⟨r', found', _, listed', _⟩ := goes id' r₂ found₂
    rw [listed] at member₁
    rw [listed'] at member₂
    exact owns.apart id id' r r' aid found found' member₁ member₂

theorem of_tables (owns : s.OwnsAttempts)
    (requests : s'.requests = s.requests)
    (attempts : s'.attempts = s.attempts)
    (next : s'.nextAttempt = s.nextAttempt) : s'.OwnsAttempts := by
  apply owns.goOn _ attempts next
  rw [requests]
  exact everywhere_goesOnFrom s

/-- A request and its current attempt take the same state. -/
theorem endCurrent (owns : s.OwnsAttempts) {id : RequestId} {r : RequestRec}
    (found : s.requests[id]? = some r)
    {change : RequestRec → RequestRec} {finish : AttemptRec → AttemptRec}
    (requests : s'.requests = s.requests.modify id change)
    (attempts : s'.attempts = s.attempts.modify r.currentAttempt finish)
    (next : s'.nextAttempt = s.nextAttempt)
    (kept : (change r).currentAttempt = r.currentAttempt ∧
      (change r).attempts = r.attempts)
    (states : ∀ a, (finish a).state = (change r).state) :
    s'.OwnsAttempts := by
  have records : ∀ (other : RequestId) (r' : RequestRec),
      s'.requests[other]? = some r' →
      (other = id ∧ r' = change r) ∨
        (other ≠ id ∧ s.requests[other]? = some r') := by
    intro other r' found'
    rw [requests] at found'
    obtain ⟨before, at_other, ⟨rfl, rfl⟩ | ⟨different, rfl⟩⟩ :=
      getElem?_modify_cases found'
    · rw [found] at at_other
      cases at_other
      exact .inl ⟨rfl, rfl⟩
    · exact .inr ⟨Ne.symm different, at_other⟩
  have lists : ∀ (other : RequestId) (r' : RequestRec),
      s'.requests[other]? = some r' →
      ∃ before, s.requests[other]? = some before ∧
        r'.attempts = before.attempts := by
    intro other r' found'
    rcases records other r' found' with ⟨rfl, rfl⟩ | ⟨_, before⟩
    · exact ⟨r, found, kept.2⟩
    · exact ⟨r', before, rfl⟩
  constructor
  · intro other r' found'
    unfold AttemptKnown
    rw [attempts]
    rcases records other r' found' with ⟨rfl, rfl⟩ | ⟨different, before⟩
    · obtain ⟨member, a, at_current, _⟩ := owns.known other r found
      rw [kept.1, kept.2]
      exact ⟨member, finish a, getElem?_modify_self at_current finish,
        by rw [states a]; exact inStep_self⟩
    · obtain ⟨member, a, at_current, agrees⟩ := owns.known other r' before
      refine ⟨member, a, ?_, agrees⟩
      rw [getElem?_modify, if_neg]
      · exact at_current
      · intro same
        have mine := (owns.known id r found).1
        rw [same] at mine
        exact different (owns.apart other id r' r _ before found member mine)
  · intro other r' found' aid member
    obtain ⟨before, at_other, same⟩ := lists other r' found'
    rw [next]
    exact owns.allocated other before at_other aid (same ▸ member)
  · intro id₁ id₂ r₁ r₂ aid found₁ found₂ member₁ member₂
    obtain ⟨before₁, at₁, same₁⟩ := lists id₁ r₁ found₁
    obtain ⟨before₂, at₂, same₂⟩ := lists id₂ r₂ found₂
    exact owns.apart id₁ id₂ before₁ before₂ aid at₁ at₂ (same₁ ▸ member₁)
      (same₂ ▸ member₂)

theorem createRequest (owns : s.OwnsAttempts) (metadata : RequestMetadata)
    (now : TimePoint) (state : RequestState) (outcome : CompletionStatus)
    (inWaiting : Bool) :
    (s.createRequest metadata now state state outcome
      inWaiting).OwnsAttempts := by
  have records : ∀ (other : RequestId) (r' : RequestRec),
      (s.createRequest metadata now state state outcome
        inWaiting).requests[other]? = some r' →
      (other = { value := s.nextRequest } ∧ r'.state = state ∧
          r'.currentAttempt = { value := s.nextAttempt } ∧
          r'.attempts = [{ value := s.nextAttempt }]) ∨
        (other ≠ { value := s.nextRequest } ∧
          s.requests[other]? = some r') := by
    intro other r' found'
    unfold Impl.createRequest at found'
    dsimp only at found'
    rw [getElem?_insert] at found'
    split at found'
    · next same =>
        cases found'
        exact .inl ⟨same.symm, rfl, rfl, rfl⟩
    · next different => exact .inr ⟨Ne.symm different, found'⟩
  have unused : ∀ (other : RequestId) (r : RequestRec),
      s.requests[other]? = some r →
      ({ value := s.nextAttempt } : AttemptId) ∉ r.attempts :=
    fun other r found member =>
      Nat.lt_irrefl _ (owns.allocated other r found _ member)
  constructor
  · intro other r' found'
    unfold AttemptKnown Impl.createRequest
    dsimp only
    rw [getElem?_insert]
    rcases records other r' found' with
      ⟨_, isState, current, listed⟩ | ⟨_, before⟩
    · rw [current, listed, if_pos rfl]
      exact ⟨List.mem_singleton_self _, _, rfl, by
        rw [isState]
        exact inStep_self⟩
    · obtain ⟨member, a, at_current, agrees⟩ := owns.known other r' before
      refine ⟨member, a, ?_, agrees⟩
      rw [if_neg]
      · exact at_current
      · intro same
        exact unused other r' before (same ▸ member)
  · intro other r' found' aid member
    rcases records other r' found' with ⟨_, _, _, listed⟩ | ⟨_, before⟩
    · rw [listed] at member
      rw [List.mem_singleton.mp member]
      exact Nat.lt_succ_self _
    · exact Nat.lt_succ_of_lt (owns.allocated other r' before aid member)
  · intro id₁ id₂ r₁ r₂ aid found₁ found₂ member₁ member₂
    rcases records id₁ r₁ found₁ with ⟨new₁, _, _, listed₁⟩ | ⟨_, before₁⟩
    · rw [listed₁] at member₁
      rcases records id₂ r₂ found₂ with ⟨new₂, _⟩ | ⟨_, before₂⟩
      · rw [new₁, new₂]
      · rw [List.mem_singleton.mp member₁] at member₂
        exact absurd member₂ (unused id₂ r₂ before₂)
    · rcases records id₂ r₂ found₂ with ⟨_, _, _, listed₂⟩ | ⟨_, before₂⟩
      · rw [listed₂] at member₂
        rw [List.mem_singleton.mp member₂] at member₁
        exact absurd member₁ (unused id₁ r₁ before₁)
      · exact owns.apart id₁ id₂ r₁ r₂ aid before₁ before₂ member₁ member₂

theorem requeue (owns : s.OwnsAttempts) {id : RequestId} (r : RequestRec)
    (number : UInt32) : (s.requeue id r number).OwnsAttempts := by
  have records : ∀ (other : RequestId) (r' : RequestRec),
      (s.requeue id r number).requests[other]? = some r' →
      (other = id ∧ ∃ before, s.requests[id]? = some before ∧
          r'.state = .eligible ∧
          r'.currentAttempt = { value := s.nextAttempt } ∧
          r'.attempts = before.attempts ++ [{ value := s.nextAttempt }]) ∨
        (other ≠ id ∧ s.requests[other]? = some r') := by
    intro other r' found'
    obtain ⟨before, at_other, ⟨rfl, rfl⟩ | ⟨different, rfl⟩⟩ :=
      getElem?_modify_cases found'
    · exact .inl ⟨rfl, before, at_other, rfl, rfl, rfl⟩
    · exact .inr ⟨Ne.symm different, at_other⟩
  have unused : ∀ (other : RequestId) (r : RequestRec),
      s.requests[other]? = some r →
      ({ value := s.nextAttempt } : AttemptId) ∉ r.attempts :=
    fun other r found member =>
      Nat.lt_irrefl _ (owns.allocated other r found _ member)
  constructor
  · intro other r' found'
    unfold AttemptKnown Impl.requeue
    dsimp only
    rw [getElem?_insert]
    rcases records other r' found' with
      ⟨_, _, _, state, current, listed⟩ | ⟨_, before⟩
    · rw [current, listed, if_pos rfl]
      refine ⟨List.mem_append_right _ (List.mem_singleton_self _), _, rfl, ?_⟩
      rw [state]
      exact inStep_self
    · obtain ⟨member, a, at_current, agrees⟩ := owns.known other r' before
      refine ⟨member, a, ?_, agrees⟩
      rw [if_neg]
      · exact at_current
      · intro same
        exact unused other r' before (same ▸ member)
  · intro other r' found' aid member
    rcases records other r' found' with
      ⟨_, before, at_id, _, _, listed⟩ | ⟨_, before⟩
    · rw [listed] at member
      rcases List.mem_append.mp member with old | new
      · exact Nat.lt_succ_of_lt (owns.allocated id before at_id aid old)
      · rw [List.mem_singleton.mp new]
        exact Nat.lt_succ_self _
    · exact Nat.lt_succ_of_lt (owns.allocated other r' before aid member)
  · intro id₁ id₂ r₁ r₂ aid found₁ found₂ member₁ member₂
    rcases records id₁ r₁ found₁ with
      ⟨same₁, before₁, at₁, _, _, listed₁⟩ | ⟨_, at₁⟩
    · rcases records id₂ r₂ found₂ with ⟨same₂, _⟩ | ⟨_, at₂⟩
      · rw [same₁, same₂]
      · rw [listed₁] at member₁
        rw [same₁]
        rcases List.mem_append.mp member₁ with old | new
        · exact owns.apart id id₂ before₁ r₂ aid at₁ at₂ old member₂
        · rw [List.mem_singleton.mp new] at member₂
          exact absurd member₂ (unused id₂ r₂ at₂)
    · rcases records id₂ r₂ found₂ with
        ⟨same₂, before₂, at₂, _, _, listed₂⟩ | ⟨_, at₂⟩
      · rw [listed₂] at member₂
        rw [same₂]
        rcases List.mem_append.mp member₂ with old | new
        · exact owns.apart id₁ id r₁ before₂ aid at₁ at₂ member₁ old
        · rw [List.mem_singleton.mp new] at member₁
          exact absurd member₁ (unused id₁ r₁ at₁)
      · exact owns.apart id₁ id₂ r₁ r₂ aid at₁ at₂ member₁ member₂

theorem doSubmit (owns : s.OwnsAttempts) (policy : BatchPolicy)
    (metadata : RequestMetadata) (now : TimePoint) :
    (s.doSubmit policy metadata now).2.OwnsAttempts := by
  obtain ⟨stats, refused⟩ | ⟨_, ⟨state, outcome, stats, _, recorded⟩ |
      ⟨fairness, stats, queued⟩⟩ := doSubmit_cases policy s metadata now
  · rw [refused]
    exact owns.of_tables rfl rfl rfl
  · rw [recorded]
    exact (owns.createRequest metadata now state outcome false).of_tables
      rfl rfl rfl
  · rw [queued]
    exact (owns.createRequest metadata now .eligible .success true).of_tables
      rfl rfl rfl

theorem doCancel (owns : s.OwnsAttempts) (policy : BatchPolicy)
    (id : RequestId) (now : TimePoint) :
    (s.doCancel policy id now).2.OwnsAttempts := by
  obtain unchanged | ⟨r, found, _, ⟨_, outside⟩ |
      ⟨_, b, _, ⟨_, forming⟩ | ⟨_, later⟩⟩⟩ := doCancel_cases policy s id now
  · rw [unchanged]
    exact owns
  · rw [outside]
    exact owns.endCurrent found rfl rfl rfl ⟨rfl, rfl⟩ (fun _ => rfl)
  · rw [forming]
    exact owns.endCurrent found rfl rfl rfl ⟨rfl, rfl⟩ (fun _ => rfl)
  · rw [later]
    exact owns.endCurrent found rfl rfl rfl ⟨rfl, rfl⟩ (fun _ => rfl)

theorem expireWaiting (owns : s.OwnsAttempts) (now : TimePoint)
    (id : RequestId) : (expireWaiting now s id).OwnsAttempts := by
  obtain unchanged | ⟨r, found, ⟨_, removed⟩ | ⟨_, stats, ended⟩⟩ :=
    expireWaiting_cases now s id
  · rw [unchanged]
    exact owns
  · rw [removed]
    exact owns.of_tables rfl rfl rfl
  · rw [ended]
    exact owns.endCurrent found rfl rfl rfl ⟨rfl, rfl⟩ (fun _ => rfl)

theorem place (owns : s.OwnsAttempts) {pick : RequestId} {r : RequestRec}
    (request : s.requests[pick]? = some r)
    (waiting : isWaitingState r.state = true) (bid : BatchId)
    (key : CompatibilityKey) : (s.place bid key pick).OwnsAttempts := by
  rw [place_eq request]
  refine owns.goOn ?_ rfl rfl
  intro id r' found'
  obtain ⟨before, at_id, ⟨rfl, rfl⟩ | ⟨_, rfl⟩⟩ := getElem?_modify_cases found'
  · rw [request] at at_id
    cases at_id
    exact ⟨r, request, rfl, rfl, .inr ⟨not_terminal_of_isWaiting waiting, rfl⟩⟩
  · exact everywhere_goesOnFrom s id r' at_id

theorem sealForming (owns : s.OwnsAttempts) (bid : BatchId) (b : BatchRec)
    (reason : SealReason) (now : TimePoint) :
    (s.sealForming bid b reason now).OwnsAttempts :=
  owns.goOn
    ((everywhere_goesOnFrom s).modifyAll fun _ _ goes => goes.advance rfl rfl)
    rfl rfl

theorem markDispatched (owns : s.OwnsAttempts) (bid : BatchId) (b : BatchRec)
    (worker : WorkerId) (boot : WorkerBootId) (now : TimePoint) :
    (s.markDispatched bid b worker boot now).OwnsAttempts :=
  owns.goOn
    ((everywhere_goesOnFrom s).modifyAll fun _ _ goes => goes.advance rfl rfl)
    rfl rfl

theorem markRunning (owns : s.OwnsAttempts) (bid : BatchId) (b : BatchRec) :
    (s.markRunning bid b).OwnsAttempts :=
  owns.goOn
    ((everywhere_goesOnFrom s).modifyAll fun _ _ goes => goes.advance rfl rfl)
    rfl rfl

theorem goesOnFrom_splitRequests (s : Impl) (bid child : BatchId)
    (b : BatchRec) :
    Everywhere (s.splitRequests bid child b) (GoesOnFrom s) :=
  ((everywhere_goesOnFrom s).modifyAll
    fun _ _ goes => goes.setBatch child).modifyAll
      fun _ _ goes => goes.setBatch bid

theorem splitSealed (owns : s.OwnsAttempts) (bid : BatchId) (b : BatchRec) :
    (s.splitSealed bid b).OwnsAttempts :=
  owns.goOn (goesOnFrom_splitRequests s bid _ b) rfl rfl

theorem splitOpen (owns : s.OwnsAttempts) (bid : BatchId) (b : BatchRec) :
    (s.splitOpen bid b).OwnsAttempts :=
  owns.goOn (goesOnFrom_splitRequests s bid _ b) rfl rfl

theorem mergeInto (owns : s.OwnsAttempts) (aid bid : BatchId)
    (a b : BatchRec) : (s.mergeInto aid bid a b).OwnsAttempts :=
  owns.goOn
    ((everywhere_goesOnFrom s).modifyAll fun _ _ goes => goes.setBatch aid)
    rfl rfl

theorem conclude (owns : s.OwnsAttempts) {r : RequestRec} {a : AttemptRec}
    {mc : MemberCompletion} {state : RequestState}
    (concluding : s.Concluding mc r a state) (now : TimePoint)
    (fairness : FairnessController) (stats : BatchStats) :
    ({ s.conclude r mc state now with
      fairness := fairness, stats := stats } : Impl).OwnsAttempts :=
  owns.endCurrent concluding.request rfl rfl rfl
    (attempts_conclude r mc state)
    (fun a => (state_attempt_conclude a mc state now).trans
      (state_conclude r mc state).symm)

theorem finishBatch (owns : s.OwnsAttempts) (bid : BatchId)
    (worker : WorkerId) (now : TimePoint) :
    (s.finishBatch bid worker now).OwnsAttempts := by
  obtain unchanged | ⟨b, stats, workers, _, ⟨_, ended⟩ | ⟨_, partly⟩⟩ :=
    finishBatch_cases s bid worker now
  · rw [unchanged]
    exact owns
  · rw [ended]
    exact owns.of_tables rfl rfl rfl
  · rw [partly]
    exact owns.of_tables rfl rfl rfl

theorem recordRule (policy : BatchPolicy) (now : TimePoint) :
    RecordRule policy now (fun _ _ _ => true) OwnsAttempts where
  count _ _ owns := owns.of_tables rfl rfl rfl
  conclude _ _ _ _ _ fairness stats owns concluding _ :=
    owns.conclude concluding now fairness stats
  requeue _ r _ _ _ fairness stats owns concluding _ _ _ _ :=
    (owns.conclude concluding now fairness stats).requeue r _
  dispatch _ bid b worker boot owns _ _ :=
    owns.markDispatched bid b worker boot now
  running _ bid b owns _ _ := owns.markRunning bid b
  finish _ bid _ worker owns _ _ := owns.finishBatch bid worker now

theorem tickRule (policy : BatchPolicy) (now : TimePoint) :
    TickRule policy now (fun s => WellFormed s ∧ s.OwnsAttempts) where
  wellFormed _ held := held.1
  expire _ id held :=
    ⟨held.1.expireWaiting now id, held.2.expireWaiting now id⟩
  cancel _ id held :=
    ⟨held.1.doCancel policy id now, held.2.doCancel policy id now⟩
  openForming _ key held _ :=
    ⟨held.1.openForming key now, held.2.of_tables rfl rfl rfl⟩
  place s bid key pick b r held placing :=
    ⟨(WellFormed.tickRule policy now).place s bid key pick b r held.1 placing,
      held.2.place placing.request placing.waiting bid key⟩
  retime _ bid _ held retimes :=
    ⟨held.1.retime bid retimes, held.2.of_tables rfl rfl rfl⟩
  close _ bid b reason held found forming :=
    ⟨held.1.sealForming found forming reason now,
      held.2.sealForming bid b reason now⟩
  merge _ aid bid a b held merging :=
    ⟨held.1.mergeInto merging.first merging.second merging.keyed,
      held.2.mergeInto aid bid a b⟩

theorem doTick (owns : s.OwnsAttempts) (wellFormed : WellFormed s)
    (policy : BatchPolicy) (order : List CompatibilityKey) (now : TimePoint) :
    (s.doTick policy order now).OwnsAttempts :=
  ((tickRule policy now).doTick
    (fun _ bid b held found _ _ =>
      ⟨held.1.splitSealed found, held.2.splitSealed bid b⟩)
    ⟨wellFormed, owns⟩ order).2

theorem retryQueued (owns : s.OwnsAttempts) (policy : BatchPolicy)
    (id : RequestId) (now : TimePoint) :
    (s.retryQueued policy id now).2.OwnsAttempts := by
  obtain ⟨err, refused⟩ | ⟨r, _, _, _, queued⟩ :=
    retryQueued_cases policy s id now
  · rw [refused]
    exact owns
  · rw [queued]
    exact owns.requeue r _

theorem step {policy : BatchPolicy} (owns : s.OwnsAttempts)
    (wellFormed : WellFormed s) (op : Op) :
    (step policy s op).OwnsAttempts := by
  cases op with
  | submit metadata now => exact owns.doSubmit policy metadata now
  | cancel request now => exact owns.doCancel policy request now
  | complete completion now =>
      exact (recordRule policy now).reports.doComplete owns
        (allowsReport_always policy s completion now)
  | sealBatch batch reason now =>
      show (s.sealBatch batch reason now).2.OwnsAttempts
      obtain unchanged | ⟨b, _, _, closed⟩ :=
        sealBatch_cases s batch reason now
      · rw [unchanged]
        exact owns
      · rw [closed]
        exact owns.sealForming batch b reason now
  | split batch =>
      show (s.doSplit batch).2.OwnsAttempts
      obtain unchanged | ⟨b, _, _, ⟨_, taken⟩ | ⟨_, taken⟩⟩ :=
        doSplit_cases s batch
      · rw [unchanged]
        exact owns
      · rw [taken]
        exact owns.splitSealed batch b
      · rw [taken]
        exact owns.splitOpen batch b
  | merge a b =>
      show (s.doMerge policy a b).2.OwnsAttempts
      obtain unchanged | ⟨first, second, _, _, _, merged⟩ :=
        doMerge_cases policy s a b
      · rw [unchanged]
        exact owns
      · rw [merged]
        exact owns.mergeInto a b first second
  | retry request order now =>
      exact (kept_doRetry (fun s => WellFormed s ∧ s.OwnsAttempts)
        ⟨wellFormed.retryQueued policy request now,
          owns.retryQueued policy request now⟩
        (fun _ held => ⟨held.1.doTick policy order now,
          held.2.doTick held.1 policy order now⟩)).2
  | tick order now => exact owns.doTick wellFormed policy order now
  | expire order now =>
      exact ((tickRule policy now).expireLocked ⟨wellFormed, owns⟩ order).2
  | dispatchAndRun batch executor now =>
      exact (recordRule policy now).reports.doDispatchAndRun owns
        (allowsRun_always policy s batch executor now)
  | prepareDispatch batch worker boot now =>
      exact (recordRule policy now).reports.prepareDispatch owns batch worker
        boot
  | registerWorker worker boot cap => exact owns.of_tables rfl rfl rfl
  | rollEpoch => exact owns.of_tables rfl rfl rfl

end OwnsAttempts

/-- In every reachable state each request owns its attempts, and the current
one is in step with it. -/
theorem ownsAttempts_of_reachable {policy : BatchPolicy} {s : Impl}
    (reachable : Reachable policy s) : s.OwnsAttempts :=
  (reachable.invariant (fun s => WellFormed s ∧ s.OwnsAttempts)
    (fun _ op held => ⟨held.1.step op, held.2.step held.1 op⟩)
    ⟨WellFormed.fresh, OwnsAttempts.fresh⟩).2

end Impl

end BatchFabric
