import BatchFabric.Safety.ReportEffect

namespace BatchFabric

open OrderedMap

/-! What has ended: the terminal state of a request, and the state, outcome
and result of a terminal attempt. -/

def RequestRec.ending (r : RequestRec) : Option RequestState :=
  if isRequestTerminal r.state then some r.state else none

def AttemptRec.ending (a : AttemptRec) :
    Option (RequestState × CompletionStatus × ByteString) :=
  if isRequestTerminal a.state then some (a.state, a.outcome, a.result)
  else none

theorem RequestRec.ending_of_going {r : RequestRec}
    (going : isRequestTerminal r.state = false) : r.ending = none := by
  unfold ending
  rw [going]
  rfl

theorem RequestRec.ending_eq_some {r : RequestRec} {state : RequestState} :
    r.ending = some state ↔
      isRequestTerminal state = true ∧ r.state = state := by
  unfold ending
  constructor
  · intro ended
    split at ended
    · next terminal =>
        cases ended
        exact ⟨terminal, rfl⟩
    · cases ended
  · rintro ⟨terminal, rfl⟩
    exact if_pos terminal

theorem AttemptRec.ending_eq_some {a : AttemptRec} {state : RequestState}
    {outcome : CompletionStatus} {result : ByteString} :
    a.ending = some (state, outcome, result) ↔
      isRequestTerminal state = true ∧ a.state = state ∧
        a.outcome = outcome ∧ a.result = result := by
  unfold ending
  constructor
  · intro ended
    split at ended
    · next terminal =>
        cases ended
        exact ⟨terminal, rfl, rfl, rfl⟩
    · cases ended
  · rintro ⟨terminal, rfl, rfl, rfl⟩
    exact if_pos terminal

theorem AttemptRec.terminal_of_ending {a : AttemptRec}
    {ending : RequestState × CompletionStatus × ByteString}
    (ended : a.ending = some ending) : isRequestTerminal a.state = true := by
  obtain ⟨terminal, state, _⟩ := ending_eq_some.mp ended
  rw [state]
  exact terminal

theorem RequestRec.ending_advance {source target : RequestState}
    (before : isRequestTerminal source = false)
    (after : isRequestTerminal target = false) (r : RequestRec) :
    (r.advance source target).ending = r.ending := by
  unfold advance
  split
  · next same =>
      rw [ending_of_going (r := r) (by rw [same, before])]
      exact ending_of_going after
  · rfl

namespace Impl

def requestEnding (s : Impl) (id : RequestId) : Option RequestState :=
  ((s.requests[id]?).map RequestRec.ending).join

def attemptEnding (s : Impl) (aid : AttemptId) :
    Option (RequestState × CompletionStatus × ByteString) :=
  ((s.attempts[aid]?).map AttemptRec.ending).join

theorem requestEnding_of_found {s : Impl} {id : RequestId} {r : RequestRec}
    (found : s.requests[id]? = some r) : s.requestEnding id = r.ending := by
  unfold requestEnding
  rw [found]
  rfl

theorem attemptEnding_of_found {s : Impl} {aid : AttemptId} {a : AttemptRec}
    (found : s.attempts[aid]? = some a) : s.attemptEnding aid = a.ending := by
  unfold attemptEnding
  rw [found]
  rfl

theorem found_of_requestEnding {s : Impl} {id : RequestId}
    {state : RequestState} (ended : s.requestEnding id = some state) :
    ∃ r, s.requests[id]? = some r ∧ r.ending = some state := by
  unfold requestEnding at ended
  cases found : s.requests[id]? with
  | none =>
      rw [found] at ended
      cases ended
  | some r =>
      rw [found] at ended
      exact ⟨r, rfl, ended⟩

theorem found_of_attemptEnding {s : Impl} {aid : AttemptId}
    {ending : RequestState × CompletionStatus × ByteString}
    (ended : s.attemptEnding aid = some ending) :
    ∃ a, s.attempts[aid]? = some a ∧ a.ending = some ending := by
  unfold attemptEnding at ended
  cases found : s.attempts[aid]? with
  | none =>
      rw [found] at ended
      cases ended
  | some a =>
      rw [found] at ended
      exact ⟨a, rfl, ended⟩

/-- Attempts that have ended keep their state, outcome and result. -/
def AttemptsFrozen (s s' : Impl) : Prop :=
  ∀ aid ending, s.attemptEnding aid = some ending →
    s'.attemptEnding aid = some ending

/-- Requests that have ended keep their state. -/
def RequestsEnded (s s' : Impl) : Prop :=
  ∀ id state, s.requestEnding id = some state →
    s'.requestEnding id = some state

theorem AttemptsFrozen.trans {first second third : Impl}
    (earlier : AttemptsFrozen first second)
    (later : AttemptsFrozen second third) : AttemptsFrozen first third :=
  fun aid ending ended => later aid ending (earlier aid ending ended)

structure EndsKept (s s' : Impl) : Prop where
  requests : RequestsEnded s s'
  attempts : AttemptsFrozen s s'

namespace EndsKept

variable {s s' : Impl}

theorem refl (s : Impl) : EndsKept s s :=
  ⟨fun _ _ ended => ended, fun _ _ ended => ended⟩

theorem trans {first second third : Impl} (earlier : EndsKept first second)
    (later : EndsKept second third) : EndsKept first third where
  requests id state ended :=
    later.requests id state (earlier.requests id state ended)
  attempts := earlier.attempts.trans later.attempts

theorem of_tables (requests : s'.requests = s.requests)
    (attempts : s'.attempts = s.attempts) : EndsKept s s' where
  requests id state ended := by
    unfold requestEnding
    rw [requests]
    exact ended
  attempts aid ending ended := by
    unfold attemptEnding
    rw [attempts]
    exact ended

/-- Requests change, but neither start nor stop having ended. -/
theorem of_same
    (requests : ∀ id : RequestId, (s'.requests[id]?).map RequestRec.ending =
      (s.requests[id]?).map RequestRec.ending)
    (attempts : s'.attempts = s.attempts) : EndsKept s s' where
  requests id state ended := by
    unfold requestEnding at ended ⊢
    rw [requests id]
    exact ended
  attempts aid ending ended := by
    unfold attemptEnding
    rw [attempts]
    exact ended

/-- A request that has not ended changes, and its current attempt with it. -/
theorem of_going (owns : s.OwnsAttempts) {id : RequestId} {r : RequestRec}
    (found : s.requests[id]? = some r)
    (going : isRequestTerminal r.state = false)
    {change : RequestRec → RequestRec}
    (requests : s'.requests = s.requests.modify id change)
    (attempts : ∀ aid, r.currentAttempt ≠ aid →
      s'.attempts[aid]? = s.attempts[aid]?) : EndsKept s s' where
  requests other state ended := by
    obtain ⟨r', at_other, state'⟩ := found_of_requestEnding ended
    by_cases same : id = other
    · subst same
      rw [found] at at_other
      cases at_other
      rw [RequestRec.ending_of_going going] at state'
      cases state'
    · unfold requestEnding
      rw [requests, getElem?_modify, if_neg same]
      exact ended
  attempts aid ending ended := by
    unfold attemptEnding
    rw [attempts aid]
    · exact ended
    · rintro rfl
      obtain ⟨a, at_current, ended'⟩ := found_of_attemptEnding ended
      obtain ⟨_, a', current, agrees⟩ := owns.known id r found
      rw [at_current] at current
      cases current
      have terminal := AttemptRec.terminal_of_ending ended'
      rw [agrees.going going] at terminal
      cases terminal

theorem endCurrent (owns : s.OwnsAttempts) {id : RequestId} {r : RequestRec}
    (found : s.requests[id]? = some r)
    (going : isRequestTerminal r.state = false)
    {change : RequestRec → RequestRec} {finish : AttemptRec → AttemptRec}
    (requests : s'.requests = s.requests.modify id change)
    (attempts : s'.attempts = s.attempts.modify r.currentAttempt finish) :
    EndsKept s s' := by
  apply of_going owns found going requests
  intro aid other
  rw [attempts, getElem?_modify, if_neg other]

theorem doCancel (owns : s.OwnsAttempts) (policy : BatchPolicy)
    (id : RequestId) (now : TimePoint) :
    EndsKept s (s.doCancel policy id now).2 := by
  obtain unchanged | ⟨r, found, going, ⟨_, outside⟩ |
      ⟨_, b, _, ⟨_, forming⟩ | ⟨_, later⟩⟩⟩ := doCancel_cases policy s id now
  · rw [unchanged]
    exact refl s
  · rw [outside]
    exact endCurrent owns found going rfl rfl
  · rw [forming]
    exact endCurrent owns found going rfl rfl
  · rw [later]
    exact endCurrent owns found going rfl rfl

theorem expireWaiting (owns : s.OwnsAttempts) (now : TimePoint)
    (id : RequestId) : EndsKept s (expireWaiting now s id) := by
  obtain unchanged | ⟨r, found, ⟨_, removed⟩ | ⟨going, stats, ended⟩⟩ :=
    expireWaiting_cases now s id
  · rw [unchanged]
    exact refl s
  · rw [removed]
    exact of_tables rfl rfl
  · rw [ended]
    exact endCurrent owns found going rfl rfl

theorem place (owns : s.OwnsAttempts) {pick : RequestId} {r : RequestRec}
    (request : s.requests[pick]? = some r)
    (waiting : isWaitingState r.state = true) (bid : BatchId)
    (key : CompatibilityKey) : EndsKept s (s.place bid key pick) := by
  apply of_going owns request (not_terminal_of_isWaiting waiting)
  · rw [place_eq request]
  · intro aid _
    rw [place_eq request]

theorem sealForming (s : Impl) (bid : BatchId) (b : BatchRec)
    (reason : SealReason) (now : TimePoint) :
    EndsKept s (s.sealForming bid b reason now) :=
  of_same (map_getElem?_modifyAll (RequestRec.ending_advance rfl rfl)
    s.requests b.members) rfl

theorem markDispatched (s : Impl) (bid : BatchId) (b : BatchRec)
    (worker : WorkerId) (boot : WorkerBootId) (now : TimePoint) :
    EndsKept s (s.markDispatched bid b worker boot now) :=
  of_same (map_getElem?_modifyAll (RequestRec.ending_advance rfl rfl)
    s.requests b.members) rfl

theorem same_splitRequests (s : Impl) (bid child : BatchId) (b : BatchRec)
    (id : RequestId) :
    ((s.splitRequests bid child b)[id]?).map RequestRec.ending =
      (s.requests[id]?).map RequestRec.ending := by
  unfold splitRequests
  rw [map_getElem?_modifyAll (fun _ => by rfl),
    map_getElem?_modifyAll (fun _ => by rfl)]

theorem splitSealed (s : Impl) (bid : BatchId) (b : BatchRec) :
    EndsKept s (s.splitSealed bid b) :=
  of_same (same_splitRequests s bid _ b) rfl

theorem splitOpen (s : Impl) (bid : BatchId) (b : BatchRec) :
    EndsKept s (s.splitOpen bid b) :=
  of_same (same_splitRequests s bid _ b) rfl

theorem mergeInto (s : Impl) (aid bid : BatchId) (a b : BatchRec) :
    EndsKept s (s.mergeInto aid bid a b) :=
  of_same (map_getElem?_modifyAll (fun _ => by rfl) s.requests b.members) rfl

theorem createRequest (wellFormed : WellFormed s) (metadata : RequestMetadata)
    (now : TimePoint) (state attemptState : RequestState)
    (outcome : CompletionStatus) (inWaiting : Bool) :
    EndsKept s (s.createRequest metadata now state attemptState outcome
      inWaiting) where
  requests id state' ended := by
    obtain ⟨r, found, ended'⟩ := found_of_requestEnding ended
    have below := (wellFormed.request id r found).2
    unfold requestEnding Impl.createRequest
    dsimp only
    rw [getElem?_insert, if_neg]
    · exact ended
    · rintro rfl
      exact Nat.lt_irrefl _ below
  attempts aid ending ended := by
    obtain ⟨a, found, ended'⟩ := found_of_attemptEnding ended
    have below : aid.value < s.nextAttempt := wellFormed.attempt aid a found
    unfold attemptEnding Impl.createRequest
    dsimp only
    rw [getElem?_insert, if_neg]
    · exact ended
    · rintro rfl
      exact Nat.lt_irrefl _ below

theorem doSubmit (wellFormed : WellFormed s) (policy : BatchPolicy)
    (metadata : RequestMetadata) (now : TimePoint) :
    EndsKept s (s.doSubmit policy metadata now).2 := by
  obtain ⟨stats, refused⟩ | ⟨_, ⟨state, outcome, stats, _, recorded⟩ |
      ⟨fairness, stats, queued⟩⟩ := doSubmit_cases policy s metadata now
  · rw [refused]
    exact of_tables rfl rfl
  · rw [recorded]
    exact (createRequest wellFormed metadata now state state outcome
      false).trans (of_tables rfl rfl)
  · rw [queued]
    exact (createRequest wellFormed metadata now .eligible .eligible .success
      true).trans (of_tables rfl rfl)

/-- What a tick keeps since a state `origin`. -/
theorem tickRule (policy : BatchPolicy) (now : TimePoint) (origin : Impl) :
    TickRule policy now (fun s =>
      (WellFormed s ∧ s.OwnsAttempts) ∧ EndsKept origin s) where
  wellFormed _ held := held.1.1
  expire s id held :=
    ⟨(OwnsAttempts.tickRule policy now).expire s id held.1,
      held.2.trans (expireWaiting held.1.2 now id)⟩
  cancel s id held :=
    ⟨(OwnsAttempts.tickRule policy now).cancel s id held.1,
      held.2.trans (doCancel held.1.2 policy id now)⟩
  openForming s key held unregistered :=
    ⟨(OwnsAttempts.tickRule policy now).openForming s key held.1 unregistered,
      held.2.trans (of_tables rfl rfl)⟩
  place s bid key pick b r held placing :=
    ⟨(OwnsAttempts.tickRule policy now).place s bid key pick b r held.1
        placing,
      held.2.trans (place held.1.2 placing.request placing.waiting bid key)⟩
  retime s bid change held retimes :=
    ⟨(OwnsAttempts.tickRule policy now).retime s bid change held.1 retimes,
      held.2.trans (of_tables rfl rfl)⟩
  close s bid b reason held found forming :=
    ⟨(OwnsAttempts.tickRule policy now).close s bid b reason held.1 found
        forming,
      held.2.trans (sealForming s bid b reason now)⟩
  merge s aid bid a b held merging :=
    ⟨(OwnsAttempts.tickRule policy now).merge s aid bid a b held.1 merging,
      held.2.trans (mergeInto s aid bid a b)⟩

theorem doTick (wellFormed : WellFormed s) (owns : s.OwnsAttempts)
    (policy : BatchPolicy) (order : List CompatibilityKey) (now : TimePoint) :
    EndsKept s (s.doTick policy order now) :=
  ((tickRule policy now s).doTick
    (fun current bid b held found _ _ =>
      ⟨⟨held.1.1.splitSealed found, held.1.2.splitSealed bid b⟩,
        held.2.trans (splitSealed current bid b)⟩)
    ⟨⟨wellFormed, owns⟩, refl s⟩ order).2

/-- The operations that neither report outcomes nor retry. -/
theorem step (wellFormed : WellFormed s) (owns : s.OwnsAttempts)
    (policy : BatchPolicy) (op : Op) (plain : match op with
      | .complete _ _ | .retry _ _ _ | .dispatchAndRun _ _ _ => False
      | _ => True) : EndsKept s (step policy s op) := by
  cases op with
  | submit metadata now => exact doSubmit wellFormed policy metadata now
  | cancel request now => exact doCancel owns policy request now
  | complete completion now => exact plain.elim
  | sealBatch batch reason now =>
      show EndsKept s (s.sealBatch batch reason now).2
      obtain unchanged | ⟨b, _, _, closed⟩ :=
        sealBatch_cases s batch reason now
      · rw [unchanged]
        exact refl s
      · rw [closed]
        exact sealForming s batch b reason now
  | split batch =>
      show EndsKept s (s.doSplit batch).2
      obtain unchanged | ⟨b, _, _, ⟨_, taken⟩ | ⟨_, taken⟩⟩ :=
        doSplit_cases s batch
      · rw [unchanged]
        exact refl s
      · rw [taken]
        exact splitSealed s batch b
      · rw [taken]
        exact splitOpen s batch b
  | merge a b =>
      show EndsKept s (s.doMerge policy a b).2
      obtain unchanged | ⟨first, second, _, _, _, merged⟩ :=
        doMerge_cases policy s a b
      · rw [unchanged]
        exact refl s
      · rw [merged]
        exact mergeInto s a b first second
  | retry request order now => exact plain.elim
  | tick order now => exact doTick wellFormed owns policy order now
  | expire order now =>
      exact ((tickRule policy now s).expireLocked
        ⟨⟨wellFormed, owns⟩, refl s⟩ order).2
  | dispatchAndRun batch executor now => exact plain.elim
  | prepareDispatch batch worker boot now =>
      show EndsKept s (s.prepareDispatch batch worker boot now).2
      obtain ⟨err, refused⟩ | ⟨b, _, _, _, dispatched⟩ :=
        prepareDispatch_cases s batch worker boot now
      · rw [refused]
        exact refl s
      · rw [dispatched]
        exact markDispatched s batch b worker boot now
  | registerWorker worker boot cap => exact of_tables rfl rfl
  | rollEpoch => exact of_tables rfl rfl

end EndsKept

end Impl

end BatchFabric
