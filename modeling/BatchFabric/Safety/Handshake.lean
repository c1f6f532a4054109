import BatchFabric.Safety.ReportFrame

/-! From a dispatch to the report of it. -/

namespace BatchFabric

open OrderedMap

/-- The report a worker makes of an execution it has carried out: one success
for every member it was sent. -/
def successReport (exec : BatchExecution) (worker : WorkerId)
    (boot : WorkerBootId) (output : MemberWork → ByteString) :
    BatchCompletion where
  worker := worker
  boot := boot
  epoch := exec.epoch
  generation := exec.generation
  batch := exec.batch
  members := exec.members.map fun work => {
    request := work.request
    attempt := work.attempt
    status := .success
    result := output work }

namespace Impl

theorem state_finishBatch {s : Impl} {bid : BatchId} {b : BatchRec}
    (found : s.batches[bid]? = some b) (worker : WorkerId) (now : TimePoint) :
    ((s.finishBatch bid worker now).batches[bid]?).map (·.state) =
      some (if s.allTerminal b then .completed else .partiallyCompleted) := by
  unfold finishBatch
  simp only [found]
  cases ended : s.allTerminal b with
  | true => simp [getElem?_modify_self found]
  | false => simp [getElem?_modify_self found]

/-! Reports of success. -/

/-- Besides requests it leaves as they are, a success completes its request. -/
def CompletesOnly (s s' : Impl) : Prop :=
  ∀ id : RequestId, s'.requests[id]? = s.requests[id]? ∨
    ∃ r', s'.requests[id]? = some r' ∧ r'.state = .completed

theorem CompletesOnly.applyMemberOutcome {s s' : Impl}
    (completes : CompletesOnly s s') {mc : MemberCompletion}
    (success : mc.status = .success) (policy : BatchPolicy)
    (now : TimePoint) :
    CompletesOnly s (s'.applyMemberOutcome policy now mc) := by
  obtain ⟨stats, counted⟩ | ⟨r, a, state, fairness, stats, found, _, acts,
      ended | ⟨failure, _⟩⟩ := applyMemberOutcome_cases policy now s' mc
  · rw [counted]
    exact completes
  · rw [success] at acts
    cases acts
    rw [ended]
    intro id
    by_cases same : mc.request = id
    · subst same
      exact .inr ⟨_, getElem?_modify_self found _,
        state_conclude r mc .completed⟩
    · show (s'.requests.modify mc.request _)[id]? = _ ∨
        ∃ r', (s'.requests.modify mc.request _)[id]? = _ ∧ _
      rw [getElem?_modify, if_neg same]
      exact completes id
  · rw [success] at failure
    cases failure

theorem CompletesOnly.completeMembers {s : Impl}
    {members : List MemberCompletion}
    (successes : ∀ mc ∈ members, mc.status = .success)
    (policy : BatchPolicy) (now : TimePoint) :
    CompletesOnly s
      (Transition.run (completeMember policy now) s members) := by
  apply Transition.run_invariant (CompletesOnly s)
  · intro current mc member completes
    obtain ⟨stale, counted⟩ | ⟨_, _, _, _, _, _, applied⟩ :=
      completeMember_cases policy now current mc
    · rw [counted]
      exact completes
    · rw [applied]
      exact completes.applyMemberOutcome (successes mc member) policy now
  · exact fun _ => .inl rfl

/-- A success that is taken up completes its request. -/
theorem completed_of_takenUp {s : Impl} (wellFormed : WellFormed s)
    (owns : s.OwnsAttempts) {members : List MemberCompletion}
    (successes : ∀ mc ∈ members, mc.status = .success)
    {mc : MemberCompletion} (member : mc ∈ members)
    (taken : s.takesUp mc = true) (policy : BatchPolicy) (now : TimePoint) :
    ((Transition.run (completeMember policy now) s members).requests[
      mc.request]?).map (·.state) = some .completed := by
  obtain ⟨r, found, unsettled⟩ := unsettled_of_takesUp owns taken
  have moved := moved_completeMembers wellFormed owns member taken policy now
  rcases CompletesOnly.completeMembers (s := s) successes policy now
      mc.request with same | ⟨r', found', completed⟩
  · exact absurd same (moved.changed owns found unsettled)
  · rw [found', Option.map_some, completed]

/-- A request that has not ended takes up a success of its current attempt. -/
theorem takesUp_current {s : Impl} (owns : s.OwnsAttempts) {id : RequestId}
    {r : RequestRec} (found : s.requests[id]? = some r)
    (going : isRequestTerminal r.state = false) (result : ByteString) :
    s.takesUp { request := id, attempt := r.currentAttempt, result := result }
      = true := by
  obtain ⟨_, a, current, agrees⟩ := owns.known id r found
  apply takesUp_of_found (s := s) found rfl current _ rfl
  cases settled : isSettledAttempt a.state with
  | false => rfl
  | true =>
      have goes := agrees.going going
      rw [terminal_of_settled settled] at goes
      cases goes

/-! The report of a dispatch. -/

theorem membersOf_of_found {s : Impl} {bid : BatchId} {b : BatchRec}
    (found : s.batches[bid]? = some b) : s.membersOf bid = b.members := by
  unfold membersOf
  rw [found]

/-- The report was accepted, every member that had not ended is completed, and
so is the batch. -/
structure Fulfils (s : Impl) (bid : BatchId)
    (reported : Except Error Unit × Impl) : Prop where
  accepted : reported.1 = .ok ()
  members : ∀ m ∈ s.membersOf bid, ∀ r, s.requests[m]? = some r →
    isRequestTerminal r.state = false →
      (reported.2.requests[m]?).map (·.state) = some .completed
  batch : (reported.2.batches[bid]?).map (·.state) = some .completed

/-- An accepted report with a success of every member's current attempt ends
the batch. -/
theorem fulfils_of_accepts {s : Impl} (wellFormed : WellFormed s)
    (owns : s.OwnsAttempts) {comp : BatchCompletion} {b : BatchRec}
    (accepted : s.Accepts comp b)
    (successes : ∀ mc ∈ comp.members, mc.status = .success)
    (reported : ∀ m ∈ b.members, ∀ r, s.requests[m]? = some r →
      isRequestTerminal r.state = false → ∃ result,
        { request := m, attempt := r.currentAttempt, result := result } ∈
          comp.members)
    (policy : BatchPolicy) (now : TimePoint) :
    Fulfils s comp.batch (s.doComplete policy comp now) := by
  have completed : ∀ m ∈ b.members, ∀ r, s.requests[m]? = some r →
      isRequestTerminal r.state = false →
        ((Transition.run (completeMember policy now) s
          comp.members).requests[m]?).map (·.state) = some .completed := by
    intro m member r found going
    obtain ⟨result, listed⟩ := reported m member r found going
    exact completed_of_takenUp wellFormed owns successes listed
      (takesUp_current owns found going result) policy now
  obtain ⟨b', found', listing⟩ := (OutcomeFrame.completeMembers policy now s
    comp.members).found_after accepted.batch
  have ended : (Transition.run (completeMember policy now) s
      comp.members).allTerminal b' = true := by
    unfold allTerminal
    rw [List.all_eq_true, ← BatchRec.members_of_listing listing]
    intro m member
    have keyed := wellFormed.member comp.batch b accepted.batch m member
    cases found : s.requests[m]? with
    | none => simp [keyOf?, found] at keyed
    | some r =>
        rcases CompletesOnly.completeMembers (s := s) successes policy now
            m with same | ⟨r', found', state⟩
        · rw [same, found]
          cases terminal : isRequestTerminal r.state with
          | true => exact terminal
          | false =>
              have state := completed m member r found terminal
              rw [same, found] at state
              have completed : r.state = .completed := Option.some.inj state
              rw [completed] at terminal
              cases terminal
        · rw [found']
          dsimp only
          rw [state]
          rfl
  rw [doComplete_of_accepts accepted policy now]
  constructor
  · rfl
  · intro m member r found going
    rw [membersOf_of_found accepted.batch] at member
    rw [(tables_finishBatch _ _ _ _).1]
    exact completed m member r found going
  · rw [state_finishBatch found', if_pos ended]

theorem wellFormed_markDispatched {s : Impl} (wellFormed : WellFormed s)
    {bid : BatchId} {b : BatchRec} (found : s.batches[bid]? = some b)
    (isSealed : b.state = .sealed) (worker : WorkerId) (boot : WorkerBootId)
    (now : TimePoint) :
    WellFormed (s.markDispatched bid b worker boot now) :=
  wellFormed.inPlace (InPlace.markDispatched found isSealed worker boot now)

theorem ownsAttempts_markDispatched {s : Impl} (owns : s.OwnsAttempts)
    {bid : BatchId} {b : BatchRec} (found : s.batches[bid]? = some b)
    (isSealed : b.state = .sealed) (worker : WorkerId) (boot : WorkerBootId)
    (now : TimePoint) :
    (s.markDispatched bid b worker boot now).OwnsAttempts :=
  (OwnsAttempts.recordRule {} now).dispatch s bid b worker boot owns found
    isSealed

section Dispatched

variable {s : Impl} {bid : BatchId} {b : BatchRec} (worker : WorkerId)
  (boot : WorkerBootId) (now : TimePoint) (output : MemberWork → ByteString)

/-- The report of a batch that has just been dispatched. -/
def dispatchReport (s : Impl) (bid : BatchId) (b : BatchRec) : BatchCompletion :=
  successReport ((s.markDispatched bid b worker boot now).executionOf b worker)
    worker boot output

/-- It is accepted in the epoch the batch was formed in. -/
theorem accepts_dispatchReport (found : s.batches[bid]? = some b)
    (named : b.id = bid) (current : s.workerCurrent worker boot = true)
    (epoch : b.epoch = s.epoch) :
    (s.markDispatched bid b worker boot now).Accepts
      (dispatchReport worker boot now output s bid b)
      { b with
        state := .dispatched
        dispatchedNs := now
        worker := worker
        boot := boot } := by
  subst named
  exact ⟨epoch, current, getElem?_modify_self found _, rfl, .inl rfl⟩

/-- In any other epoch it is refused. -/
theorem refused_dispatchReport (policy : BatchPolicy) (later : TimePoint)
    (rolled : b.epoch ≠ s.epoch) :
    ((s.markDispatched bid b worker boot now).doComplete policy
      (dispatchReport worker boot now output s bid b) later).1 ≠ .ok () := by
  have stale : (dispatchReport worker boot now output s bid b).epoch ≠
      (s.markDispatched bid b worker boot now).epoch :=
    rolled
  unfold doComplete
  rw [if_pos stale]
  exact nofun

theorem reported_dispatchReport (m : RequestId) (member : m ∈ b.members)
    (r : RequestRec)
    (found : (s.markDispatched bid b worker boot now).requests[m]? = some r) :
    ∃ result,
      { request := m, attempt := r.currentAttempt, result := result } ∈
        (dispatchReport worker boot now output s bid b).members := by
  have sent : (s.markDispatched bid b worker boot now).memberWork m = some {
      request := m
      attempt := r.currentAttempt
      work := r.metadata.work.value
      inputTokens := r.metadata.tokens.input
      outputTokens := r.metadata.tokens.output
      payload := r.metadata.payload } := by
    unfold memberWork
    rw [found]
    rfl
  exact ⟨_, List.mem_map.mpr
    ⟨_, List.mem_filterMap.mpr ⟨m, member, sent⟩, rfl⟩⟩

end Dispatched

/-- What `prepareDispatch` hands out is reported back with effect, exactly when
the batch was formed in the current epoch. -/
theorem handshake_iff (policy : BatchPolicy) (ops : List Op) (bid : BatchId)
    (worker : WorkerId) (boot : WorkerBootId) (now later : TimePoint)
    (exec : BatchExecution) (output : MemberWork → ByteString)
    (sent : ((run policy ops).prepareDispatch bid worker boot now).1 =
      .ok exec) :
    let dispatched := ((run policy ops).prepareDispatch bid worker boot now).2
    Fulfils dispatched bid (dispatched.doComplete policy
        (successReport exec worker boot output) later) ↔
      ((run policy ops).batches[bid]?).map (·.epoch) =
        some (run policy ops).epoch := by
  have wellFormed := wellFormed_of_reachable (reachable_run policy ops)
  have owns := ownsAttempts_of_reachable (reachable_run policy ops)
  generalize run policy ops = s at sent wellFormed owns ⊢
  obtain ⟨err, refused⟩ | ⟨b, found, isSealed, current, handed⟩ :=
    prepareDispatch_cases s bid worker boot now
  · rw [refused] at sent
    cases sent
  · rw [handed] at sent ⊢
    cases sent
    rw [found, Option.map_some, Option.some.injEq]
    constructor
    · intro fulfilled
      by_contra rolled
      exact refused_dispatchReport worker boot now output policy later rolled
        fulfilled.accepted
    · intro epoch
      have named : b.id = bid := (wellFormed.batch bid b found).1
      have fulfilled := fulfils_of_accepts
        (wellFormed_markDispatched wellFormed found isSealed worker boot now)
        (ownsAttempts_markDispatched owns found isSealed worker boot now)
        (accepts_dispatchReport worker boot now output found named current
          epoch)
        (by
          intro mc member
          obtain ⟨work, _, rfl⟩ := List.mem_map.mp member
          rfl)
        (fun m member r found' _ =>
          reported_dispatchReport worker boot now output m member r found')
        policy later
      have reported :
          (dispatchReport worker boot now output s bid b).batch = bid := named
      rw [reported] at fulfilled
      exact fulfilled

/-- A batch formed after an epoch roll, dispatched and reported. -/
theorem handshake_of_current_epoch :
    let dispatched := ((run {} [.submit minimalRequest 0, .rollEpoch,
      .tick [] 1]).prepareDispatch { value := 1 } .null .null 2).2
    let exec : BatchExecution := {
      batch := { value := 1 }, generation := { value := 1 }
      epoch := { value := 2 }, descriptor := minimalRequest.descriptor
      members := [
        { request := { value := 1 }, attempt := { value := 1 }, work := 1 }] }
    Fulfils dispatched { value := 1 } (dispatched.doComplete {}
      (successReport exec .null .null fun _ => {}) 3) :=
  (handshake_iff {} _ _ _ _ _ _ _ _ (by
    rw [run_eq_runKnown .minimal]
    decide +kernel)).mpr (by
    rw [run_eq_runKnown .minimal]
    decide +kernel)

/-- A batch is formed before the epoch is rolled and dispatched after it. Its
report is refused. -/
theorem not_handshake_of_rolled_epoch :
    ¬ ∀ (policy : BatchPolicy) (ops : List Op) (bid : BatchId)
        (worker : WorkerId) (boot : WorkerBootId) (now later : TimePoint)
        (exec : BatchExecution) (output : MemberWork → ByteString),
      ((run policy ops).prepareDispatch bid worker boot now).1 = .ok exec →
        let dispatched :=
          ((run policy ops).prepareDispatch bid worker boot now).2
        Fulfils dispatched bid (dispatched.doComplete policy
          (successReport exec worker boot output) later) := by
  intro handshakes
  let ops : List Op := [.submit minimalRequest 0, .tick [] 1, .rollEpoch]
  let exec : BatchExecution := {
    batch := { value := 1 }, generation := { value := 1 }
    epoch := { value := 1 }, descriptor := minimalRequest.descriptor
    members := [
      { request := { value := 1 }, attempt := { value := 1 }, work := 1 }] }
  have sent : ((run {} ops).prepareDispatch { value := 1 } .null .null 2).1 =
      .ok exec := by
    rw [run_eq_runKnown .minimal]
    decide +kernel
  have accepted := (handshakes {} ops { value := 1 } .null .null 2 3 exec
    (fun _ => {}) sent).accepted
  revert accepted
  rw [run_eq_runKnown .minimal]
  decide +kernel

end Impl

end BatchFabric
