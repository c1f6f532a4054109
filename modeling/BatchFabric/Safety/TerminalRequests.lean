import BatchFabric.Safety.Endings
import BatchFabric.Scheduler.KnownKeys

namespace BatchFabric.Impl

open OrderedMap

/-! Requests that have ended, against every operation. -/

/-- Requests that have ended keep their state, but one that failed may be
eligible again under an attempt that is new. -/
def EndingsRespected (s s' : Impl) : Prop :=
  ∀ id state, s.requestEnding id = some state →
    s'.requestEnding id = some state ∨
      (state = .failed ∧ ∃ r', s'.requests[id]? = some r' ∧
        r'.state = .eligible ∧ s.nextAttempt ≤ r'.currentAttempt.value)

theorem RequestsEnded.respected {s s' : Impl} (ended : RequestsEnded s s') :
    EndingsRespected s s' :=
  fun id state before => .inl (ended id state before)

theorem endingsRespected_congr {s s₁ s' s₁' : Impl}
    (endings : s₁.requestEnding = s.requestEnding)
    (next : s₁.nextAttempt = s.nextAttempt)
    (requests : s₁'.requests = s'.requests) :
    EndingsRespected s₁ s₁' ↔ EndingsRespected s s' := by
  unfold EndingsRespected
  have after : s₁'.requestEnding = s'.requestEnding := by
    funext id
    unfold requestEnding
    rw [requests]
  rw [endings, next, after, requests]

theorem rejected_of_unsettled {state : RequestState}
    (ended : isRequestTerminal state = true)
    (unsettled : isSettledAttempt state = false) : state = .rejected := by
  cases state with
  | rejected => rfl
  | completed | cancelled | expired | failed => cases unsettled
  | _ => cases ended

/-! Reports. -/

/-- No record takes up a rejected request. -/
def recordsSpare (s : Impl) (members : List MemberCompletion) : Bool :=
  members.all fun mc =>
    !(s.takesUp mc && s.requestEnding mc.request == some .rejected)

theorem recordsSpare_iff {s : Impl} {members : List MemberCompletion} :
    s.recordsSpare members = true ↔
      ∀ mc ∈ members, s.takesUp mc = true →
        s.requestEnding mc.request ≠ some .rejected := by
  unfold recordsSpare
  rw [List.all_eq_true]
  constructor
  · intro all mc member taken rejected
    have spared := all mc member
    rw [taken, rejected] at spared
    cases spared
  · intro spared mc member
    cases taken : s.takesUp mc with
    | false => rfl
    | true => simpa using spared mc member taken

/-- A record taken up that is spared meets a request that has not ended. -/
theorem not_ended_of_spared {s : Impl} (owns : s.OwnsAttempts)
    {mc : MemberCompletion} (taken : s.takesUp mc = true)
    (spared : s.requestEnding mc.request ≠ some .rejected) :
    s.requestEnding mc.request = none := by
  obtain ⟨r, found, unsettled⟩ := unsettled_of_takesUp owns taken
  rw [requestEnding_of_found found] at spared ⊢
  apply RequestRec.ending_of_going
  cases ended : isRequestTerminal r.state with
  | false => rfl
  | true =>
      have rejected := rejected_of_unsettled ended unsettled
      exact absurd (RequestRec.ending_eq_some.mpr ⟨rfl, rejected⟩) spared

theorem requestEnding_of_untouched {s s' : Impl} {id : RequestId}
    (untouched : Untouched s s' id) :
    s'.requestEnding id = s.requestEnding id := by
  unfold requestEnding
  rw [untouched.request]

theorem endingsRespected_completeMembers_iff {s : Impl}
    (wellFormed : WellFormed s) (owns : s.OwnsAttempts)
    (policy : BatchPolicy) (now : TimePoint)
    (members : List MemberCompletion) :
    EndingsRespected s
        (Transition.run (completeMember policy now) s members) ↔
      s.recordsSpare members = true := by
  rw [recordsSpare_iff]
  constructor
  · intro respected mc member taken rejected
    obtain ⟨r', found', state⟩ :=
      moved_completeMembers wellFormed owns member taken policy now
    rcases respected mc.request .rejected rejected with same | ⟨failed, _⟩
    · rw [requestEnding_of_found found'] at same
      have is := (RequestRec.ending_eq_some.mp same).2
      rcases state with settled | ⟨eligible, _⟩
      · rw [is] at settled
        cases settled
      · rw [is] at eligible
        cases eligible
    · cases failed
  · intro spared
    apply RequestsEnded.respected
    intro id state ended
    have untouched : Untouched s
        (Transition.run (completeMember policy now) s members) id := by
      apply untouched_completeMembers wellFormed owns
      rintro mc member rfl
      cases taken : s.takesUp mc with
      | false => rfl
      | true =>
          rw [not_ended_of_spared owns taken (spared mc member taken)]
            at ended
          cases ended
    rw [requestEnding_of_untouched untouched]
    exact ended

theorem exists_of_accepts {s : Impl} {comp : BatchCompletion}
    (accepted : s.accepts comp = true) : ∃ b, s.Accepts comp b := by
  unfold accepts at accepted
  cases found : s.batches[comp.batch]? with
  | none => simp [found] at accepted
  | some b =>
      have checks : (comp.epoch = s.epoch ∧
          s.workerCurrent comp.worker comp.boot = true) ∧
          b.generation = comp.generation ∧
            (b.state = .dispatched ∨ b.state = .running) := by
        simpa [found] using accepted
      exact ⟨b, checks.1.1, checks.1.2, found, checks.2.1, checks.2.2⟩

theorem doComplete_of_not_accepts {s : Impl} {comp : BatchCompletion}
    (refused : s.accepts comp = false) (policy : BatchPolicy)
    (now : TimePoint) :
    ∃ stats, (s.doComplete policy comp now).2 = { s with stats := stats } := by
  obtain ⟨err, stale, counted⟩ | ⟨b, accepted, _⟩ :=
    doComplete_cases policy s comp now
  · exact ⟨_, by rw [counted]⟩
  · rw [accepted.accepts] at refused
    cases refused

theorem endingsRespected_doComplete_iff {s : Impl} (wellFormed : WellFormed s)
    (owns : s.OwnsAttempts) (policy : BatchPolicy) (comp : BatchCompletion)
    (now : TimePoint) :
    EndingsRespected s (s.doComplete policy comp now).2 ↔
      (!s.accepts comp || s.recordsSpare comp.members) = true := by
  cases accepted : s.accepts comp with
  | false =>
      obtain ⟨stats, counted⟩ :=
        doComplete_of_not_accepts accepted policy now
      rw [counted]
      have kept : EndsKept s { s with stats := stats } := .of_tables rfl rfl
      exact ⟨fun _ => rfl, fun _ => kept.requests.respected⟩
  | true =>
      obtain ⟨b, accepts⟩ := exists_of_accepts accepted
      rw [doComplete_of_accepts accepts policy now, Bool.not_true,
        Bool.false_or]
      rw [← endingsRespected_completeMembers_iff wellFormed owns policy now
        comp.members]
      exact endingsRespected_congr rfl rfl
        (tables_finishBatch _ comp.batch comp.worker now).1

/-! Failures of the executor. -/

/-- The request has failed, or waits under a new attempt. -/
def FailedSince (s s' : Impl) (id : RequestId) : Prop :=
  ∃ r', s'.requests[id]? = some r' ∧
    (r'.state = .failed ∨
      (r'.state = .eligible ∧ s.nextAttempt ≤ r'.currentAttempt.value))

/-- The state `s'` is one that failures of `members` have led to from `s`. -/
structure Failing (s : Impl) (members : List RequestId) (s' : Impl) :
    Prop where
  reporting : Reporting s s'
  each : ∀ id, Untouched s s' id ∨ (id ∈ members ∧ FailedSince s s' id)

section Failing

variable {s s' : Impl} {members : List RequestId}

theorem TakenUp.failedSince {next : Impl} {mc : MemberCompletion}
    {now : TimePoint} {r : RequestRec} {a : AttemptRec}
    (taken : TakenUp s' mc now r a .failed next)
    (allocated : s.nextAttempt ≤ s'.nextAttempt) :
    FailedSince s next mc.request := by
  obtain ⟨r', found, ⟨failed, _⟩ | ⟨eligible, current⟩⟩ := taken.request
  · exact ⟨r', found, .inl failed⟩
  · refine ⟨r', found, .inr ⟨eligible, ?_⟩⟩
    rw [current]
    exact allocated

theorem failMember_of_missing {m : RequestId} (missing : s.requests[m]? = none)
    (policy : BatchPolicy) (now : TimePoint) (err : Error) :
    s.failMember policy now err m = s := by
  unfold Impl.failMember
  rw [missing]

theorem FailedSince.failMember {id : RequestId} (failed : FailedSince s s' id)
    (reporting : Reporting s s') (policy : BatchPolicy) (now : TimePoint)
    (err : Error) (m : RequestId) :
    FailedSince s (s'.failMember policy now err m) id := by
  cases found : s'.requests[m]? with
  | none =>
      rw [failMember_of_missing found]
      exact failed
  | some r =>
      obtain ⟨mc, a, rfl, _, taken⟩ := failMember_of_found
        reporting.wellFormed reporting.owns found policy now err
      by_cases same : mc.request = id
      · subst same
        exact taken.failedSince reporting.allocated
      · obtain ⟨r', found', state⟩ := failed
        exact ⟨r', (taken.others id same).trans found', state⟩

theorem Failing.failMember (failing : Failing s members s')
    {m : RequestId} (member : m ∈ members) (policy : BatchPolicy)
    (now : TimePoint) (err : Error) :
    Failing s members (s'.failMember policy now err m) where
  reporting := failing.reporting.failMember policy now err m
  each id := by
    rcases failing.each id with untouched | ⟨listed, failed⟩
    · cases found : s'.requests[m]? with
      | none =>
          rw [failMember_of_missing found]
          exact .inl untouched
      | some r =>
          obtain ⟨mc, a, rfl, _, taken⟩ := failMember_of_found
            failing.reporting.wellFormed failing.reporting.owns found policy
            now err
          by_cases same : mc.request = id
          · subst same
            exact .inr ⟨member,
              taken.failedSince failing.reporting.allocated⟩
          · exact .inl (untouched.trans
              (taken.untouched failing.reporting.owns same))
    · exact .inr ⟨listed,
        failed.failMember failing.reporting policy now err m⟩

theorem failing_failMembers (wellFormed : WellFormed s)
    (owns : s.OwnsAttempts) (policy : BatchPolicy) (now : TimePoint)
    (err : Error) (members : List RequestId) :
    Failing s members
      (Transition.run (Impl.failMember policy now err) s members) := by
  apply Transition.run_invariant (Failing s members)
  · exact fun current m member failing =>
      failing.failMember member policy now err
  · exact ⟨.refl wellFormed owns, fun id => .inl (.refl s id)⟩

theorem failedSince_failMembers (wellFormed : WellFormed s)
    (owns : s.OwnsAttempts) (policy : BatchPolicy) (now : TimePoint)
    (err : Error) {m : RequestId} (member : m ∈ members) {r : RequestRec}
    (found : s.requests[m]? = some r) :
    FailedSince s (Transition.run (Impl.failMember policy now err) s members)
      m := by
  apply Transition.run_establishes (Failing s members)
    (fun current => FailedSince s current m) _ _ _ member
    ⟨.refl wellFormed owns, fun id => .inl (.refl s id)⟩
  · exact fun current next listed failing =>
      failing.failMember listed policy now err
  · exact fun current next failing failed =>
      failed.failMember failing.reporting policy now err next
  · intro current failing
    rcases failing.each m with untouched | ⟨_, failed⟩
    · have present : current.requests[m]? = some r := by
        rw [untouched.request, found]
      obtain ⟨mc, a, rfl, _, taken⟩ := failMember_of_found
        failing.reporting.wellFormed failing.reporting.owns present policy
        now err
      exact taken.failedSince failing.reporting.allocated
    · exact failed.failMember failing.reporting policy now err m

end Failing

/-- The request has not ended, or has failed. -/
def mayFail (s : Impl) (id : RequestId) : Bool :=
  match s.requestEnding id with
  | none | some .failed => true
  | some _ => false

theorem mayFail_iff {s : Impl} {id : RequestId} :
    s.mayFail id = true ↔
      ∀ state, s.requestEnding id = some state → state = .failed := by
  unfold mayFail
  cases s.requestEnding id with
  | none => exact ⟨fun _ _ ended => (nomatch ended), fun _ => rfl⟩
  | some state =>
      constructor
      · intro may other same
        cases same
        cases state <;> first | rfl | cases may
      · intro only
        rw [only state rfl]

theorem endingsRespected_failMembers_iff {s : Impl} (wellFormed : WellFormed s)
    (owns : s.OwnsAttempts) (policy : BatchPolicy) (now : TimePoint)
    (err : Error) (members : List RequestId) :
    EndingsRespected s
        (Transition.run (failMember policy now err) s members) ↔
      members.all s.mayFail = true := by
  rw [List.all_eq_true]
  constructor
  · intro respected m member
    rw [mayFail_iff]
    intro state ended
    rcases respected m state ended with same | ⟨failed, _⟩
    · obtain ⟨r, found, _⟩ := found_of_requestEnding ended
      obtain ⟨r', found', now'⟩ :=
        failedSince_failMembers wellFormed owns policy now err member found
      rw [requestEnding_of_found found'] at same
      obtain ⟨terminal, is⟩ := RequestRec.ending_eq_some.mp same
      rcases now' with failed | ⟨eligible, _⟩
      · exact is.symm.trans failed
      · rw [← is, eligible] at terminal
        cases terminal
    · exact failed
  · intro may id state ended
    have failing := failing_failMembers wellFormed owns policy now err members
    rcases failing.each id with untouched | ⟨member, r', found', state'⟩
    · rw [requestEnding_of_untouched untouched]
      exact .inl ended
    · have failed := mayFail_iff.mp (may id member) state ended
      subst failed
      rcases state' with failed | eligible
      · rw [requestEnding_of_found found']
        exact .inl (RequestRec.ending_eq_some.mpr ⟨rfl, failed⟩)
      · exact .inr ⟨rfl, r', found', eligible⟩

/-! Runs in process. -/

/-- The report of a run in process is accepted. -/
def acceptsRun (s : Impl) (b : BatchRec) (worker : WorkerId) : Bool :=
  b.epoch == s.epoch && s.workerCurrent worker (s.bootOf worker)

/-- A run in process spares what has ended: `failing` restricts the members
should the executor fail, else no record takes up a rejected request. -/
def runSpares (s : Impl) (bid : BatchId) (executor : Executor)
    (now : TimePoint) (failing : RequestId → Bool) : Bool :=
  match s.batches[bid]? with
  | none => true
  | some b =>
      let worker := executor.capability.worker
      b.state != .sealed ||
        match executor.execute (s.runExecution bid b worker now) with
        | .error _ => b.members.all failing
        | .ok results =>
            !s.acceptsRun b worker ||
              s.recordsSpare
                (resultsCompletion b worker (s.bootOf worker) results).members

section StartedRun

variable {s : Impl} {bid : BatchId} {b : BatchRec} {worker : WorkerId}
  {now : TimePoint}

theorem requestEnding_startedRun :
    (s.startedRun bid b worker now).requestEnding = s.requestEnding := by
  funext id
  unfold requestEnding startedRun markRunning markDispatched
  dsimp only
  rw [map_getElem?_modifyAll (RequestRec.ending_advance rfl rfl),
    map_getElem?_modifyAll (RequestRec.ending_advance rfl rfl)]

theorem mayFail_startedRun :
    (s.startedRun bid b worker now).mayFail = s.mayFail := by
  funext id
  unfold mayFail
  rw [requestEnding_startedRun]

theorem takesUp_congr {s s' : Impl} {mc : MemberCompletion}
    (current : (s'.requests[mc.request]?).map (·.currentAttempt) =
      (s.requests[mc.request]?).map (·.currentAttempt))
    (attempts : s'.attempts = s.attempts) : s'.takesUp mc = s.takesUp mc := by
  unfold takesUp
  rw [attempts]
  cases after : s'.requests[mc.request]? with
  | none =>
      rw [after] at current
      rw [Option.map_eq_none_iff.mp current.symm]
  | some r' =>
      obtain ⟨r, found, same⟩ := exists_of_map_eq current after
      rw [found]
      dsimp only at same ⊢
      rw [same]

theorem currentAttempt_advance (source target : RequestState)
    (r : RequestRec) :
    (r.advance source target).currentAttempt = r.currentAttempt := by
  unfold RequestRec.advance
  split <;> rfl

theorem currentAttempt_startedRun (id : RequestId) :
    ((s.startedRun bid b worker now).requests[id]?).map (·.currentAttempt) =
      (s.requests[id]?).map (·.currentAttempt) := by
  unfold startedRun markRunning markDispatched
  dsimp only
  rw [map_getElem?_modifyAll (currentAttempt_advance _ _),
    map_getElem?_modifyAll (currentAttempt_advance _ _)]

theorem takesUp_startedRun (mc : MemberCompletion) :
    (s.startedRun bid b worker now).takesUp mc = s.takesUp mc :=
  takesUp_congr (currentAttempt_startedRun mc.request) rfl

theorem recordsSpare_startedRun (members : List MemberCompletion) :
    (s.startedRun bid b worker now).recordsSpare members =
      s.recordsSpare members := by
  unfold recordsSpare
  simp only [takesUp_startedRun, requestEnding_startedRun]

theorem accepts_startedRun (found : s.batches[bid]? = some b)
    (named : b.id = bid) (results : List MemberResult) :
    (s.startedRun bid b worker now).accepts
        (resultsCompletion b worker (s.bootOf worker) results) =
      s.acceptsRun b worker := by
  have started : (s.startedRun bid b worker now).batches[bid]? =
      some { b with
        state := .running, dispatchedNs := now, worker := worker,
        boot := s.bootOf worker } :=
    getElem?_modify_self (getElem?_modify_self found _) _
  unfold accepts
  dsimp only [resultsCompletion]
  rw [named, started]
  dsimp only
  simp [acceptsRun, workerCurrent, startedRun, markRunning, markDispatched]

theorem wellFormed_startedRun (wellFormed : WellFormed s)
    (found : s.batches[bid]? = some b) (isSealed : b.state = .sealed) :
    WellFormed (s.startedRun bid b worker now) :=
  (WellFormed.recordRule {} now).reports.startedRun wellFormed found isSealed
    worker

theorem ownsAttempts_startedRun (owns : s.OwnsAttempts)
    (found : s.batches[bid]? = some b) (isSealed : b.state = .sealed) :
    (s.startedRun bid b worker now).OwnsAttempts :=
  (OwnsAttempts.recordRule {} now).reports.startedRun owns found isSealed worker

end StartedRun

/-- The rule of runs in process: what holds without a run is settled by the
executor's answer. -/
theorem doDispatchAndRun_iff {s : Impl} (Kept : Impl → Prop)
    (failing : RequestId → Bool) {policy : BatchPolicy} {bid : BatchId}
    {executor : Executor} {now : TimePoint} (idle : Kept s)
    (failed : ∀ b err, s.batches[bid]? = some b → b.state = .sealed →
      (Kept (Transition.run (failMember policy now err)
          (s.startedRun bid b executor.capability.worker now) b.members) ↔
        b.members.all failing = true))
    (reported : ∀ b results, s.batches[bid]? = some b → b.state = .sealed →
      let report := resultsCompletion b executor.capability.worker
        (s.bootOf executor.capability.worker) results
      (Kept ((s.startedRun bid b executor.capability.worker now).doComplete
          policy report now).2 ↔
        (!s.acceptsRun b executor.capability.worker ||
          s.recordsSpare report.members) = true)) :
    Kept (s.doDispatchAndRun policy bid executor now).2 ↔
      s.runSpares bid executor now failing = true := by
  unfold runSpares
  cases found : s.batches[bid]? with
  | none =>
      rw [doDispatchAndRun_of_not_sealed
        (fun b found' => by rw [found] at found'; cases found')]
      exact ⟨fun _ => rfl, fun _ => idle⟩
  | some b =>
      dsimp only
      by_cases isSealed : b.state = .sealed
      · have isNot : (b.state != .sealed) = false := by
          rw [isSealed]
          rfl
        rw [doDispatchAndRun_of_sealed found isSealed, isNot, Bool.false_or]
        cases executor.execute
            (s.runExecution bid b executor.capability.worker now) with
        | error err => exact failed b err found isSealed
        | ok results => exact reported b results found isSealed
      · have isNot : (b.state != .sealed) = true := by
          simpa using isSealed
        rw [isNot, Bool.true_or, doDispatchAndRun_of_not_sealed]
        · exact ⟨fun _ => rfl, fun _ => idle⟩
        · intro b' found'
          rw [found] at found'
          cases found'
          exact isSealed

theorem endingsRespected_doDispatchAndRun_iff {s : Impl}
    (wellFormed : WellFormed s) (owns : s.OwnsAttempts)
    (policy : BatchPolicy) (bid : BatchId) (executor : Executor)
    (now : TimePoint) :
    EndingsRespected s (s.doDispatchAndRun policy bid executor now).2 ↔
      s.runSpares bid executor now s.mayFail = true := by
  apply doDispatchAndRun_iff (EndingsRespected s)
    s.mayFail (EndsKept.refl s).requests.respected
  · intro b err found isSealed
    rw [← mayFail_startedRun, ← endingsRespected_failMembers_iff
      (wellFormed_startedRun wellFormed found isSealed)
      (ownsAttempts_startedRun owns found isSealed) policy now err]
    exact endingsRespected_congr requestEnding_startedRun.symm rfl rfl
  · intro b results found isSealed
    dsimp only
    rw [← accepts_startedRun found (wellFormed.batch bid b found).1,
      ← recordsSpare_startedRun, ← endingsRespected_doComplete_iff
      (wellFormed_startedRun wellFormed found isSealed)
      (ownsAttempts_startedRun owns found isSealed) policy _ now]
    exact endingsRespected_congr requestEnding_startedRun.symm rfl rfl

/-! Retries. -/

theorem retryQueued_of_taken {policy : BatchPolicy} {s : Impl}
    {id : RequestId} {now : TimePoint}
    (taken : s.takesRetry policy id now = true) :
    ∃ r, s.requests[id]? = some r ∧
      (s.retryQueued policy id now).2 =
        s.requeue id r (s.attemptNumber r + 1) := by
  unfold takesRetry at taken
  cases found : s.requests[id]? with
  | none => simp [found] at taken
  | some r =>
      have checks : s.attemptNumber r < policy.retry.maxAttempts ∧
          r.metadata.deadline.expired now = false := by
        simpa [found] using taken
      refine ⟨r, rfl, ?_⟩
      have again : ¬ s.attemptNumber r ≥ policy.retry.maxAttempts :=
        UInt32.not_le.mpr checks.1
      simp [retryQueued, found, again, checks.2]

theorem retryQueued_of_not_taken {policy : BatchPolicy} {s : Impl}
    {id : RequestId} {now : TimePoint}
    (refused : s.takesRetry policy id now = false) :
    (s.retryQueued policy id now).2 = s := by
  obtain ⟨err, same⟩ | ⟨r, found, again, live, _⟩ :=
    retryQueued_cases policy s id now
  · rw [same]
  · simp [takesRetry, found, again, live] at refused

theorem endingsRespected_retryQueued_iff (s : Impl) (policy : BatchPolicy)
    (id : RequestId) (now : TimePoint) :
    EndingsRespected s (s.retryQueued policy id now).2 ↔
      (!s.takesRetry policy id now || s.mayFail id) = true := by
  cases taken : s.takesRetry policy id now with
  | false =>
      rw [retryQueued_of_not_taken taken]
      exact ⟨fun _ => rfl, fun _ => (EndsKept.refl s).requests.respected⟩
  | true =>
      obtain ⟨r, found, queued⟩ := retryQueued_of_taken taken
      rw [queued, Bool.not_true, Bool.false_or, mayFail_iff]
      have requeued : (s.requeue id r (s.attemptNumber r + 1)).requests[id]? =
          some { r with
            currentAttempt := { value := s.nextAttempt }
            attempts := r.attempts ++ [{ value := s.nextAttempt }]
            state := .eligible
            batch := .null
            inWaiting := true } :=
        getElem?_modify_self found _
      constructor
      · intro respected state ended
        rcases respected id state ended with same | ⟨failed, _⟩
        · rw [requestEnding_of_found requeued] at same
          obtain ⟨terminal, rfl⟩ := RequestRec.ending_eq_some.mp same
          cases terminal
        · exact failed
      · intro may other state ended
        by_cases same : id = other
        · subst same
          exact .inr ⟨may state ended, _, requeued, rfl, Nat.le_refl _⟩
        · refine .inl ?_
          unfold requestEnding requeue
          dsimp only
          rw [getElem?_modify, if_neg same]
          exact ended

/-! Every operation. -/

/-- What an operation does respects the endings. A retry queues the request
and then ticks: each half does. -/
def OpRespectsEndings (policy : BatchPolicy) (s : Impl) : Op → Prop
  | .retry request order now =>
      EndingsRespected s (s.retryQueued policy request now).2 ∧
        EndingsRespected (s.retryQueued policy request now).2
          (step policy s (.retry request order now))
  | op => EndingsRespected s (step policy s op)

/-- No retry, and no failure of an executor, concerns a request that has ended
otherwise than by failing, and no accepted report takes up a rejected one. -/
def sparesEnded (policy : BatchPolicy) (s : Impl) : Op → Bool
  | .retry request _ now =>
      !s.takesRetry policy request now || s.mayFail request
  | .complete completion _ =>
      !s.accepts completion || s.recordsSpare completion.members
  | .dispatchAndRun batch executor now =>
      s.runSpares batch executor now s.mayFail
  | _ => true

theorem opRespectsEndings_iff {policy : BatchPolicy} {s : Impl}
    (wellFormed : WellFormed s) (owns : s.OwnsAttempts) (op : Op) :
    OpRespectsEndings policy s op ↔ sparesEnded policy s op = true := by
  cases op with
  | retry request order now =>
      have queued := wellFormed.retryQueued policy request now
      have owned := owns.retryQueued policy request now
      have ticked : RequestsEnded (s.retryQueued policy request now).2
          (s.doRetry policy request order now).2 :=
        (kept_doRetry
          (fun s' => (WellFormed s' ∧ s'.OwnsAttempts) ∧
            EndsKept (s.retryQueued policy request now).2 s')
          ⟨⟨queued, owned⟩, .refl _⟩
          (fun s' held =>
            ⟨⟨held.1.1.doTick policy order now,
                held.1.2.doTick held.1.1 policy order now⟩,
              held.2.trans (.doTick held.1.1 held.1.2 policy order
                now)⟩)).2.requests
      have same := endingsRespected_retryQueued_iff s policy request now
      exact ⟨fun respects => same.mp respects.1,
        fun spares => ⟨same.mpr spares, ticked.respected⟩⟩
  | complete completion now =>
      exact endingsRespected_doComplete_iff wellFormed owns policy completion
        now
  | dispatchAndRun batch executor now =>
      exact endingsRespected_doDispatchAndRun_iff wellFormed owns policy batch
        executor now
  | _ =>
      exact ⟨fun _ => rfl, fun _ =>
        (EndsKept.step wellFormed owns policy _ trivial).requests.respected⟩

/-- In every reachable state an operation respects the requests that have ended
exactly when it spares them. -/
theorem endingsRespected_iff (policy : BatchPolicy) (ops : List Op)
    (op : Op) :
    OpRespectsEndings policy (run policy ops) op ↔
      sparesEnded policy (run policy ops) op = true :=
  opRespectsEndings_iff (wellFormed_of_reachable (reachable_run policy ops))
    (ownsAttempts_of_reachable (reachable_run policy ops)) op

/-- A cancelled request is retried: it waits again. -/
theorem not_endingsRespected_of_cancelled :
    ¬ ∀ (policy : BatchPolicy) (ops : List Op) (op : Op),
      OpRespectsEndings policy (run policy ops) op := by
  intro respects
  let ops : List Op := [.submit minimalRequest 0, .cancel { value := 1 } 1]
  have cancelled : (run {} ops).requestEnding { value := 1 } =
      some .cancelled := by
    rw [run_eq_runKnown .minimal]
    decide +kernel
  have queued : ((run {} ops).retryQueued {} { value := 1 } 2).2.requestEnding
      { value := 1 } = none := by
    rw [run_eq_runKnown .minimal]
    decide +kernel
  have kept := (respects {} ops (.retry { value := 1 } [] 2)).1 { value := 1 }
    .cancelled cancelled
  rcases kept with same | ⟨failed, _⟩
  · rw [queued] at same
    cases same
  · cases failed

end BatchFabric.Impl
