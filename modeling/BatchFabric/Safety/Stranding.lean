import BatchFabric.Safety.Agreement
import BatchFabric.Safety.Handshake
import BatchFabric.Safety.TerminalRequests

/-! What a run in process leaves behind. No later report arrives for it. -/

namespace BatchFabric

open OrderedMap

/-- The states from which a run takes its members on. -/
def runsOn : RequestState → Bool
  | .batched | .dispatched | .running => true
  | _ => false

namespace RequestRec

/-- What a run makes of a member before its outcome is known. -/
def takenOn (r : RequestRec) : RequestRec :=
  (r.advance .batched .dispatched).advance .dispatched .running

theorem takenOn_of_runsOn {r : RequestRec} (runs : runsOn r.state = true) :
    r.takenOn.state = .running := by
  unfold takenOn advance
  cases state : r.state with
  | batched | dispatched | running => simp [state]
  | _ =>
      rw [state] at runs
      cases runs

theorem takenOn_of_not {r : RequestRec} (idle : runsOn r.state = false) :
    r.takenOn = r ∧ r.state ≠ .dispatched ∧ r.state ≠ .running := by
  unfold takenOn advance
  cases state : r.state with
  | batched | dispatched | running =>
      rw [state] at idle
      cases idle
  | _ => simp [state]

end RequestRec

namespace Impl

/-- Neither the batch nor one of the members is left in flight. -/
structure StrandsNothing (s : Impl) (bid : BatchId)
    (members : List RequestId) : Prop where
  batch : ∀ b, s.batches[bid]? = some b →
    b.state ≠ .dispatched ∧ b.state ≠ .running
  members : ∀ m ∈ members, ∀ r, s.requests[m]? = some r →
    r.state ≠ .dispatched ∧ r.state ≠ .running

/-- Some result is for the request's current attempt. -/
def answered (results : List MemberResult) (id : RequestId) (r : RequestRec) :
    Bool :=
  results.any fun result =>
    result.request == id && result.attempt == r.currentAttempt

/-- Every member the run takes on is answered for. -/
def answersAll (s : Impl) (b : BatchRec) (results : List MemberResult) :
    Bool :=
  b.members.all fun m =>
    match s.requests[m]? with
    | none => true
    | some r => !runsOn r.state || answered results m r

/-- The executor answers for every member the run takes on, and the fabric
accepts the answer. -/
def concludesRun (s : Impl) (bid : BatchId) (executor : Executor)
    (now : TimePoint) : Bool :=
  match s.batches[bid]? with
  | none => false
  | some b =>
      let worker := executor.capability.worker
      match executor.execute (s.runExecution bid b worker now) with
      | .error _ => false
      | .ok results => s.acceptsRun b worker && s.answersAll b results

section StartedRun

variable {s : Impl} {bid : BatchId} {b : BatchRec} {worker : WorkerId}
  {now : TimePoint} {boot : WorkerBootId} {results : List MemberResult}

theorem found_startedRun {m : RequestId} (member : m ∈ b.members) :
    (s.startedRun bid b worker now).requests[m]? =
      (s.requests[m]?).map RequestRec.takenOn := by
  unfold startedRun markRunning markDispatched
  dsimp only
  rw [getElem?_modifyAll _ _ (RequestRec.advance_settles _ _), if_pos member,
    getElem?_modifyAll _ _ (RequestRec.advance_settles _ _), if_pos member,
    Option.map_map]
  rfl

theorem batch_startedRun (found : s.batches[bid]? = some b) :
    ((s.startedRun bid b worker now).batches[bid]?).map (·.state) =
      some .running := by
  have started : (s.startedRun bid b worker now).batches[bid]? = some _ :=
    getElem?_modify_self (getElem?_modify_self found _) _
  rw [started]
  rfl

/-- A batch that is still running is stranded. -/
theorem stranded_of_running {s' : Impl} {members : List RequestId}
    (running : (s'.batches[bid]?).map (·.state) = some .running) :
    ¬ s'.StrandsNothing bid members := by
  intro strands
  obtain ⟨b', found, state⟩ := Option.map_eq_some_iff.mp running
  exact (strands.batch b' found).2 state

variable (b worker boot) in
theorem takesUp_of_answered (owns : s.OwnsAttempts) {m : RequestId}
    {r : RequestRec} (found : s.requests[m]? = some r)
    (runs : runsOn r.state = true) (answer : answered results m r = true) :
    ∃ mc ∈ (resultsCompletion b worker boot results).members,
      mc.request = m ∧ s.takesUp mc = true := by
  unfold answered at answer
  obtain ⟨result, member, matches'⟩ := List.any_eq_true.mp answer
  have named : result.request = m ∧ result.attempt = r.currentAttempt := by
    simpa using matches'
  refine ⟨_, List.mem_map.mpr ⟨result, member, rfl⟩, named.1, ?_⟩
  rw [named.1, named.2]
  apply takesUp_current owns found
  cases state : r.state with
  | batched | dispatched | running => rfl
  | _ =>
      rw [state] at runs
      cases runs

variable (b worker boot) in
theorem untaken_of_unanswered {m : RequestId} {r : RequestRec}
    (found : s.requests[m]? = some r)
    (unanswered : answered results m r = false) :
    ∀ mc ∈ (resultsCompletion b worker boot results).members,
      mc.request = m → s.takesUp mc = false := by
  rintro mc member rfl
  obtain ⟨result, listed, rfl⟩ := List.mem_map.mp member
  have other : r.currentAttempt ≠ result.attempt := by
    intro same
    unfold answered at unanswered
    rw [List.any_eq_false] at unanswered
    apply unanswered result listed
    simp [same]
  unfold takesUp
  rw [found]
  simp only [beq_false_of_ne other, Bool.false_and]

end StartedRun

section Answer

variable {s : Impl} {bid : BatchId} {b : BatchRec} (worker : WorkerId)

/-- The state a member ends in, by whether it was answered for. -/
theorem state_answer (wellFormed : WellFormed s) (owns : s.OwnsAttempts)
    (found : s.batches[bid]? = some b) (isSealed : b.state = .sealed)
    (boot : WorkerBootId) (results : List MemberResult)
    (policy : BatchPolicy) (now : TimePoint) {m : RequestId}
    (member : m ∈ b.members) {r : RequestRec}
    (listed : s.requests[m]? = some r) :
    ∃ r', (Transition.run (completeMember policy now)
        (s.startedRun bid b worker now)
        (resultsCompletion b worker boot results).members).requests[m]? =
          some r' ∧
      ((r'.state ≠ .dispatched ∧ r'.state ≠ .running) ↔
        (!runsOn r.state || answered results m r) = true) := by
  have started : WellFormed (s.startedRun bid b worker now) :=
    wellFormed_startedRun wellFormed found isSealed
  have owned : (s.startedRun bid b worker now).OwnsAttempts :=
    ownsAttempts_startedRun owns found isSealed
  have successes : ∀ mc ∈ (resultsCompletion b worker boot results).members,
      mc.status = .success := by
    intro mc reported
    obtain ⟨_, _, rfl⟩ := List.mem_map.mp reported
    rfl
  have before : (s.startedRun bid b worker now).requests[m]? =
      some r.takenOn := by
    rw [found_startedRun member, listed, Option.map_some]
  cases runs : runsOn r.state with
  | false =>
      obtain ⟨kept, idle⟩ := RequestRec.takenOn_of_not runs
      rcases CompletesOnly.completeMembers
          (s := s.startedRun bid b worker now) successes policy now m with
        same | ⟨r', found', completed⟩
      · exact ⟨r, by rw [same, before, kept], fun _ => rfl, fun _ => idle⟩
      · refine ⟨r', found', fun _ => rfl, fun _ => ?_⟩
        rw [completed]
        exact ⟨nofun, nofun⟩
  | true =>
      cases answer : answered results m r with
      | true =>
          obtain ⟨mc, reported, rfl, taken⟩ :=
            takesUp_of_answered b worker boot owns listed runs answer
          have completed := completed_of_takenUp started owned successes
            reported ((takesUp_startedRun mc).trans taken) policy now
          obtain ⟨r', found', state⟩ := Option.map_eq_some_iff.mp completed
          refine ⟨r', found', fun _ => rfl, fun _ => ?_⟩
          rw [state]
          exact ⟨nofun, nofun⟩
      | false =>
          have untouched := untouched_completeMembers started owned
            (fun mc reported same => (takesUp_startedRun mc).trans
              (untaken_of_unanswered b worker boot listed answer mc reported
                same)) policy now
          refine ⟨r.takenOn, untouched.request.trans before, ?_, nofun⟩
          intro notInFlight
          exact absurd (RequestRec.takenOn_of_runsOn runs) notInFlight.2

/-- An accepted answer strands nothing exactly when it answers for every member
the run has taken on. -/
theorem strandsNothing_answer_iff (wellFormed : WellFormed s)
    (owns : s.OwnsAttempts) (found : s.batches[bid]? = some b)
    (isSealed : b.state = .sealed) {boot : WorkerBootId}
    {results : List MemberResult} {policy : BatchPolicy} {now : TimePoint}
    {s' : Impl}
    (reported : s' = (Transition.run (completeMember policy now)
      (s.startedRun bid b worker now)
      (resultsCompletion b worker boot results).members).finishBatch bid
        worker now) :
    s'.StrandsNothing bid b.members ↔ s.answersAll b results = true := by
  have answers := fun m (member : m ∈ b.members) r =>
    state_answer worker wellFormed owns found isSealed boot results policy now
      member (r := r)
  subst reported
  unfold answersAll
  rw [List.all_eq_true]
  constructor
  · intro strands m member
    cases listed : s.requests[m]? with
    | none => rfl
    | some r =>
        obtain ⟨r', found', settles⟩ := answers m member r listed
        apply settles.mp
        apply strands.members m member
        rw [(tables_finishBatch _ _ _ _).1, found']
  · intro answered'
    constructor
    · intro b' found'
      obtain ⟨started, running, _⟩ :=
        Option.map_eq_some_iff.mp (batch_startedRun found)
      obtain ⟨current, found'', _⟩ := (OutcomeFrame.completeMembers policy now
        (s.startedRun bid b worker now)
        (resultsCompletion b worker boot results).members).found_after running
      have closed := state_finishBatch found'' worker now
      rw [found', Option.map_some, Option.some.injEq] at closed
      rw [closed]
      split <;> exact ⟨nofun, nofun⟩
    · intro m member r' found'
      rw [(tables_finishBatch _ _ _ _).1] at found'
      have keyed := wellFormed.member bid b found m member
      cases listed : s.requests[m]? with
      | none => simp [keyOf?, listed] at keyed
      | some r =>
          obtain ⟨r'', found'', settles⟩ := answers m member r listed
          rw [found'] at found''
          cases found''
          apply settles.mpr
          have answer := answered' m member
          rw [listed] at answer
          exact answer

end Answer

/-- A run in process strands nothing exactly when the executor answers for
every member the run takes on, and the answer is accepted. -/
theorem strandsNothing_iff (policy : BatchPolicy) (ops : List Op)
    (bid : BatchId) (executor : Executor) (now : TimePoint)
    (isSealed : ((run policy ops).batches[bid]?).map (·.state) =
      some .sealed) :
    StrandsNothing ((run policy ops).doDispatchAndRun policy bid executor now).2
        bid ((run policy ops).membersOf bid) ↔
      (run policy ops).concludesRun bid executor now = true := by
  have wellFormed := wellFormed_of_reachable (reachable_run policy ops)
  have owns := ownsAttempts_of_reachable (reachable_run policy ops)
  generalize run policy ops = s at isSealed wellFormed owns ⊢
  obtain ⟨b, found, state⟩ := Option.map_eq_some_iff.mp isSealed
  rw [doDispatchAndRun_of_sealed found state, membersOf_of_found found]
  unfold concludesRun
  simp only [found]
  cases executor.execute
      (s.runExecution bid b executor.capability.worker now) with
  | error err =>
      refine ⟨fun strands => absurd strands (stranded_of_running ?_),
        fun never => absurd never Bool.false_ne_true⟩
      rw [(OutcomeFrame.failMembers policy now err _ b.members).view
        BatchRec.state fun _ => rfl]
      exact batch_startedRun found
  | ok results =>
      dsimp only
      have named := (wellFormed.batch bid b found).1
      have decided : (s.startedRun bid b executor.capability.worker
          now).accepts _ = s.acceptsRun b executor.capability.worker :=
        accepts_startedRun found named results
      cases accepted : s.acceptsRun b executor.capability.worker with
      | false =>
          refine ⟨fun strands => absurd strands (stranded_of_running ?_),
            fun never => absurd never Bool.false_ne_true⟩
          obtain ⟨stats, refused⟩ := doComplete_of_not_accepts
            (decided.trans accepted) policy now
          rw [refused]
          exact batch_startedRun found
      | true =>
          obtain ⟨b', accepts⟩ := exists_of_accepts (decided.trans accepted)
          rw [Bool.true_and, doComplete_of_accepts accepts]
          apply strandsNothing_answer_iff _ wellFormed owns found state
          rw [show (resultsCompletion b executor.capability.worker
            (s.bootOf executor.capability.worker) results).batch = bid from
            named]
          rfl

/-- An executor that answers for everything it is sent. -/
def answering : Executor where
  execute exec := .ok (exec.members.map fun work => {
    request := work.request
    attempt := work.attempt })

theorem strandsNothing_of_answering :
    StrandsNothing ((run {} [.submit minimalRequest 0,
      .tick [] 1]).doDispatchAndRun {} { value := 1 } answering 2).2
        { value := 1 } ((run {} [.submit minimalRequest 0,
          .tick [] 1]).membersOf { value := 1 }) :=
  (strandsNothing_iff {} _ _ _ _ (by
    rw [run_eq_runKnown .minimal]
    decide +kernel)).mpr (by
    rw [run_eq_runKnown .minimal]
    decide +kernel)

/-- After an executor error the batch is running for ever. -/
theorem not_strandsNothing_of_error :
    ¬ ∀ (policy : BatchPolicy) (ops : List Op) (bid : BatchId)
        (executor : Executor) (now : TimePoint),
      ((run policy ops).batches[bid]?).map (·.state) = some .sealed →
        StrandsNothing
          ((run policy ops).doDispatchAndRun policy bid executor now).2 bid
          ((run policy ops).membersOf bid) := by
  intro strandsNothing
  let ops : List Op := [.submit minimalRequest 0, .tick [] 1]
  let failing : Executor := { execute := fun _ => .error {} }
  have isSealed : ((run {} ops).batches[({ value := 1 } : BatchId)]?).map
      (·.state) = some .sealed := by
    rw [run_eq_runKnown .minimal]
    decide +kernel
  have running : (((run {} ops).doDispatchAndRun {} { value := 1 } failing
      2).2.batches[({ value := 1 } : BatchId)]?).map (·.state) =
        some .running := by
    rw [run_eq_runKnown .minimal]
    decide +kernel
  exact stranded_of_running running
    (strandsNothing {} ops { value := 1 } failing 2 isSealed)

end Impl

end BatchFabric
