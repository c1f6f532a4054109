import BatchFabric.Executor
import BatchFabric.Safety.StepRule
import BatchFabric.Safety.Submissions
import BatchFabric.Safety.TerminalRequests

namespace BatchFabric

open OrderedMap

/-! Whose work a recorded result is. `worth` says what is to be recorded for a
request submitted with given metadata. -/

/-- The request keeps what it was submitted with and its attempts. -/
def RequestRec.Continues (r r' : RequestRec) : Prop :=
  r'.metadata = r.metadata ∧ ∀ aid ∈ r.attempts, aid ∈ r'.attempts

theorem RequestRec.Continues.refl (r : RequestRec) : r.Continues r :=
  ⟨rfl, fun _ member => member⟩

theorem RequestRec.Continues.trans {first second third : RequestRec}
    (earlier : first.Continues second) (later : second.Continues third) :
    first.Continues third :=
  ⟨later.1.trans earlier.1,
    fun aid member => later.2 aid (earlier.2 aid member)⟩

theorem RequestRec.continues_advance (source target : RequestState)
    (r : RequestRec) : r.Continues (r.advance source target) := by
  unfold advance
  split <;> exact ⟨rfl, fun _ member => member⟩

theorem RequestRec.continues_setBatch (batch : BatchId) (r : RequestRec) :
    r.Continues (r.setBatch batch) :=
  ⟨rfl, fun _ member => member⟩

theorem RequestRec.continues_conclude (r : RequestRec) (mc : MemberCompletion)
    (state : RequestState) : r.Continues (r.conclude mc state) := by
  unfold conclude
  split <;> exact ⟨rfl, fun _ member => member⟩

namespace Impl

theorem continues_modifyAll {requests : Map RequestId RequestRec}
    {members : List RequestId} {change : RequestRec → RequestRec}
    (continues : ∀ r : RequestRec, r.Continues (change r)) :
    Evolves RequestRec.Continues requests
      (modifyAll requests members change) := by
  induction members generalizing requests with
  | nil => exact .refl .refl requests
  | cons m members induction =>
      exact Evolves.trans .trans
        (.modify .refl requests fun r _ => continues r) induction

/-- An attempt completed with this result. -/
def Recorded (s : Impl) (aid : AttemptId) (bytes : ByteString) : Prop :=
  ∃ a, s.attempts[aid]? = some a ∧ a.state = .completed ∧ a.result = bytes

/-- No request is forgotten, and no result is recorded. -/
structure Resultless (s s' : Impl) : Prop where
  requests : Evolves RequestRec.Continues s.requests s'.requests
  results : ∀ aid bytes, s'.Recorded aid bytes → s.Recorded aid bytes

namespace Resultless

variable {s s' s'' : Impl}

theorem refl (s : Impl) : Resultless s s :=
  ⟨.refl .refl s.requests, fun _ _ recorded => recorded⟩

theorem trans (earlier : Resultless s s') (later : Resultless s' s'') :
    Resultless s s'' :=
  ⟨.trans .trans earlier.requests later.requests, fun aid bytes recorded =>
    earlier.results aid bytes (later.results aid bytes recorded)⟩

/-- The attempts are left alone. -/
theorem of_requests
    (requests : Evolves RequestRec.Continues s.requests s'.requests)
    (attempts : s'.attempts = s.attempts) : Resultless s s' := by
  refine ⟨requests, fun aid bytes recorded => ?_⟩
  unfold Recorded at recorded
  rw [attempts] at recorded
  exact recorded

theorem of_tables (requests : s'.requests = s.requests)
    (attempts : s'.attempts = s.attempts) : Resultless s s' := by
  apply of_requests _ attempts
  rw [requests]
  exact .refl .refl s.requests

/-- A request and an attempt end otherwise than by completing. -/
theorem ending {id : RequestId} {aid : AttemptId}
    {change : RequestRec → RequestRec} {finish : AttemptRec → AttemptRec}
    (requests : s'.requests = s.requests.modify id change)
    (attempts : s'.attempts = s.attempts.modify aid finish)
    (continues : ∀ r : RequestRec, r.Continues (change r))
    (ends : ∀ a, (finish a).state ≠ .completed) : Resultless s s' := by
  constructor
  · rw [requests]
    exact .modify .refl s.requests fun r _ => continues r
  · rintro other bytes ⟨a', found, completed, result⟩
    rw [attempts] at found
    obtain ⟨a, before, ⟨_, rfl⟩ | ⟨_, rfl⟩⟩ := getElem?_modify_cases found
    · exact absurd completed (ends a)
    · exact ⟨a', before, completed, result⟩

/-- A new attempt has no result yet. -/
theorem results_insert {aid : AttemptId} {a : AttemptRec}
    (attempts : s'.attempts = s.attempts.insert aid a)
    (going : a.state ≠ .completed) (other : AttemptId) (bytes : ByteString)
    (recorded : s'.Recorded other bytes) : s.Recorded other bytes := by
  obtain ⟨a', found, completed, result⟩ := recorded
  rw [attempts, getElem?_insert] at found
  split at found
  · cases found
    exact absurd completed going
  · exact ⟨a', found, completed, result⟩

theorem createRequest (wellFormed : WellFormed s) (metadata : RequestMetadata)
    (now : TimePoint) {state : RequestState} (going : state ≠ .completed)
    (outcome : CompletionStatus) (inWaiting : Bool) :
    Resultless s (s.createRequest metadata now state state outcome inWaiting) :=
  ⟨.insert_absent .refl wellFormed.no_request _, results_insert rfl going⟩

theorem doSubmit (wellFormed : WellFormed s) (policy : BatchPolicy)
    (metadata : RequestMetadata) (now : TimePoint) :
    Resultless s (s.doSubmit policy metadata now).2 := by
  obtain ⟨stats, refused⟩ | ⟨_, ⟨state, outcome, stats, states, recorded⟩ |
      ⟨fairness, stats, queued⟩⟩ := doSubmit_cases policy s metadata now
  · rw [refused]
    exact of_tables rfl rfl
  · have going : state ≠ .completed := by
      rcases states with rfl | rfl | ⟨rfl, _⟩ <;> exact nofun
    rw [recorded]
    exact (createRequest wellFormed metadata now going outcome false).trans
      (of_tables rfl rfl)
  · have going : RequestState.eligible ≠ .completed := nofun
    rw [queued]
    exact (createRequest wellFormed metadata now going .success true).trans
      (of_tables rfl rfl)

theorem doCancel (s : Impl) (policy : BatchPolicy) (id : RequestId)
    (now : TimePoint) : Resultless s (s.doCancel policy id now).2 := by
  have stays : ∀ r : RequestRec, ∀ state inWaiting batch, r.Continues { r with
      state := state, inWaiting := inWaiting, batch := batch } :=
    fun _ _ _ _ => ⟨rfl, fun _ member => member⟩
  obtain unchanged | ⟨r, _, _, ⟨_, outside⟩ |
      ⟨_, b, _, ⟨_, forming⟩ | ⟨_, later⟩⟩⟩ := doCancel_cases policy s id now
  · rw [unchanged]
    exact refl s
  · rw [outside]
    exact ending rfl rfl (fun r => stays r _ _ _) fun _ => nofun
  · rw [forming]
    exact ending rfl rfl (fun r => stays r _ _ _) fun _ => nofun
  · rw [later]
    exact ending rfl rfl (fun r => stays r _ _ _) fun _ => nofun

theorem expireWaiting (s : Impl) (now : TimePoint) (id : RequestId) :
    Resultless s (expireWaiting now s id) := by
  obtain unchanged | ⟨r, _, ⟨_, removed⟩ | ⟨_, stats, ended⟩⟩ :=
    expireWaiting_cases now s id
  · rw [unchanged]
    exact refl s
  · rw [removed]
    exact of_tables rfl rfl
  · rw [ended]
    exact ending rfl rfl (fun _ => ⟨rfl, fun _ member => member⟩)
      fun _ => nofun

theorem place {pick : RequestId} {r : RequestRec}
    (request : s.requests[pick]? = some r) (bid : BatchId)
    (key : CompatibilityKey) : Resultless s (s.place bid key pick) := by
  rw [place_eq request]
  exact of_requests
    (.modify .refl s.requests fun _ _ => ⟨rfl, fun _ member => member⟩) rfl

theorem sealForming (s : Impl) (bid : BatchId) (b : BatchRec)
    (reason : SealReason) (now : TimePoint) :
    Resultless s (s.sealForming bid b reason now) :=
  of_requests (continues_modifyAll (RequestRec.continues_advance _ _)) rfl

theorem mergeInto (s : Impl) (aid bid : BatchId) (a b : BatchRec) :
    Resultless s (s.mergeInto aid bid a b) :=
  of_requests (continues_modifyAll (RequestRec.continues_setBatch aid)) rfl

theorem splitRequests (s : Impl) (bid child : BatchId) (b : BatchRec) :
    Evolves RequestRec.Continues s.requests (s.splitRequests bid child b) :=
  .trans .trans (continues_modifyAll (RequestRec.continues_setBatch child))
    (continues_modifyAll (RequestRec.continues_setBatch bid))

theorem splitSealed (s : Impl) (bid : BatchId) (b : BatchRec) :
    Resultless s (s.splitSealed bid b) :=
  of_requests (splitRequests s bid _ b) rfl

theorem splitOpen (s : Impl) (bid : BatchId) (b : BatchRec) :
    Resultless s (s.splitOpen bid b) :=
  of_requests (splitRequests s bid _ b) rfl

theorem requeue (s : Impl) (id : RequestId) (r : RequestRec)
    (number : UInt32) : Resultless s (s.requeue id r number) := by
  have going : RequestState.eligible ≠ .completed := nofun
  refine ⟨.modify .refl s.requests fun r _ => ?_, results_insert rfl going⟩
  exact ⟨rfl, fun _ member => List.mem_append_left _ member⟩

theorem markDispatched (s : Impl) (bid : BatchId) (b : BatchRec)
    (worker : WorkerId) (boot : WorkerBootId) (now : TimePoint) :
    Resultless s (s.markDispatched bid b worker boot now) :=
  of_requests (continues_modifyAll (RequestRec.continues_advance _ _)) rfl

theorem markRunning (s : Impl) (bid : BatchId) (b : BatchRec) :
    Resultless s (s.markRunning bid b) :=
  of_requests (continues_modifyAll (RequestRec.continues_advance _ _)) rfl

theorem finishBatch (s : Impl) (bid : BatchId) (worker : WorkerId)
    (now : TimePoint) : Resultless s (s.finishBatch bid worker now) :=
  of_tables (tables_finishBatch s bid worker now).1
    (tables_finishBatch s bid worker now).2

variable {start : Impl}

theorem tickRule (policy : BatchPolicy) (now : TimePoint) :
    TickRule policy now fun s => WellFormed s ∧ Resultless start s where
  wellFormed _ held := held.1
  expire s id held :=
    ⟨held.1.expireWaiting now id, held.2.trans (expireWaiting s now id)⟩
  cancel s id held :=
    ⟨held.1.doCancel policy id now, held.2.trans (doCancel s policy id now)⟩
  openForming _ key held _ :=
    ⟨held.1.openForming key now, held.2.trans (of_tables rfl rfl)⟩
  place s bid key pick b r held placing :=
    ⟨(WellFormed.tickRule policy now).place s bid key pick b r held.1 placing,
      held.2.trans (place placing.request bid key)⟩
  retime _ bid _ held retimes :=
    ⟨held.1.retime bid retimes, held.2.trans (of_tables rfl rfl)⟩
  close s bid b reason held found forming :=
    ⟨held.1.sealForming found forming reason now,
      held.2.trans (sealForming s bid b reason now)⟩
  merge s aid bid a b held merging :=
    ⟨held.1.mergeInto merging.first merging.second merging.keyed,
      held.2.trans (mergeInto s aid bid a b)⟩

/-- No outcome is looked at: reports and runs in process are left out. -/
theorem reportRule (policy : BatchPolicy) (now : TimePoint) :
    ReportRule policy now (fun _ _ _ => false) (Resultless start) where
  count _ _ kept := kept.trans (of_tables rfl rfl)
  outcome _ mc kept silent := by
    cases acts : endState mc.status with
    | none =>
        obtain ⟨stats, idle⟩ :=
          applyMemberOutcome_idle policy now _ acts
        rw [idle]
        exact kept.trans (of_tables rfl rfl)
    | some state =>
        rw [acts] at silent
        cases silent rfl
  dispatch s bid b worker boot kept _ _ :=
    kept.trans (markDispatched s bid b worker boot now)
  running s bid b kept _ _ := kept.trans (markRunning s bid b)
  finish s bid _ worker kept _ _ := kept.trans (finishBatch s bid worker now)

end Resultless

/-- The operations that take up results. -/
def takesResults : Op → Bool
  | .complete _ _ | .dispatchAndRun _ _ _ => true
  | _ => false

theorem Resultless.stepRule (policy : BatchPolicy) (start : Impl) :
    StepRule policy (fun _ op => takesResults op = false)
      (fun _ _ _ => false) (Resultless start) where
  ticks := tickRule policy
  reports now := (reportRule policy now).formed
  complete _ _ _ _ _ silent := by cases silent
  dispatchAndRun _ _ _ _ _ _ silent := by cases silent
  submit _ metadata now reachable kept _ :=
    kept.trans
      (doSubmit (wellFormed_of_reachable reachable) policy metadata now)
  splitSealed s bid b _ kept _ _ _ := kept.trans (splitSealed s bid b)
  splitOpen s bid b _ kept _ _ _ _ := kept.trans (splitOpen s bid b)
  mergeInto s aid bid a b _ kept _ _ _ _ :=
    kept.trans (mergeInto s aid bid a b)
  requeue s id r _ _ _ kept _ _ _ := kept.trans (requeue s id r _)
  registerWorker _ _ _ _ kept := kept.trans (of_tables rfl rfl)
  rollEpoch _ kept := kept.trans (of_tables rfl rfl)

theorem Resultless.step {policy : BatchPolicy} {s : Impl}
    (reachable : Reachable policy s) {op : Op}
    (silent : takesResults op = false) :
    Resultless s (BatchFabric.step policy s op) :=
  (stepRule policy s).step reachable (refl s) silent

/-! Results that are reported as they should be. -/

section

variable (worth : RequestMetadata → ByteString)

/-- A success is reported with the result its request is to have. -/
def Honest (s : Impl) (mc : MemberCompletion) : Prop :=
  mc.status = .success → ∃ r, s.requests[mc.request]? = some r ∧
    mc.result = worth r.metadata

/-- Every result recorded is that of the request whose attempt it is. -/
def Earned (s : Impl) : Prop :=
  ∀ aid bytes, s.Recorded aid bytes → ∃ (id : RequestId) (r : RequestRec),
    s.requests[id]? = some r ∧ aid ∈ r.attempts ∧ bytes = worth r.metadata

end

variable {worth : RequestMetadata → ByteString} {s s' : Impl}

theorem Honest.evolve {mc : MemberCompletion} (honest : s.Honest worth mc)
    {R : RequestRec → RequestRec → Prop}
    (requests : Evolves R s.requests s'.requests)
    (kept : ∀ {r r' : RequestRec}, R r r' → r'.metadata = r.metadata) :
    s'.Honest worth mc := by
  intro succeeds
  obtain ⟨r, found, result⟩ := honest succeeds
  obtain ⟨r', found', related⟩ := requests mc.request r found
  exact ⟨r', found', by rw [kept related]; exact result⟩

namespace Earned

theorem fresh : Earned worth fresh := by
  rintro aid bytes ⟨a, found, _⟩
  exact absurd found (by simp [Impl.fresh])

theorem of_resultless (earned : s.Earned worth) (kept : Resultless s s') :
    s'.Earned worth := by
  intro aid bytes recorded
  obtain ⟨id, r, found, member, result⟩ :=
    earned aid bytes (kept.results aid bytes recorded)
  obtain ⟨r', found', continues⟩ := kept.requests id r found
  refine ⟨id, r', found', continues.2 aid member, ?_⟩
  rw [continues.1]
  exact result

theorem continues_conclude (s : Impl) (r : RequestRec) (mc : MemberCompletion)
    (state : RequestState) (now : TimePoint) :
    Evolves RequestRec.Continues s.requests
      (s.conclude r mc state now).requests :=
  .modify .refl s.requests fun r _ => r.continues_conclude mc state

/-- Only a success completes an attempt, and it leaves its result there. -/
theorem result_conclude {a : AttemptRec} {mc : MemberCompletion}
    {state : RequestState} (acts : endState mc.status = some state)
    {now : TimePoint} (completed : (a.conclude mc state now).state = .completed) :
    mc.status = .success ∧ (a.conclude mc state now).result = mc.result := by
  rw [state_attempt_conclude] at completed
  subst completed
  cases status : mc.status with
  | success =>
      refine ⟨rfl, ?_⟩
      unfold AttemptRec.conclude
      rw [status]
  | _ =>
      rw [status] at acts
      cases acts

theorem conclude (earned : s.Earned worth) (owns : s.OwnsAttempts)
    {r : RequestRec} {a : AttemptRec} {mc : MemberCompletion}
    {state : RequestState} (concluding : s.Concluding mc r a state)
    (honest : s.Honest worth mc) (now : TimePoint) :
    (s.conclude r mc state now).Earned worth := by
  have requests := continues_conclude s r mc state now
  rintro aid bytes ⟨a', found', completed, result⟩
  obtain ⟨before, found, ⟨rfl, rfl⟩ | ⟨_, rfl⟩⟩ := getElem?_modify_cases found'
  · obtain ⟨succeeds, same⟩ := result_conclude concluding.acts completed
    obtain ⟨r₀, request, paid⟩ := honest succeeds
    rw [concluding.request] at request
    cases request
    obtain ⟨r', found'', continues⟩ :=
      requests mc.request r concluding.request
    have mine := (owns.known mc.request r concluding.request).1
    refine ⟨mc.request, r', found'', continues.2 _ mine, ?_⟩
    rw [← result, same, continues.1]
    exact paid
  · obtain ⟨id, r₀, request, member, paid⟩ :=
      earned aid bytes ⟨a', found, completed, result⟩
    obtain ⟨r', found'', continues⟩ := requests id r₀ request
    refine ⟨id, r', found'', continues.2 aid member, ?_⟩
    rw [continues.1]
    exact paid

/-- One outcome. -/
theorem outcome (earned : s.Earned worth) (owns : s.OwnsAttempts)
    {mc : MemberCompletion} (honest : s.Honest worth mc)
    (policy : BatchPolicy) (now : TimePoint) :
    (s.applyMemberOutcome policy now mc).Earned worth ∧
      Evolves RequestRec.Continues s.requests
        (s.applyMemberOutcome policy now mc).requests := by
  obtain ⟨stats, idle⟩ | ⟨r, a, state, fairness, stats, request, attempt,
      acts, concluded | ⟨_, _, _, requeued⟩⟩ :=
    applyMemberOutcome_cases policy now s mc
  · rw [idle]
    have kept : Resultless s { s with stats := stats } := .of_tables rfl rfl
    exact ⟨earned.of_resultless kept, kept.requests⟩
  · rw [concluded]
    have ended := earned.conclude owns ⟨request, attempt, acts⟩ honest now
    exact ⟨ended.of_resultless (.of_tables rfl rfl),
      continues_conclude s r mc state now⟩
  · rw [requeued]
    have ended := earned.conclude owns ⟨request, attempt, acts⟩ honest now
    have totals : Resultless (s.conclude r mc state now)
        { s.conclude r mc state now with
          fairness := fairness, stats := stats } := .of_tables rfl rfl
    have queued := totals.trans (.requeue _ mc.request r (a.number + 1))
    exact ⟨ended.of_resultless queued,
      .trans .trans (continues_conclude s r mc state now) queued.requests⟩

/-- Outcomes taken one after another, each as it should be at the start. -/
theorem outcomes {α : Type} {take : Impl → α → Impl}
    (due : Impl → α → Prop)
    (one : ∀ s member, due s member → s.OwnsAttempts → s.Earned worth →
      (take s member).OwnsAttempts ∧ (take s member).Earned worth ∧
        Evolves RequestRec.Continues s.requests (take s member).requests)
    (evolve : ∀ {s s' : Impl} {member}, due s member →
      Evolves RequestRec.Continues s.requests s'.requests → due s' member)
    {members : List α} (all : ∀ member ∈ members, due s member)
    (owns : s.OwnsAttempts) (earned : s.Earned worth) :
    (Transition.run take s members).Earned worth := by
  induction members generalizing s with
  | nil => exact earned
  | cons member members induction =>
      obtain ⟨owns', earned', requests⟩ :=
        one s member (all member List.mem_cons_self) owns earned
      refine induction ?_ owns' earned'
      intro other listed
      exact evolve (all other (List.mem_cons_of_mem _ listed)) requests

theorem completeMember (owns : s.OwnsAttempts) (earned : s.Earned worth)
    {mc : MemberCompletion} (honest : s.Honest worth mc)
    (policy : BatchPolicy) (now : TimePoint) :
    (s.completeMember policy now mc).OwnsAttempts ∧
      (s.completeMember policy now mc).Earned worth ∧
      Evolves RequestRec.Continues s.requests
        (s.completeMember policy now mc).requests := by
  obtain ⟨stale, counted⟩ | ⟨r, a, _, _, _, _, taken⟩ :=
    completeMember_cases policy now s mc
  · rw [counted]
    have kept : Resultless s { s with stats.staleRejections := stale } :=
      .of_tables rfl rfl
    exact ⟨owns.of_tables rfl rfl rfl, earned.of_resultless kept, kept.requests⟩
  · rw [taken]
    exact ⟨(OwnsAttempts.recordRule policy now).applyMemberOutcome owns
        fun _ => rfl, earned.outcome owns honest policy now⟩

theorem failMember (owns : s.OwnsAttempts) (earned : s.Earned worth)
    (policy : BatchPolicy) (now : TimePoint) (err : Error) (m : RequestId) :
    (s.failMember policy now err m).OwnsAttempts ∧
      (s.failMember policy now err m).Earned worth ∧
      Evolves RequestRec.Continues s.requests
        (s.failMember policy now err m).requests := by
  obtain same | ⟨r, mc, _, _, _, failed, taken⟩ :=
    failMember_cases policy now err s m
  · rw [same]
    exact ⟨owns, earned, (Resultless.refl s).requests⟩
  · have honest : s.Honest worth mc := by
      intro succeeds
      rw [failed] at succeeds
      cases succeeds
    rw [taken]
    exact ⟨(OwnsAttempts.recordRule policy now).applyMemberOutcome owns
        fun _ => rfl, earned.outcome owns honest policy now⟩

theorem doComplete (owns : s.OwnsAttempts) (earned : s.Earned worth)
    {comp : BatchCompletion} (honest : ∀ mc ∈ comp.members, s.Honest worth mc)
    (policy : BatchPolicy) (now : TimePoint) :
    (s.doComplete policy comp now).2.Earned worth := by
  obtain ⟨err, stale, refused⟩ | ⟨b, _, taken⟩ :=
    doComplete_cases policy s comp now
  · rw [refused]
    exact earned.of_resultless (.of_tables rfl rfl)
  · rw [taken]
    have recorded := outcomes (fun s mc => s.Honest worth mc)
      (fun s mc honest owns earned =>
        completeMember owns earned honest policy now)
      (fun honest requests => honest.evolve requests And.left) honest owns
      earned
    exact recorded.of_resultless (.finishBatch _ _ _ _)

end Earned

/-- What is reported, and what an executor in process answers, is what the
requests are to have. -/
def HonestOp (worth : RequestMetadata → ByteString) (s : Impl) : Op → Prop
  | .complete comp _ => ∀ mc ∈ comp.members, s.Honest worth mc
  | .dispatchAndRun bid executor now => ∀ b results,
      s.batches[bid]? = some b → b.state = .sealed →
      executor.execute
        (s.runExecution bid b executor.capability.worker now) = .ok results →
      ∀ mr ∈ results, ∃ r, s.requests[mr.request]? = some r ∧
        mr.output = worth r.metadata
  | _ => True

namespace Earned

theorem doDispatchAndRun (owns : s.OwnsAttempts) (earned : s.Earned worth)
    (policy : BatchPolicy) {bid : BatchId} {executor : Executor}
    {now : TimePoint}
    (honest : s.HonestOp worth (.dispatchAndRun bid executor now)) :
    (s.doDispatchAndRun policy bid executor now).2.Earned worth := by
  obtain unchanged | ⟨b, found, isSealed, answer⟩ :=
    doDispatchAndRun_cases policy s bid executor now
  · rw [unchanged]
    exact earned
  · have started : Resultless s
        (s.startedRun bid b executor.capability.worker now) :=
      (Resultless.markDispatched s bid b _ _ now).trans (.markRunning _ bid b)
    have owns' :
        (s.startedRun bid b executor.capability.worker now).OwnsAttempts :=
      ownsAttempts_startedRun owns found isSealed
    rcases answer with ⟨err, _, failed⟩ | ⟨results, answered, taken⟩
    · rw [failed]
      exact outcomes (fun _ _ => True)
        (fun s m _ owns earned => failMember owns earned policy now err m)
        (fun _ _ => trivial) (fun _ _ => trivial) owns'
        (earned.of_resultless started)
    · rw [taken]
      apply (earned.of_resultless started).doComplete owns'
      intro mc listed
      obtain ⟨mr, member, rfl⟩ := List.mem_map.mp listed
      have own := honest b results found isSealed answered mr member
      exact Honest.evolve (fun _ => own) started.requests And.left

theorem step {policy : BatchPolicy} (reachable : Reachable policy s)
    (earned : s.Earned worth) {op : Op} (honest : s.HonestOp worth op) :
    (BatchFabric.step policy s op).Earned worth := by
  have owns := ownsAttempts_of_reachable reachable
  cases results : takesResults op with
  | false => exact earned.of_resultless (.step reachable results)
  | true =>
      cases op with
      | complete comp now => exact earned.doComplete owns honest policy now
      | dispatchAndRun bid executor now =>
          exact earned.doDispatchAndRun owns policy honest
      | _ => cases results

/-- A result belongs to one request. -/
theorem result (earned : s.Earned worth) (owns : s.OwnsAttempts)
    {id : RequestId} {r : RequestRec} (request : s.requests[id]? = some r)
    {aid : AttemptId} (member : aid ∈ r.attempts) {a : AttemptRec}
    (found : s.attempts[aid]? = some a) (completed : a.state = .completed) :
    a.result = worth r.metadata := by
  obtain ⟨id', r', request', member', paid⟩ :=
    earned aid a.result ⟨a, found, completed, rfl⟩
  have same := owns.apart id id' r r' aid request request' member member'
  subst same
  rw [request] at request'
  cases request'
  exact paid

end Earned

/-! What the CPU executor answers. -/

end Impl

/-- The answer of the CPU executor for a request submitted so. -/
def CpuExecutor.answer (metadata : RequestMetadata) : ByteString :=
  output {
    work := metadata.work.value
    inputTokens := metadata.tokens.input
    outputTokens := metadata.tokens.output
    payload := metadata.payload }

namespace Impl

/-- An execution names each request with the work it was submitted with. -/
theorem output_of_execution {s : Impl} {b : BatchRec} {worker : WorkerId}
    {m : MemberWork} (listed : m ∈ (s.executionOf b worker).members) :
    ∃ r, s.requests[m.request]? = some r ∧
      m.attempt = r.currentAttempt ∧
      CpuExecutor.output m = CpuExecutor.answer r.metadata := by
  obtain ⟨id, _, made⟩ := List.mem_filterMap.mp listed
  obtain ⟨r, found, rfl⟩ := Option.map_eq_some_iff.mp made
  exact ⟨r, found, rfl, rfl⟩

theorem honest_cpuExecutor (s : Impl) (bid : BatchId)
    (cap : ExecutorCapability) (now : TimePoint) :
    s.HonestOp CpuExecutor.answer
      (.dispatchAndRun bid (cpuExecutor cap) now) := by
  intro b results found isSealed answered mr member
  cases answered
  obtain ⟨m, listed, rfl⟩ := List.mem_map.mp member
  obtain ⟨r', found', _, output⟩ := output_of_execution listed
  have fixed : SameFixed s.requests _ :=
    (InPlace.markDispatched found isSealed cap.worker (s.bootOf cap.worker)
      now).requests
  obtain ⟨r, request, metadata, _⟩ := fixed.found_before found'
  refine ⟨r, request, ?_⟩
  rw [← metadata]
  exact output

/-- In every run whose reports are honest and whose batches are run in process
honestly, each completed attempt of a request holds that request's result. Runs
in process on the CPU executor are honest. -/
theorem result_of_run (policy : BatchPolicy)
    (worth : RequestMetadata → ByteString) (ops : List Op) :
    (Transition.Along (step policy) (fun s => s.HonestOp worth) fresh ops →
      Everywhere (run policy ops).requests fun _ r => ∀ aid ∈ r.attempts,
        ∀ a, (run policy ops).attempts[aid]? = some a →
          a.state = .completed → a.result = worth r.metadata) ∧
    ∀ (s : Impl) (bid : BatchId) (cap : ExecutorCapability) (now : TimePoint),
      s.HonestOp CpuExecutor.answer
        (.dispatchAndRun bid (cpuExecutor cap) now) := by
  refine ⟨?_, honest_cpuExecutor⟩
  intro honest
  have held : Reachable policy (run policy ops) ∧
      (run policy ops).Earned worth :=
    honest.invariant (fun s => Reachable policy s ∧ s.Earned worth)
      (fun _ op _ held honest =>
        ⟨held.1.step op, held.2.step held.1 honest⟩)
      ⟨⟨[], rfl⟩, Earned.fresh⟩
  have owns := ownsAttempts_of_reachable held.1
  intro id r request aid member a found completed
  exact held.2.result owns request member found completed

/-- A request is queued, batched and run in process. -/
def processed : List Op := [
  .submit minimalRequest 1,
  .tick [CompatibilityKey.build minimalRequest.descriptor] 2,
  .sealBatch { value := 1 } .immediate 3,
  .dispatchAndRun { value := 1 } (cpuExecutor {}) 4]

theorem result_of_processed :
    ((run {} processed).attempts[({ value := 1 } : AttemptId)]?).map
        AttemptRec.state = some .completed ∧
      Everywhere (run {} processed).requests fun _ r => ∀ aid ∈ r.attempts,
        ∀ a, (run {} processed).attempts[aid]? = some a →
          a.state = .completed → a.result = CpuExecutor.answer r.metadata :=
  ⟨by decide +kernel,
    (result_of_run {} CpuExecutor.answer processed).1
      ⟨trivial, trivial, trivial, honest_cpuExecutor _ _ _ _, trivial⟩⟩

end Impl

end BatchFabric
