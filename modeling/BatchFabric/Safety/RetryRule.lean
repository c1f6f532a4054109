import BatchFabric.Safety.RetryBounds
import BatchFabric.Scheduler.KnownKeys

namespace BatchFabric

open OrderedMap

/-! When a request may be tried again. Attempts are judged against the state
before the step that made them. -/

/-- The time at which an operation that may try a request again takes place. -/
def Op.retriesAt : Op → Option TimePoint
  | .complete _ now => some now
  | .retry _ _ now => some now
  | .dispatchAndRun _ _ now => some now
  | _ => none

namespace Impl

/-- The attempt failed in a way that may be retried, and had tries left. -/
structure FailedWithTriesLeft (policy : BatchPolicy) (s : Impl)
    (aid : AttemptId) : Prop where
  enabled : policy.retry.enabled = true
  failed : ∃ a, s.attempts[aid]? = some a ∧ a.state = .failed ∧
    a.outcome = .retryableFailure ∧ a.number < policy.retry.maxAttempts

/-- Every attempt beyond the first that was not there before follows one that
failed with tries left, and comes while the request may still be served. -/
def RetriedByRule (policy : BatchPolicy) (before s : Impl)
    (at? : Option TimePoint) : Prop :=
  ∀ (id : RequestId) (r : RequestRec), s.requests[id]? = some r →
    ∀ front previous aid back, r.attempts = front ++ previous :: aid :: back →
      before.attempts[aid]? = none →
      FailedWithTriesLeft policy s previous ∧
        ∃ now, at? = some now ∧ r.metadata.deadline.expired now = false

/-- What makes attempts well owned and well numbered. -/
structure AttemptsInOrder (policy : BatchPolicy) (s : Impl) : Prop where
  wellFormed : WellFormed s
  owns : s.OwnsAttempts
  numbered : AllNumbered policy s

/-- No request is on this attempt now. -/
def Past (s : Impl) (aid : AttemptId) : Prop :=
  Everywhere s.requests fun _ r => r.currentAttempt ≠ aid

/-- Every request keeps what is fixed of it and its attempts, and only current
attempts change. -/
structure PastFrame (s s' : Impl) : Prop where
  frame : AttemptFrame s s'
  fixed : ∀ id : RequestId,
    (s'.requests[id]?).map RequestRec.fixed =
      (s.requests[id]?).map RequestRec.fixed
  past : ∀ aid, s.Past aid → s'.attempts[aid]? = s.attempts[aid]?

namespace PastFrame

variable {s s' : Impl}

theorem of_attempts (frame : AttemptFrame s s')
    (fixed : ∀ id : RequestId,
      (s'.requests[id]?).map RequestRec.fixed =
        (s.requests[id]?).map RequestRec.fixed)
    (attempts : s'.attempts = s.attempts) : PastFrame s s' where
  frame := frame
  fixed := fixed
  past aid _ := by rw [attempts]

theorem of_tables (requests : s'.requests = s.requests)
    (attempts : s'.attempts = s.attempts) : PastFrame s s' :=
  .of_attempts (.of_tables requests attempts) (fun id => by rw [requests])
    attempts

/-- A request's current attempt changes and no other does. -/
theorem of_current (frame : AttemptFrame s s')
    (fixed : ∀ id : RequestId,
      (s'.requests[id]?).map RequestRec.fixed =
        (s.requests[id]?).map RequestRec.fixed)
    {id : RequestId} {r : RequestRec} (found : s.requests[id]? = some r)
    {change : AttemptRec → AttemptRec}
    (attempts : s'.attempts = s.attempts.modify r.currentAttempt change) :
    PastFrame s s' where
  frame := frame
  fixed := fixed
  past aid past := by
    rw [attempts, getElem?_modify, if_neg (past id r found)]

theorem conclude {r : RequestRec} {a : AttemptRec} {mc : MemberCompletion}
    {state : RequestState} (concluding : s.Concluding mc r a state)
    (now : TimePoint) (fairness : FairnessController) (stats : BatchStats) :
    PastFrame s { s.conclude r mc state now with
      fairness := fairness, stats := stats } :=
  .of_current (.conclude s r mc state now fairness stats)
    (InPlace.conclude s r mc state now fairness stats).requests
    concluding.request rfl

theorem doCancel (policy : BatchPolicy) (s : Impl) (id : RequestId)
    (now : TimePoint) : PastFrame s (s.doCancel policy id now).2 := by
  have frame := AttemptFrame.doCancel s policy id now
  obtain unchanged | ⟨r, found, _, ⟨_, outside⟩ |
      ⟨_, b, _, ⟨_, forming⟩ | ⟨_, later⟩⟩⟩ := doCancel_cases policy s id now
  · rw [unchanged]
    exact .of_tables rfl rfl
  · rw [outside] at frame ⊢
    exact .of_current frame (InPlace.cancelOutside s id r now).requests found
      rfl
  · rw [forming] at frame ⊢
    exact .of_current frame
      (InPlace.cancelForming policy s id r now).requests found rfl
  · rw [later] at frame ⊢
    exact .of_current frame (InPlace.cancelAfterSeal s id r now).requests
      found rfl

theorem expireWaiting (now : TimePoint) (s : Impl) (id : RequestId) :
    PastFrame s (expireWaiting now s id) := by
  have frame := AttemptFrame.expireWaiting s now id
  obtain unchanged | ⟨r, found, ⟨_, removed⟩ | ⟨_, stats, ended⟩⟩ :=
    expireWaiting_cases now s id
  · rw [unchanged]
    exact .of_tables rfl rfl
  · rw [removed]
    exact .of_tables rfl rfl
  · rw [ended] at frame ⊢
    exact .of_current frame (map_getElem?_modify (fun _ => by rfl) s.requests id)
      found rfl

theorem place {pick : RequestId} {r : RequestRec}
    (request : s.requests[pick]? = some r) (bid : BatchId)
    (key : CompatibilityKey) : PastFrame s (s.place bid key pick) := by
  have frame := AttemptFrame.place request bid key
  rw [place_eq request] at frame ⊢
  exact .of_attempts frame (map_getElem?_modify (fun _ => by rfl) s.requests pick)
    rfl

theorem advance {members : List RequestId} {source target : RequestState}
    (requests : s'.requests =
      modifyAll s.requests members (RequestRec.advance source target))
    (attempts : s'.attempts = s.attempts) : PastFrame s s' := by
  apply of_attempts (.advance requests attempts) _ attempts
  rw [requests]
  exact map_getElem?_modifyAll (fixed_advance source target) s.requests members

theorem split {bid child : BatchId} {b : BatchRec}
    (requests : s'.requests = s.splitRequests bid child b)
    (attempts : s'.attempts = s.attempts) : PastFrame s s' := by
  apply of_attempts (.split requests attempts) _ attempts
  rw [requests]
  exact fixed_splitRequests s bid child b

theorem mergeInto (aid bid : BatchId) (a b : BatchRec) :
    PastFrame s (s.mergeInto aid bid a b) :=
  .of_attempts (.mergeInto s aid bid a b)
    (map_getElem?_modifyAll (fun _ => by rfl) s.requests b.members) rfl

theorem finishBatch (s : Impl) (bid : BatchId) (worker : WorkerId)
    (now : TimePoint) : PastFrame s (s.finishBatch bid worker now) := by
  obtain ⟨requests, attempts⟩ := tables_finishBatch s bid worker now
  exact .of_tables requests attempts

end PastFrame

theorem Numbered.exists_of_mem {policy : BatchPolicy} {s : Impl}
    {r : RequestRec} (numbered : Numbered policy s r) {aid : AttemptId}
    (listed : aid ∈ r.attempts) : ∃ a, s.attempts[aid]? = some a := by
  have counted : (s.attempts[aid]?).map (·.number) ∈
      countingFromOne r.attempts.length := by
    rw [← numbered.numbers]
    exact List.mem_map.mpr ⟨aid, listed, rfl⟩
  obtain ⟨i, _, number⟩ := List.mem_map.mp counted
  obtain ⟨a, found, _⟩ := Option.map_eq_some_iff.mp number.symm
  exact ⟨a, found⟩

namespace AttemptsInOrder

variable {policy : BatchPolicy} {s s' : Impl}

/-- An attempt that another one follows is past. -/
theorem past (ordered : AttemptsInOrder policy s) {id : RequestId}
    {r : RequestRec} (found : s.requests[id]? = some r)
    {front back : List AttemptId} {previous aid : AttemptId}
    (listed : r.attempts = front ++ previous :: aid :: back) :
    s.Past previous := by
  rintro other r' found' rfl
  have mine : r'.currentAttempt ∈ r.attempts := by
    rw [listed]
    exact List.mem_append_right front List.mem_cons_self
  have same := ordered.owns.apart id other r r' _ found found' mine
    (ordered.owns.known other r' found').1
  subst same
  rw [found] at found'
  cases found'
  have numbered := ordered.numbered id r found
  have last := numbered.last
  have distinct := numbered.distinct
  rw [listed] at last distinct
  have later : r.currentAttempt ∈ aid :: back := by
    rw [List.getLast?_append, List.getLast?_cons_cons] at last
    have tail : (aid :: back).getLast? = some r.currentAttempt := by
      cases ends : (aid :: back).getLast? with
      | none => simp at ends
      | some attempt =>
          rw [ends] at last
          exact last
    exact List.mem_of_getLast? tail
  exact (List.nodup_cons.mp (List.nodup_append.mp distinct).2.1).1 later

theorem retried_initially (ordered : AttemptsInOrder policy s)
    (at? : Option TimePoint) : RetriedByRule policy s s at? := by
  intro id r found front previous aid back listed absent
  have member : aid ∈ r.attempts := by
    rw [listed]
    simp
  obtain ⟨a, present⟩ := (ordered.numbered id r found).exists_of_mem member
  rw [absent] at present
  cases present

theorem retried_frame (ordered : AttemptsInOrder policy s) {before : Impl}
    {at? : Option TimePoint} (retried : RetriedByRule policy before s at?)
    (kept : PastFrame s s') : RetriedByRule policy before s' at? := by
  intro id r' found' front previous aid back listed absent
  obtain ⟨r, found, same⟩ := exists_of_map_eq (kept.frame.requests id) found'
  have attempts : r'.attempts = r.attempts := congrArg Prod.snd same
  have metadata : r'.metadata = r.metadata := by
    have fixed := kept.fixed id
    rw [found, found'] at fixed
    exact congrArg (fun seen => seen.2.1) (Option.some.inj fixed)
  rw [attempts] at listed
  obtain ⟨⟨enabled, failed⟩, live⟩ :=
    retried id r found front previous aid back listed absent
  rw [metadata]
  refine ⟨⟨enabled, ?_⟩, live⟩
  rw [kept.past previous (ordered.past found listed)]
  exact failed

/-- Two neighbours of a list with one element more are neighbours in it, or its
last and the new element. -/
theorem neighbours_concat {aids front back : List AttemptId}
    {new previous aid : AttemptId}
    (listed : aids ++ [new] = front ++ previous :: aid :: back) :
    (∃ back', aids = front ++ previous :: aid :: back') ∨
      (aid = new ∧ aids.getLast? = some previous) := by
  rcases List.eq_nil_or_concat back with rfl | ⟨back', last, rfl⟩
  · have ends : aids ++ [new] = (front ++ [previous]) ++ [aid] := by
      rw [listed]
      simp
    obtain ⟨init, new'⟩ := List.append_inj' ends rfl
    refine .inr ⟨(List.singleton_inj.mp new').symm, ?_⟩
    rw [init]
    exact List.getLast?_concat
  · have ends : aids ++ [new] =
        (front ++ previous :: aid :: back') ++ [last] := by
      rw [listed]
      simp
    exact .inl ⟨back', (List.append_inj' ends rfl).1⟩

/-- The step lemma: a new attempt by the rule. -/
theorem retried_requeue (ordered : AttemptsInOrder policy s) {before : Impl}
    {now : TimePoint} (retried : RetriedByRule policy before s (some now))
    {id : RequestId} {current : RequestRec}
    (found : s.requests[id]? = some current)
    (failed : FailedWithTriesLeft policy s current.currentAttempt)
    (live : current.metadata.deadline.expired now = false) (r : RequestRec)
    (number : UInt32) :
    RetriedByRule policy before (s.requeue id r number) (some now) := by
  have kept : ∀ previous, FailedWithTriesLeft policy s previous →
      FailedWithTriesLeft policy (s.requeue id r number) previous := by
    rintro previous ⟨enabled, a, at_previous, failure⟩
    refine ⟨enabled, a, ?_, failure⟩
    have old := ordered.wellFormed.attempt previous a at_previous
    unfold Impl.requeue
    dsimp only
    rw [getElem?_insert, if_neg]
    · exact at_previous
    · rintro rfl
      exact Nat.lt_irrefl _ old
  intro other r' found' front previous aid back listed absent
  obtain ⟨was, at_other, ⟨rfl, rfl⟩ | ⟨_, rfl⟩⟩ := getElem?_modify_cases found'
  · rw [found] at at_other
    cases at_other
    rcases neighbours_concat listed with ⟨back', earlier⟩ | ⟨_, last⟩
    · obtain ⟨failure, inTime⟩ :=
        retried id current found front previous aid back' earlier absent
      exact ⟨kept previous failure, inTime⟩
    · rw [(ordered.numbered id current found).last] at last
      cases last
      exact ⟨kept _ failed, now, rfl, live⟩
  · obtain ⟨failure, inTime⟩ :=
      retried other r' at_other front previous aid back listed absent
    exact ⟨kept previous failure, inTime⟩

theorem fresh : AttemptsInOrder policy fresh :=
  ⟨.fresh, .fresh, .fresh⟩

theorem step (ordered : AttemptsInOrder policy s) (op : Op) :
    AttemptsInOrder policy (step policy s op) :=
  ⟨ordered.wellFormed.step op, ordered.owns.step ordered.wellFormed op,
    ordered.numbered.step ordered.wellFormed ordered.owns op⟩

theorem tickRule (policy : BatchPolicy) (now : TimePoint) :
    TickRule policy now (AttemptsInOrder policy) := by
  have both := (OwnsAttempts.tickRule policy now).and
    (AllNumbered.tickRule policy now)
  have same : AttemptsInOrder policy = fun s =>
      (WellFormed s ∧ s.OwnsAttempts) ∧ WellFormed s ∧ AllNumbered policy s := by
    funext s
    apply propext
    constructor
    · rintro ⟨wellFormed, owns, numbered⟩
      exact ⟨⟨wellFormed, owns⟩, wellFormed, numbered⟩
    · rintro ⟨⟨wellFormed, owns⟩, _, numbered⟩
      exact ⟨wellFormed, owns, numbered⟩
  rw [same]
  exact both

theorem recordRule (policy : BatchPolicy) (now : TimePoint) :
    RecordRule policy now (fun _ _ _ => true) (AttemptsInOrder policy) := by
  have both := (WellFormed.recordRule policy now).and
    (AllNumbered.recordRule policy now)
  have same : AttemptsInOrder policy = fun s =>
      WellFormed s ∧ s.OwnsAttempts ∧ AllNumbered policy s := by
    funext s
    apply propext
    constructor
    · rintro ⟨wellFormed, owns, numbered⟩
      exact ⟨wellFormed, owns, numbered⟩
    · rintro ⟨wellFormed, owns, numbered⟩
      exact ⟨wellFormed, owns, numbered⟩
  rw [same]
  exact both

end AttemptsInOrder

/-- Attempts are in order, and those that are new are there by the rule. -/
structure RetriedInOrder (policy : BatchPolicy) (before : Impl)
    (at? : Option TimePoint) (s : Impl) : Prop where
  ordered : AttemptsInOrder policy s
  retried : RetriedByRule policy before s at?

/-- A failure that would queue the request again finds it still in time. -/
def failsInTime (policy : BatchPolicy) (now : TimePoint) (s : Impl)
    (id : RequestId) (status : CompletionStatus) : Bool :=
  match s.requests[id]? with
  | none => true
  | some r =>
      !(status == .retryableFailure && policy.retry.enabled &&
          s.attemptNumber r < policy.retry.maxAttempts) ||
        !r.metadata.deadline.expired now

/-- The current attempt of the request failed in a way that may be retried. -/
def failedRetryably (policy : BatchPolicy) (s : Impl) (id : RequestId) :
    Bool :=
  policy.retry.enabled &&
    match s.requests[id]? with
    | none => false
    | some r =>
        match s.attempts[r.currentAttempt]? with
        | none => false
        | some a => a.state == .failed && a.outcome == .retryableFailure

/-- What keeps every new attempt within the rule: a retry is refused or comes
after a failure that may be retried, and no such failure is reported late. -/
def retriesByRule (policy : BatchPolicy) (s : Impl) : Op → Bool
  | .complete comp now =>
      s.allowsReport policy (failsInTime policy now) comp now
  | .retry id _ now =>
      !s.takesRetry policy id now || s.failedRetryably policy id
  | .dispatchAndRun bid executor now =>
      s.allowsRun policy (failsInTime policy now) bid executor now
  | _ => true

namespace RetriedInOrder

variable {policy : BatchPolicy} {before s s' : Impl}

theorem frame {at? : Option TimePoint}
    (held : RetriedInOrder policy before at? s) (kept : PastFrame s s')
    (ordered : AttemptsInOrder policy s') :
    RetriedInOrder policy before at? s' :=
  ⟨ordered, held.ordered.retried_frame held.retried kept⟩

theorem requeueConcluded {now : TimePoint}
    (held : RetriedInOrder policy before (some now) s) {r : RequestRec}
    {a : AttemptRec} {mc : MemberCompletion} {state : RequestState}
    {fairness : FairnessController} {stats : BatchStats}
    (concluding : s.Concluding mc r a state)
    (inTime : failsInTime policy now s mc.request mc.status = true)
    (failed : mc.status = .retryableFailure)
    (enabled : policy.retry.enabled = true)
    (again : a.number < policy.retry.maxAttempts) :
    RetriedByRule policy before (({ s.conclude r mc state now with
      fairness := fairness, stats := stats } : Impl).requeue mc.request r
        (a.number + 1)) (some now) := by
  have ordered := (AttemptsInOrder.recordRule policy now).conclude s r a mc
    state fairness stats held.ordered concluding rfl
  have concluded := held.frame (.conclude concluding now fairness stats) ordered
  have ended : state = .failed := by
    have acts := concluding.acts
    rw [failed] at acts
    exact (Option.some.inj acts).symm
  have request := getElem?_modify_self concluding.request
    fun r => r.conclude mc state
  have kept := (attempts_conclude r mc state).1
  apply ordered.retried_requeue concluded.retried request
  · refine ⟨enabled, a.conclude mc state now, ?_, ?_⟩
    · rw [kept]
      exact getElem?_modify_self concluding.attempt _
    · unfold AttemptRec.conclude
      rw [failed, ended]
      exact ⟨rfl, rfl, again⟩
  · have fixed := congrArg (fun fixed => fixed.2.1) (fixed_conclude r mc state)
    have metadata : (r.conclude mc state).metadata = r.metadata := fixed
    rw [metadata]
    simpa [failsInTime, concluding.request, failed, enabled, attemptNumber,
      concluding.attempt, again] using inTime

theorem recordRule (policy : BatchPolicy) (before : Impl) (now : TimePoint) :
    RecordRule policy now (failsInTime policy now)
      (RetriedInOrder policy before (some now)) where
  count s stats held := held.frame (.of_tables rfl rfl)
    ((AttemptsInOrder.recordRule policy now).count s stats held.ordered)
  conclude s r a mc state fairness stats held concluding _ :=
    held.frame (.conclude concluding now fairness stats)
      ((AttemptsInOrder.recordRule policy now).conclude s r a mc state fairness
        stats held.ordered concluding rfl)
  requeue s r a mc state fairness stats held concluding inTime failed enabled
      again :=
    ⟨(AttemptsInOrder.recordRule policy now).requeue s r a mc state fairness
        stats held.ordered concluding rfl failed enabled again,
      held.requeueConcluded concluding inTime failed enabled again⟩
  dispatch s bid b worker boot held found isSealed :=
    held.frame (.advance rfl rfl)
      ((AttemptsInOrder.recordRule policy now).dispatch s bid b worker boot
        held.ordered found isSealed)
  running s bid b held found dispatched :=
    held.frame (.advance rfl rfl)
      ((AttemptsInOrder.recordRule policy now).running s bid b held.ordered
        found dispatched)
  finish s bid b worker held found inFlight :=
    held.frame (.finishBatch s bid worker now)
      ((AttemptsInOrder.recordRule policy now).finish s bid b worker
        held.ordered found inFlight)

theorem tickRule (policy : BatchPolicy) (before : Impl)
    (at? : Option TimePoint) (now : TimePoint) :
    TickRule policy now (RetriedInOrder policy before at?) where
  wellFormed _ held := held.ordered.wellFormed
  expire s id held := held.frame (.expireWaiting now s id)
    ((AttemptsInOrder.tickRule policy now).expire s id held.ordered)
  cancel s id held := held.frame (.doCancel policy s id now)
    ((AttemptsInOrder.tickRule policy now).cancel s id held.ordered)
  openForming s key held absent := held.frame (.of_tables rfl rfl)
    ((AttemptsInOrder.tickRule policy now).openForming s key held.ordered
      absent)
  place s bid key pick b r held placing :=
    held.frame (.place placing.request bid key)
      ((AttemptsInOrder.tickRule policy now).place s bid key pick b r
        held.ordered placing)
  retime s bid change held retimes := held.frame (.of_tables rfl rfl)
    ((AttemptsInOrder.tickRule policy now).retime s bid change held.ordered
      retimes)
  close s bid b reason held found forming := held.frame (.advance rfl rfl)
    ((AttemptsInOrder.tickRule policy now).close s bid b reason held.ordered
      found forming)
  merge s aid bid a b held merging := held.frame (.mergeInto aid bid a b)
    ((AttemptsInOrder.tickRule policy now).merge s aid bid a b held.ordered
      merging)

theorem doTick {at? : Option TimePoint}
    (held : RetriedInOrder policy before at? s) (order : List CompatibilityKey)
    (now : TimePoint) :
    RetriedInOrder policy before at? (s.doTick policy order now) :=
  (tickRule policy before at? now).doTick
    (fun _ bid b held found _ _ => held.frame (.split rfl rfl)
      ⟨held.ordered.wellFormed.splitSealed found,
        held.ordered.owns.splitSealed bid b,
        held.ordered.numbered.frame (.split rfl rfl)⟩)
    held order

theorem retryQueued {now : TimePoint}
    (held : RetriedInOrder policy before (some now) s) {id : RequestId}
    (allowed : (!s.takesRetry policy id now ||
      s.failedRetryably policy id) = true) :
    RetriedInOrder policy before (some now)
      (s.retryQueued policy id now).2 := by
  have ordered : AttemptsInOrder policy (s.retryQueued policy id now).2 :=
    ⟨held.ordered.wellFormed.retryQueued policy id now,
      held.ordered.owns.retryQueued policy id now,
      held.ordered.numbered.retryQueued held.ordered.owns id now⟩
  refine ⟨ordered, ?_⟩
  obtain ⟨err, refused⟩ | ⟨r, found, again, live, queued⟩ :=
    retryQueued_cases policy s id now
  · rw [refused]
    exact held.retried
  · have taken : s.takesRetry policy id now = true := by
      simp [takesRetry, found, again, live]
    rw [taken] at allowed
    have failed : s.failedRetryably policy id = true := allowed
    unfold failedRetryably at failed
    rw [found, Bool.and_eq_true] at failed
    obtain ⟨enabled, failed⟩ := failed
    dsimp only at failed
    rw [queued]
    apply held.ordered.retried_requeue held.retried found _ live
    refine ⟨enabled, ?_⟩
    unfold attemptNumber at again
    cases current : s.attempts[r.currentAttempt]? with
    | none =>
        rw [current] at failed
        cases failed
    | some a =>
        rw [current] at failed again
        dsimp only at failed again
        rw [Bool.and_eq_true, beq_iff_eq, beq_iff_eq] at failed
        exact ⟨a, rfl, failed.1, failed.2, again⟩

end RetriedInOrder

namespace AttemptsInOrder

variable {policy : BatchPolicy} {s s' : Impl}

/-- No request gets a second attempt. -/
theorem retried_of_lists (ordered : AttemptsInOrder policy s)
    (lists : Everywhere s'.requests fun id r' =>
      (∃ r, s.requests[id]? = some r ∧ r'.attempts = r.attempts) ∨
        r'.attempts.length ≤ 1)
    (at? : Option TimePoint) : RetriedByRule policy s s' at? := by
  intro id r' found' front previous aid back listed absent
  rcases lists id r' found' with ⟨r, found, same⟩ | single
  · have member : aid ∈ r.attempts := by
      rw [← same, listed]
      simp
    obtain ⟨a, present⟩ := (ordered.numbered id r found).exists_of_mem member
    rw [absent] at present
    cases present
  · rw [listed, List.length_append, List.length_cons, List.length_cons]
      at single
    omega

theorem lists_createRequest (s : Impl) (metadata : RequestMetadata)
    (now : TimePoint) (state attemptState : RequestState)
    (outcome : CompletionStatus) (inWaiting : Bool) :
    Everywhere (s.createRequest metadata now state attemptState outcome
      inWaiting).requests fun id r' =>
        (∃ r, s.requests[id]? = some r ∧ r'.attempts = r.attempts) ∨
          r'.attempts.length ≤ 1 := by
  intro id r' found'
  have inserted : (s.requests.insert { value := s.nextRequest } _)[id]? =
      some r' := found'
  rw [getElem?_insert] at inserted
  split at inserted
  · cases inserted
    exact .inr (Nat.le_refl 1)
  · exact .inl ⟨r', inserted, rfl⟩

theorem retried_doSubmit (ordered : AttemptsInOrder policy s)
    (metadata : RequestMetadata) (now : TimePoint) (at? : Option TimePoint) :
    RetriedByRule policy s (s.doSubmit policy metadata now).2 at? := by
  apply ordered.retried_of_lists
  obtain ⟨stats, refused⟩ | ⟨_, ⟨state, outcome, stats, _, recorded⟩ |
      ⟨fairness, stats, queued⟩⟩ := doSubmit_cases policy s metadata now
  · rw [refused]
    exact fun _ r found => .inl ⟨r, found, rfl⟩
  · rw [recorded]
    exact lists_createRequest s metadata now state state outcome false
  · rw [queued]
    exact lists_createRequest s metadata now .eligible .eligible .success true

/-- The step lemma. -/
theorem retried_step (ordered : AttemptsInOrder policy s) {op : Op}
    (guarded : s.retriesByRule policy op = true) :
    RetriedByRule policy s (BatchFabric.step policy s op) op.retriesAt := by
  have held : ∀ at?, RetriedInOrder policy s at? s :=
    fun at? => ⟨ordered, ordered.retried_initially at?⟩
  have framed : ∀ {s' : Impl}, PastFrame s s' →
      RetriedByRule policy s s' none := fun kept =>
    ordered.retried_frame (ordered.retried_initially none) kept
  cases op with
  | submit metadata now => exact ordered.retried_doSubmit metadata now none
  | cancel request now => exact framed (.doCancel policy s request now)
  | complete comp now =>
      exact ((RetriedInOrder.recordRule policy s now).reports.doComplete
        (held (some now)) guarded).retried
  | sealBatch batch reason now =>
      show RetriedByRule policy s (s.sealBatch batch reason now).2 none
      obtain unchanged | ⟨b, _, _, closed⟩ := sealBatch_cases s batch reason now
      · rw [unchanged]
        exact ordered.retried_initially none
      · rw [closed]
        exact framed (.advance rfl rfl)
  | split batch =>
      show RetriedByRule policy s (s.doSplit batch).2 none
      obtain unchanged | ⟨b, _, _, ⟨_, taken⟩ | ⟨_, taken⟩⟩ :=
        doSplit_cases s batch
      · rw [unchanged]
        exact ordered.retried_initially none
      · rw [taken]
        exact framed (.split rfl rfl)
      · rw [taken]
        exact framed (.split rfl rfl)
  | merge a b =>
      show RetriedByRule policy s (s.doMerge policy a b).2 none
      obtain unchanged | ⟨first, second, _, _, _, merged⟩ :=
        doMerge_cases policy s a b
      · rw [unchanged]
        exact ordered.retried_initially none
      · rw [merged]
        exact framed (.mergeInto a b first second)
  | retry id order now =>
      exact (kept_doRetry (RetriedInOrder policy s (some now))
        ((held (some now)).retryQueued guarded)
        fun _ queued => queued.doTick order now).retried
  | tick order now => exact ((held none).doTick order now).retried
  | expire order now =>
      exact ((RetriedInOrder.tickRule policy s none now).expireLocked
        (held none) order).retried
  | dispatchAndRun batch executor now =>
      exact ((RetriedInOrder.recordRule policy s now).reports.doDispatchAndRun
        (held (some now)) guarded).retried
  | prepareDispatch batch worker boot now =>
      show RetriedByRule policy s (s.prepareDispatch batch worker boot now).2
        none
      obtain ⟨err, refused⟩ | ⟨b, _, _, _, dispatched⟩ :=
        prepareDispatch_cases s batch worker boot now
      · rw [refused]
        exact ordered.retried_initially none
      · rw [dispatched]
        exact framed (.advance rfl rfl)
  | registerWorker worker boot cap => exact framed (.of_tables rfl rfl)
  | rollEpoch => exact framed (.of_tables rfl rfl)

theorem run (policy : BatchPolicy) (ops : List Op) :
    AttemptsInOrder policy (BatchFabric.run policy ops) :=
  Transition.run_invariant (AttemptsInOrder policy)
    (fun _ op _ ordered => ordered.step op) fresh

end AttemptsInOrder

/-- In a run whose retries come after a failure that may be retried, and in
which no such failure is reported late, every attempt beyond the first is
there by the rule, whichever step made it. -/
theorem retriedByRule_of_guarded (policy : BatchPolicy) (ops : List Op)
    (guarded : Transition.Along (step policy)
      (fun s op => s.retriesByRule policy op = true) fresh ops) :
    ∀ first op rest, ops = first ++ op :: rest →
      RetriedByRule policy (run policy first) (run policy (first ++ [op]))
        op.retriesAt := by
  rintro first op rest rfl
  have reached := ((Transition.along_append _ _ _ first (op :: rest)).mp
    guarded).2.1
  have next : run policy (first ++ [op]) = step policy (run policy first) op :=
    Transition.run_append (step policy) fresh first [op]
  rw [next]
  exact (AttemptsInOrder.run policy first).retried_step reached

/-- A request is dispatched, and its worker reports a failure that may be
retried. -/
def failedOnce : List Op :=
  [.submit minimalRequest 0, .tick [] 1,
    .prepareDispatch { value := 1 } .null .null 2,
    .complete {
      epoch := { value := 1 }
      generation := { value := 1 }
      batch := { value := 1 }
      members := [{
        request := { value := 1 }
        attempt := { value := 1 }
        status := .retryableFailure }] } 3]

theorem retriedByRule_of_failedOnce :
    ∃ r, (run {} failedOnce).requests[({ value := 1 } : RequestId)]? = some r ∧
      r.attempts = [{ value := 1 }, { value := 2 }] ∧
      FailedWithTriesLeft {} (run {} failedOnce) { value := 1 } := by
  have guarded : Transition.Along (step {})
      (fun s op => s.retriesByRule {} op = true) fresh failedOnce := by
    rw [step_eq_stepKnown .minimal]
    decide +kernel
  have view : ((run {} failedOnce).requests[
      ({ value := 1 } : RequestId)]?).map (·.attempts) =
        some [{ value := 1 }, { value := 2 }] := by
    rw [run_eq_runKnown .minimal]
    decide +kernel
  have new : ((run {} (failedOnce.take 3)).attempts[
      ({ value := 2 } : AttemptId)]?).isNone = true := by
    rw [run_eq_runKnown .minimal]
    decide +kernel
  obtain ⟨r, found, attempts⟩ := Option.map_eq_some_iff.mp view
  have byRule := retriedByRule_of_guarded {} failedOnce guarded
    (failedOnce.take 3) _ [] rfl
  exact ⟨r, found, attempts, (byRule _ r found [] _ _ [] attempts
    (Option.isNone_iff_eq_none.mp new)).1⟩

/-- A request is retried while its first attempt is still waiting. -/
theorem not_retriedByRule_of_waiting :
    ¬ ∀ (policy : BatchPolicy) (ops first rest : List Op) (op : Op),
      ops = first ++ op :: rest →
      RetriedByRule policy (run policy first) (run policy (first ++ [op]))
        op.retriesAt := by
  intro byRule
  let first : List Op := [.submit minimalRequest 0]
  let again : List Op := first ++ [.retry { value := 1 } [] 1]
  have views : ((run {} again).requests[({ value := 1 } : RequestId)]?).map
        (·.attempts) = some [{ value := 1 }, { value := 2 }] ∧
      ((run {} again).attempts[({ value := 1 } : AttemptId)]?).map (·.state) =
        some .eligible := by
    rw [run_eq_runKnown .minimal]
    decide +kernel
  have new : ((run {} first).attempts[
      ({ value := 2 } : AttemptId)]?).isNone = true := by
    rw [run_eq_runKnown .minimal]
    decide +kernel
  obtain ⟨r, found, attempts⟩ := Option.map_eq_some_iff.mp views.1
  obtain ⟨⟨_, a, present, failed, _⟩, _⟩ := byRule {} again first [] _ rfl _ r
    found [] _ _ [] attempts (Option.isNone_iff_eq_none.mp new)
  have waiting := views.2
  rw [present] at waiting
  have state : a.state = .eligible := Option.some.inj waiting
  rw [failed] at state
  cases state

end Impl

end BatchFabric
