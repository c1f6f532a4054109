import BatchFabric.Budget
import BatchFabric.Safety.ActiveMembers
import BatchFabric.Safety.AgreementRun
import BatchFabric.Safety.ContentRule

/-! Batches stay within the budget, whatever joins, leaves or moves. -/

namespace BatchFabric

open OrderedMap

namespace Impl

/-- Every batch carries the totals of its members, within the limits. -/
def WithinBudget (policy : BatchPolicy) (s : Impl) : Prop :=
  Everywhere s.batches fun _ b =>
    Measured policy.constraints.budget s.requests b

theorem allowsAdd_of_fillable {policy : BatchPolicy} {s : Impl} {b : BatchRec}
    {now : TimePoint} {id : RequestId} {r : RequestRec}
    (fillable : s.fillable policy b now id = true)
    (found : s.requests[id]? = some r) :
    policy.constraints.budget.allowsAdd b.accum
      (r.toCandidate id).amounts = true := by
  unfold Impl.fillable at fillable
  rw [found] at fillable
  simp only [passes_iff_not] at fillable
  exact fillable.2.2.2.2

/-- What waits fits into an empty batch. -/
structure Budgeted (policy : BatchPolicy) (s : Impl) : Prop where
  wellFormed : WellFormed s
  measured : s.WithinBudget policy
  fitting : Everywhere s.requests fun _ r =>
    isWaitingState r.state = true →
      policy.constraints.budget.oversized r.metadata = false

namespace Budgeted

variable {policy : BatchPolicy} {s : Impl}

theorem fresh : Budgeted policy fresh where
  wellFormed := WellFormed.fresh
  measured := everywhere_empty
  fitting := everywhere_empty

theorem known (budgeted : s.Budgeted policy) {bid : BatchId} {b : BatchRec}
    (found : s.batches[bid]? = some b) {m : RequestId}
    (member : m ∈ b.members) : (s.requests[m]?).isSome = true := by
  obtain ⟨r, listed⟩ := budgeted.wellFormed.found_member found member
  rw [listed]
  rfl

/-- The rule of updates that create no request and let none wait anew: the
batches have to be measured with the requests as they were. -/
theorem carry {s' : Impl} (budgeted : s.Budgeted policy)
    (wellFormed : WellFormed s')
    (requests : ∀ id : RequestId,
      (s'.requests[id]?).map RequestRec.fixed =
        (s.requests[id]?).map RequestRec.fixed)
    (waited : Everywhere s'.requests (WaitedBefore s))
    (batches : Everywhere s'.batches fun _ b =>
      Measured policy.constraints.budget s.requests b) :
    s'.Budgeted policy where
  wellFormed := wellFormed
  measured bid b found := by
    apply (batches bid b found).congr rfl rfl
    intro m _
    exact metadata_of_fixed (requests m)
  fitting id r' found' waiting := by
    obtain ⟨r, found, waited, fixed⟩ := waited id r' found' waiting
    have metadata : r.metadata = r'.metadata := congrArg (·.2.1) fixed
    rw [← metadata]
    exact budgeted.fitting id r found waited

theorem modified (budgeted : s.Budgeted policy) (bid : BatchId)
    {change : BatchRec → BatchRec}
    (members : ∀ b, (change b).members = b.members)
    (accum : ∀ b, (change b).accum = b.accum) :
    Everywhere (s.batches.modify bid change) fun _ b =>
      Measured policy.constraints.budget s.requests b :=
  budgeted.measured.modify fun b _ measured =>
    measured.congr (members b) (accum b) fun _ _ => rfl

theorem inPlace {s' : Impl} (budgeted : s.Budgeted policy)
    (kept : InPlace s s') (waited : Everywhere s'.requests (WaitedBefore s))
    (batches : Everywhere s'.batches fun _ b =>
      Measured policy.constraints.budget s.requests b) :
    s'.Budgeted policy :=
  budgeted.carry (budgeted.wellFormed.inPlace kept) kept.requests waited
    batches

theorem of_counters {s' : Impl} (budgeted : s.Budgeted policy)
    (wellFormed : WellFormed s') (requests : s'.requests = s.requests)
    (batches : s'.batches = s.batches) : s'.Budgeted policy := by
  apply budgeted.carry wellFormed
  · intro id
    rw [requests]
  · rw [requests]
    exact everywhere_waitedBefore s
  · rw [batches]
    exact budgeted.measured

theorem doCancel (budgeted : s.Budgeted policy) (id : RequestId)
    (now : TimePoint) : (s.doCancel policy id now).2.Budgeted policy := by
  obtain unchanged | ⟨r, _, _, ⟨_, outside⟩ |
      ⟨_, b, _, ⟨_, forming⟩ | ⟨_, later⟩⟩⟩ := doCancel_cases policy s id now
  · rw [unchanged]
    exact budgeted
  · rw [outside]
    exact budgeted.inPlace (InPlace.cancelOutside s id r now)
      ((settles_end .cancelled rfl _ (fun _ => by rfl)
        (fun _ => by rfl)).modify s id) budgeted.measured
  · rw [forming]
    apply budgeted.inPlace (InPlace.cancelForming policy s id r now)
      ((settles_end .cancelled rfl _ (fun _ => by rfl)
        (fun _ => by rfl)).modify s id)
    apply budgeted.measured.modify
    intro b _ measured
    exact (measured.recompute_part List.filter_sublist).congr rfl rfl
      fun _ _ => rfl
  · rw [later]
    exact budgeted.inPlace (InPlace.cancelAfterSeal s id r now)
      ((settles_end .cancelled rfl _ (fun _ => by rfl)
        (fun _ => by rfl)).modify s id)
      (budgeted.modified r.batch (fun _ => by rfl) (fun _ => by rfl))

theorem expireWaiting (budgeted : s.Budgeted policy) (now : TimePoint)
    (id : RequestId) : (expireWaiting now s id).Budgeted policy := by
  have dequeued := fun r : RequestRec =>
    budgeted.inPlace (InPlace.dequeue s r.key id) (everywhere_waitedBefore s)
      budgeted.measured
  obtain unchanged | ⟨r, _, ⟨_, removed⟩ | ⟨_, stats, expired⟩⟩ :=
    expireWaiting_cases now s id
  · rw [unchanged]
    exact budgeted
  · rw [removed]
    exact dequeued r
  · rw [expired]
    exact (dequeued r).inPlace
      (InPlace.endRequest _ id r .expired .expired now stats)
      ((settles_end .expired rfl _ (fun _ => by rfl)
        (fun _ => by rfl)).modify _ id) (dequeued r).measured

theorem openForming (budgeted : s.Budgeted policy) (key : CompatibilityKey)
    (now : TimePoint) : (s.openForming key now).Budgeted policy := by
  apply budgeted.carry (budgeted.wellFormed.openForming key now)
    (fun _ => rfl) (everywhere_waitedBefore s)
  apply budgeted.measured.insert
  constructor
  · intro d
    cases d <;> rfl
  · intro d _
    exact Nat.zero_le _

theorem sealForming (budgeted : s.Budgeted policy) {bid : BatchId}
    {b : BatchRec} (found : s.batches[bid]? = some b)
    (forming : b.state = .forming) (reason : SealReason) (now : TimePoint) :
    (s.sealForming bid b reason now).Budgeted policy :=
  budgeted.carry (budgeted.wellFormed.sealForming found forming reason now)
    (map_getElem?_modifyAll (fixed_advance _ _) s.requests b.members)
    ((settles_advance rfl).modifyAll (everywhere_waitedBefore s) b.members)
    (budgeted.modified bid (fun _ => by rfl) (fun _ => by rfl))

/-- The totals recomputed for a part of the members, from a table in which
requests have moved. -/
theorem recomputed (budgeted : s.Budgeted policy) {bid : BatchId}
    {b b' : BatchRec} (found : s.batches[bid]? = some b)
    (part : b'.members.Sublist b.members)
    {requests : Map RequestId RequestRec}
    (moved : ∀ id : RequestId, (requests[id]?).map RequestRec.fixed =
      (s.requests[id]?).map RequestRec.fixed) :
    Measured policy.constraints.budget s.requests
      (recomputeAccum requests b') := by
  have measured := (budgeted.measured bid b found).congr rfl rfl
    fun m _ => metadata_of_fixed (moved m)
  exact (measured.recompute_part part).congr rfl rfl
    fun m _ => (metadata_of_fixed (moved m)).symm

theorem splitSealed (budgeted : s.Budgeted policy) {bid : BatchId}
    {b : BatchRec} (found : s.batches[bid]? = some b) :
    (s.splitSealed bid b).Budgeted policy := by
  have moved := fixed_splitRequests s bid { value := s.nextBatch } b
  apply budgeted.carry (budgeted.wellFormed.splitSealed found) moved
    ((settles_setBatch bid).modifyAll
      ((settles_setBatch _).modifyAll (everywhere_waitedBefore s) _) _)
  have first := List.take_sublist (b.members.length / 2) b.members
  have second := List.drop_sublist (b.members.length / 2) b.members
  apply Everywhere.insert
  · apply Everywhere.insert
    · apply budgeted.measured.insert
      have parent : Measured policy.constraints.budget s.requests
          (splitParent (s.splitRequests bid _ b) { value := s.nextBatch } b) :=
        budgeted.recomputed found first moved
      exact parent.congr rfl rfl fun _ _ => rfl
    · exact (budgeted.recomputed found second moved).congr rfl rfl
        fun _ _ => rfl
  · exact budgeted.recomputed found first moved

theorem splitOpen (budgeted : s.Budgeted policy) {bid : BatchId}
    {b : BatchRec} (found : s.batches[bid]? = some b) :
    (s.splitOpen bid b).Budgeted policy := by
  have moved := fixed_splitRequests s bid { value := s.nextBatch } b
  apply budgeted.carry (budgeted.wellFormed.splitOpen found) moved
    ((settles_setBatch bid).modifyAll
      ((settles_setBatch _).modifyAll (everywhere_waitedBefore s) _) _)
  apply Everywhere.insert
  · apply budgeted.measured.insert
    exact budgeted.recomputed found (List.take_sublist _ b.members) moved
  · exact budgeted.recomputed found (List.drop_sublist _ b.members) moved

theorem mergeInto (budgeted : s.Budgeted policy)
    (modest : policy.constraints.budget.Modest) {aid bid : BatchId}
    {a b : BatchRec} (foundA : s.batches[aid]? = some a)
    (foundB : s.batches[bid]? = some b)
    (possible : canMerge policy a b = true) :
    (s.mergeInto aid bid a b).Budgeted policy := by
  have moved : ∀ id : RequestId, ((modifyAll s.requests b.members
      (RequestRec.setBatch aid))[id]?).map RequestRec.fixed =
        (s.requests[id]?).map RequestRec.fixed :=
    map_getElem?_modifyAll (fun _ => by rfl) s.requests b.members
  apply budgeted.carry (budgeted.wellFormed.mergeInto foundA foundB
    (canMerge_cases possible).1) moved
    ((settles_setBatch aid).modifyAll (everywhere_waitedBefore s) b.members)
  have merged : Everywhere (s.batches.insert aid (mergeTarget
      (modifyAll s.requests b.members (RequestRec.setBatch aid)) bid a b))
      fun _ b => Measured policy.constraints.budget s.requests b := by
    apply budgeted.measured.insert
    have target := ((budgeted.measured aid a foundA).congr rfl rfl
      fun m _ => metadata_of_fixed (moved m)).merge
        ((budgeted.measured bid b foundB).congr rfl rfl
          fun m _ => metadata_of_fixed (moved m)) modest possible bid
    exact target.congr rfl rfl fun m _ => (metadata_of_fixed (moved m)).symm
  apply merged.modify
  intro before _ measured
  exact measured.congr rfl rfl fun _ _ => rfl

theorem place (budgeted : s.Budgeted policy)
    (modest : policy.constraints.budget.Modest) {bid : BatchId}
    {key : CompatibilityKey} {pick : RequestId} {now : TimePoint}
    {b : BatchRec} {r : RequestRec}
    (placing : Placing policy s bid key pick now b r) :
    (s.place bid key pick).Budgeted policy := by
  have wellFormed := (WellFormed.tickRule policy now).place s bid key pick b r
    budgeted.wellFormed placing
  have fits : policy.constraints.budget.allowsAdd b.accum
      (r.toCandidate pick).amounts = true :=
    allowsAdd_of_fillable placing.fillable placing.request
  rw [place_eq placing.request] at wellFormed ⊢
  apply budgeted.carry wellFormed
    (map_getElem?_modify (fun _ => by rfl) s.requests pick)
    ((settles_end .reserved rfl _ (fun _ => by rfl)
      (fun _ => by rfl)).modify s pick)
  apply budgeted.measured.modify
  intro before found measured
  rw [placing.batch] at found
  cases found
  exact measured.addMember modest placing.request
    (fun m member => budgeted.known placing.batch member)
    (budgeted.fitting pick r placing.request placing.waiting) fits

/-- A request created under a fresh id, waiting only if it fits. -/
theorem create (budgeted : s.Budgeted policy) {s' : Impl}
    (wellFormed : WellFormed s') {r : RequestRec}
    (requests : s'.requests =
      s.requests.insert { value := s.nextRequest } r)
    (batches : s'.batches = s.batches)
    (fits : isWaitingState r.state = true →
      policy.constraints.budget.oversized r.metadata = false) :
    s'.Budgeted policy where
  wellFormed := wellFormed
  measured := by
    intro bid b found
    rw [batches] at found
    apply (budgeted.measured bid b found).congr rfl rfl
    intro m member
    rw [requests, getElem?_insert,
      if_neg (budgeted.wellFormed.ne_of_member found member)]
  fitting := by
    rw [requests]
    exact budgeted.fitting.insert fits

/-- A request that no batch could hold is recorded as expired or rejected. -/
theorem doSubmit_of_oversized (s : Impl) {metadata : RequestMetadata}
    (oversized : policy.constraints.budget.oversized metadata = true)
    (now : TimePoint) :
    (∃ stats, (s.doSubmit policy metadata now).2 = { s with stats := stats }) ∨
      ∃ state outcome stats, isWaitingState state = false ∧
        (s.doSubmit policy metadata now).2 =
          { s.createRequest metadata now state state outcome false with
            stats := stats } := by
  unfold Impl.doSubmit
  simp only [oversized, if_true]
  split
  · exact .inl ⟨_, rfl⟩
  · split
    · exact .inr ⟨.expired, _, _, rfl, rfl⟩
    · exact .inr ⟨.rejected, _, _, rfl, rfl⟩

theorem doSubmit (budgeted : s.Budgeted policy) (metadata : RequestMetadata)
    (now : TimePoint) : (s.doSubmit policy metadata now).2.Budgeted policy := by
  have wellFormed := budgeted.wellFormed.doSubmit policy metadata now
  cases fits : policy.constraints.budget.oversized metadata with
  | true =>
      obtain ⟨stats, unrecorded⟩ | ⟨state, outcome, stats, ended, taken⟩ :=
        doSubmit_of_oversized s fits now
      · rw [unrecorded] at wellFormed ⊢
        exact budgeted.of_counters wellFormed rfl rfl
      · rw [taken] at wellFormed ⊢
        apply budgeted.create wellFormed rfl rfl
        intro waiting
        rw [ended] at waiting
        cases waiting
  | false =>
      obtain ⟨stats, unrecorded⟩ | ⟨_, ⟨state, outcome, stats, _, taken⟩ |
          ⟨fairness, stats, taken⟩⟩ := doSubmit_cases policy s metadata now
      · rw [unrecorded] at wellFormed ⊢
        exact budgeted.of_counters wellFormed rfl rfl
      · rw [taken] at wellFormed ⊢
        exact budgeted.create wellFormed rfl rfl fun _ => fits
      · rw [taken] at wellFormed ⊢
        exact budgeted.create wellFormed rfl rfl fun _ => fits

theorem requeue (budgeted : s.Budgeted policy) {id : RequestId}
    {r : RequestRec} (number : UInt32)
    (wellFormed : WellFormed (s.requeue id r number))
    (fits : ∀ r, s.requests[id]? = some r →
      policy.constraints.budget.oversized r.metadata = false) :
    (s.requeue id r number).Budgeted policy where
  wellFormed := wellFormed
  measured bid b found := (budgeted.measured bid b found).congr rfl rfl
    fun m _ => map_getElem?_modify (fun _ => by rfl) s.requests id m
  fitting := by
    apply budgeted.fitting.modify
    intro r found _ _
    exact fits r found

theorem conclude (budgeted : s.Budgeted policy) {mc : MemberCompletion}
    {r : RequestRec} {a : AttemptRec} {state : RequestState}
    (concluding : s.Concluding mc r a state) (now : TimePoint)
    (fairness : FairnessController) (stats : BatchStats) :
    ({ s.conclude r mc state now with
      fairness := fairness, stats := stats } : Impl).Budgeted policy := by
  have ended : isWaitingState state = false :=
    not_waiting_of_terminal (endState_terminal concluding.acts)
  apply budgeted.inPlace (InPlace.conclude s r mc state now fairness stats)
    ((settles_end state ended _ (fun r => fixed_conclude r mc state)
      (fun r => state_conclude r mc state)).modify s mc.request)
  apply budgeted.modified r.batch
  · intro b
    exact (conclude_listing b mc).2.1
  · intro b
    unfold BatchRec.conclude
    dsimp only
    split <;> rfl

theorem tickRule (modest : policy.constraints.budget.Modest)
    (now : TimePoint) : TickRule policy now (Budgeted policy) where
  wellFormed _ budgeted := budgeted.wellFormed
  expire _ id budgeted := budgeted.expireWaiting now id
  cancel _ id budgeted := budgeted.doCancel id now
  openForming _ key budgeted _ := budgeted.openForming key now
  place _ _ _ _ _ _ budgeted placing := budgeted.place modest placing
  retime s bid change budgeted retimes := by
    apply budgeted.inPlace (InPlace.of_retimes s bid retimes)
      (everywhere_waitedBefore s)
    apply budgeted.modified bid
    · intro b
      obtain ⟨allowed, formed, changed⟩ := retimes b
      rw [changed]
    · intro b
      obtain ⟨allowed, formed, changed⟩ := retimes b
      rw [changed]
  close _ _ _ reason budgeted found forming :=
    budgeted.sealForming found forming reason now
  merge _ _ _ _ _ budgeted merging :=
    budgeted.mergeInto modest merging.first merging.second merging.possible

theorem doTick (budgeted : s.Budgeted policy)
    (modest : policy.constraints.budget.Modest)
    (order : List CompatibilityKey) (now : TimePoint) :
    (s.doTick policy order now).Budgeted policy :=
  (tickRule modest now).doTick
    (fun _ _ _ held found _ _ => held.splitSealed found) budgeted order

end Budgeted

/-- The request fits into an empty batch. -/
def fitsBudget (policy : BatchPolicy) (s : Impl) (id : RequestId) : Bool :=
  match s.requests[id]? with
  | none => true
  | some r => !policy.constraints.budget.oversized r.metadata

def requeuesFitting (policy : BatchPolicy) (s : Impl) (id : RequestId)
    (status : CompletionStatus) : Bool :=
  !s.requeues policy id status || s.fitsBudget policy id

/-- No request is queued again that exceeds a limit on its own. -/
def keepsBudget (policy : BatchPolicy) (s : Impl) : Op → Bool
  | .retry request _ now =>
      !s.takesRetry policy request now || s.fitsBudget policy request
  | .complete completion now =>
      s.allowsReport policy (requeuesFitting policy) completion now
  | .dispatchAndRun batch executor now =>
      s.allowsRun policy (requeuesFitting policy) batch executor now
  | _ => true

theorem fits_of_fitsBudget {policy : BatchPolicy} {s : Impl} {id : RequestId}
    (fits : s.fitsBudget policy id = true) (r : RequestRec)
    (found : s.requests[id]? = some r) :
    policy.constraints.budget.oversized r.metadata = false := by
  unfold fitsBudget at fits
  rw [found] at fits
  simpa using fits

namespace Budgeted

variable {policy : BatchPolicy} {s : Impl}

theorem recordRule (policy : BatchPolicy) (now : TimePoint) :
    RecordRule policy now (requeuesFitting policy) (Budgeted policy) where
  count _ _ budgeted :=
    budgeted.of_counters (budgeted.wellFormed.of_counters _ _ _ _) rfl rfl
  conclude _ _ _ _ _ fairness stats budgeted concluding _ :=
    budgeted.conclude concluding now fairness stats
  requeue s r a mc state fairness stats budgeted concluding allowed retryable
      enabled again := by
    have concluded := budgeted.conclude concluding now fairness stats
    have fits : s.fitsBudget policy mc.request = true := by
      simpa [requeuesFitting, requeues, retryable, enabled,
        concluding.request, concluding.attempt, again] using allowed
    apply concluded.requeue
    · exact (WellFormed.recordRule policy now).requeue s r a mc state fairness
        stats budgeted.wellFormed concluding rfl retryable enabled again
    · intro r' found'
      obtain ⟨before, found, ⟨_, rfl⟩ | ⟨different, _⟩⟩ :=
        getElem?_modify_cases found'
      · rw [show (before.conclude mc state).metadata = before.metadata from
          congrArg (·.2.1) (fixed_conclude before mc state)]
        exact fits_of_fitsBudget fits before found
      · exact absurd rfl different
  dispatch s bid b worker boot budgeted found isSealed := by
    apply budgeted.inPlace (InPlace.markDispatched found isSealed worker boot
      now) ((settles_advance rfl).modifyAll (everywhere_waitedBefore s) _)
    exact budgeted.modified bid (fun _ => by rfl) (fun _ => by rfl)
  running s bid b budgeted found dispatched := by
    apply budgeted.inPlace (InPlace.markRunning found dispatched)
      ((settles_advance rfl).modifyAll (everywhere_waitedBefore s) _)
    exact budgeted.modified bid (fun _ => by rfl) (fun _ => by rfl)
  finish s bid b worker budgeted found inFlight := by
    have wellFormed := (WellFormed.recordRule policy now).finish s bid b worker
      budgeted.wellFormed found inFlight
    obtain unchanged | ⟨b', stats, workers, _, ⟨_, ended⟩ | ⟨_, partly⟩⟩ :=
      finishBatch_cases s bid worker now
    · rw [unchanged]
      exact budgeted
    · rw [ended] at wellFormed ⊢
      exact budgeted.carry wellFormed (fun _ => rfl)
        (everywhere_waitedBefore s)
        (budgeted.modified bid (fun _ => by rfl) (fun _ => by rfl))
    · rw [partly] at wellFormed ⊢
      exact budgeted.carry wellFormed (fun _ => rfl)
        (everywhere_waitedBefore s)
        (budgeted.modified bid (fun _ => by rfl) (fun _ => by rfl))

theorem step (budgeted : s.Budgeted policy)
    (modest : policy.constraints.budget.Modest) {op : Op}
    (guarded : keepsBudget policy s op = true) :
    (step policy s op).Budgeted policy := by
  cases op with
  | submit metadata now => exact budgeted.doSubmit metadata now
  | cancel request now => exact budgeted.doCancel request now
  | complete completion now =>
      exact (recordRule policy now).reports.doComplete budgeted guarded
  | sealBatch batch reason now =>
      show (s.sealBatch batch reason now).2.Budgeted policy
      obtain unchanged | ⟨b, found, forming, closed⟩ :=
        sealBatch_cases s batch reason now
      · rw [unchanged]
        exact budgeted
      · rw [closed]
        exact budgeted.sealForming found forming reason now
  | split batch =>
      show (s.doSplit batch).2.Budgeted policy
      obtain unchanged | ⟨b, found, _, ⟨_, taken⟩ | ⟨_, taken⟩⟩ :=
        doSplit_cases s batch
      · rw [unchanged]
        exact budgeted
      · rw [taken]
        exact budgeted.splitSealed found
      · rw [taken]
        exact budgeted.splitOpen found
  | merge a b =>
      show (s.doMerge policy a b).2.Budgeted policy
      obtain unchanged | ⟨first, second, foundA, foundB, possible, merged⟩ :=
        doMerge_cases policy s a b
      · rw [unchanged]
        exact budgeted
      · rw [merged]
        exact budgeted.mergeInto modest foundA foundB possible
  | retry request order now =>
      apply kept_doRetry (Budgeted policy)
      · obtain unchanged | ⟨r, found, fits, queued⟩ :=
          retryQueued_guarded guarded
        · rw [unchanged]
          exact budgeted
        · rw [queued]
          exact budgeted.requeue _ (budgeted.wellFormed.requeue
            (budgeted.wellFormed.keyed_of_found found) request _)
            (fits_of_fitsBudget fits)
      · exact fun _ held => held.doTick modest order now
  | tick order now => exact budgeted.doTick modest order now
  | expire order now =>
      exact (tickRule modest now).expireLocked budgeted order
  | dispatchAndRun batch executor now =>
      exact (recordRule policy now).reports.doDispatchAndRun budgeted guarded
  | prepareDispatch batch worker boot now =>
      exact (recordRule policy now).reports.prepareDispatch budgeted batch worker
        boot
  | registerWorker worker boot cap =>
      exact budgeted.of_counters (budgeted.wellFormed.of_counters _ _ _ _) rfl
        rfl
  | rollEpoch =>
      exact budgeted.of_counters (budgeted.wellFormed.of_counters _ _ _ _) rfl
        rfl

end Budgeted

/-- Batches carry their totals and stay within the limits, whatever operations
lead to, as long as they queue no request again that exceeds a limit on its own
and merge no batch with itself. -/
theorem withinBudget_of_run (policy : BatchPolicy) (ops : List Op) (s : Impl)
    (modest : policy.constraints.budget.Modest)
    (runs : RunsTo policy (fun s op => keepsBudget policy s op = true ∧
      mergesItself policy s op = false) ops s) :
    s.WithinBudget policy := by
  obtain ⟨rfl, guarded⟩ := runs.eq_run fun _ _ allowed => allowed.2
  exact (guarded.invariant (Budgeted policy)
    (fun _ _ _ held allowed => held.step modest allowed.1)
    Budgeted.fresh).measured

/-- A request that fits is retried and joins another in its batch; the batch is
split and its halves are merged. -/
theorem withinBudget_of_retried :
    (run { constraints.budget.maxWork := 2
           constraints.minimumPreferredBatch := 3 }
      [.submit minimalRequest 0, .cancel { value := 1 } 0,
        .submit minimalRequest 1, .retry { value := 1 } [] 2,
        .split { value := 1 }, .merge { value := 1 } { value := 2 },
        .sealBatch { value := 1 } .policyDerived 3]).WithinBudget
        { constraints.budget.maxWork := 2
          constraints.minimumPreferredBatch := 3 } :=
  withinBudget_of_run _ _ _ ⟨by decide, by decide, by decide, by decide,
    by decide⟩ (runsTo_run (by
      rw [step_eq_stepKnown .minimal]
      decide +kernel))

/-- A request rejected as oversized is retried. The check of the work limit
wraps, and the request joins a batch that it takes over every bound. -/
theorem not_withinBudget_of_rejected :
    ¬ ∀ (policy : BatchPolicy) (ops : List Op),
      policy.constraints.budget.Modest →
        (run policy ops).WithinBudget policy := by
  intro within
  let policy : BatchPolicy := { constraints.budget.maxWork := 10 }
  let ops : List Op := [
    .submit { minimalRequest with work := { value := 5 } } 0,
    .submit { minimalRequest with work := { value := 0 - 3 } } 0,
    .retry { value := 2 } [] 1]
  have measured := within policy ops ⟨by decide, by decide, by decide,
    by decide, by decide⟩
  have exceeded : ((run policy ops).batches[({ value := 1 } : BatchId)]?).any
      (fun b => decide (Dimension.work.limit policy.constraints.budget <
        Dimension.work.total (run policy ops).requests b.members)) = true := by
    rw [run_eq_runKnown .minimal]
    decide +kernel
  obtain ⟨b, found, above⟩ := (Option.any_eq_true _ _).mp exceeded
  exact Nat.not_le.mpr (of_decide_eq_true above)
    ((measured _ b found).bounded .work (by decide))

end Impl

end BatchFabric
