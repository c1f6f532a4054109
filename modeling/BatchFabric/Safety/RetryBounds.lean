import BatchFabric.Safety.Attempts

namespace BatchFabric

open OrderedMap

/-! The attempts of a request: their numbers and how many there are. -/

/-- The attempts of a request and its current one. -/
def RequestRec.attempting (r : RequestRec) : AttemptId × List AttemptId :=
  (r.currentAttempt, r.attempts)

namespace Impl

/-- The numbers of the attempts listed, where they exist. -/
def attemptNumbers (s : Impl) (aids : List AttemptId) : List (Option UInt32) :=
  aids.map fun aid => (s.attempts[aid]?).map (·.number)

/-- One, two and so on. -/
def countingFromOne (count : Nat) : List (Option UInt32) :=
  (List.range count).map fun i => some (UInt32.ofNat (i + 1))

theorem countingFromOne_succ (count : Nat) :
    countingFromOne (count + 1) =
      countingFromOne count ++ [some (UInt32.ofNat (count + 1))] := by
  unfold countingFromOne
  rw [List.range_succ, List.map_append, List.map_singleton]

/-- The attempts of a request are distinct, exist, and are numbered from one up
to a bound. The current one is the last. -/
structure Numbered (policy : BatchPolicy) (s : Impl) (r : RequestRec) :
    Prop where
  distinct : r.attempts.Nodup
  numbers : s.attemptNumbers r.attempts = countingFromOne r.attempts.length
  bounded : r.attempts.length ≤ max 1 policy.retry.maxAttempts.toNat
  last : r.attempts.getLast? = some r.currentAttempt

def AllNumbered (policy : BatchPolicy) (s : Impl) : Prop :=
  Everywhere s.requests fun _ r => Numbered policy s r

/-- Every request keeps its attempts, and every attempt its number. -/
structure AttemptFrame (s s' : Impl) : Prop where
  requests : ∀ id : RequestId,
    (s'.requests[id]?).map RequestRec.attempting =
      (s.requests[id]?).map RequestRec.attempting := by exact fun _ => rfl
  numbers : ∀ aid : AttemptId,
    (s'.attempts[aid]?).map (·.number) =
      (s.attempts[aid]?).map (·.number) := by exact fun _ => rfl

namespace AttemptFrame

variable (s : Impl)

theorem of_tables {s s' : Impl} (requests : s'.requests = s.requests)
    (attempts : s'.attempts = s.attempts) : AttemptFrame s s' :=
  ⟨by rw [requests]; exact fun _ => rfl, by rw [attempts]; exact fun _ => rfl⟩

theorem attempting_advance (source target : RequestState) (r : RequestRec) :
    (r.advance source target).attempting = r.attempting := by
  unfold RequestRec.advance
  split <;> rfl

theorem number_conclude (a : AttemptRec) (mc : MemberCompletion)
    (state : RequestState) (now : TimePoint) :
    (a.conclude mc state now).number = a.number := by
  unfold AttemptRec.conclude
  split <;> rfl

theorem conclude (r : RequestRec) (mc : MemberCompletion)
    (state : RequestState) (now : TimePoint) (fairness : FairnessController)
    (stats : BatchStats) :
    AttemptFrame s { s.conclude r mc state now with
      fairness := fairness, stats := stats } where
  requests := map_getElem?_modify (fun r => by
    have kept := attempts_conclude r mc state
    unfold RequestRec.attempting
    rw [kept.1, kept.2]) s.requests mc.request
  numbers := map_getElem?_modify
    (fun a => number_conclude a mc state now) s.attempts r.currentAttempt

theorem cancelOutside (id : RequestId) (r : RequestRec) (now : TimePoint) :
    AttemptFrame s (s.cancelOutside id r now) where
  requests := map_getElem?_modify (fun _ => by rfl) s.requests id
  numbers := map_getElem?_modify (fun _ => by rfl) s.attempts r.currentAttempt

theorem cancelForming (policy : BatchPolicy) (id : RequestId) (r : RequestRec)
    (now : TimePoint) : AttemptFrame s (s.cancelForming policy id r now) where
  requests := map_getElem?_modify (fun _ => by rfl) s.requests id
  numbers := map_getElem?_modify (fun _ => by rfl) s.attempts r.currentAttempt

theorem cancelAfterSeal (id : RequestId) (r : RequestRec) (now : TimePoint) :
    AttemptFrame s (s.cancelAfterSeal id r now) where
  requests := map_getElem?_modify (fun _ => by rfl) s.requests id
  numbers := map_getElem?_modify (fun _ => by rfl) s.attempts r.currentAttempt

theorem doCancel (policy : BatchPolicy) (id : RequestId) (now : TimePoint) :
    AttemptFrame s (s.doCancel policy id now).2 := by
  obtain unchanged | ⟨r, _, _, ⟨_, outside⟩ |
      ⟨_, b, _, ⟨_, forming⟩ | ⟨_, later⟩⟩⟩ := doCancel_cases policy s id now
  · rw [unchanged]
    exact {}
  · rw [outside]
    exact cancelOutside s id r now
  · rw [forming]
    exact cancelForming s policy id r now
  · rw [later]
    exact cancelAfterSeal s id r now

theorem expireWaiting (now : TimePoint) (id : RequestId) :
    AttemptFrame s (expireWaiting now s id) := by
  obtain unchanged | ⟨r, _, ⟨_, removed⟩ | ⟨_, stats, ended⟩⟩ :=
    expireWaiting_cases now s id
  · rw [unchanged]
    exact {}
  · rw [removed]
    exact {}
  · rw [ended]
    exact {
      requests := map_getElem?_modify (fun _ => by rfl) s.requests id
      numbers :=
        map_getElem?_modify (fun _ => by rfl) s.attempts r.currentAttempt }

theorem place {s : Impl} {pick : RequestId} {r : RequestRec}
    (request : s.requests[pick]? = some r) (bid : BatchId)
    (key : CompatibilityKey) : AttemptFrame s (s.place bid key pick) := by
  rw [place_eq request]
  exact {
    requests := map_getElem?_modify (fun _ => by rfl) s.requests pick }

/-- Dispatching and sealing move the members of a batch on. -/
theorem advance {s s' : Impl} {members : List RequestId}
    {source target : RequestState}
    (requests : s'.requests =
      modifyAll s.requests members (RequestRec.advance source target))
    (attempts : s'.attempts = s.attempts) : AttemptFrame s s' where
  requests := by
    rw [requests]
    exact map_getElem?_modifyAll (attempting_advance source target) s.requests
      members
  numbers := by
    rw [attempts]
    exact fun _ => rfl

/-- Splits change nothing of a request but the batch it names. -/
theorem split {s s' : Impl} {bid child : BatchId} {b : BatchRec}
    (requests : s'.requests = s.splitRequests bid child b)
    (attempts : s'.attempts = s.attempts) : AttemptFrame s s' where
  requests := by
    rw [requests]
    intro id
    exact (map_getElem?_modifyAll (fun _ => by rfl) _ (firstHalf b) id).trans
      (map_getElem?_modifyAll (fun _ => by rfl) s.requests (secondHalf b) id)
  numbers := by
    rw [attempts]
    exact fun _ => rfl

theorem mergeInto (aid bid : BatchId) (a b : BatchRec) :
    AttemptFrame s (s.mergeInto aid bid a b) where
  requests :=
    map_getElem?_modifyAll (fun _ => by rfl) s.requests b.members

end AttemptFrame

namespace AllNumbered

variable {policy : BatchPolicy} {s s' : Impl}

theorem fresh : AllNumbered policy fresh :=
  everywhere_empty

theorem frame (numbered : AllNumbered policy s)
    (frame : AttemptFrame s s') : AllNumbered policy s' := by
  intro id r' found'
  obtain ⟨r, found, same⟩ := exists_of_map_eq (frame.requests id) found'
  obtain ⟨current, attempts⟩ := Prod.ext_iff.mp same
  have known := numbered id r found
  have current : r'.currentAttempt = r.currentAttempt := current
  have attempts : r'.attempts = r.attempts := attempts
  have numbers : s'.attemptNumbers r.attempts = s.attemptNumbers r.attempts :=
    List.map_congr_left fun aid _ => frame.numbers aid
  constructor
  · rw [attempts]
    exact known.distinct
  · rw [attempts, numbers]
    exact known.numbers
  · rw [attempts]
    exact known.bounded
  · rw [attempts, current]
    exact known.last

/-- A record under a new attempt changes no other number. -/
theorem attemptNumbers_insert (s' : Impl) {aids : List AttemptId}
    (old : ∀ aid ∈ aids, aid.value < s.nextAttempt) (a : AttemptRec)
    (attempts : s'.attempts = s.attempts.insert { value := s.nextAttempt } a) :
    s'.attemptNumbers aids = s.attemptNumbers aids := by
  apply List.map_congr_left
  intro aid member
  rw [attempts, getElem?_insert, if_neg]
  rintro rfl
  exact absurd (old _ member) (Nat.lt_irrefl _)

theorem createRequest (numbered : AllNumbered policy s)
    (owns : s.OwnsAttempts) (metadata : RequestMetadata) (now : TimePoint)
    (state attemptState : RequestState) (outcome : CompletionStatus)
    (inWaiting : Bool) :
    AllNumbered policy (s.createRequest metadata now state attemptState outcome
      inWaiting) := by
  intro id r' found'
  have inserted : (s.requests.insert { value := s.nextRequest } _)[id]? =
      some r' := found'
  rw [getElem?_insert] at inserted
  split at inserted
  · cases inserted
    refine ⟨List.nodup_singleton _, ?_, Nat.le_max_left _ _, rfl⟩
    have new : ((s.createRequest metadata now state attemptState outcome
        inWaiting).attempts[({ value := s.nextAttempt } : AttemptId)]?).map
          (·.number) = some 1 := by
      unfold Impl.createRequest
      dsimp only
      rw [getElem?_insert, if_pos rfl]
      rfl
    exact congrArg (fun number => [number]) new
  · have known := numbered id r' inserted
    have numbers := attemptNumbers_insert
      (s.createRequest metadata now state attemptState outcome inWaiting)
      (owns.allocated id r' inserted) _ rfl
    exact ⟨known.distinct, numbers.trans known.numbers, known.bounded,
      known.last⟩

/-- The number of the current attempt is the number of attempts. -/
theorem length_of_current {r : RequestRec} (known : Numbered policy s r)
    {number : UInt32}
    (current : (s.attempts[r.currentAttempt]?).map (·.number) = some number) :
    number = UInt32.ofNat r.attempts.length ∧
      number.toNat = r.attempts.length := by
  obtain ⟨front, listed⟩ := List.getLast?_eq_some_iff.mp known.last
  have numbers := known.numbers
  rw [listed, List.length_append, List.length_singleton,
    countingFromOne_succ] at numbers
  unfold attemptNumbers at numbers
  rw [List.map_append, List.map_singleton] at numbers
  have ends := (List.append_inj' numbers rfl).2
  rw [current] at ends
  have same : number = UInt32.ofNat r.attempts.length := by
    rw [listed, List.length_append, List.length_singleton]
    exact Option.some.inj (List.singleton_inj.mp ends)
  have bounded := known.bounded
  have small := policy.retry.maxAttempts.toNat_lt
  refine ⟨same, ?_⟩
  rw [same]
  apply UInt32.toNat_ofNat_of_lt'
  show r.attempts.length < 2 ^ 32
  omega

theorem requeue (numbered : AllNumbered policy s) (owns : s.OwnsAttempts)
    {id : RequestId} {before : RequestRec}
    (found : s.requests[id]? = some before) (r : RequestRec) {number : UInt32}
    (current :
      (s.attempts[before.currentAttempt]?).map (·.number) = some number)
    (again : number < policy.retry.maxAttempts) :
    AllNumbered policy (s.requeue id r (number + 1)) := by
  intro other r' found'
  obtain ⟨was, at_other, ⟨rfl, rfl⟩ | ⟨_, rfl⟩⟩ := getElem?_modify_cases found'
  · rw [found] at at_other
    cases at_other
    have known := numbered id before found
    have old := owns.allocated id before found
    obtain ⟨same, count⟩ := length_of_current known current
    have numbers := attemptNumbers_insert
      (s.requeue id r (number + 1)) old _ rfl
    have new : ((s.requeue id r (number + 1)).attempts[
        ({ value := s.nextAttempt } : AttemptId)]?).map (·.number) =
          some (number + 1) := by
      unfold Impl.requeue
      dsimp only
      rw [getElem?_insert, if_pos rfl]
      rfl
    constructor
    · apply List.nodup_append.mpr
      refine ⟨known.distinct, List.nodup_singleton _, ?_⟩
      rintro aid listed fresh single rfl
      have below := old aid listed
      rw [List.mem_singleton.mp single] at below
      exact Nat.lt_irrefl _ below
    · show (s.requeue id r (number + 1)).attemptNumbers (before.attempts ++ [_])
        = countingFromOne (before.attempts ++ [_]).length
      rw [List.length_append, List.length_singleton, countingFromOne_succ]
      unfold attemptNumbers at numbers ⊢
      rw [List.map_append, List.map_singleton, numbers, new, UInt32.ofNat_add,
        ← same]
      exact congrArg (· ++ [some (number + 1)]) known.numbers
    · show (before.attempts ++ [_]).length ≤ _
      rw [List.length_append, List.length_singleton]
      have less := UInt32.lt_iff_toNat_lt.mp again
      omega
    · exact List.getLast?_concat
  · have known := numbered other r' at_other
    have numbers := attemptNumbers_insert
      (s.requeue id r (number + 1)) (owns.allocated other r' at_other) _
      rfl
    exact ⟨known.distinct, numbers.trans known.numbers, known.bounded,
      known.last⟩

theorem doSubmit (numbered : AllNumbered policy s) (owns : s.OwnsAttempts)
    (metadata : RequestMetadata) (now : TimePoint) :
    AllNumbered policy (s.doSubmit policy metadata now).2 := by
  obtain ⟨stats, refused⟩ | ⟨_, ⟨state, outcome, stats, _, recorded⟩ |
      ⟨fairness, stats, queued⟩⟩ := doSubmit_cases policy s metadata now
  · rw [refused]
    exact numbered.frame {}
  · rw [recorded]
    exact (numbered.createRequest owns metadata now state state outcome
      false).frame (.of_tables rfl rfl)
  · rw [queued]
    exact (numbered.createRequest owns metadata now .eligible .eligible
      .success true).frame (.of_tables rfl rfl)

theorem finishBatch (numbered : AllNumbered policy s) (bid : BatchId)
    (worker : WorkerId) (now : TimePoint) :
    AllNumbered policy (s.finishBatch bid worker now) := by
  obtain ⟨requests, attempts⟩ := tables_finishBatch s bid worker now
  exact numbered.frame (.of_tables requests attempts)

theorem requeueConcluded (numbered : AllNumbered policy s)
    (owns : s.OwnsAttempts) {r : RequestRec} {a : AttemptRec}
    {mc : MemberCompletion} {state : RequestState}
    (concluding : s.Concluding mc r a state) (now : TimePoint)
    (fairness : FairnessController) (stats : BatchStats)
    (again : a.number < policy.retry.maxAttempts) :
    AllNumbered policy (({ s.conclude r mc state now with
      fairness := fairness, stats := stats } : Impl).requeue mc.request r
        (a.number + 1)) := by
  have frame := AttemptFrame.conclude s r mc state now fairness stats
  have concluded := numbered.frame frame
  apply concluded.requeue (owns.conclude concluding now fairness stats)
    (getElem?_modify_self concluding.request _) r _ again
  rw [(attempts_conclude r mc state).1, frame.numbers, concluding.attempt]
  rfl

theorem recordRule (policy : BatchPolicy) (now : TimePoint) :
    RecordRule policy now (fun _ _ _ => true)
      (fun s => s.OwnsAttempts ∧ AllNumbered policy s) where
  count s stats held :=
    ⟨held.1.of_tables rfl rfl rfl, held.2.frame {}⟩
  conclude s r _ mc state fairness stats held concluding _ :=
    ⟨held.1.conclude concluding now fairness stats,
      held.2.frame (.conclude s r mc state now fairness stats)⟩
  requeue _ r _ _ _ fairness stats held concluding _ _ _ again :=
    ⟨(held.1.conclude concluding now fairness stats).requeue r _,
      held.2.requeueConcluded held.1 concluding now fairness stats again⟩
  dispatch _ bid b worker boot held _ _ :=
    ⟨held.1.markDispatched bid b worker boot now,
      held.2.frame (.advance rfl rfl)⟩
  running _ bid b held _ _ :=
    ⟨held.1.markRunning bid b, held.2.frame (.advance rfl rfl)⟩
  finish _ bid _ worker held _ _ :=
    ⟨held.1.finishBatch bid worker now, held.2.finishBatch bid worker now⟩

theorem tickRule (policy : BatchPolicy) (now : TimePoint) :
    TickRule policy now fun s => WellFormed s ∧ AllNumbered policy s where
  wellFormed _ held := held.1
  expire s id held :=
    ⟨held.1.expireWaiting now id, held.2.frame (.expireWaiting s now id)⟩
  cancel s id held :=
    ⟨held.1.doCancel policy id now, held.2.frame (.doCancel s policy id now)⟩
  openForming _ key held _ :=
    ⟨held.1.openForming key now, held.2.frame {}⟩
  place s bid key pick b r held placing :=
    ⟨(WellFormed.tickRule policy now).place s bid key pick b r held.1 placing,
      held.2.frame (.place placing.request bid key)⟩
  retime _ bid _ held retimes :=
    ⟨held.1.retime bid retimes, held.2.frame {}⟩
  close _ _ _ reason held found forming :=
    ⟨held.1.sealForming found forming reason now,
      held.2.frame (.advance rfl rfl)⟩
  merge s aid bid a b held merging :=
    ⟨held.1.mergeInto merging.first merging.second merging.keyed,
      held.2.frame (.mergeInto s aid bid a b)⟩

theorem doTick (numbered : AllNumbered policy s) (wellFormed : WellFormed s)
    (order : List CompatibilityKey) (now : TimePoint) :
    AllNumbered policy (s.doTick policy order now) :=
  ((tickRule policy now).doTick
    (fun _ _ _ held found _ _ =>
      ⟨held.1.splitSealed found, held.2.frame (.split rfl rfl)⟩)
    ⟨wellFormed, numbered⟩ order).2

theorem retryQueued (numbered : AllNumbered policy s) (owns : s.OwnsAttempts)
    (id : RequestId) (now : TimePoint) :
    AllNumbered policy (s.retryQueued policy id now).2 := by
  obtain ⟨err, refused⟩ | ⟨r, found, again, _, queued⟩ :=
    retryQueued_cases policy s id now
  · rw [refused]
    exact numbered
  · obtain ⟨_, a, current, _⟩ := owns.known id r found
    rw [queued]
    apply numbered.requeue owns found r _ again
    unfold attemptNumber
    rw [current]
    rfl

theorem step (numbered : AllNumbered policy s) (wellFormed : WellFormed s)
    (owns : s.OwnsAttempts) (op : Op) :
    AllNumbered policy (step policy s op) := by
  cases op with
  | submit metadata now => exact numbered.doSubmit owns metadata now
  | cancel request now => exact numbered.frame (.doCancel s policy request now)
  | complete completion now =>
      exact ((recordRule policy now).reports.doComplete ⟨owns, numbered⟩
        (allowsReport_always policy s completion now)).2
  | sealBatch batch reason now =>
      show AllNumbered policy (s.sealBatch batch reason now).2
      obtain unchanged | ⟨b, _, _, closed⟩ :=
        sealBatch_cases s batch reason now
      · rw [unchanged]
        exact numbered
      · rw [closed]
        exact numbered.frame (.advance rfl rfl)
  | split batch =>
      show AllNumbered policy (s.doSplit batch).2
      obtain unchanged | ⟨b, _, _, ⟨_, taken⟩ | ⟨_, taken⟩⟩ :=
        doSplit_cases s batch
      · rw [unchanged]
        exact numbered
      · rw [taken]
        exact numbered.frame (.split rfl rfl)
      · rw [taken]
        exact numbered.frame (.split rfl rfl)
  | merge a b =>
      show AllNumbered policy (s.doMerge policy a b).2
      obtain unchanged | ⟨first, second, _, _, _, merged⟩ :=
        doMerge_cases policy s a b
      · rw [unchanged]
        exact numbered
      · rw [merged]
        exact numbered.frame (.mergeInto s a b first second)
  | retry request order now =>
      exact (kept_doRetry (fun s => WellFormed s ∧ AllNumbered policy s)
        ⟨wellFormed.retryQueued policy request now,
          numbered.retryQueued owns request now⟩
        fun _ held => ⟨held.1.doTick policy order now,
          held.2.doTick held.1 order now⟩).2
  | tick order now => exact numbered.doTick wellFormed order now
  | expire order now =>
      exact ((tickRule policy now).expireLocked ⟨wellFormed, numbered⟩ order).2
  | dispatchAndRun batch executor now =>
      exact ((recordRule policy now).reports.doDispatchAndRun ⟨owns, numbered⟩
        (allowsRun_always policy s batch executor now)).2
  | prepareDispatch batch worker boot now =>
      exact ((recordRule policy now).reports.prepareDispatch ⟨owns, numbered⟩
        batch worker boot).2
  | registerWorker worker boot cap => exact numbered.frame {}
  | rollEpoch => exact numbered.frame {}

end AllNumbered

/-- No attempt is listed by two requests. -/
def AttemptsApart (s : Impl) : Prop :=
  ∀ (id id' : RequestId) (r r' : RequestRec) (aid : AttemptId),
    s.requests[id]? = some r → s.requests[id']? = some r' →
    aid ∈ r.attempts → aid ∈ r'.attempts → id = id'

/-- After any run the attempts of every request are distinct, exist, are
numbered one, two and so on up to at most the limit of the policy, and end with
the current one. No two requests share an attempt. -/
theorem attempts_wellNumbered (policy : BatchPolicy) (ops : List Op) :
    AllNumbered policy (run policy ops) ∧ (run policy ops).AttemptsApart := by
  have held : (WellFormed (run policy ops) ∧ (run policy ops).OwnsAttempts) ∧
      AllNumbered policy (run policy ops) :=
    Transition.run_invariant (fun s =>
        (WellFormed s ∧ s.OwnsAttempts) ∧ AllNumbered policy s)
      (fun s op _ held =>
        ⟨⟨held.1.1.step op, held.1.2.step held.1.1 op⟩,
          held.2.step held.1.1 held.1.2 op⟩)
      ⟨⟨WellFormed.fresh, OwnsAttempts.fresh⟩, AllNumbered.fresh⟩
  exact ⟨held.2, held.1.2.apart⟩

end Impl

end BatchFabric
