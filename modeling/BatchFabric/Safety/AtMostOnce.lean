import BatchFabric.Safety.ActiveMembers
import BatchFabric.Safety.AgreementRun
import BatchFabric.Safety.Attempts
import BatchFabric.Safety.Stranding

/-! Every attempt is sent at most once. -/

namespace BatchFabric

open OrderedMap

/-- The attempts an execution sends. -/
def BatchExecution.attempts (execution : BatchExecution) : List AttemptId :=
  execution.members.map (·.attempt)

def attemptsSent (executions : List BatchExecution) : List AttemptId :=
  executions.flatMap BatchExecution.attempts

namespace Impl

/-- What an operation hands to a worker or to an executor. -/
def handsOut (s : Impl) : Op → List BatchExecution
  | .prepareDispatch batch worker boot now =>
      match (s.prepareDispatch batch worker boot now).1 with
      | .error _ => []
      | .ok execution => [execution]
  | .dispatchAndRun batch executor now =>
      match s.batches[batch]? with
      | none => []
      | some b =>
          if b.state ≠ .sealed then []
          else [s.runExecution batch b executor.capability.worker now]
  | _ => []

end Impl

/-- Every execution handed out in a run, in order. -/
def executions (policy : BatchPolicy) (ops : List Op) : List BatchExecution :=
  Transition.outputs (step policy) Impl.handsOut Impl.fresh ops

namespace Impl

/-- No attempt changes hands. -/
def SameCurrent (s s' : Impl) : Prop :=
  ∀ id : RequestId, (s'.requests[id]?).map (·.currentAttempt) =
    (s.requests[id]?).map (·.currentAttempt)

/-- Nothing that may still be sent has been sent: neither the current attempt
of a waiting request, which no open batch lists, nor that of a member of an
open batch. -/
structure Unsent (sent : List AttemptId) (s : Impl) : Prop where
  wellFormed : WellFormed s
  owns : s.OwnsAttempts
  listed : ListedOnce 1 s
  waits : ∀ id, s.Waits id → s.Unlisted 1 id
  once : sent.Nodup
  allocated : ∀ aid ∈ sent, aid.value < s.nextAttempt
  unsent : Everywhere s.requests fun id r =>
    (s.Waits id ∨ ∃ bid, s.Lists 1 bid id) → r.currentAttempt ∉ sent

theorem current_advance (source target : RequestState) (r : RequestRec) :
    (r.advance source target).currentAttempt = r.currentAttempt := by
  unfold RequestRec.advance
  split <;> rfl

namespace Unsent

variable {sent : List AttemptId} {s s' : Impl}

theorem fresh : Unsent [] fresh where
  wellFormed := WellFormed.fresh
  owns := OwnsAttempts.fresh
  listed := ListedOnce.fresh 1
  waits := by
    rintro id ⟨r, found, _⟩
    exact absurd found (by simp [Impl.fresh])
  once := List.nodup_nil
  allocated := nofun
  unsent := everywhere_empty

theorem fewer {more : List AttemptId} (unsent : Unsent (sent ++ more) s) :
    Unsent sent s where
  wellFormed := unsent.wellFormed
  owns := unsent.owns
  listed := unsent.listed
  waits := unsent.waits
  once := (List.nodup_append.mp unsent.once).1
  allocated aid member :=
    unsent.allocated aid (List.mem_append_left more member)
  unsent id r found pending member :=
    unsent.unsent id r found pending (List.mem_append_left more member)

/-- A change after which nothing more waits or is listed, except that what
waited may be listed. -/
theorem carry (unsent : Unsent sent s) (wellFormed : WellFormed s')
    (owns : s'.OwnsAttempts) (listed : ListedOnce 1 s')
    (current : SameCurrent s s')
    (waited : Everywhere s'.requests (WaitedBefore s))
    (lists : ∀ id bid, s'.Lists 1 bid id →
      (∃ bid', s.Lists 1 bid' id) ∨ (s.Waits id ∧ ¬ s'.Waits id))
    (next : s'.nextAttempt = s.nextAttempt) : Unsent sent s' := by
  have waitsBefore : ∀ id, s'.Waits id → s.Waits id :=
    fun _ waits => waits.before waited
  constructor
  · exact wellFormed
  · exact owns
  · exact listed
  · intro id waiting
    rw [unlisted_iff]
    intro bid listed'
    rcases lists id bid listed' with ⟨bid', before⟩ | ⟨_, settled⟩
    · exact unlisted_iff.mp (unsent.waits id (waitsBefore id waiting)) bid'
        before
    · exact settled waiting
  · exact unsent.once
  · rw [next]
    exact unsent.allocated
  · intro id r' found' pending
    obtain ⟨r, found, same⟩ := exists_of_map_eq (current id) found'
    rw [same]
    apply unsent.unsent id r found
    rcases pending with waiting | ⟨bid, listed'⟩
    · exact .inl (waitsBefore id waiting)
    · rcases lists id bid listed' with before | ⟨waiting, _⟩
      · exact .inr before
      · exact .inl waiting

theorem inPlace (unsent : Unsent sent s) (kept : InPlace s s')
    (owns : s'.OwnsAttempts) (current : SameCurrent s s')
    (waited : Everywhere s'.requests (WaitedBefore s)) : Unsent sent s' :=
  unsent.carry (unsent.wellFormed.inPlace kept) owns
    (unsent.listed.shrink kept.shrinking) current waited
    (fun _ bid lists => .inl ⟨bid, lists.of_shrunk kept.shrinking⟩)
    kept.nextAttempt

theorem of_tables (unsent : Unsent sent s) (wellFormed : WellFormed s')
    (requests : s'.requests = s.requests)
    (attempts : s'.attempts = s.attempts) (batches : s'.batches = s.batches)
    (next : s'.nextAttempt = s.nextAttempt) : Unsent sent s' := by
  apply unsent.carry wellFormed (unsent.owns.of_tables requests attempts next)
    (unsent.listed.of_batches batches)
  · intro id
    rw [requests]
  · rw [requests]
    exact everywhere_waitedBefore s
  · rintro id bid ⟨b, found, lists⟩
    rw [batches] at found
    exact .inl ⟨bid, b, found, lists⟩
  · exact next

/-- A request ends, wherever it was. -/
theorem endRequest (unsent : Unsent sent s) (kept : InPlace s s')
    (owns : s'.OwnsAttempts) {id : RequestId} {state : RequestState}
    {change : RequestRec → RequestRec}
    (requests : s'.requests = s.requests.modify id change)
    (current : ∀ r, (change r).currentAttempt = r.currentAttempt)
    (fixed : ∀ r, (change r).fixed = r.fixed)
    (moved : ∀ r, (change r).state = state)
    (ended : isRequestTerminal state = true) : Unsent sent s' := by
  apply unsent.inPlace kept owns
  · intro other
    rw [requests]
    exact map_getElem?_modify current s.requests id other
  · rw [requests]
    exact (settles_end state (not_waiting_of_terminal ended) change fixed
      moved).modify s id

theorem doCancel (unsent : Unsent sent s) (policy : BatchPolicy)
    (id : RequestId) (now : TimePoint) :
    Unsent sent (s.doCancel policy id now).2 := by
  have owns := unsent.owns.doCancel policy id now
  obtain unchanged | ⟨r, _, _, ⟨_, outside⟩ |
      ⟨_, b, _, ⟨_, forming⟩ | ⟨_, later⟩⟩⟩ := doCancel_cases policy s id now
  · rw [unchanged]
    exact unsent
  · rw [outside] at owns ⊢
    exact unsent.endRequest (InPlace.cancelOutside s id r now) owns rfl
      (fun _ => by rfl) (fun _ => by rfl) (fun _ => by rfl) rfl
  · rw [forming] at owns ⊢
    exact unsent.endRequest (InPlace.cancelForming policy s id r now) owns rfl
      (fun _ => by rfl) (fun _ => by rfl) (fun _ => by rfl) rfl
  · rw [later] at owns ⊢
    exact unsent.endRequest (InPlace.cancelAfterSeal s id r now) owns rfl
      (fun _ => by rfl) (fun _ => by rfl) (fun _ => by rfl) rfl

theorem expireWaiting (unsent : Unsent sent s) (now : TimePoint)
    (id : RequestId) : Unsent sent (expireWaiting now s id) := by
  have owns := unsent.owns.expireWaiting now id
  have dequeued := fun r : RequestRec =>
    unsent.inPlace (InPlace.dequeue s r.key id)
      (unsent.owns.of_tables rfl rfl rfl) (fun _ => by rfl)
      (everywhere_waitedBefore s)
  obtain unchanged | ⟨r, _, ⟨_, removed⟩ | ⟨_, stats, expired⟩⟩ :=
    expireWaiting_cases now s id
  · rw [unchanged]
    exact unsent
  · rw [removed]
    exact dequeued r
  · rw [expired] at owns ⊢
    exact (dequeued r).endRequest
      (InPlace.endRequest _ id r .expired .expired now stats) owns rfl
      (fun _ => by rfl) (fun _ => by rfl) (fun _ => by rfl) rfl

theorem openForming (unsent : Unsent sent s) (key : CompatibilityKey)
    (now : TimePoint) : Unsent sent (s.openForming key now) :=
  unsent.carry (unsent.wellFormed.openForming key now)
    (unsent.owns.of_tables rfl rfl rfl) (unsent.listed.openForming key now)
    (fun _ => rfl) (everywhere_waitedBefore s)
    (fun _ bid lists => .inl ⟨bid, ListedOnce.lists_openForming lists⟩) rfl

theorem place (unsent : Unsent sent s) {policy : BatchPolicy} {bid : BatchId}
    {key : CompatibilityKey} {pick : RequestId} {now : TimePoint}
    {b : BatchRec} {r : RequestRec}
    (placing : Placing policy s bid key pick now b r) :
    Unsent sent (s.place bid key pick) := by
  have waited : s.Waits pick := ⟨r, placing.request, placing.waiting⟩
  have requests : (s.place bid key pick).requests =
      s.requests.modify pick fun r => r.reserve bid := by
    rw [place_eq placing.request]
  apply unsent.carry
    ((WellFormed.tickRule policy now).place s bid key pick b r
      unsent.wellFormed placing)
    (unsent.owns.place placing.request placing.waiting bid key)
    (unsent.listed.place placing.request (unsent.waits pick waited))
  · intro id
    rw [requests]
    exact map_getElem?_modify (fun _ => by rfl) s.requests pick id
  · rw [requests]
    exact (settles_end .reserved rfl _ (fun _ => by rfl)
      (fun _ => by rfl)).modify s pick
  · intro id x lists
    rcases ListedOnce.lists_place placing.request lists with ⟨_, rfl⟩ | before
    · refine .inr ⟨waited, ?_⟩
      rintro ⟨r', found', waiting⟩
      rw [requests, getElem?_modify_self placing.request] at found'
      cases found'
      cases waiting
    · exact .inl ⟨x, before⟩
  · rw [place_eq placing.request]

theorem sealForming (unsent : Unsent sent s) {bid : BatchId} {b : BatchRec}
    (found : s.batches[bid]? = some b) (forming : b.state = .forming)
    (reason : SealReason) (now : TimePoint) :
    Unsent sent (s.sealForming bid b reason now) := by
  have shrinks := shrunkFrom_sealForming found forming reason now
  exact unsent.carry (unsent.wellFormed.sealForming found forming reason now)
    (unsent.owns.sealForming bid b reason now) (unsent.listed.shrink shrinks)
    (map_getElem?_modifyAll (current_advance _ _) s.requests b.members)
    ((settles_advance rfl).modifyAll (everywhere_waitedBefore s) b.members)
    (fun _ x lists => .inl ⟨x, lists.of_shrunk shrinks⟩) rfl

theorem mergeInto (unsent : Unsent sent s) {aid bid : BatchId}
    {a b : BatchRec} (foundA : s.batches[aid]? = some a)
    (foundB : s.batches[bid]? = some b) (keys : a.key = b.key)
    (states : a.state = b.state) : Unsent sent (s.mergeInto aid bid a b) := by
  apply unsent.carry (unsent.wellFormed.mergeInto foundA foundB keys)
    (unsent.owns.mergeInto aid bid a b)
    (unsent.listed.mergeInto (by decide) foundA foundB states)
  · exact map_getElem?_modifyAll (fun _ => by rfl) s.requests b.members
  · exact (settles_setBatch aid).modifyAll (everywhere_waitedBefore s) b.members
  · intro id x lists
    rcases ListedOnce.lists_mergeInto (by decide) foundA foundB states
      lists with ⟨_, ofA | ofB⟩ | ⟨_, _, before⟩
    · exact .inl ⟨aid, ofA⟩
    · exact .inl ⟨bid, ofB⟩
    · exact .inl ⟨x, before⟩
  · rfl

theorem current_splitRequests (s : Impl) (bid child : BatchId) (b : BatchRec)
    (id : RequestId) :
    ((s.splitRequests bid child b)[id]?).map (·.currentAttempt) =
      (s.requests[id]?).map (·.currentAttempt) := by
  unfold splitRequests
  rw [map_getElem?_modifyAll (fun _ => by rfl),
    map_getElem?_modifyAll (fun _ => by rfl)]

theorem waitedBefore_splitRequests (s : Impl) (bid child : BatchId)
    (b : BatchRec) :
    Everywhere (s.splitRequests bid child b) (WaitedBefore s) :=
  (settles_setBatch bid).modifyAll
    ((settles_setBatch child).modifyAll (everywhere_waitedBefore s) _) _

theorem splitSealed (unsent : Unsent sent s) {bid : BatchId} {b : BatchRec}
    (found : s.batches[bid]? = some b) (isSealed : b.state = .sealed) :
    Unsent sent (s.splitSealed bid b) :=
  unsent.carry (unsent.wellFormed.splitSealed found)
    (unsent.owns.splitSealed bid b)
    (unsent.listed.splitSealed (by decide) found (by rw [isSealed]; decide))
    (current_splitRequests s bid _ b) (waitedBefore_splitRequests s bid _ b)
    (fun _ _ lists => .inl
      (ListedOnce.lists_splitSealed (by decide) found isSealed lists)) rfl

theorem splitOpen (unsent : Unsent sent s) {bid : BatchId} {b : BatchRec}
    (found : s.batches[bid]? = some b) : Unsent sent (s.splitOpen bid b) := by
  have listed : ListedOnce 1 (s.splitOpen bid b) := by
    rcases Nat.lt_or_ge 1 b.state.stage with late | reached
    · exact unsent.listed.splitOpen_late late
    · exact unsent.listed.splitOpen found reached
  exact unsent.carry (unsent.wellFormed.splitOpen found)
    (unsent.owns.splitOpen bid b) listed (current_splitRequests s bid _ b)
    (waitedBefore_splitRequests s bid _ b)
    (fun _ _ lists => .inl (ListedOnce.lists_splitOpen found lists)) rfl

/-- A request that no open batch lists gets a new attempt. -/
theorem renew (unsent : Unsent sent s) (wellFormed : WellFormed s')
    (owns : s'.OwnsAttempts) {id : RequestId} (unlisted : s.Unlisted 1 id)
    (others : ∀ other, other ≠ id → s'.requests[other]? = s.requests[other]?)
    (current : ∀ r, s'.requests[id]? = some r →
      r.currentAttempt = { value := s.nextAttempt })
    (batches : s'.batches = s.batches)
    (next : s.nextAttempt ≤ s'.nextAttempt) : Unsent sent s' := by
  have lists : ∀ other bid, s'.Lists 1 bid other → s.Lists 1 bid other := by
    rintro other bid ⟨b, found, lists⟩
    rw [batches] at found
    exact ⟨b, found, lists⟩
  have waitsBefore : ∀ other, other ≠ id → s'.Waits other → s.Waits other := by
    rintro other different ⟨r, found, waiting⟩
    rw [others other different] at found
    exact ⟨r, found, waiting⟩
  constructor
  · exact wellFormed
  · exact owns
  · exact unsent.listed.of_batches batches
  · intro other waiting
    have before : s.Unlisted 1 other := by
      by_cases same : other = id
      · subst same
        exact unlisted
      · exact unsent.waits other (waitsBefore other same waiting)
    exact before.of_lists fun bid listed => ⟨bid, lists other bid listed⟩
  · exact unsent.once
  · intro aid member
    exact Nat.lt_of_lt_of_le (unsent.allocated aid member) next
  · intro other r found pending
    by_cases same : other = id
    · subst same
      rw [current r found]
      intro member
      exact Nat.lt_irrefl _ (unsent.allocated _ member)
    · rw [others other same] at found
      apply unsent.unsent other r found
      rcases pending with waiting | ⟨bid, listed⟩
      · exact .inl (waitsBefore other same waiting)
      · exact .inr ⟨bid, lists other bid listed⟩

theorem unlisted_new (unsent : Unsent sent s) :
    s.Unlisted 1 { value := s.nextRequest } := by
  intro bid b found _ member
  exact unsent.wellFormed.ne_of_member found member rfl

theorem doSubmit (unsent : Unsent sent s) (policy : BatchPolicy)
    (metadata : RequestMetadata) (now : TimePoint) :
    Unsent sent (s.doSubmit policy metadata now).2 := by
  have wellFormed := unsent.wellFormed.doSubmit policy metadata now
  have owns := unsent.owns.doSubmit policy metadata now
  have created : ∀ r : RequestRec,
      r.currentAttempt = { value := s.nextAttempt } → ∀ s' : Impl,
      WellFormed s' → s'.OwnsAttempts →
      s'.requests = s.requests.insert { value := s.nextRequest } r →
      s'.batches = s.batches → s'.nextAttempt = s.nextAttempt + 1 →
      Unsent sent s' := by
    intro r current s' wellFormed owns requests batches next
    apply unsent.renew wellFormed owns unsent.unlisted_new
    · intro other different
      rw [requests, getElem?_insert, if_neg (Ne.symm different)]
    · intro r' found
      rw [requests, getElem?_insert, if_pos rfl] at found
      cases found
      exact current
    · exact batches
    · rw [next]
      exact Nat.le_succ _
  obtain ⟨stats, unrecorded⟩ | ⟨_, ⟨state, outcome, stats, _, taken⟩ |
      ⟨fairness, stats, taken⟩⟩ := doSubmit_cases policy s metadata now
  · rw [unrecorded] at wellFormed ⊢
    exact unsent.of_tables wellFormed rfl rfl rfl rfl
  · rw [taken] at wellFormed owns ⊢
    exact created _ rfl _ wellFormed owns rfl rfl rfl
  · rw [taken] at wellFormed owns ⊢
    exact created _ rfl _ wellFormed owns rfl rfl rfl

theorem requeue (unsent : Unsent sent s) {id : RequestId} {r : RequestRec}
    (number : UInt32) (wellFormed : WellFormed (s.requeue id r number))
    (unlisted : s.Unlisted 1 id) : Unsent sent (s.requeue id r number) := by
  apply unsent.renew wellFormed (unsent.owns.requeue r number) unlisted
  · intro other different
    unfold Impl.requeue
    rw [getElem?_modify, if_neg (Ne.symm different)]
  · intro r' found
    obtain ⟨before, _, ⟨_, rfl⟩ | ⟨different, _⟩⟩ := getElem?_modify_cases found
    · rfl
    · exact absurd rfl different
  · rfl
  · exact Nat.le_succ _

theorem conclude (unsent : Unsent sent s) {mc : MemberCompletion}
    {r : RequestRec} {a : AttemptRec} {state : RequestState}
    (concluding : s.Concluding mc r a state) (now : TimePoint)
    (fairness : FairnessController) (stats : BatchStats) :
    Unsent sent { s.conclude r mc state now with
      fairness := fairness, stats := stats } :=
  unsent.endRequest (InPlace.conclude s r mc state now fairness stats)
    (unsent.owns.conclude concluding now fairness stats) rfl
    (fun r => (attempts_conclude r mc state).1)
    (fun r => fixed_conclude r mc state) (fun r => state_conclude r mc state)
    (endState_terminal concluding.acts)

theorem attempts_executionOf (s : Impl) (b : BatchRec) (worker : WorkerId) :
    (s.executionOf b worker).attempts =
      b.members.filterMap fun m =>
        (s.requests[m]?).map (·.currentAttempt) := by
  unfold BatchExecution.attempts executionOf
  rw [List.map_filterMap]
  congr 1
  funext m
  unfold memberWork
  rw [Option.map_map]
  rfl

/-- The attempts of an open batch are sent, and the batch is no longer open. -/
theorem send (unsent : Unsent sent s) {bid : BatchId} {b : BatchRec}
    (found : s.batches[bid]? = some b) (isSealed : b.state = .sealed)
    (worker : WorkerId) (boot : WorkerBootId) (now : TimePoint) :
    Unsent (sent ++ ((s.markDispatched bid b worker boot now).executionOf b
      worker).attempts) (s.markDispatched bid b worker boot now) := by
  let s' := s.markDispatched bid b worker boot now
  have kept := InPlace.markDispatched found isSealed worker boot now
  have same : SameCurrent s s' :=
    map_getElem?_modifyAll (current_advance _ _) s.requests b.members
  have still : Unsent sent s' :=
    unsent.inPlace kept (unsent.owns.markDispatched bid b worker boot now) same
      ((settles_advance rfl).modifyAll (everywhere_waitedBefore s) b.members)
  have reached : b.state.stage ≤ 1 := by
    rw [isSealed]
    decide
  -- Before, the batch was open; after, no open batch lists its members.
  have pending : ∀ m ∈ b.members, ∀ r, s.requests[m]? = some r →
      r.currentAttempt ∉ sent :=
    fun m member r request =>
      unsent.unsent m r request (.inr ⟨bid, b, found, reached, member⟩)
  have gone : ∀ m ∈ b.members, s'.Unlisted 1 m := by
    intro m member x b' found' reached' listed'
    obtain ⟨before, at_x, ⟨_, rfl⟩ | ⟨different, rfl⟩⟩ :=
      getElem?_modify_cases found'
    · exact absurd reached' (show ¬ 2 ≤ 1 by decide)
    · exact different (unsent.listed.apart m bid x
        ⟨b, found, reached, member⟩ ⟨b', at_x, reached', listed'⟩)
  have settled : ∀ m ∈ b.members, ¬ s'.Waits m := by
    rintro m member ⟨r', found', waiting⟩
    obtain ⟨r, request, waited, _⟩ :=
      (settles_advance rfl).modifyAll (everywhere_waitedBefore s) b.members m r'
        found' waiting
    exact unsent.waits m ⟨r, request, waited⟩ bid b found reached member
  have distinct : ∀ (id id' : RequestId) (aid : AttemptId),
      (s.requests[id]?).map (·.currentAttempt) = some aid →
      (s.requests[id']?).map (·.currentAttempt) = some aid → id = id' := by
    intro id id' aid first second
    obtain ⟨r, at_id, rfl⟩ := Option.map_eq_some_iff.mp first
    obtain ⟨r', at_id', current⟩ := Option.map_eq_some_iff.mp second
    exact unsent.owns.apart id id' r r' _ at_id at_id'
      (unsent.owns.known id r at_id).1
      (current ▸ (unsent.owns.known id' r' at_id').1)
  have attempts : (s'.executionOf b worker).attempts =
      b.members.filterMap fun m =>
        (s.requests[m]?).map (·.currentAttempt) := by
    rw [attempts_executionOf]
    congr 1
    funext m
    exact same m
  rw [attempts]
  constructor
  · exact still.wellFormed
  · exact still.owns
  · exact still.listed
  · exact still.waits
  · rw [List.nodup_append]
    refine ⟨unsent.once, ?_, ?_⟩
    · exact (unsent.listed.once bid b found reached).filterMap
        fun id id' aid first second => distinct id id' aid first second
    · rintro aid before other new rfl
      obtain ⟨m, member, current⟩ := List.mem_filterMap.mp new
      obtain ⟨r, request, rfl⟩ := Option.map_eq_some_iff.mp current
      exact pending m member r request before
  · intro aid member
    rcases List.mem_append.mp member with before | new
    · exact still.allocated aid before
    · obtain ⟨m, _, current⟩ := List.mem_filterMap.mp new
      obtain ⟨r, request, rfl⟩ := Option.map_eq_some_iff.mp current
      exact unsent.owns.allocated m r request _
        (unsent.owns.known m r request).1
  · intro id r' found' open' member
    rcases List.mem_append.mp member with before | new
    · exact still.unsent id r' found' open' before
    · obtain ⟨m, listed, current⟩ := List.mem_filterMap.mp new
      have mine : (s.requests[id]?).map (·.currentAttempt) =
          some r'.currentAttempt := by
        rw [← same id]
        exact congrArg (Option.map (·.currentAttempt)) found'
      have known := distinct m id _ current mine
      subst known
      rcases open' with waiting | ⟨x, lists⟩
      · exact settled m listed waiting
      · exact unlisted_iff.mp (gone m listed) x lists

theorem markRunning (unsent : Unsent sent s) {bid : BatchId} {b : BatchRec}
    (found : s.batches[bid]? = some b) (dispatched : b.state = .dispatched) :
    Unsent sent (s.markRunning bid b) :=
  unsent.inPlace (InPlace.markRunning found dispatched)
    (unsent.owns.markRunning bid b)
    (map_getElem?_modifyAll (current_advance _ _) s.requests b.members)
    ((settles_advance rfl).modifyAll (everywhere_waitedBefore s) b.members)

theorem finishBatch (unsent : Unsent sent s) {bid : BatchId} {b : BatchRec}
    (found : s.batches[bid]? = some b)
    (inFlight : b.state = .dispatched ∨ b.state = .running)
    (worker : WorkerId) (now : TimePoint) :
    Unsent sent (s.finishBatch bid worker now) := by
  have requests := (tables_finishBatch s bid worker now).1
  apply unsent.inPlace (InPlace.finishBatch found inFlight worker now)
    (unsent.owns.finishBatch bid worker now)
  · intro id
    rw [requests]
  · rw [requests]
    exact everywhere_waitedBefore s

theorem recordRule (sent : List AttemptId) (policy : BatchPolicy)
    (now : TimePoint) :
    RecordRule policy now (requeuesUnlisted policy) (Unsent sent) where
  count _ _ unsent :=
    unsent.of_tables (unsent.wellFormed.of_counters _ _ _ _) rfl rfl rfl rfl
  conclude _ _ _ _ _ fairness stats unsent concluding _ :=
    unsent.conclude concluding now fairness stats
  requeue s r a mc state fairness stats unsent concluding allowed retryable
      enabled again := by
    have unlisted : s.Unlisted 1 mc.request := by
      simpa [requeuesUnlisted, requeues, retryable, enabled,
        concluding.request, concluding.attempt, again] using allowed
    apply (unsent.conclude concluding now fairness stats).requeue
    · exact (WellFormed.recordRule policy now).requeue s r a mc state fairness
        stats unsent.wellFormed concluding rfl retryable enabled again
    · exact unlisted.of_lists fun bid lists => ⟨bid, lists.of_shrunk
        (InPlace.conclude s r mc state now fairness stats).shrinking⟩
  dispatch _ _ _ worker boot unsent found isSealed :=
    (unsent.send found isSealed worker boot now).fewer
  running _ _ _ unsent found dispatched := unsent.markRunning found dispatched
  finish _ _ _ worker unsent found inFlight :=
    unsent.finishBatch found inFlight worker now

theorem tickRule (sent : List AttemptId) (policy : BatchPolicy)
    (now : TimePoint) : TickRule policy now (Unsent sent) where
  wellFormed _ unsent := unsent.wellFormed
  expire _ id unsent := unsent.expireWaiting now id
  cancel _ id unsent := unsent.doCancel policy id now
  openForming _ key unsent _ := unsent.openForming key now
  place _ _ _ _ _ _ unsent placing := unsent.place placing
  retime s bid _ unsent retimes :=
    unsent.inPlace (InPlace.of_retimes s bid retimes)
      (unsent.owns.of_tables rfl rfl rfl) (fun _ => rfl)
      (everywhere_waitedBefore s)
  close _ _ _ reason unsent found forming :=
    unsent.sealForming found forming reason now
  merge _ _ _ _ _ unsent merging :=
    unsent.mergeInto merging.first merging.second merging.keyed
      (merging.firstSealed.trans merging.secondSealed.symm)

theorem doTick (unsent : Unsent sent s) (policy : BatchPolicy)
    (order : List CompatibilityKey) (now : TimePoint) :
    Unsent sent (s.doTick policy order now) :=
  (tickRule sent policy now).doTick
    (fun _ _ _ held found isSealed _ => held.splitSealed found isSealed)
    unsent order

end Unsent

/-- No request is queued again that a forming or sealed batch lists. -/
def requeuesApart (policy : BatchPolicy) (s : Impl) : Op → Bool
  | .retry request _ now =>
      !s.takesRetry policy request now || decide (s.Unlisted 1 request)
  | .complete completion now =>
      s.allowsReport policy (requeuesUnlisted policy) completion now
  | .dispatchAndRun batch executor now =>
      s.allowsRun policy (requeuesUnlisted policy) batch executor now
  | _ => true

theorem handsOut_of_sealed {s : Impl} {bid : BatchId} {b : BatchRec}
    (found : s.batches[bid]? = some b) (isSealed : b.state = .sealed)
    (executor : Executor) (now : TimePoint) :
    s.handsOut (.dispatchAndRun bid executor now) =
      [s.runExecution bid b executor.capability.worker now] := by
  simp [handsOut, found, isSealed]

theorem handsOut_of_not_sealed {s : Impl} {bid : BatchId}
    (idle : ∀ b, s.batches[bid]? = some b → b.state ≠ .sealed)
    (executor : Executor) (now : TimePoint) :
    s.handsOut (.dispatchAndRun bid executor now) = [] := by
  unfold handsOut
  dsimp only
  split
  · rfl
  · next b found => rw [if_pos (idle b found)]

namespace Unsent

variable {sent : List AttemptId} {s : Impl} {policy : BatchPolicy}

theorem prepareDispatch (unsent : Unsent sent s) (bid : BatchId)
    (worker : WorkerId) (boot : WorkerBootId) (now : TimePoint) :
    Unsent (sent ++ attemptsSent
        (s.handsOut (.prepareDispatch bid worker boot now)))
      (s.prepareDispatch bid worker boot now).2 := by
  obtain ⟨err, refused⟩ | ⟨b, found, isSealed, _, dispatched⟩ :=
    prepareDispatch_cases s bid worker boot now
  · simpa [handsOut, refused, attemptsSent] using unsent
  · simpa [handsOut, dispatched, attemptsSent] using
      unsent.send found isSealed worker boot now

theorem dispatchAndRun (unsent : Unsent sent s) {bid : BatchId}
    {executor : Executor} {now : TimePoint}
    (guarded : s.allowsRun policy (requeuesUnlisted policy) bid executor now =
      true) :
    Unsent (sent ++ attemptsSent
        (s.handsOut (.dispatchAndRun bid executor now)))
      (s.doDispatchAndRun policy bid executor now).2 := by
  apply (recordRule _ policy now).reports.doDispatchAndRun_of_started _ _
    guarded
  · intro idle
    rw [handsOut_of_not_sealed idle]
    simpa [attemptsSent] using unsent
  · intro b found isSealed
    rw [handsOut_of_sealed found isSealed]
    have dispatched := unsent.send found isSealed executor.capability.worker
      (s.bootOf executor.capability.worker) now
    -- `markRunning` reads no more than the members of the record it is given.
    have running : Unsent _ (s.startedRun bid b executor.capability.worker
        now) :=
      dispatched.markRunning (b := { b with
        state := .dispatched, dispatchedNs := now,
        worker := executor.capability.worker,
        boot := s.bootOf executor.capability.worker })
        (getElem?_modify_self found _) rfl
    simpa [attemptsSent, runExecution] using running

theorem step (unsent : Unsent sent s) {op : Op}
    (guarded : requeuesApart policy s op = true) :
    Unsent (sent ++ attemptsSent (s.handsOut op)) (step policy s op) := by
  have silent : ∀ s' : Impl, Unsent sent s' →
      Unsent (sent ++ attemptsSent []) s' := by
    intro s' held
    simpa [attemptsSent] using held
  cases op with
  | submit metadata now => exact silent _ (unsent.doSubmit policy metadata now)
  | cancel request now => exact silent _ (unsent.doCancel policy request now)
  | complete completion now =>
      exact silent _
        ((recordRule sent policy now).reports.doComplete unsent guarded)
  | sealBatch batch reason now =>
      apply silent
      show Unsent sent (s.sealBatch batch reason now).2
      obtain unchanged | ⟨b, found, forming, closed⟩ :=
        sealBatch_cases s batch reason now
      · rw [unchanged]
        exact unsent
      · rw [closed]
        exact unsent.sealForming found forming reason now
  | split batch =>
      apply silent
      show Unsent sent (s.doSplit batch).2
      obtain unchanged | ⟨b, found, _, ⟨isSealed, taken⟩ | ⟨_, taken⟩⟩ :=
        doSplit_cases s batch
      · rw [unchanged]
        exact unsent
      · rw [taken]
        exact unsent.splitSealed found isSealed
      · rw [taken]
        exact unsent.splitOpen found
  | merge a b =>
      apply silent
      show Unsent sent (s.doMerge policy a b).2
      obtain unchanged | ⟨first, second, foundA, foundB, possible, merged⟩ :=
        doMerge_cases policy s a b
      · rw [unchanged]
        exact unsent
      · obtain ⟨keys, _, states, _⟩ := canMerge_cases possible
        rw [merged]
        exact unsent.mergeInto foundA foundB keys states
  | retry request order now =>
      apply silent
      apply kept_doRetry (Unsent sent)
      · obtain unchanged | ⟨r, found, unlisted, queued⟩ :=
          retryQueued_guarded guarded
        · rw [unchanged]
          exact unsent
        · rw [queued]
          exact unsent.requeue _ (unsent.wellFormed.requeue
            (unsent.wellFormed.keyed_of_found found) request _)
            (of_decide_eq_true unlisted)
      · exact fun _ held => held.doTick policy order now
  | tick order now => exact silent _ (unsent.doTick policy order now)
  | expire order now =>
      exact silent _ ((tickRule sent policy now).expireLocked unsent order)
  | dispatchAndRun batch executor now => exact unsent.dispatchAndRun guarded
  | prepareDispatch batch worker boot now =>
      exact unsent.prepareDispatch batch worker boot now
  | registerWorker worker boot cap =>
      exact silent _ (unsent.of_tables (unsent.wellFormed.of_counters _ _ _ _)
        rfl rfl rfl rfl)
  | rollEpoch =>
      exact silent _ (unsent.of_tables (unsent.wellFormed.of_counters _ _ _ _)
        rfl rfl rfl rfl)

end Unsent

/-- No attempt is sent twice in any run that queues no request again which a
forming or sealed batch lists. -/
theorem attemptsSent_nodup_of_run (policy : BatchPolicy) (ops : List Op)
    (guarded : Transition.Along (BatchFabric.step policy)
      (fun s op => requeuesApart policy s op = true) fresh ops) :
    (attemptsSent (executions policy ops)).Nodup := by
  have held : Unsent (attemptsSent ([] ++ executions policy ops))
      (run policy ops) :=
    guarded.outputs_invariant (fun before s => Unsent (attemptsSent before) s)
      (by
        intro before current op held allowed
        unfold attemptsSent
        rw [List.flatMap_append]
        exact held.step allowed)
      Unsent.fresh
  exact held.once

/-- Two requests are sent in one batch, one of them fails and is sent again,
in a run in process. -/
theorem attemptsSent_nodup_of_failed :
    (attemptsSent (executions {}
      [.submit minimalRequest 0, .submit minimalRequest 0, .tick [] 1,
        .prepareDispatch { value := 1 } .null .null 2,
        .complete {
          epoch := { value := 1 }, generation := { value := 1 }
          batch := { value := 1 }
          members := [{
            request := { value := 1 }, attempt := { value := 1 }
            status := .retryableFailure }] } 3,
        .tick [] 4, .dispatchAndRun { value := 2 } answering 5])).Nodup :=
  attemptsSent_nodup_of_run _ _ (by
    rw [step_eq_stepKnown .minimal]
    decide +kernel)

/-- A request retried while its batch waits to be dispatched gets into a second
batch. The two are merged, and the new attempt is sent twice. -/
theorem not_attemptsSent_nodup :
    ¬ ∀ (policy : BatchPolicy) (ops : List Op),
      (attemptsSent (executions policy ops)).Nodup := by
  intro once
  let ops : List Op := [
    .submit minimalRequest 0, .tick [] 1, .retry { value := 1 } [] 2,
    .prepareDispatch { value := 1 } .null .null 3]
  have twice : ¬ (attemptsSent (executions {} ops)).Nodup := by
    unfold executions
    rw [step_eq_stepKnown .minimal]
    decide +kernel
  exact twice (once {} ops)

end Impl

end BatchFabric
