import BatchFabric.Safety.Accounts

/-! That the accounts close, tick by tick and over whole runs. -/

namespace BatchFabric

open OrderedMap

namespace Impl

/-! The passes of a tick after the expiry. -/

/-- A request for some work that waited no longer does. -/
def Dequeues (start s : Impl) : Prop :=
  ∃ id r, start.requests[id]? = some r ∧ isWaitingState r.state = true ∧
    r.metadata.work.value ≠ 0 ∧ ¬ s.Waits id

structure Filled (admitted : List RequestId) (start s : Impl) : Prop where
  wellFormed : WellFormed s
  waited : Everywhere s.requests (WaitedBefore start)
  balanced : start.Dequeues s ∨ s.Balanced admitted

namespace Filled

variable {admitted : List RequestId} {start s s' : Impl}

theorem carry (filled : Filled admitted start s) (wellFormed : WellFormed s')
    (waited : Everywhere s'.requests (WaitedBefore s))
    (balanced : s.Balanced admitted → start.Dequeues s' ∨ s'.Balanced admitted) :
    Filled admitted start s' where
  wellFormed := wellFormed
  waited := by
    intro id r' found' waiting
    obtain ⟨r, found, waiting, fixed⟩ := waited id r' found' waiting
    obtain ⟨before, at_start, waiting, same⟩ :=
      filled.waited id r found waiting
    exact ⟨before, at_start, waiting, same.trans fixed⟩
  balanced := by
    rcases filled.balanced with ⟨id, r, found, waiting, work, gone⟩ | before
    · exact .inl ⟨id, r, found, waiting, work,
        fun waits => gone (waits.before waited)⟩
    · exact balanced before

theorem keep (filled : Filled admitted start s) (wellFormed : WellFormed s')
    (waited : Everywhere s'.requests (WaitedBefore s))
    (balanced : s.Balanced admitted → s'.Balanced admitted) :
    Filled admitted start s' :=
  filled.carry wellFormed waited fun before => .inr (balanced before)

theorem place (filled : Filled admitted start s) {policy : BatchPolicy}
    {now : TimePoint} {bid : BatchId} {key : CompatibilityKey}
    {pick : RequestId} {b : BatchRec} {r : RequestRec}
    (placing : Placing policy s bid key pick now b r) :
    Filled admitted start (s.place bid key pick) := by
  have requests : (s.place bid key pick).requests =
      s.requests.modify pick fun r => r.reserve bid := by
    rw [place_eq placing.request]
  apply filled.carry ((WellFormed.tickRule policy now).place s bid key pick b r
    filled.wellFormed placing)
  · rw [requests]
    exact (settles_end .reserved rfl _ (fun _ => by rfl)
      (fun _ => by rfl)).modify s pick
  · intro balanced
    by_cases nothing : r.metadata.work.value = 0
    · exact .inr (balanced.place placing nothing)
    · obtain ⟨before, at_start, waiting, fixed⟩ :=
        filled.waited pick r placing.request placing.waiting
      have metadata : before.metadata = r.metadata := congrArg (·.2.1) fixed
      refine .inl ⟨pick, before, at_start, waiting, metadata ▸ nothing, ?_⟩
      rintro ⟨r', found', waits⟩
      rw [requests, getElem?_modify_self placing.request] at found'
      cases found'
      cases waits

theorem fillRule (admitted : List RequestId) (start : Impl)
    (policy : BatchPolicy) (now : TimePoint) :
    FillRule policy now (Filled admitted start) where
  wellFormed _ filled := filled.wellFormed
  openForming s key filled _ :=
    have wellFormed := filled.wellFormed.openForming key now
    filled.keep wellFormed (everywhere_waitedBefore s) fun balanced =>
      balanced.of_accounts wellFormed (Nat.le_refl _) rfl fun _ => rfl
  place _ _ _ _ _ _ filled placing := filled.place placing
  retime s bid _ filled retimes :=
    have wellFormed := filled.wellFormed.inPlace
      (InPlace.of_retimes s bid retimes)
    filled.keep wellFormed (everywhere_waitedBefore s) fun balanced =>
      balanced.of_accounts wellFormed (Nat.le_refl _) rfl fun _ => rfl
  close s _ b reason filled found forming :=
    filled.keep (filled.wellFormed.sealForming found forming reason now)
      ((settles_advance rfl).modifyAll (everywhere_waitedBefore s) b.members)
      fun balanced => balanced.sealForming found forming reason now
  merge s aid _ _ b filled merging :=
    filled.keep (filled.wellFormed.mergeInto merging.first merging.second
        merging.keyed)
      ((settles_setBatch aid).modifyAll (everywhere_waitedBefore s) b.members)
      fun balanced =>
        balanced.mergeInto merging.first merging.second merging.keyed

end Filled

namespace Balanced

variable {admitted : List RequestId} {policy : BatchPolicy} {s : Impl}

theorem doTick (balanced : s.Balanced admitted)
    {order : List CompatibilityKey} {now : TimePoint}
    (guarded : s.ticksUncounted policy admitted order now = true) :
    (s.doTick policy order now).Balanced admitted := by
  obtain ⟨expires, still⟩ := (Bool.and_eq_true _ _).mp guarded
  have still := of_decide_eq_true still
  have expired : (s.expireLocked policy order now).Balanced admitted :=
    balanced.expireLocked expires
  have rule := Filled.fillRule admitted (s.expireLocked policy order now)
    policy now
  have filled : Filled admitted (s.expireLocked policy order now)
      (s.doTick policy order now) :=
    rule.sizePass
      (fun s bid b held found _ _ =>
        held.keep (held.wellFormed.splitSealed found)
          ((settles_setBatch bid).modifyAll
            ((settles_setBatch _).modifyAll (everywhere_waitedBefore s) _) _)
          fun balanced => balanced.splitSealed found)
      (rule.passes
        ⟨expired.wellFormed, everywhere_waitedBefore _, .inr expired⟩ order)
  rcases filled.balanced with ⟨id, r, found, waiting, work, gone⟩ | after
  · exact absurd (still id r found waiting work) gone
  · exact after

theorem reportRule (admitted : List RequestId)
    (enabled : policy.fairness.enabled = true) (now : TimePoint) :
    ReportRule policy now (settlesOutcome policy admitted)
      (Balanced admitted) where
  count s _ balanced :=
    balanced.of_accounts (balanced.wellFormed.of_counters _ _ _ _)
      (Nat.le_refl _) rfl fun _ => rfl
  outcome _ _ balanced settles := balanced.outcome enabled now settles
  dispatch s _ b worker boot balanced found isSealed :=
    balanced.of_accounts (balanced.wellFormed.inPlace
        (InPlace.markDispatched found isSealed worker boot now))
      (Nat.le_refl _) rfl
      (map_getElem?_modifyAll (account_advance rfl rfl) s.requests b.members)
  running s _ b balanced found dispatched :=
    balanced.of_accounts
      (balanced.wellFormed.inPlace (InPlace.markRunning found dispatched))
      (Nat.le_refl _) rfl
      (map_getElem?_modifyAll (account_advance rfl rfl) s.requests b.members)
  finish s bid _ worker balanced found inFlight := by
    have kept := InPlace.finishBatch found inFlight worker now
    apply balanced.of_accounts (balanced.wellFormed.inPlace kept)
      (Nat.le_of_eq kept.nextRequest.symm)
    · obtain unchanged | ⟨b', stats, workers, _, ⟨_, ended⟩ | ⟨_, partly⟩⟩ :=
        finishBatch_cases s bid worker now
      · rw [unchanged]
      · rw [ended]
      · rw [partly]
    · intro id
      rw [(tables_finishBatch s bid worker now).1]

theorem requeue (balanced : s.Balanced admitted) {id : RequestId}
    {r : RequestRec} (number : UInt32)
    (found : s.requests[id]? = some r)
    (wellFormed : WellFormed (s.requeue id r number))
    (going : (s.weightless id || !admitted.contains id ||
      s.counted admitted id) = true) :
    (s.requeue id r number).Balanced admitted := by
  apply balanced.of_owes wellFormed rfl (fun _ => rfl) rfl
  intro before at_id member t
  rw [found] at at_id
  cases at_id
  have still : r.metadata.work.value = 0 ∨
      isRequestTerminal r.state = false := by
    simpa [weightless, counted, found, member] using going
  unfold RequestRec.owes
  rcases still with nothing | going
  · simp [nothing]
  · rw [going]
    rfl

theorem step (balanced : s.Balanced admitted)
    (enabled : policy.fairness.enabled = true) {op : Op}
    (guarded : keepsBalance policy (admitted, s) op = true) :
    (step policy s op).Balanced (admitted ++ s.admitting policy op) := by
  have quiet : ∀ s' : Impl, s'.Balanced admitted →
      s'.Balanced (admitted ++ []) := by
    intro s' held
    rwa [List.append_nil]
  cases op with
  | submit metadata now => exact balanced.doSubmit guarded
  | cancel request now => exact quiet _ (balanced.doCancel guarded policy now)
  | complete completion now =>
      exact quiet _ ((reportRule admitted enabled now).doComplete balanced
        guarded)
  | sealBatch batch reason now =>
      apply quiet
      show (s.sealBatch batch reason now).2.Balanced admitted
      obtain unchanged | ⟨b, found, forming, closed⟩ :=
        sealBatch_cases s batch reason now
      · rw [unchanged]
        exact balanced
      · rw [closed]
        exact balanced.sealForming found forming reason now
  | split batch =>
      apply quiet
      show (s.doSplit batch).2.Balanced admitted
      obtain unchanged | ⟨b, found, _, ⟨_, taken⟩ | ⟨_, taken⟩⟩ :=
        doSplit_cases s batch
      · rw [unchanged]
        exact balanced
      · rw [taken]
        exact balanced.splitSealed found
      · rw [taken]
        exact balanced.splitOpen found
  | merge a b =>
      apply quiet
      show (s.doMerge policy a b).2.Balanced admitted
      obtain unchanged | ⟨first, second, foundA, foundB, possible, merged⟩ :=
        doMerge_cases policy s a b
      · rw [unchanged]
        exact balanced
      · rw [merged]
        exact balanced.mergeInto foundA foundB (canMerge_cases possible).1
  | retry request order now =>
      apply quiet
      show (s.doRetry policy request order now).2.Balanced admitted
      obtain ⟨err, refused⟩ | ⟨r, found, again, live, queued⟩ :=
        retryQueued_cases policy s request now
      · rw [doRetry_eq, refused]
        exact balanced
      · have guards : (s.weightless request || !admitted.contains request ||
              s.counted admitted request) = true ∧
            (s.requeue request r (s.attemptNumber r + 1)).ticksUncounted
              policy admitted order now = true := by
          simpa [keepsBalance, takesRetry, found, again, live, queued]
            using guarded
        rw [doRetry_eq, queued]
        exact (balanced.requeue _ found (balanced.wellFormed.requeue
          (balanced.wellFormed.keyed_of_found found) request _)
          guards.1).doTick guards.2
  | tick order now => exact quiet _ (balanced.doTick guarded)
  | expire order now => exact quiet _ (balanced.expireLocked guarded)
  | dispatchAndRun batch executor now =>
      exact quiet _ ((reportRule admitted enabled now).doDispatchAndRun
        balanced guarded)
  | prepareDispatch batch worker boot now =>
      exact quiet _ ((reportRule admitted enabled now).prepareDispatch
        balanced batch worker boot)
  | registerWorker worker boot cap =>
      exact quiet _ (balanced.of_accounts
        (balanced.wellFormed.of_counters _ _ _ _) (Nat.le_refl _) rfl
        fun _ => rfl)
  | rollEpoch =>
      exact quiet _ (balanced.of_accounts
        (balanced.wellFormed.of_counters _ _ _ _) (Nat.le_refl _) rfl
        fun _ => rfl)

end Balanced

/-- The accounts close after every run whose operations all move the totals as
they move what is owed. -/
theorem accountsClose_of_run (policy : BatchPolicy) (ops : List Op)
    (enabled : policy.fairness.enabled = true)
    (guarded : Transition.Along
      (Transition.recorded (BatchFabric.step policy) (admitting policy))
      (fun history op => keepsBalance policy history op = true) ([], fresh)
      ops) :
    (run policy ops).AccountsClose (admissions policy ops) := by
  have held := guarded.invariant (fun history => history.2.Balanced history.1)
    (fun _ _ _ balanced allowed => balanced.step enabled allowed)
    Balanced.fresh
  rw [Transition.run_recorded] at held
  exact held.accountsClose

/-- One tenant is at its cap and waits, another's request for no work is placed
and completed, and the report also completes the request that waits. -/
theorem accountsClose_of_reported :
    let policy : BatchPolicy := { fairness := { maxOutstandingPerTenant := 1 } }
    let ops : List Op := [
      .submit minimalRequest 0,
      .submit { minimalRequest with
        tenant := { value := 1 }, work := { value := 0 } } 0,
      .tick [] 1, .prepareDispatch { value := 1 } .null .null 2,
      .complete {
        epoch := { value := 1 }, generation := { value := 1 }
        batch := { value := 1 }
        members := [
          { request := { value := 2 }, attempt := { value := 2 } },
          { request := { value := 1 }, attempt := { value := 1 } }] } 3]
    (run policy ops).AccountsClose (admissions policy ops) :=
  accountsClose_of_run _ _ rfl (by
    rw [step_eq_stepKnown .minimal]
    decide +kernel)

/-- A request is submitted, placed and completed, and its work stays in its
tenant's total. -/
theorem not_accountsClose :
    ¬ ∀ (policy : BatchPolicy) (ops : List Op),
      policy.fairness.enabled = true →
        (run policy ops).AccountsClose (admissions policy ops) := by
  intro close
  let ops : List Op := [.submit minimalRequest 0, .tick [] 1,
    .dispatchAndRun { value := 1 } answering 2]
  have ended : Everywhere (run {} ops).requests fun _ r =>
      r.metadata.tenant = .null → isRequestTerminal r.state = true := by
    rw [run_eq_runKnown .minimal]
    decide +kernel
  have left : FairnessController.amount (run {} ops).fairness.outstanding
      .null = 1 := by
    rw [run_eq_runKnown .minimal]
    decide +kernel
  rw [((close {} ops rfl).closed .null ended).1] at left
  cases left

end Impl

end BatchFabric
