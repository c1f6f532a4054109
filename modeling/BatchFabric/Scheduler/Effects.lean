import BatchFabric.Scheduler.Operations

/-! What each function of the scheduler can do to the state, said once. Every
invariant is derived from these case lemmas. -/

namespace BatchFabric.Impl

/-- The state after an admitted submission. -/
def admitted (s : Impl) (metadata : RequestMetadata) (now : TimePoint)
    (fairness : FairnessController) (stats : BatchStats) : Impl :=
  { s.createRequest metadata now .eligible .eligible .success true with
    waitingIndex := s.waitingIndex.add
      (CompatibilityKey.build metadata.descriptor) { value := s.nextRequest }
    fairness := fairness
    stats := stats }

/-- Without an identity nothing is recorded. Otherwise the request is recorded
in one of four states, and only an admitted one is queued. -/
theorem doSubmit_cases (policy : BatchPolicy) (s : Impl)
    (metadata : RequestMetadata) (now : TimePoint) :
    (∃ stats, (s.doSubmit policy metadata now).2 = { s with stats := stats }) ∨
      (metadata.descriptor.model.isEmpty = false ∧
        ((∃ state outcome stats,
            (state = .expired ∨ state = .rejected ∨
              (state = .waiting ∧
                (s.doSubmit policy metadata now).1.admission = .deferred)) ∧
            (s.doSubmit policy metadata now).2 =
              { s.createRequest metadata now state state outcome false with
                stats := stats }) ∨
          (∃ fairness stats,
            (s.doSubmit policy metadata now).2 =
              s.admitted metadata now fairness stats))) := by
  unfold doSubmit
  dsimp only
  split
  · exact .inl ⟨_, rfl⟩
  · next identified =>
      have named : metadata.descriptor.model.isEmpty = false := by
        cases empty : metadata.descriptor.model.isEmpty with
        | false => rfl
        | true => simp [empty] at identified
      refine .inr ⟨named, ?_⟩
      split
      · exact .inl ⟨.expired, _, _, .inl rfl, rfl⟩
      · split
        · exact .inl ⟨.rejected, _, _, .inr (.inl rfl), rfl⟩
        · split
          · exact .inl ⟨.waiting, _, _, .inr (.inr ⟨rfl, rfl⟩), rfl⟩
          · exact .inr ⟨_, _, rfl⟩

theorem place_eq {s : Impl} {pick : RequestId} {r : RequestRec}
    (found : s.requests[pick]? = some r) (bid : BatchId)
    (key : CompatibilityKey) :
    s.place bid key pick =
      { s with
        batches := s.batches.modify bid fun b => b.addMember pick r.metadata
        requests := s.requests.modify pick fun r => r.reserve bid
        fairness := s.fairness.notePlaced r.metadata.tenant
          r.metadata.work.value
        stats.reservedNow := s.stats.reservedNow + 1
        waitingIndex := s.waitingIndex.remove key pick } := by
  unfold place addMemberToBatch
  rw [found]

theorem fillable_cases {policy : BatchPolicy} {s : Impl} {b : BatchRec}
    {now : TimePoint} {id : RequestId}
    (fillable : s.fillable policy b now id = true) :
    ∃ r, s.requests[id]? = some r ∧ isWaitingState r.state = true ∧
      r.metadata.deadline.expired now = false := by
  unfold Impl.fillable at fillable
  cases found : s.requests[id]? with
  | none => simp [found] at fillable
  | some r =>
      refine ⟨r, rfl, ?_⟩
      cases waiting : isWaitingState r.state with
      | false => simp [found, waiting] at fillable
      | true =>
          cases expired : r.metadata.deadline.expired now with
          | false => exact ⟨rfl, rfl⟩
          | true => simp [found, waiting, expired] at fillable

theorem fillPick_cases {policy : BatchPolicy} {s : Impl} {bid : BatchId}
    {cands : List RequestId} {now : TimePoint} {pick : RequestId}
    (picked : s.fillPick policy bid cands now = some pick) :
    ∃ b, s.batches[bid]? = some b ∧ pick ∈ cands ∧
      s.fillable policy b now pick = true := by
  unfold fillPick at picked
  cases found : s.batches[bid]? with
  | none => simp [found] at picked
  | some b =>
      refine ⟨b, rfl, ?_⟩
      simp only [found] at picked
      have sorted := List.mem_of_mem_head? (Option.mem_def.mpr picked)
      rw [(List.perm_insertionSort _ _).mem_iff] at sorted
      generalize s.fairness.selectNext policy.fairness _ = chosen at sorted
      cases pooled : (OrderedMap.groupBy s.tenantOf
          (cands.filter (s.fillable policy b now)))[chosen]? with
      | none => simp [pooled] at sorted
      | some pool =>
          rw [pooled, Option.getD_some] at sorted
          have grouped :=
            (OrderedMap.mem_of_getElem?_groupBy pooled).2 pick sorted
          exact List.mem_filter.mp grouped.1

theorem doSeal_cases (s : Impl) (bid : BatchId) (reason : SealReason)
    (now : TimePoint) :
    (s.doSeal bid reason now).2 = s ∨
      ∃ b, s.batches[bid]? = some b ∧ b.state = .forming ∧
        (s.doSeal bid reason now).2 = s.sealForming bid b reason now := by
  unfold doSeal
  cases found : s.batches[bid]? with
  | none => exact .inl rfl
  | some b =>
      by_cases forming : b.state = .forming
      · exact .inr ⟨b, rfl, forming, by simp [forming]⟩
      · exact .inl (by simp [forming])

theorem sealBatch_cases (s : Impl) (bid : BatchId) (reason : SealReason)
    (now : TimePoint) :
    (s.sealBatch bid reason now).2 = s ∨
      ∃ b, s.batches[bid]? = some b ∧ b.state = .forming ∧
        (s.sealBatch bid reason now).2 = s.sealForming bid b reason now := by
  unfold sealBatch doSeal
  cases found : s.batches[bid]? with
  | none => exact .inl rfl
  | some b =>
      by_cases forming : b.state = .forming
      · exact .inr ⟨b, rfl, forming, by simp [forming]⟩
      · exact .inl (by simp [forming])

theorem doSplit_cases (s : Impl) (bid : BatchId) :
    (s.doSplit bid).2 = s ∨
      ∃ b, s.batches[bid]? = some b ∧ splittable b = true ∧
        ((b.state = .sealed ∧ (s.doSplit bid).2 = s.splitSealed bid b) ∨
          (b.state ≠ .sealed ∧ (s.doSplit bid).2 = s.splitOpen bid b)) := by
  unfold doSplit
  cases found : s.batches[bid]? with
  | none => exact .inl rfl
  | some b =>
      cases possible : splittable b with
      | false => exact .inl (by simp [possible])
      | true =>
          refine .inr ⟨b, rfl, possible, ?_⟩
          by_cases isSealed : b.state = .sealed
          · exact .inl ⟨isSealed, by simp [possible, isSealed]⟩
          · exact .inr ⟨isSealed, by simp [possible, isSealed]⟩

theorem doMerge_cases (policy : BatchPolicy) (s : Impl) (aid bid : BatchId) :
    (s.doMerge policy aid bid).2 = s ∨
      ∃ a b, s.batches[aid]? = some a ∧ s.batches[bid]? = some b ∧
        canMerge policy a b = true ∧
        (s.doMerge policy aid bid).2 = s.mergeInto aid bid a b := by
  unfold doMerge
  cases foundA : s.batches[aid]? with
  | none => exact .inl rfl
  | some a =>
      cases foundB : s.batches[bid]? with
      | none => exact .inl rfl
      | some b =>
          cases possible : canMerge policy a b with
          | false => exact .inl (by simp [possible])
          | true => exact .inr ⟨a, b, rfl, rfl, possible, by simp [possible]⟩

theorem canMerge_cases {policy : BatchPolicy} {a b : BatchRec}
    (possible : canMerge policy a b = true) :
    a.key = b.key ∧ a.phase = b.phase ∧ a.state = b.state ∧
      (a.state = .sealed ∨ a.state = .forming) := by
  unfold canMerge at possible
  by_cases keys : a.key = b.key
  · by_cases phases : a.phase = b.phase
    · by_cases states : a.state = b.state
      · by_cases isSealed : a.state = .sealed
        · exact ⟨keys, phases, states, .inl isSealed⟩
        · by_cases forming : a.state = .forming
          · exact ⟨keys, phases, states, .inr forming⟩
          · simp [keys, phases, isSealed, forming] at possible
      · simp [keys, phases, states] at possible
    · simp [keys, phases] at possible
  · simp [keys] at possible

theorem canMerge_enabled {policy : BatchPolicy} {a b : BatchRec}
    (possible : canMerge policy a b = true) : policy.merge.enabled = true := by
  unfold canMerge at possible
  repeat' split at possible
  all_goals simp_all

/-- A request found in the waiting index leaves it, and expires unless it has
ended. -/
theorem expireWaiting_cases (now : TimePoint) (s : Impl) (id : RequestId) :
    expireWaiting now s id = s ∨
      ∃ r, s.requests[id]? = some r ∧
        ((isRequestTerminal r.state = true ∧
            expireWaiting now s id =
              { s with waitingIndex := s.waitingIndex.remove r.key id }) ∨
          (isRequestTerminal r.state = false ∧ ∃ stats,
            expireWaiting now s id =
              { s with
                waitingIndex := s.waitingIndex.remove r.key id
                requests := s.requests.modify id fun r =>
                  { r with state := .expired, inWaiting := false }
                attempts := s.attempts.modify r.currentAttempt fun a =>
                  a.finish .expired .expired now
                stats := stats })) := by
  unfold expireWaiting
  cases found : s.requests[id]? with
  | none => exact .inl rfl
  | some r =>
      refine .inr ⟨r, rfl, ?_⟩
      unfold completeRequestTerminal
      cases ended : isRequestTerminal r.state with
      | true => exact .inl ⟨rfl, by simp [found, ended]⟩
      | false => exact .inr ⟨rfl, _, by simp [found, ended]; rfl⟩

theorem doCancel_cases (policy : BatchPolicy) (s : Impl) (id : RequestId)
    (now : TimePoint) :
    (s.doCancel policy id now).2 = s ∨
      ∃ r, s.requests[id]? = some r ∧ isRequestTerminal r.state = false ∧
        ((isInBatch r.state = false ∧
            (s.doCancel policy id now).2 = s.cancelOutside id r now) ∨
          (isInBatch r.state = true ∧ ∃ b, s.batches[r.batch]? = some b ∧
            ((b.state = .forming ∧
                (s.doCancel policy id now).2 =
                  s.cancelForming policy id r now) ∨
              (b.state ≠ .forming ∧
                (s.doCancel policy id now).2 =
                  s.cancelAfterSeal id r now)))) := by
  unfold doCancel
  cases found : s.requests[id]? with
  | none => exact .inl rfl
  | some r =>
      cases ended : isRequestTerminal r.state with
      | true => exact .inl (by simp [ended])
      | false =>
          cases inBatch : isInBatch r.state with
          | false =>
              exact .inr ⟨r, rfl, ended, .inl ⟨inBatch,
                by simp [ended, inBatch]⟩⟩
          | true =>
              cases listed : s.batches[r.batch]? with
              | none => exact .inl (by simp [ended, inBatch, listed])
              | some b =>
                  cases state : b.state with
                  | forming =>
                      exact .inr ⟨r, rfl, ended, .inr ⟨inBatch, b, listed,
                        .inl ⟨state, by simp [ended, inBatch, listed, state]⟩⟩⟩
                  | sealed | dispatched | running =>
                      exact .inr ⟨r, rfl, ended, .inr ⟨inBatch, b, listed,
                        .inr ⟨by rw [state]; exact nofun,
                          by simp [ended, inBatch, listed, state]⟩⟩⟩
                  | _ =>
                      exact .inl (by simp [ended, inBatch, listed, state])

/-- The state in which an outcome leaves its request and attempt, if it is one
the switch acts on. -/
def endState : CompletionStatus → Option RequestState
  | .success => some .completed
  | .retryableFailure => some .failed
  | .nonRetryableFailure => some .failed
  | .cancelled => some .cancelled
  | .expired => some .expired
  | .stale | .deferred => none
  | .undeclared _ _ => none

/-- An outcome the switch acts on concludes the current attempt and, on a
retryable failure, may queue the request again. -/
theorem applyMemberOutcome_acts (policy : BatchPolicy) (now : TimePoint)
    {s : Impl} {mc : MemberCompletion} {r : RequestRec} {a : AttemptRec}
    {state : RequestState} (found : s.requests[mc.request]? = some r)
    (current : s.attempts[r.currentAttempt]? = some a)
    (acts : endState mc.status = some state) :
    ∃ fairness stats,
      s.applyMemberOutcome policy now mc =
          { s.conclude r mc state now with
            fairness := fairness, stats := stats } ∨
        (mc.status = .retryableFailure ∧ policy.retry.enabled = true ∧
          a.number < policy.retry.maxAttempts ∧
          s.applyMemberOutcome policy now mc =
            ({ s.conclude r mc state now with
              fairness := fairness, stats := stats } : Impl).requeue
                mc.request r (a.number + 1)) := by
  unfold applyMemberOutcome
  simp only [found, current]
  cases status : mc.status with
  | success =>
      rw [status] at acts
      cases acts
      exact ⟨_, _, .inl rfl⟩
  | retryableFailure =>
      rw [status] at acts
      cases acts
      refine ⟨s.fairness, { s.stats with
        retryableFailures := s.stats.retryableFailures + 1 }, ?_⟩
      simp only [applyRetryable]
      by_cases again : (policy.retry.enabled &&
          a.number < policy.retry.maxAttempts) = true
      · have both : policy.retry.enabled = true ∧
            a.number < policy.retry.maxAttempts := by
          simpa using again
        rw [if_pos again]
        exact .inr ⟨trivial, both.1, both.2, rfl⟩
      · rw [if_neg again]
        exact .inl rfl
  | nonRetryableFailure =>
      rw [status] at acts
      cases acts
      exact ⟨s.fairness, s.stats, .inl rfl⟩
  | cancelled =>
      rw [status] at acts
      cases acts
      exact ⟨s.fairness, _, .inl rfl⟩
  | expired =>
      rw [status] at acts
      cases acts
      exact ⟨s.fairness, _, .inl rfl⟩
  | stale | deferred | undeclared =>
      rw [status] at acts
      cases acts

/-- Any other outcome is at most counted. -/
theorem applyMemberOutcome_idle (policy : BatchPolicy) (now : TimePoint)
    (s : Impl) {mc : MemberCompletion} (idle : endState mc.status = none) :
    ∃ stats, s.applyMemberOutcome policy now mc = { s with stats := stats } := by
  unfold applyMemberOutcome
  cases found : s.requests[mc.request]? with
  | none => exact ⟨s.stats, rfl⟩
  | some r =>
      cases current : s.attempts[r.currentAttempt]? with
      | none => exact ⟨s.stats, by simp [current]⟩
      | some a =>
          simp only [current]
          cases status : mc.status with
          | stale | deferred => exact ⟨_, rfl⟩
          | undeclared => exact ⟨s.stats, rfl⟩
          | _ =>
              rw [status] at idle
              cases idle

theorem applyMemberOutcome_cases (policy : BatchPolicy) (now : TimePoint)
    (s : Impl) (mc : MemberCompletion) :
    (∃ stats, s.applyMemberOutcome policy now mc = { s with stats := stats }) ∨
      ∃ r a state fairness stats, s.requests[mc.request]? = some r ∧
        s.attempts[r.currentAttempt]? = some a ∧
        endState mc.status = some state ∧
        (s.applyMemberOutcome policy now mc =
            { s.conclude r mc state now with
              fairness := fairness, stats := stats } ∨
          (mc.status = .retryableFailure ∧ policy.retry.enabled = true ∧
            a.number < policy.retry.maxAttempts ∧
            s.applyMemberOutcome policy now mc =
              ({ s.conclude r mc state now with
                fairness := fairness, stats := stats } : Impl).requeue
                  mc.request r (a.number + 1))) := by
  cases acts : endState mc.status with
  | none => exact .inl (applyMemberOutcome_idle policy now s acts)
  | some state =>
      cases found : s.requests[mc.request]? with
      | none => exact .inl ⟨s.stats, by simp [applyMemberOutcome, found]⟩
      | some r =>
          cases current : s.attempts[r.currentAttempt]? with
          | none =>
              exact .inl ⟨s.stats, by
                simp [applyMemberOutcome, found, current]⟩
          | some a =>
              obtain ⟨fairness, stats, acted⟩ :=
                applyMemberOutcome_acts policy now found current acts
              exact .inr ⟨r, a, state, fairness, stats, rfl, current, rfl,
                acted⟩

/-- Nothing but the count of stale reports differs. -/
def OnlyStale (s s' : Impl) : Prop :=
  ∃ count, s' = { s with stats.staleRejections := count }

theorem OnlyStale.refl (s : Impl) : OnlyStale s s :=
  ⟨s.stats.staleRejections, rfl⟩

theorem OnlyStale.countStale (s : Impl) : OnlyStale s s.countStale :=
  ⟨_, rfl⟩

theorem completeMember_cases (policy : BatchPolicy) (now : TimePoint)
    (s : Impl) (mc : MemberCompletion) :
    OnlyStale s (s.completeMember policy now mc) ∨
      ∃ r a, s.requests[mc.request]? = some r ∧
        r.currentAttempt = mc.attempt ∧
        s.attempts[r.currentAttempt]? = some a ∧
        isSettledAttempt a.state = false ∧
        s.completeMember policy now mc =
          s.applyMemberOutcome policy now mc := by
  unfold completeMember
  cases found : s.requests[mc.request]? with
  | none => exact .inl (.refl s)
  | some r =>
      by_cases named : r.currentAttempt = mc.attempt
      · cases current : s.attempts[mc.attempt]? with
        | none =>
            refine .inl ?_
            simpa [named] using OnlyStale.refl s
        | some a =>
            cases settled : isSettledAttempt a.state with
            | true =>
                refine .inl ?_
                simpa [named, settled] using OnlyStale.refl s
            | false =>
                exact .inr ⟨r, a, rfl, named, by rw [named, current], settled,
                  by simp [named, settled]⟩
      · refine .inl ?_
        simpa [named] using OnlyStale.countStale s

theorem failMember_cases (policy : BatchPolicy) (now : TimePoint)
    (err : Error) (s : Impl) (m : RequestId) :
    s.failMember policy now err m = s ∨
      ∃ r mc, s.requests[m]? = some r ∧ mc.request = m ∧
        mc.attempt = r.currentAttempt ∧ mc.status = .retryableFailure ∧
        s.failMember policy now err m =
          s.applyMemberOutcome policy now mc := by
  unfold failMember
  cases found : s.requests[m]? with
  | none => exact .inl rfl
  | some r => exact .inr ⟨r, _, rfl, rfl, rfl, rfl, rfl⟩

theorem finishBatch_cases (s : Impl) (bid : BatchId) (worker : WorkerId)
    (now : TimePoint) :
    s.finishBatch bid worker now = s ∨
      ∃ b stats workers, s.batches[bid]? = some b ∧
        ((s.allTerminal b = true ∧
            s.finishBatch bid worker now =
              { s with
                batches := s.batches.modify bid fun b =>
                  { b with state := .completed, completedNs := now }
                stats := stats
                workers := workers }) ∨
          (s.allTerminal b = false ∧
            s.finishBatch bid worker now =
              { s with
                batches := s.batches.modify bid fun b =>
                  { b with state := .partiallyCompleted }
                stats := stats
                workers := workers })) := by
  unfold finishBatch
  cases found : s.batches[bid]? with
  | none => exact .inl rfl
  | some b =>
      cases ended : s.allTerminal b with
      | true =>
          exact .inr ⟨b, _, _, rfl, .inl ⟨ended, by
            simp [ended]; exact ⟨rfl, rfl⟩⟩⟩
      | false =>
          exact .inr ⟨b, _, _, rfl, .inr ⟨ended, by
            simp [ended]; exact ⟨rfl, rfl⟩⟩⟩

/-- Closing a batch changes no request and no attempt. -/
theorem tables_finishBatch (s : Impl) (bid : BatchId) (worker : WorkerId)
    (now : TimePoint) :
    (s.finishBatch bid worker now).requests = s.requests ∧
      (s.finishBatch bid worker now).attempts = s.attempts := by
  obtain unchanged | ⟨b, stats, workers, _, ⟨_, ended⟩ | ⟨_, partly⟩⟩ :=
    finishBatch_cases s bid worker now
  · rw [unchanged]
    exact ⟨rfl, rfl⟩
  · rw [ended]
    exact ⟨rfl, rfl⟩
  · rw [partly]
    exact ⟨rfl, rfl⟩

/-- The checks a report passes to be accepted. -/
structure Accepts (s : Impl) (comp : BatchCompletion) (b : BatchRec) :
    Prop where
  epoch : comp.epoch = s.epoch
  worker : s.workerCurrent comp.worker comp.boot = true
  batch : s.batches[comp.batch]? = some b
  generation : b.generation = comp.generation
  inFlight : b.state = .dispatched ∨ b.state = .running

theorem doComplete_of_accepts {s : Impl} {comp : BatchCompletion}
    {b : BatchRec} (accepted : s.Accepts comp b) (policy : BatchPolicy)
    (now : TimePoint) :
    s.doComplete policy comp now =
      (.ok (), (Transition.run (completeMember policy now) s
        comp.members).finishBatch comp.batch comp.worker now) := by
  unfold doComplete
  rcases accepted.inFlight with state | state
  · simp [accepted.epoch, accepted.worker, accepted.batch,
      accepted.generation, state]
  · simp [accepted.epoch, accepted.worker, accepted.batch,
      accepted.generation, state]

/-- A report is refused and at most counted, or it is taken. -/
theorem doComplete_cases (policy : BatchPolicy) (s : Impl)
    (comp : BatchCompletion) (now : TimePoint) :
    (∃ err stale, s.doComplete policy comp now =
        (.error err, { s with stats.staleRejections := stale })) ∨
      ∃ b, s.Accepts comp b ∧
        s.doComplete policy comp now =
          (.ok (), (Transition.run (completeMember policy now) s
            comp.members).finishBatch comp.batch comp.worker now) := by
  by_cases accepted : ∃ b, s.Accepts comp b
  · obtain ⟨b, accepted⟩ := accepted
    exact .inr ⟨b, accepted, doComplete_of_accepts accepted policy now⟩
  · refine .inl ?_
    unfold doComplete
    split
    · exact ⟨_, _, rfl⟩
    · next epoch =>
      split
      · exact ⟨_, _, rfl⟩
      · next worker =>
        split
        · exact ⟨_, _, rfl⟩
        · next b found =>
          split
          · exact ⟨_, _, rfl⟩
          · next generation =>
            split
            · exact ⟨_, s.stats.staleRejections, rfl⟩
            · next inFlight =>
              refine absurd ⟨b, ?_⟩ accepted
              exact {
                epoch := Decidable.not_not.mp epoch
                worker := by simpa using worker
                batch := found
                generation := Decidable.not_not.mp generation
                inFlight := by
                  simpa [Decidable.or_iff_not_imp_left] using inFlight }

/-- A refused report is at most counted. -/
theorem onlyStale_of_refused {policy : BatchPolicy} {s : Impl}
    {comp : BatchCompletion} {now : TimePoint}
    (refused : (s.doComplete policy comp now).1 ≠ .ok ()) :
    OnlyStale s (s.doComplete policy comp now).2 := by
  obtain ⟨err, stale, counted⟩ | ⟨b, _, taken⟩ :=
    doComplete_cases policy s comp now
  · rw [counted]
    exact ⟨stale, rfl⟩
  · rw [taken] at refused
    exact absurd rfl refused

theorem prepareDispatch_cases (s : Impl) (bid : BatchId) (worker : WorkerId)
    (boot : WorkerBootId) (now : TimePoint) :
    (∃ err, s.prepareDispatch bid worker boot now = (.error err, s)) ∨
      ∃ b, s.batches[bid]? = some b ∧ b.state = .sealed ∧
        s.workerCurrent worker boot = true ∧
        s.prepareDispatch bid worker boot now =
          (.ok ((s.markDispatched bid b worker boot now).executionOf b worker),
            s.markDispatched bid b worker boot now) := by
  unfold prepareDispatch
  cases found : s.batches[bid]? with
  | none => exact .inl ⟨_, rfl⟩
  | some b =>
      by_cases isSealed : b.state = .sealed
      · cases worker : s.workerCurrent worker boot with
        | false => exact .inl ⟨_, by simp [isSealed]; rfl⟩
        | true => exact .inr ⟨b, rfl, isSealed, rfl, by simp [isSealed]⟩
      · exact .inl ⟨_, by simp [isSealed]; rfl⟩

/-- A run of a batch in process: the executor failed, or its results were
reported. -/
theorem doDispatchAndRun_cases (policy : BatchPolicy) (s : Impl)
    (bid : BatchId) (executor : Executor) (now : TimePoint) :
    (s.doDispatchAndRun policy bid executor now).2 = s ∨
      ∃ b, s.batches[bid]? = some b ∧ b.state = .sealed ∧
        ((∃ err, executor.execute
              (s.runExecution bid b executor.capability.worker now) =
                .error err ∧
            (s.doDispatchAndRun policy bid executor now).2 =
              Transition.run (failMember policy now err)
                (s.startedRun bid b executor.capability.worker now)
                b.members) ∨
          (∃ results, executor.execute
              (s.runExecution bid b executor.capability.worker now) =
                .ok results ∧
            (s.doDispatchAndRun policy bid executor now).2 =
              ((s.startedRun bid b executor.capability.worker now).doComplete
                policy (resultsCompletion b executor.capability.worker
                  (s.bootOf executor.capability.worker) results) now).2)) := by
  unfold doDispatchAndRun
  cases found : s.batches[bid]? with
  | none => exact .inl rfl
  | some b =>
      by_cases isSealed : b.state = .sealed
      · refine .inr ⟨b, rfl, isSealed, ?_⟩
        cases answer : executor.execute
            (s.runExecution bid b executor.capability.worker now) with
        | error err => exact .inl ⟨err, rfl, by simp [isSealed, answer]⟩
        | ok results =>
            refine .inr ⟨results, rfl, ?_⟩
            simp only [isSealed, answer, ne_eq, not_true_eq_false, if_false]
            split <;> next taken => rw [taken]
      · exact .inl (by simp [isSealed])

/-- What a run in process leaves, by what the executor answers. -/
theorem doDispatchAndRun_of_sealed {s : Impl} {bid : BatchId} {b : BatchRec}
    (found : s.batches[bid]? = some b) (isSealed : b.state = .sealed)
    (policy : BatchPolicy) (executor : Executor) (now : TimePoint) :
    (s.doDispatchAndRun policy bid executor now).2 =
      match executor.execute
          (s.runExecution bid b executor.capability.worker now) with
      | .error err => Transition.run (failMember policy now err)
          (s.startedRun bid b executor.capability.worker now) b.members
      | .ok results =>
          ((s.startedRun bid b executor.capability.worker now).doComplete
            policy (resultsCompletion b executor.capability.worker
              (s.bootOf executor.capability.worker) results) now).2 := by
  unfold doDispatchAndRun
  simp only [found, isSealed, ne_eq, not_true_eq_false, if_false]
  cases executor.execute
      (s.runExecution bid b executor.capability.worker now) with
  | error err => rfl
  | ok results =>
      dsimp only
      split <;> next taken => rw [taken]

theorem doDispatchAndRun_of_not_sealed {s : Impl} {bid : BatchId}
    (idle : ∀ b, s.batches[bid]? = some b → b.state ≠ .sealed)
    (policy : BatchPolicy) (executor : Executor) (now : TimePoint) :
    (s.doDispatchAndRun policy bid executor now).2 = s := by
  obtain unchanged | ⟨b, found, isSealed, _⟩ :=
    doDispatchAndRun_cases policy s bid executor now
  · exact unchanged
  · exact absurd isSealed (idle b found)

theorem retryQueued_cases (policy : BatchPolicy) (s : Impl) (id : RequestId)
    (now : TimePoint) :
    (∃ err, s.retryQueued policy id now = (.error err, s)) ∨
      ∃ r, s.requests[id]? = some r ∧
        s.attemptNumber r < policy.retry.maxAttempts ∧
        r.metadata.deadline.expired now = false ∧
        s.retryQueued policy id now =
          (.ok { value := s.nextAttempt },
            s.requeue id r (s.attemptNumber r + 1)) := by
  unfold retryQueued
  cases found : s.requests[id]? with
  | none => exact .inl ⟨_, rfl⟩
  | some r =>
      by_cases exhausted : s.attemptNumber r ≥ policy.retry.maxAttempts
      · exact .inl ⟨_, by simp [exhausted]; rfl⟩
      · cases has : r.metadata.deadline.hasDeadline with
        | false =>
            exact .inr ⟨r, rfl, UInt32.not_le.mp exhausted,
              by simp [Deadline.expired, has], by simp [exhausted, has]⟩
        | true =>
            cases passed : r.metadata.deadline.expired now with
            | true => exact .inl ⟨_, by simp [exhausted, has, passed]; rfl⟩
            | false =>
                exact .inr ⟨r, rfl, UInt32.not_le.mp exhausted, passed,
                  by simp [exhausted, has, passed]⟩

theorem doRetry_eq (policy : BatchPolicy) (s : Impl) (id : RequestId)
    (order : List CompatibilityKey) (now : TimePoint) :
    (s.doRetry policy id order now).2 =
      match s.retryQueued policy id now with
      | (.error _, _) => (s.retryQueued policy id now).2
      | (.ok _, queued) => queued.doTick policy order now := by
  unfold doRetry
  split <;> simp [*]

end BatchFabric.Impl
