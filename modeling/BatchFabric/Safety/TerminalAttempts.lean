import BatchFabric.Safety.TerminalRequests
import BatchFabric.Scheduler.KnownKeys

namespace BatchFabric.Impl

open OrderedMap

/-! Attempts that have ended, over every run. -/

theorem attemptsFrozen_congr {s s₁ s' s₁' : Impl}
    (before : s₁.attempts = s.attempts) (after : s₁'.attempts = s'.attempts) :
    AttemptsFrozen s₁ s₁' ↔ AttemptsFrozen s s' := by
  unfold AttemptsFrozen attemptEnding
  rw [before, after]

/-- A step of a loop over outcomes counts, or takes one up after which the
attempt satisfies `P`. -/
inductive Effect (P : AttemptRec → Prop) (now : TimePoint) (s : Impl)
    (id : RequestId) : Impl → Prop
  | counts (stats : BatchStats) : Effect P now s id { s with stats := stats }
  | takes {next : Impl} {mc : MemberCompletion} {r : RequestRec}
      {a : AttemptRec} {state : RequestState} (named : mc.request = id)
      (taken : TakenUp s mc now r a state next)
      (concluded : P (a.conclude mc state now)) : Effect P now s id next

section Effect

variable {P : AttemptRec → Prop} {now : TimePoint} {s current next : Impl}
  {id : RequestId}

theorem Effect.keeps_ended (effect : Effect P now current id next)
    (wellFormed : WellFormed current) {aid : AttemptId}
    (ended : ∃ a, current.attempts[aid]? = some a ∧ P a) :
    ∃ a, next.attempts[aid]? = some a ∧ P a := by
  cases effect with
  | counts stats => exact ended
  | @takes _ _ r _ _ _ taken concluded =>
      obtain ⟨a', found, holds⟩ := ended
      by_cases same : r.currentAttempt = aid
      · rw [← same]
        exact ⟨_, taken.attempt, concluded⟩
      · refine ⟨a', ?_, holds⟩
        rw [taken.attempts aid same (wellFormed.attempt aid a' found)]
        exact found

/-- The attempt a request had is as it was, or has ended as `P` says. -/
theorem Effect.ends_current (effect : Effect P now current id next)
    (reporting : Reporting s current) {other : RequestId} {r : RequestRec}
    (found : s.requests[other]? = some r)
    (before : Untouched s current other ∨
      ∃ a, current.attempts[r.currentAttempt]? = some a ∧ P a) :
    Untouched s next other ∨
      ∃ a, next.attempts[r.currentAttempt]? = some a ∧ P a := by
  rcases before with untouched | ended
  · cases effect with
    | counts stats => exact .inl (untouched.count stats)
    | @takes _ mc _ _ _ _ taken concluded =>
        by_cases same : mc.request = other
        · subst same
          have present := taken.concluding.request
          rw [untouched.request, found] at present
          cases present
          exact .inr ⟨_, taken.attempt, concluded⟩
        · exact .inl (untouched.trans (taken.untouched reporting.owns same))
  · exact .inr (effect.keeps_ended reporting.wellFormed ended)

/-- A loop that takes up an outcome of a request not touched before ends the
attempt the request had. -/
theorem ended_of_run (now : TimePoint) {ι : Type} {step : Impl → ι → Impl}
    (named : ι → RequestId)
    (reports : ∀ current input, Reporting s current →
      Reporting s (step current input))
    (effects : ∀ current input, Reporting s current →
      Effect P now current (named input) (step current input))
    {inputs : List ι} {input : ι} (member : input ∈ inputs)
    (takes : ∀ current, Reporting s current →
      Untouched s current (named input) →
      ∃ mc r a state, mc.request = named input ∧
        TakenUp current mc now r a state (step current input) ∧
        P (a.conclude mc state now))
    (initially : Reporting s s) {r : RequestRec}
    (found : s.requests[named input]? = some r) :
    ∃ a, (Transition.run step s inputs).attempts[r.currentAttempt]? = some a ∧
      P a := by
  apply Transition.run_establishes
    (fun current => Reporting s current ∧ (Untouched s current (named input) ∨
      ∃ a, current.attempts[r.currentAttempt]? = some a ∧ P a))
    (fun current => ∃ a, current.attempts[r.currentAttempt]? = some a ∧ P a)
    _ _ _ member ⟨initially, .inl (.refl s _)⟩
  · rintro current next _ ⟨reporting, before⟩
    exact ⟨reports current next reporting,
      (effects current next reporting).ends_current reporting found before⟩
  · rintro current next ⟨reporting, _⟩ ended
    exact (effects current next reporting).keeps_ended reporting.wellFormed
      ended
  · rintro current ⟨reporting, untouched | ended⟩
    · obtain ⟨mc, r', a, state, same, taken, concluded⟩ :=
        takes current reporting untouched
      have present := taken.concluding.request
      rw [same, untouched.request, found] at present
      cases present
      exact ⟨_, taken.attempt, concluded⟩
    · exact (effects current input reporting).keeps_ended reporting.wellFormed
        ended

end Effect

/-! Reports. -/

def Settled (a : AttemptRec) : Prop :=
  isSettledAttempt a.state = true

theorem settled_conclude {mc : MemberCompletion} {state : RequestState}
    (acts : endState mc.status = some state) (a : AttemptRec)
    (now : TimePoint) : Settled (a.conclude mc state now) := by
  unfold Settled
  rw [state_attempt_conclude]
  exact endState_settled acts

section CompleteMembers

variable {s : Impl} {members : List MemberCompletion}

theorem effect_completeMember (wellFormed : WellFormed s)
    (policy : BatchPolicy) (now : TimePoint) (mc : MemberCompletion) :
    Effect Settled now s mc.request (s.completeMember policy now mc) := by
  cases turn : s.takesUp mc with
  | false =>
      obtain ⟨stats, counted⟩ := completeMember_of_untaken turn policy now
      rw [counted]
      exact .counts stats
  | true =>
      obtain ⟨r, a, state, _, taken⟩ :=
        completeMember_of_taken wellFormed turn policy now
      exact .takes rfl taken (settled_conclude taken.concluding.acts a now)

/-- The current attempt of a request that a record takes up is settled when
the report is done. -/
theorem settled_completeMembers (wellFormed : WellFormed s)
    (owns : s.OwnsAttempts) {mc : MemberCompletion} (member : mc ∈ members)
    (taken : s.takesUp mc = true) {r : RequestRec}
    (found : s.requests[mc.request]? = some r) (policy : BatchPolicy)
    (now : TimePoint) :
    ∃ a, (Transition.run (completeMember policy now) s members).attempts[
      r.currentAttempt]? = some a ∧ Settled a := by
  apply ended_of_run now MemberCompletion.request _ _ member _
    (.refl wellFormed owns) found
  · exact fun current next reporting =>
      reporting.completeMember policy now next
  · exact fun current next reporting =>
      effect_completeMember reporting.wellFormed policy now next
  · intro current reporting untouched
    have turn : current.takesUp mc = true := by
      rw [takesUp_of_untouched untouched owns, taken]
    obtain ⟨r', a, state, _, applied⟩ :=
      completeMember_of_taken reporting.wellFormed turn policy now
    exact ⟨mc, r', a, state, rfl, applied,
      settled_conclude applied.concluding.acts a now⟩

/-- An attempt that has ended is taken up only with a rejected request. -/
theorem rejected_of_taken {current next : Impl} {mc : MemberCompletion}
    {now : TimePoint} {r : RequestRec} {a : AttemptRec} {state : RequestState}
    (reporting : Reporting s current)
    (taken : TakenUp current mc now r a state next)
    (unsettled : isSettledAttempt a.state = false)
    (ended : isRequestTerminal a.state = true) :
    current.requestEnding mc.request = some .rejected := by
  obtain ⟨_, a', found, agrees⟩ :=
    reporting.owns.known _ r taken.concluding.request
  rw [taken.concluding.attempt] at found
  cases found
  rw [requestEnding_of_found taken.concluding.request,
    RequestRec.ending_eq_some, ← agrees.eq_of_terminal ended]
  exact ⟨rfl, rejected_of_unsettled ended unsettled⟩

/-- Outcomes leave no request rejected but those they do not touch. -/
theorem Reporting.untouched_of_rejected {current : Impl} {id : RequestId}
    (reporting : Reporting s current)
    (rejected : current.requestEnding id = some .rejected) :
    Untouched s current id := by
  rcases reporting.each id with untouched | ⟨r', found, state⟩
  · exact untouched
  · rw [requestEnding_of_found found] at rejected
    have is := (RequestRec.ending_eq_some.mp rejected).2
    rw [is] at state
    rcases state with settled | ⟨eligible, _⟩
    · cases settled
    · cases eligible

theorem attemptsFrozen_completeMembers_iff (wellFormed : WellFormed s)
    (owns : s.OwnsAttempts) (policy : BatchPolicy) (now : TimePoint) :
    AttemptsFrozen s
        (Transition.run (completeMember policy now) s members) ↔
      s.recordsSpare members = true := by
  rw [recordsSpare_iff]
  constructor
  · intro frozen mc member taken rejected
    obtain ⟨r, found, ended⟩ := found_of_requestEnding rejected
    have is := (RequestRec.ending_eq_some.mp ended).2
    obtain ⟨_, a, current, agrees⟩ := owns.known _ r found
    have isToo : a.state = .rejected := by
      unfold inStep at agrees
      rw [is] at agrees
      exact agrees
    have before : s.attemptEnding r.currentAttempt =
        some (.rejected, a.outcome, a.result) := by
      rw [attemptEnding_of_found current]
      exact AttemptRec.ending_eq_some.mpr ⟨rfl, isToo, rfl, rfl⟩
    obtain ⟨a', found', settled⟩ :=
      settled_completeMembers wellFormed owns member taken found policy now
    have after := frozen _ _ before
    rw [attemptEnding_of_found found'] at after
    unfold Settled at settled
    rw [(AttemptRec.ending_eq_some.mp after).2.1] at settled
    cases settled
  · intro spared aid ending ended
    suffices held : Reporting s
        (Transition.run (completeMember policy now) s members) ∧
        (Transition.run (completeMember policy now) s members).attemptEnding
          aid = some ending from held.2
    apply Transition.run_invariant (fun current =>
      Reporting s current ∧ current.attemptEnding aid = some ending)
    · rintro current mc member ⟨reporting, kept⟩
      refine ⟨reporting.completeMember policy now mc, ?_⟩
      cases turn : current.takesUp mc with
      | false =>
          obtain ⟨stats, counted⟩ := completeMember_of_untaken turn policy now
          rw [counted]
          exact kept
      | true =>
          obtain ⟨r, a, state, unsettled, taken⟩ :=
            completeMember_of_taken reporting.wellFormed turn policy now
          obtain ⟨a', found, isEnding⟩ := found_of_attemptEnding kept
          have other : r.currentAttempt ≠ aid := by
            rintro rfl
            rw [taken.concluding.attempt] at found
            cases found
            have rejected := rejected_of_taken reporting taken unsettled
              (AttemptRec.terminal_of_ending isEnding)
            have untouched := reporting.untouched_of_rejected rejected
            rw [takesUp_of_untouched untouched owns] at turn
            rw [requestEnding_of_untouched untouched] at rejected
            exact spared mc member turn rejected
          unfold attemptEnding
          rw [taken.attempts aid other
            (reporting.wellFormed.attempt aid a' found)]
          exact kept
    · exact ⟨.refl wellFormed owns, ended⟩

end CompleteMembers

/-! Failures of the executor. -/

def FailedRetryably (a : AttemptRec) : Prop :=
  a.ending = some (.failed, .retryableFailure, a.result)

theorem failedRetryably_conclude {mc : MemberCompletion}
    (status : mc.status = .retryableFailure) (a : AttemptRec)
    (now : TimePoint) : FailedRetryably (a.conclude mc .failed now) ∧
      (a.conclude mc .failed now).result = a.result := by
  unfold FailedRetryably AttemptRec.conclude
  rw [status]
  exact ⟨rfl, rfl⟩

/-- A retryable failure of the request would change no attempt that has
ended. -/
def failsQuietly (s : Impl) (id : RequestId) : Bool :=
  match s.requests[id]? with
  | none => true
  | some r =>
      match s.attemptEnding r.currentAttempt with
      | none => true
      | some (state, outcome, _) =>
          state == .failed && outcome == .retryableFailure

theorem failsQuietly_iff {s : Impl} {id : RequestId} {r : RequestRec}
    (found : s.requests[id]? = some r) :
    s.failsQuietly id = true ↔ ∀ state outcome result,
      s.attemptEnding r.currentAttempt = some (state, outcome, result) →
        state = .failed ∧ outcome = .retryableFailure := by
  unfold failsQuietly
  rw [found]
  dsimp only
  cases s.attemptEnding r.currentAttempt with
  | none => exact ⟨fun _ _ _ _ ended => (nomatch ended), fun _ => rfl⟩
  | some ending =>
      obtain ⟨state, outcome, result⟩ := ending
      simp

section FailMembers

variable {s : Impl} {members : List RequestId}

theorem effect_failMember (wellFormed : WellFormed s) (owns : s.OwnsAttempts)
    (policy : BatchPolicy) (now : TimePoint) (err : Error) (m : RequestId) :
    Effect FailedRetryably now s m (s.failMember policy now err m) := by
  cases found : s.requests[m]? with
  | none =>
      rw [failMember_of_missing found]
      exact .counts s.stats
  | some r =>
      obtain ⟨mc, a, named, status, taken⟩ :=
        failMember_of_found wellFormed owns found policy now err
      exact .takes named taken (failedRetryably_conclude status a now).1

theorem failedRetryably_failMembers (wellFormed : WellFormed s)
    (owns : s.OwnsAttempts) {m : RequestId} (member : m ∈ members)
    {r : RequestRec} (found : s.requests[m]? = some r) (policy : BatchPolicy)
    (now : TimePoint) (err : Error) :
    ∃ a, (Transition.run (failMember policy now err) s members).attempts[
      r.currentAttempt]? = some a ∧ FailedRetryably a := by
  apply ended_of_run now id _ _ member _ (.refl wellFormed owns) found
  · exact fun current next reporting =>
      reporting.failMember policy now err next
  · exact fun current next reporting =>
      effect_failMember reporting.wellFormed reporting.owns policy now err next
  · intro current reporting untouched
    have present : current.requests[m]? = some r := by
      rw [← found]
      exact untouched.request
    obtain ⟨mc, a, named, status, taken⟩ := failMember_of_found
      reporting.wellFormed reporting.owns present policy now err
    exact ⟨mc, r, a, .failed, named, taken,
      (failedRetryably_conclude status a now).1⟩

theorem attemptsFrozen_failMembers_iff (wellFormed : WellFormed s)
    (owns : s.OwnsAttempts) (policy : BatchPolicy) (now : TimePoint)
    (err : Error) :
    AttemptsFrozen s
        (Transition.run (failMember policy now err) s members) ↔
      members.all s.failsQuietly = true := by
  rw [List.all_eq_true]
  constructor
  · intro frozen m member
    cases found : s.requests[m]? with
    | none =>
        unfold failsQuietly
        rw [found]
    | some r =>
        rw [failsQuietly_iff found]
        intro state outcome result ended
        obtain ⟨a, at_current, failed⟩ := failedRetryably_failMembers
          wellFormed owns member found policy now err
        have same := frozen _ _ ended
        rw [attemptEnding_of_found at_current, failed] at same
        cases same
        exact ⟨rfl, rfl⟩
  · intro quiet aid ending ended
    obtain ⟨before, at_aid, _⟩ := found_of_attemptEnding ended
    have known : aid.value < s.nextAttempt :=
      wellFormed.attempt aid before at_aid
    suffices held : Reporting s
        (Transition.run (failMember policy now err) s members) ∧
        (Transition.run (failMember policy now err) s members).attemptEnding
          aid = some ending from held.2
    apply Transition.run_invariant (fun current =>
      Reporting s current ∧ current.attemptEnding aid = some ending)
    · rintro current m member ⟨reporting, kept⟩
      refine ⟨reporting.failMember policy now err m, ?_⟩
      cases present : current.requests[m]? with
      | none =>
          rw [failMember_of_missing present]
          exact kept
      | some r =>
          obtain ⟨mc, a, _, status, taken⟩ := failMember_of_found
            reporting.wellFormed reporting.owns present policy now err
          by_cases same : r.currentAttempt = aid
          · subst same
            -- The attempt is known to `s`: it was the current one there.
            rcases reporting.current m r present with
              ⟨r₀, found, current'⟩ | fresh
            · obtain ⟨state, outcome, result⟩ := ending
              rw [current'] at ended
              obtain ⟨rfl, rfl⟩ := (failsQuietly_iff found).mp
                (quiet m member) state outcome result ended
              rw [attemptEnding_of_found taken.concluding.attempt] at kept
              have results := (AttemptRec.ending_eq_some.mp kept).2.2.2
              have failed := failedRetryably_conclude status a now
              rw [attemptEnding_of_found taken.attempt, failed.1, failed.2,
                results]
            · exact absurd known (Nat.not_lt.mpr fresh)
          · obtain ⟨a', found, _⟩ := found_of_attemptEnding kept
            unfold attemptEnding
            rw [taken.attempts aid same
              (reporting.wellFormed.attempt aid a' found)]
            exact kept
    · exact ⟨.refl wellFormed owns, ended⟩

end FailMembers

/-! Every operation. -/

/-- No accepted report takes up a rejected request, and an executor fails only
where no current attempt has ended in another way. -/
def sparesAttempts (s : Impl) : Op → Bool
  | .complete completion _ =>
      !s.accepts completion || s.recordsSpare completion.members
  | .dispatchAndRun batch executor now =>
      s.runSpares batch executor now s.failsQuietly
  | _ => true

theorem attemptsFrozen_doComplete_iff {s : Impl} (wellFormed : WellFormed s)
    (owns : s.OwnsAttempts) (policy : BatchPolicy) (comp : BatchCompletion)
    (now : TimePoint) :
    AttemptsFrozen s (s.doComplete policy comp now).2 ↔
      (!s.accepts comp || s.recordsSpare comp.members) = true := by
  cases accepted : s.accepts comp with
  | false =>
      obtain ⟨stats, counted⟩ :=
        doComplete_of_not_accepts accepted policy now
      rw [counted]
      exact ⟨fun _ => rfl, fun _ => (EndsKept.of_tables rfl rfl).attempts⟩
  | true =>
      obtain ⟨b, accepts⟩ := exists_of_accepts accepted
      rw [doComplete_of_accepts accepts policy now, Bool.not_true,
        Bool.false_or,
        ← attemptsFrozen_completeMembers_iff wellFormed owns policy now]
      exact attemptsFrozen_congr rfl
        (tables_finishBatch _ comp.batch comp.worker now).2

theorem failsQuietly_congr {s s' : Impl} {id : RequestId}
    (current : (s'.requests[id]?).map (·.currentAttempt) =
      (s.requests[id]?).map (·.currentAttempt))
    (attempts : s'.attempts = s.attempts) :
    s'.failsQuietly id = s.failsQuietly id := by
  unfold failsQuietly attemptEnding
  rw [attempts]
  cases after : s'.requests[id]? with
  | none =>
      rw [after] at current
      rw [Option.map_eq_none_iff.mp current.symm]
  | some r' =>
      obtain ⟨r, found, same⟩ := exists_of_map_eq current after
      rw [found]
      dsimp only at same ⊢
      rw [same]

theorem failsQuietly_startedRun {s : Impl} {bid : BatchId} {b : BatchRec}
    {worker : WorkerId} {now : TimePoint} :
    (s.startedRun bid b worker now).failsQuietly = s.failsQuietly :=
  funext fun id => failsQuietly_congr (currentAttempt_startedRun id) rfl

theorem attemptsFrozen_doDispatchAndRun_iff {s : Impl}
    (wellFormed : WellFormed s) (owns : s.OwnsAttempts)
    (policy : BatchPolicy) (bid : BatchId) (executor : Executor)
    (now : TimePoint) :
    AttemptsFrozen s (s.doDispatchAndRun policy bid executor now).2 ↔
      s.runSpares bid executor now s.failsQuietly = true := by
  apply doDispatchAndRun_iff (AttemptsFrozen s)
    s.failsQuietly (EndsKept.refl s).attempts
  · intro b err found isSealed
    rw [← failsQuietly_startedRun, ← attemptsFrozen_failMembers_iff
      (wellFormed_startedRun wellFormed found isSealed)
      (ownsAttempts_startedRun owns found isSealed) policy now err]
    exact attemptsFrozen_congr rfl rfl
  · intro b results found isSealed
    dsimp only
    rw [← accepts_startedRun found (wellFormed.batch bid b found).1,
      ← recordsSpare_startedRun, ← attemptsFrozen_doComplete_iff
      (wellFormed_startedRun wellFormed found isSealed)
      (ownsAttempts_startedRun owns found isSealed) policy _ now]
    exact attemptsFrozen_congr rfl rfl

theorem attemptsFrozen_retryQueued {s : Impl} (wellFormed : WellFormed s)
    (policy : BatchPolicy) (id : RequestId) (now : TimePoint) :
    AttemptsFrozen s (s.retryQueued policy id now).2 := by
  obtain ⟨err, refused⟩ | ⟨r, _, _, _, queued⟩ :=
    retryQueued_cases policy s id now
  · rw [refused]
    exact (EndsKept.refl s).attempts
  · rw [queued]
    intro aid ending ended
    obtain ⟨a, found, _⟩ := found_of_attemptEnding ended
    have below : aid.value < s.nextAttempt := wellFormed.attempt aid a found
    unfold attemptEnding requeue
    dsimp only
    rw [getElem?_insert, if_neg]
    · exact ended
    · rintro rfl
      exact Nat.lt_irrefl _ below

theorem attemptsFrozen_doRetry {s : Impl} (wellFormed : WellFormed s)
    (owns : s.OwnsAttempts) (policy : BatchPolicy) (id : RequestId)
    (order : List CompatibilityKey) (now : TimePoint) :
    AttemptsFrozen s (s.doRetry policy id order now).2 := by
  suffices held : (WellFormed (s.doRetry policy id order now).2 ∧
      (s.doRetry policy id order now).2.OwnsAttempts) ∧
      AttemptsFrozen s (s.doRetry policy id order now).2 from held.2
  apply kept_doRetry
    (fun s' => (WellFormed s' ∧ s'.OwnsAttempts) ∧ AttemptsFrozen s s')
  · exact ⟨⟨wellFormed.retryQueued policy id now,
      owns.retryQueued policy id now⟩,
      attemptsFrozen_retryQueued wellFormed policy id now⟩
  · rintro s' ⟨⟨wellFormed', owns'⟩, frozen⟩
    have kept : EndsKept s' (s'.doTick policy order now) :=
      .doTick wellFormed' owns' policy order now
    exact ⟨⟨wellFormed'.doTick policy order now,
      owns'.doTick wellFormed' policy order now⟩, frozen.trans kept.attempts⟩

theorem attemptsFrozen_step_iff {policy : BatchPolicy} {s : Impl}
    (wellFormed : WellFormed s) (owns : s.OwnsAttempts) (op : Op) :
    AttemptsFrozen s (step policy s op) ↔ s.sparesAttempts op = true := by
  cases op with
  | retry request order now =>
      exact ⟨fun _ => rfl, fun _ =>
        attemptsFrozen_doRetry wellFormed owns policy request order now⟩
  | complete completion now =>
      exact attemptsFrozen_doComplete_iff wellFormed owns policy completion now
  | dispatchAndRun batch executor now =>
      exact attemptsFrozen_doDispatchAndRun_iff wellFormed owns policy batch
        executor now
  | _ =>
      exact ⟨fun _ => rfl, fun _ =>
        (EndsKept.step wellFormed owns policy _ trivial).attempts⟩

/-- Over a run, an attempt that has ended keeps its ending from then on. -/
def EndingsFinal (policy : BatchPolicy) (ops : List Op) : Prop :=
  ∀ first second third, ops = first ++ second ++ third →
    AttemptsFrozen (run policy first) (run policy (first ++ second))

/-- Every attempt keeps its first ending in exactly the runs whose operations
spare the attempts that have ended. -/
theorem endingsFinal_iff (policy : BatchPolicy) (ops : List Op) :
    EndingsFinal policy ops ↔
      Transition.Along (BatchFabric.step policy)
        (fun s op => s.sparesAttempts op = true) fresh ops := by
  have related := Transition.along_related_iff
    (fun s => (EndsKept.refl s).attempts) AttemptsFrozen.trans
    (BatchFabric.step policy) fresh ops
  refine related.trans ?_
  apply Transition.along_congr (fun s => WellFormed s ∧ s.OwnsAttempts)
  · exact fun s op held => ⟨held.1.step op, held.2.step held.1 op⟩
  · exact fun s op held => attemptsFrozen_step_iff held.1 held.2 op
  · exact ⟨WellFormed.fresh, OwnsAttempts.fresh⟩

/-- The executor of a batch fails after one of its members was cancelled: the
cancelled attempt becomes a failed one. -/
theorem not_endingsFinal_of_failing :
    ¬ ∀ (policy : BatchPolicy) (ops : List Op), EndingsFinal policy ops := by
  intro final
  let ops : List Op := [
    .submit minimalRequest 0, .tick [] 1, .cancel { value := 1 } 2]
  let failing : Op := .dispatchAndRun { value := 1 }
    { execute := fun _ => .error (.err .internal "device lost") } 3
  have cancelled : (run {} ops).attemptEnding { value := 1 } =
      some (.cancelled, .cancelled, {}) := by
    rw [run_eq_runKnown .minimal]
    decide +kernel
  have failed : (run {} (ops ++ [failing])).attemptEnding { value := 1 } =
      some (.failed, .retryableFailure, {}) := by
    rw [run_eq_runKnown .minimal]
    decide +kernel
  have kept := final {} (ops ++ [failing]) ops [failing] [] rfl { value := 1 }
    _ cancelled
  rw [failed] at kept
  cases kept

end BatchFabric.Impl
