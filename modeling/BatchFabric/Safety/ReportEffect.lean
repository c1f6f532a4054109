import BatchFabric.Safety.Attempts

namespace BatchFabric

open OrderedMap

/-! What the records of a report do, request by request. -/

/-- What a batch has recorded of a request. -/
def BatchRec.recorded (b : BatchRec) (id : RequestId) :
    Option CompletionStatus × Option ByteString :=
  (b.outcomes[id]?, b.memberResults[id]?)

theorem BatchRec.recorded_conclude {mc : MemberCompletion} {id : RequestId}
    (other : mc.request ≠ id) (b : BatchRec) :
    (b.conclude mc).recorded id = b.recorded id := by
  have outcome : ∀ status, (b.outcomes.insert mc.request status)[id]? =
      b.outcomes[id]? := by
    intro status
    rw [getElem?_insert, if_neg other]
  have result : ∀ bytes, (b.memberResults.insert mc.request bytes)[id]? =
      b.memberResults[id]? := by
    intro bytes
    rw [getElem?_insert, if_neg other]
  unfold conclude recorded recordOutcome
  dsimp only
  split
  · exact Prod.ext (outcome _) (result _)
  · exact Prod.ext (outcome _) (result _)
  · exact Prod.ext (outcome _) (result _)
  · exact Prod.ext (outcome _) rfl

namespace Impl

theorem endState_settled {status : CompletionStatus} {state : RequestState}
    (acts : endState status = some state) :
    isSettledAttempt state = true := by
  cases status <;> cases acts <;> rfl

theorem terminal_of_settled {state : RequestState}
    (settled : isSettledAttempt state = true) :
    isRequestTerminal state = true := by
  cases state <;> first | rfl | cases settled

/-- The outcome of a record has reached attempt `a` of request `r`. -/
structure TakenUp (s : Impl) (mc : MemberCompletion) (now : TimePoint)
    (r : RequestRec) (a : AttemptRec) (state : RequestState) (s' : Impl) :
    Prop where
  concluding : s.Concluding mc r a state
  request : ∃ r', s'.requests[mc.request]? = some r' ∧
    ((r'.state = state ∧ r'.currentAttempt = r.currentAttempt) ∨
      (r'.state = .eligible ∧
        r'.currentAttempt = { value := s.nextAttempt }))
  attempt : s'.attempts[r.currentAttempt]? = some (a.conclude mc state now)
  others : ∀ id, mc.request ≠ id → s'.requests[id]? = s.requests[id]?
  attempts : ∀ aid : AttemptId, r.currentAttempt ≠ aid →
    aid.value < s.nextAttempt → s'.attempts[aid]? = s.attempts[aid]?
  queued : ∀ id, mc.request ≠ id → ∀ key,
    (s'.bucket key).count id = (s.bucket key).count id
  recorded : ∀ id, mc.request ≠ id → ∀ bid : BatchId,
    (s'.batches[bid]?).map (·.recorded id) =
      (s.batches[bid]?).map (·.recorded id)
  allocated : s.nextAttempt ≤ s'.nextAttempt

section TakenUp

variable {s : Impl} {mc : MemberCompletion} {r : RequestRec} {a : AttemptRec}
  {state : RequestState}

theorem takenUp_conclude (concluding : s.Concluding mc r a state)
    (now : TimePoint) (fairness : FairnessController) (stats : BatchStats) :
    TakenUp s mc now r a state { s.conclude r mc state now with
      fairness := fairness, stats := stats } where
  concluding := concluding
  request := ⟨r.conclude mc state,
    getElem?_modify_self concluding.request _,
    .inl ⟨state_conclude r mc state, (attempts_conclude r mc state).1⟩⟩
  attempt := getElem?_modify_self concluding.attempt _
  others id other := by
    show (s.requests.modify mc.request _)[id]? = _
    rw [getElem?_modify, if_neg other]
  attempts aid other _ := by
    show (s.attempts.modify r.currentAttempt _)[aid]? = _
    rw [getElem?_modify, if_neg other]
  queued _ _ _ := rfl
  recorded _ other :=
    map_getElem?_modify (BatchRec.recorded_conclude other) s.batches r.batch
  allocated := Nat.le_refl _

theorem TakenUp.requeue {s' : Impl} {now : TimePoint}
    (taken : TakenUp s mc now r a state s') (wellFormed : WellFormed s)
    (next : s'.nextAttempt = s.nextAttempt) (number : UInt32) :
    TakenUp s mc now r a state (s'.requeue mc.request r number) where
  concluding := taken.concluding
  request := by
    obtain ⟨r', found, _⟩ := taken.request
    refine ⟨_, getElem?_modify_self found _, .inr ⟨rfl, ?_⟩⟩
    exact congrArg Identifier.mk next
  attempt := by
    have below : r.currentAttempt.value < s.nextAttempt :=
      wellFormed.attempt _ _ taken.concluding.attempt
    show (s'.attempts.insert { value := s'.nextAttempt } _)[
      r.currentAttempt]? = _
    rw [getElem?_insert, if_neg]
    · exact taken.attempt
    · intro same
      rw [← same, next] at below
      exact Nat.lt_irrefl _ below
  others id other := by
    show (s'.requests.modify mc.request _)[id]? = _
    rw [getElem?_modify, if_neg other]
    exact taken.others id other
  attempts aid other below := by
    show (s'.attempts.insert { value := s'.nextAttempt } _)[aid]? = _
    rw [getElem?_insert, if_neg]
    · exact taken.attempts aid other below
    · intro same
      rw [← same, next] at below
      exact Nat.lt_irrefl _ below
  queued id other key := by
    have named : r.id = mc.request :=
      (wellFormed.request _ r taken.concluding.request).1
    show ((s'.waitingIndex.add r.key r.id).bucketOf key).count id = _
    rw [CompatibilityIndex.bucketOf_add, named]
    split
    · rw [List.count_append, List.count_singleton, beq_false_of_ne other]
      exact taken.queued id other key
    · exact taken.queued id other key
  recorded := taken.recorded
  allocated := Nat.le_succ_of_le taken.allocated

theorem takenUp_applyMemberOutcome (wellFormed : WellFormed s)
    (concluding : s.Concluding mc r a state) (policy : BatchPolicy)
    (now : TimePoint) :
    TakenUp s mc now r a state (s.applyMemberOutcome policy now mc) := by
  obtain ⟨fairness, stats, ended | ⟨_, _, _, requeued⟩⟩ :=
    applyMemberOutcome_acts policy now concluding.request concluding.attempt
      concluding.acts
  · rw [ended]
    exact takenUp_conclude concluding now fairness stats
  · rw [requeued]
    exact (takenUp_conclude concluding now fairness stats).requeue wellFormed
      rfl _

end TakenUp

theorem found_of_takesUp {s : Impl} {mc : MemberCompletion}
    (taken : s.takesUp mc = true) :
    ∃ r a state, r.currentAttempt = mc.attempt ∧
      isSettledAttempt a.state = false ∧ s.Concluding mc r a state := by
  unfold takesUp at taken
  cases found : s.requests[mc.request]? with
  | none =>
      rw [found] at taken
      cases taken
  | some r =>
      cases current : s.attempts[mc.attempt]? with
      | none => simp [found, current] at taken
      | some a =>
          cases acts : endState mc.status with
          | none => simp [found, acts] at taken
          | some state =>
              have checks : r.currentAttempt = mc.attempt ∧
                  isSettledAttempt a.state = false := by
                simpa [found, current, acts] using taken
              exact ⟨r, a, state, checks.1, checks.2, found,
                by rw [checks.1, current], acts⟩

section CompleteMember

variable {s : Impl} {mc : MemberCompletion}

theorem completeMember_of_taken (wellFormed : WellFormed s)
    (taken : s.takesUp mc = true) (policy : BatchPolicy) (now : TimePoint) :
    ∃ r a state, isSettledAttempt a.state = false ∧
      TakenUp s mc now r a state (s.completeMember policy now mc) := by
  obtain ⟨r, a, state, named, unsettled, concluding⟩ := found_of_takesUp taken
  have current : s.attempts[mc.attempt]? = some a := by
    rw [← named]
    exact concluding.attempt
  have applied : s.completeMember policy now mc =
      s.applyMemberOutcome policy now mc := by
    simp [completeMember, concluding.request, named, current, unsettled]
  rw [applied]
  exact ⟨r, a, state, unsettled,
    takenUp_applyMemberOutcome wellFormed concluding policy now⟩

theorem completeMember_of_untaken (untaken : s.takesUp mc = false)
    (policy : BatchPolicy) (now : TimePoint) :
    ∃ stats, s.completeMember policy now mc = { s with stats := stats } := by
  obtain ⟨stale, counted⟩ | ⟨r, a, request, named, attempt, unsettled,
      applied⟩ := completeMember_cases policy now s mc
  · exact ⟨_, counted⟩
  · rw [applied]
    cases acts : endState mc.status with
    | none => exact applyMemberOutcome_idle policy now s acts
    | some state =>
        rw [takesUp_of_found request named attempt unsettled acts] at untaken
        cases untaken

end CompleteMember

/-- The failure of a member is written, whatever state the member is in. -/
theorem failMember_of_found {s : Impl} (wellFormed : WellFormed s)
    (owns : s.OwnsAttempts) {m : RequestId} {r : RequestRec}
    (found : s.requests[m]? = some r) (policy : BatchPolicy)
    (now : TimePoint) (err : Error) :
    ∃ mc a, mc.request = m ∧ mc.status = .retryableFailure ∧
      TakenUp s mc now r a .failed (s.failMember policy now err m) := by
  obtain ⟨_, a, current, _⟩ := owns.known m r found
  unfold failMember
  rw [found]
  refine ⟨_, a, rfl, rfl, takenUp_applyMemberOutcome wellFormed ?_ policy now⟩
  exact ⟨found, current, rfl⟩

/-! A request either stays as it was, or has moved on for good. -/

structure Untouched (s s' : Impl) (id : RequestId) : Prop where
  request : s'.requests[id]? = s.requests[id]?
  attempts : ∀ r, s.requests[id]? = some r → ∀ aid ∈ r.attempts,
    s'.attempts[aid]? = s.attempts[aid]?
  queued : ∀ key, (s'.bucket key).count id = (s.bucket key).count id
  recorded : ∀ bid : BatchId, (s'.batches[bid]?).map (·.recorded id) =
    (s.batches[bid]?).map (·.recorded id)

/-- The request has an outcome, or waits under an attempt `s` does not know. -/
def Moved (s s' : Impl) (id : RequestId) : Prop :=
  ∃ r', s'.requests[id]? = some r' ∧
    (isSettledAttempt r'.state = true ∨
      (r'.state = .eligible ∧ s.nextAttempt ≤ r'.currentAttempt.value))

theorem Untouched.refl (s : Impl) (id : RequestId) : Untouched s s id where
  request := rfl
  attempts _ _ _ _ := rfl
  queued _ := rfl
  recorded _ := rfl

theorem Untouched.trans {first second third : Impl} {id : RequestId}
    (earlier : Untouched first second id)
    (later : Untouched second third id) : Untouched first third id where
  request := later.request.trans earlier.request
  attempts r found aid member :=
    (later.attempts r (earlier.request.trans found) aid member).trans
      (earlier.attempts r found aid member)
  queued key := (later.queued key).trans (earlier.queued key)
  recorded bid := (later.recorded bid).trans (earlier.recorded bid)

section Effects

variable {s s' : Impl} {mc : MemberCompletion} {now : TimePoint}
  {r : RequestRec} {a : AttemptRec} {state : RequestState} {id : RequestId}

theorem TakenUp.untouched (taken : TakenUp s mc now r a state s')
    (owns : s.OwnsAttempts) (other : mc.request ≠ id) :
    Untouched s s' id where
  request := taken.others id other
  attempts r' found aid member := by
    apply taken.attempts aid
    · rintro rfl
      have mine := (owns.known _ r taken.concluding.request).1
      exact other (owns.apart _ id r r' _ taken.concluding.request found mine
        member)
    · exact owns.allocated id r' found aid member
  queued := taken.queued id other
  recorded := taken.recorded id other

theorem TakenUp.moved (taken : TakenUp s mc now r a state s') {origin : Impl}
    (allocated : origin.nextAttempt ≤ s.nextAttempt) :
    Moved origin s' mc.request := by
  obtain ⟨r', found, ⟨ended, _⟩ | ⟨waits, current⟩⟩ := taken.request
  · refine ⟨r', found, .inl ?_⟩
    rw [ended]
    exact endState_settled taken.concluding.acts
  · refine ⟨r', found, .inr ⟨waits, ?_⟩⟩
    rw [current]
    exact allocated

theorem Moved.of_request (moved : Moved s s' id) {s'' : Impl}
    (same : s''.requests[id]? = s'.requests[id]?) : Moved s s'' id := by
  obtain ⟨r', found, state⟩ := moved
  exact ⟨r', same.trans found, state⟩

/-- A request that has not been settled is changed when it moves on. -/
theorem Moved.changed (moved : Moved s s' id) (owns : s.OwnsAttempts)
    (found : s.requests[id]? = some r)
    (unsettled : isSettledAttempt r.state = false) :
    s'.requests[id]? ≠ s.requests[id]? := by
  intro same
  obtain ⟨r', found', settled | ⟨_, fresh⟩⟩ := moved
  · rw [same, found] at found'
    cases found'
    rw [unsettled] at settled
    cases settled
  · rw [same, found] at found'
    cases found'
    have below := owns.allocated id r found _ (owns.known id r found).1
    exact Nat.lt_irrefl _ (Nat.lt_of_lt_of_le below fresh)

theorem takesUp_of_untouched (untouched : Untouched s s' mc.request)
    (owns : s.OwnsAttempts) : s'.takesUp mc = s.takesUp mc := by
  unfold takesUp
  rw [untouched.request]
  cases found : s.requests[mc.request]? with
  | none => rfl
  | some r =>
      by_cases named : r.currentAttempt = mc.attempt
      · have member := (owns.known _ r found).1
        rw [named] at member
        simp only [untouched.attempts r found _ member]
      · simp only [beq_false_of_ne named, Bool.false_and]

/-- A record taken up meets a request without an outcome. -/
theorem unsettled_of_takesUp (owns : s.OwnsAttempts)
    (taken : s.takesUp mc = true) :
    ∃ r, s.requests[mc.request]? = some r ∧
      isSettledAttempt r.state = false := by
  obtain ⟨r, a, _, _, unsettled, concluding⟩ := found_of_takesUp taken
  refine ⟨r, concluding.request, ?_⟩
  obtain ⟨_, a', current, agrees⟩ := owns.known _ r concluding.request
  rw [concluding.attempt] at current
  cases current
  cases settled : isSettledAttempt r.state with
  | false => rfl
  | true =>
      unfold inStep at agrees
      rw [terminal_of_settled settled, if_pos rfl] at agrees
      rw [agrees, settled] at unsettled
      cases unsettled

end Effects

/-- The state `s'` is one that outcomes have led to from `s`. -/
structure Reporting (s s' : Impl) : Prop where
  wellFormed : WellFormed s'
  owns : s'.OwnsAttempts
  allocated : s.nextAttempt ≤ s'.nextAttempt
  each : ∀ id, Untouched s s' id ∨ Moved s s' id
  current : Everywhere s'.requests fun id r' =>
    (∃ r, s.requests[id]? = some r ∧ r'.currentAttempt = r.currentAttempt) ∨
      s.nextAttempt ≤ r'.currentAttempt.value

namespace Reporting

variable {s s' : Impl}

theorem refl (wellFormed : WellFormed s) (owns : s.OwnsAttempts) :
    Reporting s s where
  wellFormed := wellFormed
  owns := owns
  allocated := Nat.le_refl _
  each id := .inl (.refl s id)
  current _ r found := .inl ⟨r, found, rfl⟩

theorem takenUp (reporting : Reporting s s') {next : Impl}
    {mc : MemberCompletion} {now : TimePoint} {r : RequestRec}
    {a : AttemptRec} {state : RequestState}
    (taken : TakenUp s' mc now r a state next) (wellFormed : WellFormed next)
    (owns : next.OwnsAttempts) : Reporting s next where
  wellFormed := wellFormed
  owns := owns
  allocated := Nat.le_trans reporting.allocated taken.allocated
  each id := by
    by_cases same : mc.request = id
    · subst same
      exact .inr (taken.moved reporting.allocated)
    · rcases reporting.each id with untouched | moved
      · exact .inl (untouched.trans (taken.untouched reporting.owns same))
      · exact .inr (moved.of_request (taken.others id same))
  current id r' found' := by
    by_cases same : mc.request = id
    · subst same
      obtain ⟨r'', found'', state⟩ := taken.request
      rw [found'] at found''
      cases found''
      rcases state with ⟨_, kept⟩ | ⟨_, fresh⟩
      · rw [kept]
        exact reporting.current _ r taken.concluding.request
      · rw [fresh]
        exact .inr reporting.allocated
    · rw [taken.others id same] at found'
      exact reporting.current id r' found'

theorem count (reporting : Reporting s s') (stats : BatchStats) :
    Reporting s { s' with stats := stats } where
  wellFormed := reporting.wellFormed.of_counters _ _ _ _
  owns := reporting.owns.of_tables rfl rfl rfl
  allocated := reporting.allocated
  each id := by
    rcases reporting.each id with untouched | moved
    · exact .inl ⟨untouched.request, untouched.attempts, untouched.queued,
        untouched.recorded⟩
    · exact .inr (moved.of_request rfl)
  current := reporting.current

theorem completeMember (reporting : Reporting s s') (policy : BatchPolicy)
    (now : TimePoint) (mc : MemberCompletion) :
    Reporting s (s'.completeMember policy now mc) := by
  cases turn : s'.takesUp mc with
  | false =>
      obtain ⟨stats, counted⟩ := completeMember_of_untaken turn policy now
      rw [counted]
      exact reporting.count stats
  | true =>
      obtain ⟨r, a, state, _, taken⟩ :=
        completeMember_of_taken reporting.wellFormed turn policy now
      apply reporting.takenUp taken
      · exact (WellFormed.recordRule policy now).reports.completeMember
          reporting.wellFormed (Bool.or_true _)
      · exact (OwnsAttempts.recordRule policy now).reports.completeMember
          reporting.owns (Bool.or_true _)

theorem failMember (reporting : Reporting s s') (policy : BatchPolicy)
    (now : TimePoint) (err : Error) (m : RequestId) :
    Reporting s (s'.failMember policy now err m) := by
  cases found : s'.requests[m]? with
  | none =>
      unfold Impl.failMember
      rw [found]
      exact reporting
  | some r =>
      obtain ⟨mc, a, _, _, taken⟩ := failMember_of_found reporting.wellFormed
        reporting.owns found policy now err
      apply reporting.takenUp taken
      · exact (WellFormed.recordRule policy now).reports.failMember
          reporting.wellFormed rfl err
      · exact (OwnsAttempts.recordRule policy now).reports.failMember
          reporting.owns rfl err

theorem completeMembers (reporting : Reporting s s') (policy : BatchPolicy)
    (now : TimePoint) (members : List MemberCompletion) :
    Reporting s (Transition.run (Impl.completeMember policy now) s'
      members) :=
  Transition.run_invariant (Reporting s)
    (fun _ mc _ held => held.completeMember policy now mc) reporting

end Reporting

theorem Untouched.count {s s' : Impl} {id : RequestId}
    (untouched : Untouched s s' id) (stats : BatchStats) :
    Untouched s { s' with stats := stats } id :=
  ⟨untouched.request, untouched.attempts, untouched.queued,
    untouched.recorded⟩

theorem Moved.completeMember {s s' : Impl} {id : RequestId}
    (moved : Moved s s' id) (reporting : Reporting s s')
    (policy : BatchPolicy) (now : TimePoint) (mc : MemberCompletion) :
    Moved s (s'.completeMember policy now mc) id := by
  cases turn : s'.takesUp mc with
  | false =>
      obtain ⟨stats, counted⟩ := completeMember_of_untaken turn policy now
      rw [counted]
      exact moved.of_request rfl
  | true =>
      obtain ⟨r, a, state, _, taken⟩ :=
        completeMember_of_taken reporting.wellFormed turn policy now
      by_cases same : mc.request = id
      · subst same
        exact taken.moved reporting.allocated
      · exact moved.of_request (taken.others id same)

section Report

variable {s : Impl} {members : List MemberCompletion}

/-- A request that no record takes up when the report arrives is not taken up
later either. -/
theorem untouched_completeMembers (wellFormed : WellFormed s)
    (owns : s.OwnsAttempts) {id : RequestId}
    (untaken : ∀ mc ∈ members, mc.request = id → s.takesUp mc = false)
    (policy : BatchPolicy) (now : TimePoint) :
    Untouched s (Transition.run (completeMember policy now) s members) id := by
  suffices held : Reporting s (Transition.run (completeMember policy now) s
      members) ∧ Untouched s (Transition.run (completeMember policy now) s
        members) id from held.2
  apply Transition.run_invariant
    (fun current => Reporting s current ∧ Untouched s current id)
  · rintro current mc member ⟨reporting, untouched⟩
    refine ⟨reporting.completeMember policy now mc, ?_⟩
    cases turn : current.takesUp mc with
    | false =>
        obtain ⟨stats, counted⟩ := completeMember_of_untaken turn policy now
        rw [counted]
        exact untouched.count stats
    | true =>
        obtain ⟨r, a, state, _, taken⟩ :=
          completeMember_of_taken reporting.wellFormed turn policy now
        apply untouched.trans (taken.untouched reporting.owns _)
        rintro rfl
        rw [takesUp_of_untouched untouched owns, untaken mc member rfl]
          at turn
        cases turn
  · exact ⟨.refl wellFormed owns, .refl s id⟩

/-- A request that some record takes up when the report arrives has moved on
when it is done. -/
theorem moved_completeMembers (wellFormed : WellFormed s)
    (owns : s.OwnsAttempts) {mc : MemberCompletion} (member : mc ∈ members)
    (taken : s.takesUp mc = true) (policy : BatchPolicy) (now : TimePoint) :
    Moved s (Transition.run (completeMember policy now) s members)
      mc.request := by
  apply Transition.run_establishes (Reporting s)
    (fun current => Moved s current mc.request) _ _ _ member
    (.refl wellFormed owns)
  · exact fun current next _ reporting =>
      reporting.completeMember policy now next
  · exact fun current next reporting moved =>
      moved.completeMember reporting policy now next
  · intro current reporting
    rcases reporting.each mc.request with untouched | moved
    · have turn : current.takesUp mc = true := by
        rw [takesUp_of_untouched untouched owns, taken]
      obtain ⟨r, a, state, _, applied⟩ :=
        completeMember_of_taken reporting.wellFormed turn policy now
      exact applied.moved reporting.allocated
    · exact moved.completeMember reporting policy now mc

end Report

end Impl

end BatchFabric
