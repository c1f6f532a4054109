import BatchFabric.Safety.Handshake
import BatchFabric.Safety.TerminalRequests

/-! Two consecutive reports of a batch beside one report of both. -/

namespace BatchFabric

open OrderedMap

/-- An attempt without the time at which it ended. -/
def AttemptRec.untimed (a : AttemptRec) : AttemptRec :=
  { a with completed := 0 }

theorem AttemptRec.untimed_conclude (a : AttemptRec) (mc : MemberCompletion)
    (state : RequestState) (now : TimePoint) :
    (a.conclude mc state now).untimed = a.untimed.conclude mc state 0 := by
  unfold conclude finish untimed
  cases mc.status <;> rfl

namespace Impl

/-- The states agree on requests, attempts and batches, but for the times at
which attempts ended. -/
structure SameButTimes (s s' : Impl) : Prop where
  requests : s'.requests = s.requests
  attempts : ∀ aid : AttemptId,
    (s'.attempts[aid]?).map AttemptRec.untimed =
      (s.attempts[aid]?).map AttemptRec.untimed
  batches : s'.batches = s.batches
  allocated : s'.nextAttempt = s.nextAttempt

namespace SameButTimes

theorem refl (s : Impl) : SameButTimes s s :=
  ⟨rfl, fun _ => rfl, rfl, rfl⟩

section Outcome

variable {s s' : Impl} (same : SameButTimes s s')

include same

theorem conclude (r : RequestRec) (mc : MemberCompletion)
    (state : RequestState) (now now' : TimePoint) :
    SameButTimes (s.conclude r mc state now)
      (s'.conclude r mc state now') where
  requests := by
    show s'.requests.modify mc.request _ = s.requests.modify mc.request _
    rw [same.requests]
  attempts aid := by
    show (s'.attempts.modify r.currentAttempt _)[aid]?.map _ =
      (s.attempts.modify r.currentAttempt _)[aid]?.map _
    rw [getElem?_modify, getElem?_modify]
    by_cases current : r.currentAttempt = aid
    · rw [if_pos current, if_pos current, Option.map_map, Option.map_map]
      have concluded : ∀ at' : TimePoint,
          AttemptRec.untimed ∘ (fun a => a.conclude mc state at') =
            (fun a => a.conclude mc state 0) ∘ AttemptRec.untimed := by
        intro at'
        funext a
        exact a.untimed_conclude mc state at'
      rw [concluded, concluded, ← Option.map_map, ← Option.map_map,
        same.attempts]
    · rw [if_neg current, if_neg current]
      exact same.attempts aid
  batches := by
    show s'.batches.modify r.batch _ = s.batches.modify r.batch _
    rw [same.batches]
  allocated := same.allocated

theorem requeue (id : RequestId) (r : RequestRec) (number : UInt32) :
    SameButTimes (s.requeue id r number) (s'.requeue id r number) where
  requests := by
    unfold Impl.requeue
    dsimp only
    rw [same.requests, same.allocated]
  attempts aid := by
    unfold Impl.requeue
    dsimp only
    rw [same.allocated, getElem?_insert, getElem?_insert]
    split
    · rfl
    · exact same.attempts aid
  batches := same.batches
  allocated := congrArg (· + 1) same.allocated

theorem of_tables {t u : Impl} (requests : t.requests = s.requests)
    (attempts : t.attempts = s.attempts) (batches : t.batches = s.batches)
    (allocated : t.nextAttempt = s.nextAttempt)
    (requests' : u.requests = s'.requests)
    (attempts' : u.attempts = s'.attempts)
    (batches' : u.batches = s'.batches)
    (allocated' : u.nextAttempt = s'.nextAttempt) : SameButTimes t u where
  requests := by rw [requests, requests', same.requests]
  attempts := by rw [attempts, attempts']; exact same.attempts
  batches := by rw [batches, batches', same.batches]
  allocated := by rw [allocated, allocated', same.allocated]

theorem applyMemberOutcome (policy : BatchPolicy) (now now' : TimePoint)
    (mc : MemberCompletion) :
    SameButTimes (s.applyMemberOutcome policy now mc)
      (s'.applyMemberOutcome policy now' mc) := by
  unfold Impl.applyMemberOutcome
  rw [same.requests]
  cases s.requests[mc.request]? with
  | none => exact same
  | some r =>
      have attempt := same.attempts r.currentAttempt
      cases found : s.attempts[r.currentAttempt]? with
      | none =>
          rw [found, Option.map_none, Option.map_eq_none_iff] at attempt
          simp only [found, attempt]
          exact same
      | some a =>
          rw [found, Option.map_some] at attempt
          obtain ⟨a', found', untimed⟩ := Option.map_eq_some_iff.mp attempt
          have number : a'.untimed.number = a.untimed.number := by
            rw [untimed]
          change a'.number = a.number at number
          have ended := fun state =>
            same.conclude r mc state now now'
          simp only [found, found']
          cases mc.status with
          | success =>
              exact (ended .completed).of_tables rfl rfl rfl rfl rfl rfl rfl
                rfl
          | retryableFailure =>
              dsimp only
              unfold applyRetryable
              dsimp only
              rw [number]
              have failed := (ended .failed).of_tables
                (t := { s.conclude r mc .failed now with
                  stats.retryableFailures := s.stats.retryableFailures + 1 })
                (u := { s'.conclude r mc .failed now' with
                  stats.retryableFailures := s'.stats.retryableFailures + 1 })
                rfl rfl rfl rfl rfl rfl rfl rfl
              split
              · exact failed.requeue mc.request r (a.number + 1)
              · exact failed
          | nonRetryableFailure => exact ended .failed
          | cancelled =>
              exact (ended .cancelled).of_tables rfl rfl rfl rfl rfl rfl rfl
                rfl
          | expired =>
              exact (ended .expired).of_tables rfl rfl rfl rfl rfl rfl rfl rfl
          | stale | deferred =>
              exact same.of_tables rfl rfl rfl rfl rfl rfl rfl rfl
          | undeclared => exact same

theorem completeMember (policy : BatchPolicy) (now now' : TimePoint)
    (mc : MemberCompletion) :
    SameButTimes (s.completeMember policy now mc)
      (s'.completeMember policy now' mc) := by
  have applied := same.applyMemberOutcome policy now now' mc
  unfold Impl.completeMember
  rw [same.requests]
  cases s.requests[mc.request]? with
  | none => exact same
  | some r =>
      dsimp only
      split
      · exact same.of_tables rfl rfl rfl rfl rfl rfl rfl rfl
      · have attempt := same.attempts mc.attempt
        cases found : s.attempts[mc.attempt]? with
        | none =>
            rw [found, Option.map_none, Option.map_eq_none_iff] at attempt
            rw [attempt]
            exact same
        | some a =>
            rw [found, Option.map_some] at attempt
            obtain ⟨a', found', untimed⟩ := Option.map_eq_some_iff.mp attempt
            have state : a'.untimed.state = a.untimed.state := by
              rw [untimed]
            change a'.state = a.state at state
            rw [found']
            dsimp only
            rw [state]
            split
            · exact same
            · exact applied

end Outcome

theorem completeMembers {s s' : Impl} (same : SameButTimes s s')
    (policy : BatchPolicy) (now now' : TimePoint)
    (members : List MemberCompletion) :
    SameButTimes (Transition.run (Impl.completeMember policy now) s members)
      (Transition.run (Impl.completeMember policy now') s' members) := by
  induction members generalizing s s' with
  | nil => exact same
  | cons mc rest induction =>
      exact induction (same.completeMember policy now now' mc)

end SameButTimes

/-! What a record leaves of the attempt it names. -/

/-- The attempt has an outcome no report overwrites. -/
def AttemptSettled (s : Impl) (aid : AttemptId) : Prop :=
  ∃ a, s.attempts[aid]? = some a ∧ isSettledAttempt a.state = true

/-- Records taken up for one request name one attempt. -/
theorem attempt_of_taken {s : Impl} {mc mc' : MemberCompletion}
    (taken : s.takesUp mc = true) (taken' : s.takesUp mc' = true)
    (same : mc'.request = mc.request) : mc'.attempt = mc.attempt := by
  obtain ⟨r, _, _, named, _, concluding⟩ := found_of_takesUp taken
  obtain ⟨r', _, _, named', _, concluding'⟩ := found_of_takesUp taken'
  have request := concluding'.request
  rw [same, concluding.request] at request
  cases request
  exact named'.symm.trans named

section Settling

variable {s : Impl} {mc : MemberCompletion}

theorem TakenUp.names {now : TimePoint} {r : RequestRec} {a : AttemptRec}
    {state : RequestState} {s' : Impl} (takenUp : TakenUp s mc now r a state s')
    (taken : s.takesUp mc = true) : r.currentAttempt = mc.attempt := by
  obtain ⟨r', _, _, named, _, concluding⟩ := found_of_takesUp taken
  have request := takenUp.concluding.request
  rw [concluding.request] at request
  cases request
  exact named

theorem settled_completeMember (wellFormed : WellFormed s)
    (taken : s.takesUp mc = true) (policy : BatchPolicy) (now : TimePoint) :
    (s.completeMember policy now mc).AttemptSettled mc.attempt := by
  obtain ⟨r, a, state, _, takenUp⟩ :=
    completeMember_of_taken wellFormed taken policy now
  refine ⟨a.conclude mc state now, ?_, ?_⟩
  · rw [← takenUp.names taken]
    exact takenUp.attempt
  · rw [state_attempt_conclude]
    exact endState_settled takenUp.concluding.acts

theorem AttemptSettled.completeMember {aid : AttemptId}
    (settled : s.AttemptSettled aid)
    (wellFormed : WellFormed s) (policy : BatchPolicy) (now : TimePoint)
    (mc : MemberCompletion) :
    (s.completeMember policy now mc).AttemptSettled aid := by
  cases taken : s.takesUp mc with
  | false =>
      obtain ⟨stats, counted⟩ := completeMember_of_untaken taken policy now
      rw [counted]
      exact settled
  | true =>
      by_cases same : mc.attempt = aid
      · subst same
        exact settled_completeMember wellFormed taken policy now
      · obtain ⟨r, a, state, _, takenUp⟩ :=
          completeMember_of_taken wellFormed taken policy now
        obtain ⟨before, found, ended⟩ := settled
        refine ⟨before, ?_, ended⟩
        rw [← takenUp.names taken] at same
        rw [takenUp.attempts aid same (wellFormed.attempt aid before found)]
        exact found

end Settling

/-- A record taken up when the report arrives has settled its attempt when the
report is done. -/
theorem attemptSettled_completeMembers {s : Impl} (wellFormed : WellFormed s)
    (owns : s.OwnsAttempts) {members : List MemberCompletion}
    {mc : MemberCompletion} (member : mc ∈ members)
    (taken : s.takesUp mc = true) (policy : BatchPolicy) (now : TimePoint) :
    (Transition.run (completeMember policy now) s members).AttemptSettled
      mc.attempt := by
  apply Transition.run_establishes
    (fun current => Reporting s current ∧
      (Untouched s current mc.request ∨ current.AttemptSettled mc.attempt))
    (fun current => current.AttemptSettled mc.attempt) _ _ _ member
    ⟨.refl wellFormed owns, .inl (.refl s mc.request)⟩
  · rintro current next _ ⟨reporting, untouched | settled⟩
    · refine ⟨reporting.completeMember policy now next, ?_⟩
      cases turn : current.takesUp next with
      | false =>
          obtain ⟨stats, counted⟩ := completeMember_of_untaken turn policy now
          rw [counted]
          exact .inl (untouched.count stats)
      | true =>
          obtain ⟨r, a, state, _, takenUp⟩ :=
            completeMember_of_taken reporting.wellFormed turn policy now
          by_cases same : next.request = mc.request
          · right
            have mine : current.takesUp mc = true := by
              rw [takesUp_of_untouched untouched owns, taken]
            rw [← attempt_of_taken mine turn same]
            exact settled_completeMember reporting.wellFormed turn policy now
          · exact .inl (untouched.trans
              (takenUp.untouched reporting.owns same))
    · exact ⟨reporting.completeMember policy now next,
        .inr (settled.completeMember reporting.wellFormed policy now next)⟩
  · rintro current next ⟨reporting, _⟩ settled
    exact settled.completeMember reporting.wellFormed policy now next
  · rintro current ⟨reporting, untouched | settled⟩
    · apply settled_completeMember reporting.wellFormed
      rw [takesUp_of_untouched untouched owns, taken]
    · exact settled.completeMember reporting.wellFormed policy now mc

/-! Reports with nothing left to say. -/

theorem completeMembers_of_untaken {s : Impl}
    {members : List MemberCompletion}
    (untaken : ∀ mc ∈ members, s.takesUp mc = false) (policy : BatchPolicy)
    (now : TimePoint) :
    ∃ stats, Transition.run (completeMember policy now) s members =
      { s with stats := stats } := by
  apply Transition.run_invariant
    (fun current : Impl => ∃ stats : BatchStats,
      current = { s with stats := stats })
  · rintro _ mc member ⟨stats, rfl⟩
    obtain ⟨stats', counted⟩ := completeMember_of_untaken
      (s := { s with stats := stats }) (untaken mc member) policy now
    exact ⟨stats', counted⟩
  · exact ⟨s.stats, rfl⟩

/-- What has moved on takes up no record that names an attempt known before. -/
theorem untaken_of_moved {s s' : Impl} {mc : MemberCompletion}
    (moved : Moved s s' mc.request) (owns' : s'.OwnsAttempts)
    (known : mc.attempt.value < s.nextAttempt) : s'.takesUp mc = false := by
  cases taken : s'.takesUp mc with
  | false => rfl
  | true =>
      obtain ⟨r, found, unsettled⟩ := unsettled_of_takesUp owns' taken
      obtain ⟨r', _, _, named, _, concluding⟩ := found_of_takesUp taken
      obtain ⟨r'', found'', settled | ⟨_, fresh⟩⟩ := moved
      · rw [found] at found''
        cases found''
        rw [unsettled] at settled
        cases settled
      · rw [concluding.request] at found''
        cases found''
        rw [named] at fresh
        exact absurd known (Nat.not_lt.mpr fresh)

section Split

variable {s : Impl} (wellFormed : WellFormed s) (owns : s.OwnsAttempts)
  {first second : List MemberCompletion}

include wellFormed owns

/-- After the records of the first report, one of the second is taken up
exactly when it is now and no record of the first concerns its request. -/
theorem takesUp_after_iff (first : List MemberCompletion)
    (policy : BatchPolicy) (now : TimePoint)
    {mc : MemberCompletion} (known : mc.attempt.value < s.nextAttempt) :
    (Transition.run (completeMember policy now) s first).takesUp mc = true ↔
      s.takesUp mc = true ∧
        ∀ mc' ∈ first, mc'.request = mc.request → s.takesUp mc' = false := by
  have reporting := (Reporting.refl wellFormed owns).completeMembers policy now
    first
  constructor
  · intro taken
    have untaken : ∀ mc' ∈ first, mc'.request = mc.request →
        s.takesUp mc' = false := by
      intro mc' member same
      cases earlier : s.takesUp mc' with
      | false => rfl
      | true =>
          have moved := moved_completeMembers wellFormed owns member earlier
            policy now
          rw [same] at moved
          rw [untaken_of_moved moved reporting.owns known] at taken
          cases taken
    refine ⟨?_, untaken⟩
    rw [← taken]
    exact (takesUp_of_untouched (untouched_completeMembers wellFormed owns
      untaken policy now) owns).symm
  · rintro ⟨taken, untaken⟩
    rw [takesUp_of_untouched (untouched_completeMembers wellFormed owns untaken
      policy now) owns, taken]

end Split

/-! Two reports and one. -/

/-- The states show the same outcome: of every request, of every attempt and
of the batch. -/
structure SameOutcome (s s' : Impl) (bid : BatchId) : Prop where
  requests : ∀ id : RequestId,
    (s'.requests[id]?).map (·.state) = (s.requests[id]?).map (·.state)
  attempts : ∀ aid : AttemptId,
    (s'.attempts[aid]?).map (fun a => (a.state, a.outcome)) =
      (s.attempts[aid]?).map (fun a => (a.state, a.outcome))
  batch : (s'.batches[bid]?).map (·.state) = (s.batches[bid]?).map (·.state)

/-- The state after a report of these records. -/
def deliver (policy : BatchPolicy) (s : Impl) (report : BatchCompletion)
    (members : List MemberCompletion) (now : TimePoint) : Impl :=
  (s.doComplete policy { report with members := members } now).2

section Deliver

variable {s : Impl} {report : BatchCompletion}

theorem accepts_members (members : List MemberCompletion) :
    s.accepts { report with members := members } = s.accepts report := rfl

theorem deliver_of_accepts (authorised : s.accepts report = true)
    (policy : BatchPolicy) (members : List MemberCompletion)
    (now : TimePoint) :
    s.deliver policy report members now =
      (Transition.run (completeMember policy now) s members).finishBatch
        report.batch report.worker now := by
  rw [← accepts_members members] at authorised
  obtain ⟨b, accepts⟩ := exists_of_accepts authorised
  unfold deliver
  rw [doComplete_of_accepts accepts]

/-- The first report closes the batch, so the second is refused. -/
theorem deliver_twice (authorised : s.accepts report = true)
    (policy : BatchPolicy) (first second : List MemberCompletion)
    (now later : TimePoint) :
    ∃ stats, (s.deliver policy report first now).deliver policy report second
        later = { s.deliver policy report first now with stats := stats } := by
  apply doComplete_of_not_accepts
  obtain ⟨b, accepts⟩ := exists_of_accepts authorised
  obtain ⟨b', found, _⟩ := (OutcomeFrame.completeMembers policy now s
    first).found_after accepts.batch
  have closed := state_finishBatch found report.worker now
  rw [← deliver_of_accepts authorised policy first now] at closed
  obtain ⟨b'', found', state⟩ := Option.map_eq_some_iff.mp closed
  unfold Impl.accepts
  dsimp only
  rw [found']
  dsimp only
  rw [state]
  cases Impl.allTerminal _ b' <;> simp

/-- Closing a batch shows the same outcome where the states before did. -/
theorem sameOutcome_finishBatch {t t' : Impl} (same : SameButTimes t t')
    {bid : BatchId} {b : BatchRec} (found : t.batches[bid]? = some b)
    (worker : WorkerId) (now now' : TimePoint) :
    SameOutcome (t.finishBatch bid worker now)
      (t'.finishBatch bid worker now') bid where
  requests id := by
    rw [(tables_finishBatch _ _ _ _).1, (tables_finishBatch _ _ _ _).1,
      same.requests]
  attempts aid := by
    rw [(tables_finishBatch _ _ _ _).2, (tables_finishBatch _ _ _ _).2]
    have untimed := congrArg (Option.map fun a => (a.state, a.outcome))
      (same.attempts aid)
    rw [Option.map_map, Option.map_map] at untimed
    exact untimed
  batch := by
    have found' := found
    rw [← same.batches] at found'
    rw [state_finishBatch found, state_finishBatch found']
    unfold allTerminal
    rw [same.requests]

end Deliver

/-- Two consecutive reports come to the same as one, exactly when the second
has no record to be taken up for a request that the first leaves alone. -/
theorem partialReports_iff (policy : BatchPolicy) (ops : List Op)
    (report : BatchCompletion) (first second : List MemberCompletion)
    (now later joint : TimePoint)
    (authorised : (run policy ops).accepts report = true)
    (known : ∀ mc ∈ second,
      ((run policy ops).attempts[mc.attempt]?).isSome = true) :
    SameOutcome
        (((run policy ops).deliver policy report first now).deliver policy
          report second later)
        ((run policy ops).deliver policy report (first ++ second) joint)
        report.batch ↔
      ∀ mc ∈ second, (run policy ops).takesUp mc = true →
        ∃ mc' ∈ first, mc'.request = mc.request ∧
          (run policy ops).takesUp mc' = true := by
  have wellFormed := wellFormed_of_reachable (reachable_run policy ops)
  have owns := ownsAttempts_of_reachable (reachable_run policy ops)
  generalize run policy ops = s at authorised known wellFormed owns ⊢
  have allocated : ∀ mc ∈ second, mc.attempt.value < s.nextAttempt := by
    intro mc member
    obtain ⟨a, found⟩ := Option.isSome_iff_exists.mp (known mc member)
    exact wellFormed.attempt _ a found
  obtain ⟨stats, twice⟩ := deliver_twice authorised policy first second now
    later
  have reporting := (Reporting.refl wellFormed owns).completeMembers policy
    joint first
  have after := fun mc (member : mc ∈ second) =>
    takesUp_after_iff wellFormed owns first policy joint
      (allocated mc member)
  rw [twice, deliver_of_accepts authorised, deliver_of_accepts authorised,
    Transition.run_append]
  constructor
  · intro same mc member taken
    by_contra missed
    have untaken : ∀ mc' ∈ first, mc'.request = mc.request →
        s.takesUp mc' = false := by
      intro mc' earlier named
      cases taken' : s.takesUp mc' with
      | false => rfl
      | true => exact absurd ⟨mc', earlier, named, taken'⟩ missed
    have untouched := untouched_completeMembers wellFormed owns untaken policy
      now
    obtain ⟨a, found, settled⟩ := attemptSettled_completeMembers
      reporting.wellFormed reporting.owns member
      ((after mc member).mpr ⟨taken, untaken⟩) policy joint
    obtain ⟨r, a', _, named, unsettled, concluding⟩ := found_of_takesUp taken
    have current := (owns.known _ r concluding.request).1
    have kept := untouched.attempts r concluding.request _ current
    rw [concluding.attempt] at kept
    rw [named] at kept
    have shown := same.attempts mc.attempt
    dsimp only at shown
    rw [(tables_finishBatch _ _ _ _).2, (tables_finishBatch _ _ _ _).2, found,
      kept, Option.map_some, Option.map_some, Option.some.injEq] at shown
    have states : a.state = a'.state := congrArg Prod.fst shown
    rw [states, unsettled] at settled
    cases settled
  · intro covered
    have untaken : ∀ mc ∈ second, (Transition.run (completeMember policy joint)
        s first).takesUp mc = false := by
      intro mc member
      cases taken : (Transition.run (completeMember policy joint)
          s first).takesUp mc with
      | false => rfl
      | true =>
          obtain ⟨before, untaken⟩ := (after mc member).mp taken
          obtain ⟨mc', earlier, named, taken'⟩ := covered mc member before
          rw [untaken mc' earlier named] at taken'
          cases taken'
    obtain ⟨stats', idle⟩ := completeMembers_of_untaken untaken policy joint
    obtain ⟨b, accepts⟩ := exists_of_accepts authorised
    obtain ⟨b', found, _⟩ := (OutcomeFrame.completeMembers policy now s
      first).found_after accepts.batch
    have same := (SameButTimes.refl s).completeMembers policy now joint first
    have still : SameButTimes _ (Transition.run (completeMember policy joint)
        (Transition.run (completeMember policy joint) s first) second) :=
      same.of_tables rfl rfl rfl rfl (by rw [idle]) (by rw [idle])
        (by rw [idle]) (by rw [idle])
    have shown := sameOutcome_finishBatch still found report.worker now joint
    exact ⟨shown.requests, shown.attempts, shown.batch⟩

/-- The second report only repeats what the first has said. -/
theorem partialReports_of_repeated :
    let s := run {} [
      .submit minimalRequest 0, .submit minimalRequest 0, .tick [] 1,
      .prepareDispatch { value := 1 } .null .null 2]
    let report : BatchCompletion := {
      epoch := { value := 1 }, generation := { value := 1 }
      batch := { value := 1 } }
    let first : List MemberCompletion := [
      { request := { value := 1 }, attempt := { value := 1 }
        status := .nonRetryableFailure },
      { request := { value := 2 }, attempt := { value := 2 } }]
    let second : List MemberCompletion := [
      { request := { value := 1 }, attempt := { value := 1 } }]
    SameOutcome
      ((s.deliver {} report first 3).deliver {} report second 4)
      (s.deliver {} report (first ++ second) 5) report.batch :=
  (partialReports_iff {} _ _ _ _ _ _ _ (by
    rw [run_eq_runKnown .minimal]
    decide +kernel) (by
    rw [run_eq_runKnown .minimal]
    decide +kernel)).mpr (by
    rw [run_eq_runKnown .minimal]
    decide +kernel)

/-- A batch of two is reported member by member: the second report is refused,
so its member stays dispatched. -/
theorem not_partialReports_of_halves :
    ¬ ∀ (policy : BatchPolicy) (ops : List Op) (report : BatchCompletion)
        (first second : List MemberCompletion) (now later joint : TimePoint),
      (run policy ops).accepts report = true →
      (∀ mc ∈ first ++ second,
        mc.request ∈ (run policy ops).membersOf report.batch ∧
        ((run policy ops).requests[mc.request]?).map (·.currentAttempt) =
          some mc.attempt) →
      SameOutcome
        (((run policy ops).deliver policy report first now).deliver policy
          report second later)
        ((run policy ops).deliver policy report (first ++ second) joint)
        report.batch := by
  intro composes
  let ops : List Op := [
    .submit minimalRequest 0, .submit minimalRequest 0, .tick [] 1,
    .prepareDispatch { value := 1 } .null .null 2]
  let report : BatchCompletion := {
    epoch := { value := 1 }, generation := { value := 1 }
    batch := { value := 1 } }
  let first : List MemberCompletion := [
    { request := { value := 1 }, attempt := { value := 1 } }]
  let second : List MemberCompletion := [
    { request := { value := 2 }, attempt := { value := 2 } }]
  have authorised : (run {} ops).accepts report = true := by
    rw [run_eq_runKnown .minimal]
    decide +kernel
  have dispatched : ∀ mc ∈ first ++ second,
      mc.request ∈ (run {} ops).membersOf report.batch ∧
        ((run {} ops).requests[mc.request]?).map (·.currentAttempt) =
          some mc.attempt := by
    rw [run_eq_runKnown .minimal]
    decide +kernel
  have shown := (composes {} ops report first second 3 4 5 authorised
    dispatched).batch
  revert shown
  rw [run_eq_runKnown .minimal]
  decide +kernel

end Impl

end BatchFabric
