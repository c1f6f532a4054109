import BatchFabric.Safety.Membership
import BatchFabric.Scheduler.KnownKeys

namespace BatchFabric

open OrderedMap

/-! Who may complete a batch: the worker incarnation it was dispatched to,
against those whose reports are accepted. -/

def isInFlight : BatchState → Bool
  | .dispatched | .running => true
  | _ => false

theorem isInFlight_iff (state : BatchState) :
    isInFlight state = true ↔ state = .dispatched ∨ state = .running := by
  cases state <;> decide

def BatchRec.assignee (b : BatchRec) : WorkerId × WorkerBootId :=
  (b.worker, b.boot)

namespace Impl

/-- The dispatch an operation makes in a state, if it makes one. -/
def dispatchOf (s : Impl) : Op → Option (BatchId × WorkerId × WorkerBootId)
  | .prepareDispatch batch worker boot _ =>
      match s.batches[batch]? with
      | none => none
      | some b =>
          if b.state = .sealed && s.workerCurrent worker boot then
            some (batch, worker, boot)
          else none
  | .dispatchAndRun batch executor _ =>
      match s.batches[batch]? with
      | none => none
      | some b =>
          if b.state = .sealed then
            some (batch, executor.capability.worker,
              s.bootOf executor.capability.worker)
          else none
  | _ => none

/-- The dispatches made along a run. -/
def dispatches (policy : BatchPolicy) :
    Impl → List Op → List (BatchId × WorkerId × WorkerBootId)
  | _, [] => []
  | s, op :: rest =>
      (s.dispatchOf op).toList ++ dispatches policy (step policy s op) rest

/-- An update that dispatches nothing: batches once dispatched keep their
assignee, and none takes off. -/
structure AssigneeFrame (s s' : Impl) : Prop where
  kept : Everywhere s.batches fun bid b => 2 ≤ b.state.stage →
    ∃ b', s'.batches[bid]? = some b' ∧ b'.assignee = b.assignee ∧
      2 ≤ b'.state.stage
  flown : Everywhere s'.batches fun bid b' => isInFlight b'.state = true →
    ∃ b, s.batches[bid]? = some b ∧ b'.assignee = b.assignee ∧
      isInFlight b.state = true

namespace AssigneeFrame

variable {s s' : Impl}

theorem of_batches (same : s'.batches = s.batches) : AssigneeFrame s s' where
  kept := by
    rw [same]
    exact fun _ b found reached => ⟨b, found, rfl, reached⟩
  flown := by
    rw [same]
    exact fun _ b found flying => ⟨b, found, rfl, flying⟩

theorem trans {s'' : Impl} (earlier : AssigneeFrame s s')
    (later : AssigneeFrame s' s'') : AssigneeFrame s s'' where
  kept bid b found reached := by
    obtain ⟨b', found', same', reached'⟩ := earlier.kept bid b found reached
    obtain ⟨b'', found'', same, reached''⟩ := later.kept bid b' found' reached'
    exact ⟨b'', found'', same.trans same', reached''⟩
  flown bid b'' found'' flying'' := by
    obtain ⟨b', found', same, flying'⟩ := later.flown bid b'' found'' flying''
    obtain ⟨b, found, same', flying⟩ := earlier.flown bid b' found' flying'
    exact ⟨b, found, same.trans same', flying⟩

theorem modify {bid : BatchId} {change : BatchRec → BatchRec}
    (batches : s'.batches = s.batches.modify bid change)
    (assignee : ∀ b, (change b).assignee = b.assignee)
    (reaches : ∀ b, s.batches[bid]? = some b →
      2 ≤ b.state.stage → 2 ≤ (change b).state.stage)
    (flies : ∀ b, s.batches[bid]? = some b →
      isInFlight (change b).state = true → isInFlight b.state = true) :
    AssigneeFrame s s' where
  kept other b found reached := by
    rw [batches, getElem?_modify]
    split
    · next same =>
        subst same
        rw [found]
        exact ⟨change b, rfl, assignee b, reaches b found reached⟩
    · exact ⟨b, found, rfl, reached⟩
  flown other b' found' flying := by
    rw [batches] at found'
    obtain ⟨b, found, ⟨rfl, rfl⟩ | ⟨_, rfl⟩⟩ := getElem?_modify_cases found'
    · exact ⟨b, found, assignee b, flies b found flying⟩
    · exact ⟨b', found, rfl, flying⟩

/-- A change of a batch that leaves its state and its assignee. -/
theorem of_still {bid : BatchId} {change : BatchRec → BatchRec}
    (batches : s'.batches = s.batches.modify bid change)
    (still : ∀ b, (change b).assignee = b.assignee ∧
      (change b).state = b.state) : AssigneeFrame s s' := by
  apply modify batches (fun b => (still b).1)
  · intro b _ reached
    rw [(still b).2]
    exact reached
  · intro b _ flying
    rw [(still b).2] at flying
    exact flying

theorem of_outcomes (frame : OutcomeFrame s s') : AssigneeFrame s s' where
  kept bid b found reached := by
    obtain ⟨b', found', same⟩ := frame.found_after found
    have assignees : b.listing.assignee = b'.listing.assignee := by
      rw [same]
    refine ⟨b', found', assignees.symm, ?_⟩
    rw [BatchRec.state_of_listing same.symm]
    exact reached
  flown bid b' found' flying := by
    obtain ⟨b, found, same⟩ := frame.found_before found'
    have assignees : b'.listing.assignee = b.listing.assignee := by
      rw [same]
    refine ⟨b, found, assignees, ?_⟩
    rw [← BatchRec.state_of_listing same]
    exact flying

theorem doCancel (policy : BatchPolicy) (s : Impl) (id : RequestId)
    (now : TimePoint) : AssigneeFrame s (s.doCancel policy id now).2 := by
  obtain unchanged | ⟨r, _, _, ⟨_, outside⟩ |
      ⟨_, b, _, ⟨_, forming⟩ | ⟨_, later⟩⟩⟩ := doCancel_cases policy s id now
  · rw [unchanged]
    exact of_batches rfl
  · rw [outside]
    exact of_batches rfl
  · rw [forming]
    exact of_still rfl fun _ => ⟨rfl, rfl⟩
  · rw [later]
    exact of_still rfl fun _ => ⟨rfl, rfl⟩

theorem openForming (wellFormed : WellFormed s) (key : CompatibilityKey)
    (now : TimePoint) : AssigneeFrame s (s.openForming key now) where
  kept bid b found reached := by
    refine ⟨b, ?_, rfl, reached⟩
    unfold Impl.openForming
    dsimp only
    rw [getElem?_insert]
    split
    · next same =>
        subst same
        rw [wellFormed.no_batch (Nat.le_refl _)] at found
        cases found
    · exact found
  flown bid b' found' flying := by
    rcases found_openForming found' with ⟨_, rfl⟩ | before
    · cases flying
    · exact ⟨b', before, rfl, flying⟩

theorem sealForming {bid : BatchId} {b : BatchRec}
    (found : s.batches[bid]? = some b) (forming : b.state = .forming)
    (reason : SealReason) (now : TimePoint) :
    AssigneeFrame s (s.sealForming bid b reason now) := by
  apply modify rfl (fun _ => by rfl)
  · intro b' found' reached
    rw [found] at found'
    cases found'
    rw [forming] at reached
    exact absurd reached (by decide)
  · intro _ _ flying
    cases flying

theorem not_flying_of_open {state : BatchState} (opened : state.stage ≤ 1) :
    isInFlight state = false := by
  cases state <;> first | rfl | exact absurd opened (by decide)

/-- A merge of open batches concerns no batch that was dispatched. -/
theorem mergeInto {aid bid : BatchId} {a b : BatchRec}
    (foundA : s.batches[aid]? = some a) (foundB : s.batches[bid]? = some b)
    (states : a.state = b.state) (opened : b.state.stage ≤ 1) :
    AssigneeFrame s (s.mergeInto aid bid a b) where
  kept x b' found' reached := by
    have otherB : bid ≠ x := by
      rintro rfl
      rw [foundB] at found'
      cases found'
      exact absurd (Nat.le_trans reached opened) (by decide)
    have otherA : aid ≠ x := by
      rintro rfl
      rw [foundA] at found'
      cases found'
      rw [states] at reached
      exact absurd (Nat.le_trans reached opened) (by decide)
    refine ⟨b', ?_, rfl, reached⟩
    unfold Impl.mergeInto
    dsimp only
    rw [getElem?_modify, if_neg otherB, getElem?_insert, if_neg otherA]
    exact found'
  flown x b' found' flying := by
    rcases found_mergeInto found' with
      ⟨_, state⟩ | ⟨_, _, _, state⟩ | ⟨_, _, before⟩
    · rw [state] at flying
      cases flying
    · rw [state, states, not_flying_of_open opened] at flying
      cases flying
    · exact ⟨b', before, rfl, flying⟩

theorem splitSealed (wellFormed : WellFormed s) {bid : BatchId} {b : BatchRec}
    (found : s.batches[bid]? = some b) (isSealed : b.state = .sealed) :
    AssigneeFrame s (s.splitSealed bid b) where
  kept x b' found' reached := by
    have different : bid ≠ x := by
      rintro rfl
      rw [found] at found'
      cases found'
      rw [isSealed] at reached
      exact absurd reached (by decide)
    refine ⟨b', ?_, rfl, reached⟩
    unfold Impl.splitSealed
    dsimp only
    rw [getElem?_insert, getElem?_insert, getElem?_insert, if_neg different]
    split
    · next same =>
        subst same
        rw [wellFormed.no_batch (Nat.le_succ _)] at found'
        cases found'
    · split
      · next same =>
          subst same
          rw [wellFormed.no_batch (Nat.le_refl _)] at found'
          cases found'
      · exact found'
  flown x b' found' flying := by
    rcases found_splitSealed found' with ⟨_, _, state⟩ | ⟨_, _, state⟩ |
      ⟨_, state⟩ | ⟨_, before⟩
    · rw [state] at flying
      cases flying
    · rw [state, isSealed] at flying
      cases flying
    · rw [state] at flying
      cases flying
    · exact ⟨b', before, rfl, flying⟩

/-- No batch in flight is split; one that has landed keeps its assignee. -/
theorem splitOpen (wellFormed : WellFormed s) {bid : BatchId} {b : BatchRec}
    (found : s.batches[bid]? = some b) (possible : splittable b = true) :
    AssigneeFrame s (s.splitOpen bid b) := by
  have landed : isInFlight b.state = false := by
    unfold splittable at possible
    cases state : b.state <;> simp [state] at possible <;> rfl
  have below : ({ value := s.nextBatch } : BatchId) ≠ bid := by
    rintro rfl
    rw [wellFormed.no_batch (Nat.le_refl _)] at found
    cases found
  constructor
  · intro x b' found' reached
    unfold Impl.splitOpen
    dsimp only
    rw [getElem?_insert]
    split
    · next same =>
        subst same
        rw [wellFormed.no_batch (Nat.le_refl _)] at found'
        cases found'
    · rw [getElem?_insert]
      split
      · next same =>
          subst same
          rw [found] at found'
          cases found'
          exact ⟨_, rfl, rfl, reached⟩
      · exact ⟨b', found', rfl, reached⟩
  · intro x b' found' flying
    rcases found_splitOpen found' with
      ⟨_, _, state⟩ | ⟨_, _, state⟩ | ⟨_, before⟩
    · rw [state, landed] at flying
      cases flying
    · rw [state, landed] at flying
      cases flying
    · exact ⟨b', before, rfl, flying⟩

theorem doSplit (wellFormed : WellFormed s) (bid : BatchId) :
    AssigneeFrame s (s.doSplit bid).2 := by
  obtain unchanged | ⟨b, found, possible, ⟨isSealed, taken⟩ | ⟨_, taken⟩⟩ :=
    doSplit_cases s bid
  · rw [unchanged]
    exact of_batches rfl
  · rw [taken]
    exact splitSealed wellFormed found isSealed
  · rw [taken]
    exact splitOpen wellFormed found possible

theorem sealBatch (s : Impl) (bid : BatchId) (reason : SealReason)
    (now : TimePoint) : AssigneeFrame s (s.sealBatch bid reason now).2 := by
  obtain unchanged | ⟨b, found, forming, closed⟩ :=
    sealBatch_cases s bid reason now
  · rw [unchanged]
    exact of_batches rfl
  · rw [closed]
    exact sealForming found forming reason now

theorem doMerge (policy : BatchPolicy) (s : Impl) (aid bid : BatchId) :
    AssigneeFrame s (s.doMerge policy aid bid).2 := by
  obtain unchanged | ⟨a, b, foundA, foundB, possible, merged⟩ :=
    doMerge_cases policy s aid bid
  · rw [unchanged]
    exact of_batches rfl
  · rw [merged]
    obtain ⟨_, _, states, opened⟩ := canMerge_cases possible
    apply mergeInto foundA foundB states
    rw [← states]
    rcases opened with state | state
    · rw [state]
      decide
    · rw [state]
      decide

/-- A batch just dispatched starts to run. -/
theorem startedRun {bid : BatchId} {b : BatchRec} {worker : WorkerId}
    {now : TimePoint} (found : s.batches[bid]? = some b) :
    AssigneeFrame (s.markDispatched bid b worker (s.bootOf worker) now)
      (s.startedRun bid b worker now) := by
  apply modify rfl (fun _ => by rfl)
  · intro _ _ _
    exact Nat.le_succ 2
  · intro b' found' _
    have dispatched : (s.markDispatched bid b worker (s.bootOf worker)
        now).batches[bid]? = some _ := getElem?_modify_self found _
    rw [dispatched] at found'
    cases found'
    rfl

theorem finishBatch (s : Impl) (bid : BatchId) (worker : WorkerId)
    (now : TimePoint) : AssigneeFrame s (s.finishBatch bid worker now) := by
  obtain unchanged | ⟨b, stats, workers, _, ⟨_, ended⟩ | ⟨_, ended⟩⟩ :=
    finishBatch_cases s bid worker now
  · rw [unchanged]
    exact of_batches rfl
  · rw [ended]
    apply modify rfl (fun _ => by rfl)
    · exact fun _ _ _ => (by decide : 2 ≤ BatchState.stage .completed)
    · exact fun _ _ flying => nomatch flying
  · rw [ended]
    apply modify rfl (fun _ => by rfl)
    · exact fun _ _ _ => (by decide : 2 ≤ BatchState.stage .partiallyCompleted)
    · exact fun _ _ flying => nomatch flying

theorem doComplete (policy : BatchPolicy) (s : Impl) (comp : BatchCompletion)
    (now : TimePoint) : AssigneeFrame s (s.doComplete policy comp now).2 := by
  obtain ⟨err, stale, refused⟩ | ⟨b, _, accepted⟩ :=
    doComplete_cases policy s comp now
  · rw [refused]
    exact of_batches rfl
  · rw [accepted]
    exact (of_outcomes (OutcomeFrame.completeMembers policy now s
      comp.members)).trans (finishBatch _ comp.batch comp.worker now)

/-- The frame is relative to the state in which the tick starts. -/
theorem tickRule (policy : BatchPolicy) (now : TimePoint) (start : Impl) :
    TickRule policy now fun s => WellFormed s ∧ AssigneeFrame start s where
  wellFormed _ held := held.1
  expire s id held :=
    ⟨held.1.expireWaiting now id,
      held.2.trans (of_batches (batches_expireWaiting now s id))⟩
  cancel s id held :=
    ⟨held.1.doCancel policy id now,
      held.2.trans (doCancel policy s id now)⟩
  openForming _ key held _ :=
    ⟨held.1.openForming key now, held.2.trans (openForming held.1 key now)⟩
  place s bid key pick b r held placing := by
    refine ⟨(WellFormed.tickRule policy now).place s bid key pick b r held.1
      placing, held.2.trans ?_⟩
    rw [place_eq placing.request]
    exact of_still rfl fun _ => ⟨rfl, rfl⟩
  retime s bid change held retimes := by
    refine ⟨held.1.retime bid retimes, held.2.trans (of_still rfl ?_)⟩
    intro b
    obtain ⟨allowed, formed, changed⟩ := retimes b
    rw [changed]
    exact ⟨rfl, rfl⟩
  close _ _ _ reason held found forming :=
    ⟨held.1.sealForming found forming reason now,
      held.2.trans (sealForming found forming reason now)⟩
  merge _ _ _ _ _ held merging :=
    ⟨held.1.mergeInto merging.first merging.second merging.keyed,
      held.2.trans (mergeInto merging.first merging.second
        (merging.firstSealed.trans merging.secondSealed.symm)
        (by rw [merging.secondSealed]; decide))⟩

theorem doTick (wellFormed : WellFormed s) (policy : BatchPolicy)
    (order : List CompatibilityKey) (now : TimePoint) :
    AssigneeFrame s (s.doTick policy order now) :=
  ((tickRule policy now s).doTick
    (fun _ _ _ held found isSealed _ =>
      ⟨held.1.splitSealed found,
        held.2.trans (splitSealed held.1 found isSealed)⟩)
    ⟨wellFormed, of_batches rfl⟩ order).2

theorem expireLocked (policy : BatchPolicy) (s : Impl)
    (order : List CompatibilityKey) (now : TimePoint) :
    AssigneeFrame s (s.expireLocked policy order now) :=
  kept_expireLocked (AssigneeFrame s)
    (fun s id held => held.trans (of_batches (batches_expireWaiting now s id)))
    (fun s id held => held.trans (doCancel policy s id now)) (of_batches rfl)
    order

theorem doRetry (wellFormed : WellFormed s) (policy : BatchPolicy)
    (id : RequestId) (order : List CompatibilityKey) (now : TimePoint) :
    AssigneeFrame s (s.doRetry policy id order now).2 := by
  have queued : AssigneeFrame s (s.retryQueued policy id now).2 := by
    obtain ⟨err, refused⟩ | ⟨r, _, _, _, requeued⟩ :=
      retryQueued_cases policy s id now
    · rw [refused]
      exact of_batches rfl
    · rw [requeued]
      exact of_batches rfl
  exact (kept_doRetry (fun s' => WellFormed s' ∧ AssigneeFrame s s')
    ⟨wellFormed.retryQueued policy id now, queued⟩
    fun _ held => ⟨held.1.doTick policy order now,
      held.2.trans (doTick held.1 policy order now)⟩).2

end AssigneeFrame

/-- The batches in flight are those dispatched, and every batch records the
only dispatch there was of it. -/
structure Assigned (history : List (BatchId × WorkerId × WorkerBootId))
    (s : Impl) : Prop where
  dispatched : Everywhere s.batches fun bid b =>
    isInFlight b.state = true → (bid, b.assignee) ∈ history
  recorded : ∀ entry ∈ history, ∃ b, s.batches[entry.1]? = some b ∧
    b.assignee = entry.2 ∧ 2 ≤ b.state.stage

namespace Assigned

variable {history : List (BatchId × WorkerId × WorkerBootId)} {s s' : Impl}

theorem fresh : Assigned [] fresh where
  dispatched := everywhere_empty
  recorded := nofun

theorem frame (assigned : Assigned history s) (kept : AssigneeFrame s s') :
    Assigned history s' where
  dispatched bid b' found' flying := by
    obtain ⟨b, found, same, before⟩ := kept.flown bid b' found' flying
    rw [same]
    exact assigned.dispatched bid b found before
  recorded entry member := by
    obtain ⟨b, found, same, reached⟩ := assigned.recorded entry member
    obtain ⟨b', found', same', reached'⟩ := kept.kept entry.1 b found reached
    exact ⟨b', found', same'.trans same, reached'⟩

theorem markDispatched (assigned : Assigned history s) {bid : BatchId}
    {b : BatchRec} (found : s.batches[bid]? = some b)
    (isSealed : b.state = .sealed) (worker : WorkerId) (boot : WorkerBootId)
    (now : TimePoint) :
    Assigned (history ++ [(bid, worker, boot)])
      (s.markDispatched bid b worker boot now) where
  dispatched other b' found' flying := by
    obtain ⟨before, at_other, ⟨rfl, rfl⟩ | ⟨_, rfl⟩⟩ :=
      getElem?_modify_cases found'
    · exact List.mem_append_right _ (List.mem_singleton_self _)
    · exact List.mem_append_left _
        (assigned.dispatched other b' at_other flying)
  recorded entry member := by
    rcases List.mem_append.mp member with old | new
    · obtain ⟨b', at_entry, same, reached⟩ := assigned.recorded entry old
      have different : bid ≠ entry.1 := by
        intro equal
        rw [← equal, found] at at_entry
        cases at_entry
        rw [isSealed] at reached
        exact absurd reached (by decide)
      refine ⟨b', ?_, same, reached⟩
      unfold Impl.markDispatched
      dsimp only
      rw [getElem?_modify, if_neg different]
      exact at_entry
    · rw [List.mem_singleton.mp new]
      exact ⟨_, getElem?_modify_self found _, rfl, Nat.le_refl 2⟩

theorem prepareDispatch (assigned : Assigned history s) (batch : BatchId)
    (worker : WorkerId) (boot : WorkerBootId) (now : TimePoint) :
    Assigned
      (history ++ (s.dispatchOf (.prepareDispatch batch worker boot
        now)).toList)
      (s.prepareDispatch batch worker boot now).2 := by
  cases found : s.batches[batch]? with
  | none => simpa [dispatchOf, Impl.prepareDispatch, found] using assigned
  | some b =>
      by_cases isSealed : b.state = .sealed
      · cases current : s.workerCurrent worker boot with
        | false =>
            simpa [dispatchOf, Impl.prepareDispatch, found, isSealed, current]
              using assigned
        | true =>
            simpa [dispatchOf, Impl.prepareDispatch, found, isSealed, current]
              using assigned.markDispatched found isSealed worker boot now
      · simpa [dispatchOf, Impl.prepareDispatch, found, isSealed]
          using assigned

theorem doDispatchAndRun (assigned : Assigned history s)
    (policy : BatchPolicy) (batch : BatchId) (executor : Executor)
    (now : TimePoint) :
    Assigned
      (history ++ (s.dispatchOf (.dispatchAndRun batch executor now)).toList)
      (s.doDispatchAndRun policy batch executor now).2 := by
  cases found : s.batches[batch]? with
  | none => simpa [dispatchOf, Impl.doDispatchAndRun, found] using assigned
  | some b =>
      by_cases isSealed : b.state = .sealed
      · let worker := executor.capability.worker
        have dispatched := assigned.markDispatched found isSealed worker
          (s.bootOf worker) now
        have started : Assigned (history ++ [(batch, worker, s.bootOf worker)])
            (s.startedRun batch b worker now) :=
          dispatched.frame (AssigneeFrame.startedRun found)
        have entry : s.dispatchOf (.dispatchAndRun batch executor now) =
            some (batch, worker, s.bootOf worker) := by
          simp [dispatchOf, found, isSealed, worker]
        rw [entry]
        unfold Impl.doDispatchAndRun
        simp only [found, isSealed, ne_eq, not_true_eq_false, if_false]
        split
        · next err _ =>
            exact started.frame (AssigneeFrame.of_outcomes
              (OutcomeFrame.failMembers policy now err _ b.members))
        · next results _ =>
            have completed := started.frame (AssigneeFrame.doComplete policy _
              (resultsCompletion b worker (s.bootOf worker) results) now)
            split <;> next taken =>
              rw [taken] at completed
              exact completed
      · simpa [dispatchOf, Impl.doDispatchAndRun, found, isSealed]
          using assigned

theorem quiet (assigned : Assigned history s) {op : Op}
    (idle : s.dispatchOf op = none) (kept : AssigneeFrame s s') :
    Assigned (history ++ (s.dispatchOf op).toList) s' := by
  rw [idle, Option.toList_none, List.append_nil]
  exact assigned.frame kept

theorem step {policy : BatchPolicy} (assigned : Assigned history s)
    (wellFormed : WellFormed s) (op : Op) :
    Assigned (history ++ (s.dispatchOf op).toList) (step policy s op) := by
  cases op with
  | submit metadata now =>
      exact assigned.quiet rfl
        (.of_batches (batches_doSubmit policy s metadata now))
  | cancel request now => exact assigned.quiet rfl (.doCancel policy s request now)
  | complete completion now =>
      exact assigned.quiet rfl (.doComplete policy s completion now)
  | sealBatch batch reason now =>
      exact assigned.quiet rfl (.sealBatch s batch reason now)
  | split batch => exact assigned.quiet rfl (.doSplit wellFormed batch)
  | merge a b => exact assigned.quiet rfl (.doMerge policy s a b)
  | retry request order now =>
      exact assigned.quiet rfl
        (.doRetry wellFormed policy request order now)
  | tick order now =>
      exact assigned.quiet rfl (.doTick wellFormed policy order now)
  | expire order now =>
      exact assigned.quiet rfl (.expireLocked policy s order now)
  | dispatchAndRun batch executor now =>
      exact assigned.doDispatchAndRun policy batch executor now
  | prepareDispatch batch worker boot now =>
      exact assigned.prepareDispatch batch worker boot now
  | registerWorker worker boot cap =>
      exact assigned.quiet rfl (.of_batches rfl)
  | rollEpoch => exact assigned.quiet rfl (.of_batches rfl)

theorem of_run (policy : BatchPolicy) (ops : List Op)
    (assigned : Assigned history s) (wellFormed : WellFormed s) :
    Assigned (history ++ dispatches policy s ops)
      (Transition.run (BatchFabric.step policy) s ops) := by
  induction ops generalizing s history with
  | nil =>
      rw [dispatches, List.append_nil]
      exact assigned
  | cons op rest induction =>
      rw [dispatches, ← List.append_assoc]
      exact induction (assigned.step wellFormed op) (wellFormed.step op)

end Assigned

/-- The report carries the current epoch and the batch's generation, and comes
from the worker and boot that the batch was dispatched to. -/
structure Authorised (policy : BatchPolicy) (ops : List Op)
    (comp : BatchCompletion) : Prop where
  epoch : comp.epoch = (run policy ops).epoch
  generation : ((run policy ops).batches[comp.batch]?).map (·.generation) =
    some comp.generation
  assignee : ∀ worker boot,
    (comp.batch, worker, boot) ∈ dispatches policy fresh ops ↔
      worker = comp.worker ∧ boot = comp.boot

/-- Every live worker, in the boot it is registered with, is the one that each
batch in flight was dispatched to. -/
def SoleAssignee (s : Impl) : Prop :=
  Everywhere s.batches fun _ b => isInFlight b.state = true →
    Everywhere s.workers fun worker w => w.live = true →
      (worker, w.boot) = b.assignee

theorem workerCurrent_iff {s : Impl} {worker : WorkerId}
    {boot : WorkerBootId} :
    s.workerCurrent worker boot = true ↔
      ∃ w, s.workers[worker]? = some w ∧ w.live = true ∧ w.boot = boot := by
  unfold workerCurrent
  cases s.workers[worker]? with
  | none => simp
  | some w => simp

/-- Only authorised reports are accepted exactly where no live worker
incarnation differs from the one a batch in flight was dispatched to. -/
theorem accepted_authorised_iff (policy : BatchPolicy) (ops : List Op) :
    (∀ comp now,
        ((run policy ops).doComplete policy comp now).1 = .ok () →
          Authorised policy ops comp) ↔
      (run policy ops).SoleAssignee := by
  have assigned : Assigned (dispatches policy fresh ops) (run policy ops) :=
    Assigned.fresh.of_run policy ops WellFormed.fresh
  constructor
  · intro authorised bid b found flying worker w registered live
    -- The report of this worker that names the batch and no member.
    let comp : BatchCompletion := {
      worker := worker
      boot := w.boot
      epoch := (run policy ops).epoch
      generation := b.generation
      batch := bid }
    have accepted : (run policy ops).Accepts comp b := {
      epoch := rfl
      worker := workerCurrent_iff.mpr ⟨w, registered, live, rfl⟩
      batch := found
      generation := rfl
      inFlight := (isInFlight_iff b.state).mp flying }
    have known := authorised comp 0
      (by rw [doComplete_of_accepts accepted policy 0])
    have own := (known.assignee b.worker b.boot).mp
      (assigned.dispatched bid b found flying)
    unfold BatchRec.assignee
    rw [own.1, own.2]
  · intro sole comp now completed
    obtain ⟨err, stale, refused⟩ | ⟨b, accepted, _⟩ :=
      doComplete_cases policy (run policy ops) comp now
    · rw [refused] at completed
      cases completed
    · have flying := (isInFlight_iff b.state).mpr accepted.inFlight
      obtain ⟨w, registered, live, boot⟩ :=
        workerCurrent_iff.mp accepted.worker
      have own := sole comp.batch b accepted.batch flying comp.worker w
        registered live
      rw [boot] at own
      constructor
      · exact accepted.epoch
      · rw [accepted.batch]
        exact congrArg some accepted.generation
      · intro worker boot'
        constructor
        · intro entry
          obtain ⟨b', found', same, _⟩ := assigned.recorded _ entry
          rw [accepted.batch] at found'
          cases found'
          rw [← own] at same
          cases same
          exact ⟨rfl, rfl⟩
        · rintro ⟨rfl, rfl⟩
          rw [own]
          exact assigned.dispatched comp.batch b accepted.batch flying

/-- Worker 5 completes a batch that was dispatched to the local worker. -/
theorem accepted_unauthorised :
    ¬ ∀ (policy : BatchPolicy) (ops : List Op) (comp : BatchCompletion)
        (now : TimePoint),
      ((run policy ops).doComplete policy comp now).1 = .ok () →
        Authorised policy ops comp := by
  intro authorised
  let ops : List Op := [
    .submit minimalRequest 0, .tick [] 1,
    .registerWorker { value := 5 } { value := 9 } {},
    .prepareDispatch { value := 1 } .null .null 2]
  have completed : ((run {} ops).doComplete {} {
      worker := { value := 5 }, boot := { value := 9 }
      epoch := { value := 1 }, generation := { value := 1 }
      batch := { value := 1 } } 3).1 = .ok () := by
    rw [run_eq_runKnown .minimal]
    decide +kernel
  have dispatched : ({ value := 1 }, .null, .null) ∈
      dispatches {} fresh ops := by
    simp only [ops, dispatches, step_eq_stepKnown .minimal]
    decide +kernel
  have own := ((authorised {} ops _ 3 completed).assignee .null .null).mp
    dispatched
  exact absurd own.1 (by decide)

end Impl

end BatchFabric
