import BatchFabric.Safety.StepRule
import BatchFabric.Scheduler.KnownKeys

namespace BatchFabric

open OrderedMap

/-! The registry of forming batches. -/

namespace Impl

/-- Every key is registered to a forming batch of it, and every forming batch
is the one registered under its key. -/
def FormingRegistry (s : Impl) : Prop :=
  (Everywhere s.formingByKey fun key bid =>
    ∃ b ∈ s.batches[bid]?, b.key = key ∧ b.state = .forming) ∧
  (Everywhere s.batches fun bid b =>
    b.state = .forming → s.formingByKey[b.key]? = some bid)

instance (s : Impl) : Decidable s.FormingRegistry :=
  inferInstanceAs (Decidable (_ ∧ _))

/-- The key under which a batch should be registered, if it is forming. -/
def formingKey (b : BatchRec) : Option CompatibilityKey :=
  if b.state = .forming then some b.key else none

theorem formingKey_eq_some {b : BatchRec} {key : CompatibilityKey} :
    formingKey b = some key ↔ b.key = key ∧ b.state = .forming := by
  unfold formingKey
  by_cases forming : b.state = .forming
  · simp [forming]
  · simp [forming]

/-- The registry is the converse of `formingKey`. -/
theorem formingRegistry_iff (s : Impl) :
    s.FormingRegistry ↔
      ∀ (key : CompatibilityKey) (bid : BatchId),
        s.formingByKey[key]? = some bid ↔
          (s.batches[bid]?).bind formingKey = some key := by
  constructor
  · rintro ⟨registered, forming⟩ key bid
    constructor
    · intro found
      obtain ⟨b, at_bid, known⟩ := registered key bid found
      rw [Option.mem_def.mp at_bid]
      exact formingKey_eq_some.mpr known
    · intro viewed
      obtain ⟨b, at_bid, keyed⟩ := Option.bind_eq_some_iff.mp viewed
      obtain ⟨rfl, isForming⟩ := formingKey_eq_some.mp keyed
      exact forming bid b at_bid isForming
  · intro converse
    constructor
    · intro key bid found
      obtain ⟨b, at_bid, keyed⟩ :=
        Option.bind_eq_some_iff.mp ((converse key bid).mp found)
      exact ⟨b, at_bid, formingKey_eq_some.mp keyed⟩
    · intro bid b found isForming
      apply (converse b.key bid).mpr
      rw [found]
      exact formingKey_eq_some.mpr ⟨rfl, isForming⟩

theorem FormingRegistry.fresh : FormingRegistry fresh :=
  ⟨everywhere_empty, everywhere_empty⟩

/-- Updates after which the same batches are forming. -/
theorem FormingRegistry.of_same {s s' : Impl} (agrees : s.FormingRegistry)
    (registry : s'.formingByKey = s.formingByKey)
    (forming : ∀ bid : BatchId, (s'.batches[bid]?).bind formingKey =
      (s.batches[bid]?).bind formingKey) : s'.FormingRegistry := by
  rw [formingRegistry_iff] at agrees ⊢
  intro key bid
  rw [registry, forming]
  exact agrees key bid

theorem formingKey_modify {s : Impl} {bid : BatchId}
    {change : BatchRec → BatchRec}
    (kept : ∀ b, s.batches[bid]? = some b →
      formingKey (change b) = formingKey b) (other : BatchId) :
    ((s.batches.modify bid change)[other]?).bind formingKey =
      (s.batches[other]?).bind formingKey :=
  bind_getElem?_modify kept other

/-- A batch that was not forming and is not forming afterwards. -/
theorem formingKey_of_not {b b' : BatchRec} (before : b.state ≠ .forming)
    (after : b'.state ≠ .forming) : formingKey b' = formingKey b := by
  unfold formingKey
  rw [if_neg before, if_neg after]

namespace FormingRegistry

theorem openForming {s : Impl} (agrees : s.FormingRegistry)
    (wellFormed : WellFormed s) {key : CompatibilityKey}
    (unregistered : s.formingByKey[key]? = none) (now : TimePoint) :
    (s.openForming key now).FormingRegistry := by
  have unknown : s.batches[({ value := s.nextBatch } : BatchId)]? = none :=
    wellFormed.no_batch (Nat.le_refl _)
  rw [formingRegistry_iff] at agrees ⊢
  intro other bid
  unfold Impl.openForming
  dsimp only
  rw [getElem?_insert, getElem?_insert]
  by_cases new : ({ value := s.nextBatch } : BatchId) = bid
  · subst new
    rw [if_pos rfl]
    have view : (some (s.newForming key now)).bind formingKey =
        some key := rfl
    rw [view]
    by_cases same : key = other
    · subst same
      simp
    · rw [if_neg same]
      have absent := (agrees other { value := s.nextBatch }).not
      rw [unknown] at absent
      have unlisted := absent.mpr nofun
      simp [unlisted, same]
  · rw [if_neg new, ← agrees other bid]
    by_cases same : key = other
    · subst same
      simp [unregistered, new]
    · rw [if_neg same]

theorem sealForming {s : Impl} (agrees : s.FormingRegistry) {bid : BatchId}
    {b : BatchRec} (found : s.batches[bid]? = some b)
    (forming : b.state = .forming) (reason : SealReason) (now : TimePoint) :
    (s.sealForming bid b reason now).FormingRegistry := by
  have registered := agrees.2 bid b found forming
  rw [formingRegistry_iff] at agrees ⊢
  intro key other
  unfold Impl.sealForming
  dsimp only
  rw [getElem?_erase, getElem?_modify]
  by_cases same : bid = other
  · subst same
    rw [if_pos rfl, found]
    have view : ((some b).map fun b => { b with
        state := BatchState.sealed, sealReason := reason,
        sealedNs := now }).bind formingKey = none := rfl
    rw [view]
    split
    · simp
    · next different =>
        have absent : ¬ s.formingByKey[key]? = some bid := by
          rw [agrees key bid, found]
          intro view
          exact different (formingKey_eq_some.mp view).1
        simp [absent]
  · rw [if_neg same, ← agrees key other]
    split
    · next equal =>
        subst equal
        rw [registered]
        simp [same]
    · rfl

theorem splitSealed {s : Impl} (agrees : s.FormingRegistry)
    (wellFormed : WellFormed s) {bid : BatchId} {b : BatchRec}
    (found : s.batches[bid]? = some b) (isSealed : b.state = .sealed) :
    (s.splitSealed bid b).FormingRegistry := by
  have unknown := fun other : BatchId =>
    (wellFormed.no_batch : s.nextBatch ≤ other.value → _)
  have closed : b.state ≠ .forming := by
    rw [isSealed]
    exact nofun
  apply agrees.of_same
  · rfl
  intro other
  unfold Impl.splitSealed
  dsimp only
  simp only [getElem?_insert]
  split
  · next same =>
      subst same
      rw [unknown { value := s.nextBatch + 1 } (Nat.le_succ _)]
      rfl
  · split
    · next same =>
        subst same
        rw [unknown { value := s.nextBatch } (Nat.le_refl _)]
        show (if b.state = .forming then some b.key else none) = none
        exact if_neg closed
    · split
      · next same =>
          subst same
          rw [found]
          exact formingKey_of_not closed
            (nofun : BatchState.superseded ≠ .forming)
      · rfl

/-- Two batches of one key cannot both be registered, so a merge of different
batches is one of sealed batches. -/
theorem mergeInto {s : Impl} (agrees : s.FormingRegistry)
    {aid bid : BatchId} {a b : BatchRec} (first : s.batches[aid]? = some a)
    (second : s.batches[bid]? = some b) (keyed : a.key = b.key)
    (states : a.state = b.state)
    (different : aid = bid → a.state ≠ .forming) :
    (s.mergeInto aid bid a b).FormingRegistry := by
  have closed : b.state ≠ .forming := by
    intro forming
    have registeredB := agrees.2 bid b second forming
    have registeredA := agrees.2 aid a first (states.trans forming)
    rw [keyed, registeredB] at registeredA
    exact different (Option.some.inj registeredA).symm (states.trans forming)
  have unregistered : s.formingByKey[b.key]? ≠ some bid := by
    intro registered
    obtain ⟨record, at_bid, _, forming⟩ := agrees.1 b.key bid registered
    rw [Option.mem_def, second] at at_bid
    cases at_bid
    exact closed forming
  apply agrees.of_same
  · unfold Impl.mergeInto
    dsimp only
    rw [if_neg unregistered]
  · intro other
    have closedA : a.state ≠ .forming := states ▸ closed
    unfold Impl.mergeInto
    dsimp only
    rw [bind_getElem?_modify]
    · rw [getElem?_insert]
      split
      · next same =>
          subst same
          rw [first]
          rfl
      · rfl
    · intro record at_bid
      apply formingKey_of_not _
        (by decide : BatchState.superseded ≠ .forming)
      rw [getElem?_insert] at at_bid
      split at at_bid
      · cases at_bid
        exact closedA
      · rw [second] at at_bid
        cases at_bid
        exact closed

theorem place {s : Impl} (agrees : s.FormingRegistry) {pick : RequestId}
    {r : RequestRec} (request : s.requests[pick]? = some r) (bid : BatchId)
    (key : CompatibilityKey) : (s.place bid key pick).FormingRegistry := by
  rw [place_eq request]
  apply agrees.of_same
  · rfl
  · exact formingKey_modify fun _ _ => by rfl

theorem retime {s : Impl} (agrees : s.FormingRegistry) (bid : BatchId)
    {change : BatchRec → BatchRec} (retimes : Retimes change) :
    FormingRegistry { s with batches := s.batches.modify bid change } := by
  apply agrees.of_same
  · rfl
  · apply formingKey_modify
    intro b _
    obtain ⟨allowed, formed, changed⟩ := retimes b
    rw [changed]
    rfl

theorem doCancel {s : Impl} (agrees : s.FormingRegistry)
    (policy : BatchPolicy) (id : RequestId) (now : TimePoint) :
    (s.doCancel policy id now).2.FormingRegistry := by
  obtain unchanged | ⟨r, _, _, ⟨_, outside⟩ |
      ⟨_, b, _, ⟨_, forming⟩ | ⟨_, later⟩⟩⟩ := doCancel_cases policy s id now
  · rw [unchanged]
    exact agrees
  · rw [outside]
    exact agrees
  · rw [forming]
    apply agrees.of_same
    · rfl
    · exact formingKey_modify fun _ _ => by rfl
  · rw [later]
    apply agrees.of_same
    · rfl
    · exact formingKey_modify fun _ _ => by rfl

theorem expireWaiting {s : Impl} (agrees : s.FormingRegistry)
    (now : TimePoint) (id : RequestId) :
    (expireWaiting now s id).FormingRegistry := by
  obtain unchanged | ⟨r, _, ⟨_, removed⟩ | ⟨_, stats, ended⟩⟩ :=
    expireWaiting_cases now s id
  · rw [unchanged]
    exact agrees
  · rw [removed]
    exact agrees
  · rw [ended]
    exact agrees

theorem tickRule (policy : BatchPolicy) (now : TimePoint) :
    TickRule policy now fun s => WellFormed s ∧ s.FormingRegistry where
  wellFormed _ held := held.1
  expire _ id held :=
    ⟨held.1.expireWaiting now id, held.2.expireWaiting now id⟩
  cancel _ id held :=
    ⟨held.1.doCancel policy id now, held.2.doCancel policy id now⟩
  openForming _ key held unregistered :=
    ⟨held.1.openForming key now, held.2.openForming held.1 unregistered now⟩
  place s bid key pick b r held placing :=
    ⟨(WellFormed.tickRule policy now).place s bid key pick b r held.1 placing,
      held.2.place placing.request bid key⟩
  retime _ bid _ held retimes :=
    ⟨held.1.retime bid retimes, held.2.retime bid retimes⟩
  close _ _ _ reason held found forming :=
    ⟨held.1.sealForming found forming reason now,
      held.2.sealForming found forming reason now⟩
  merge _ _ _ _ _ held merging :=
    ⟨held.1.mergeInto merging.first merging.second merging.keyed,
      held.2.mergeInto merging.first merging.second merging.keyed
        (merging.firstSealed.trans merging.secondSealed.symm)
        (fun same => absurd same merging.different)⟩

theorem of_frame {s s' : Impl} (agrees : s.FormingRegistry)
    (frame : OutcomeFrame s s') : s'.FormingRegistry := by
  apply agrees.of_same frame.registry
  intro bid
  have same := congrArg (fun found => Option.bind found formingKey)
    (frame.listings bid)
  simp only [Option.bind_map] at same
  exact same

/-- Dispatching and closing move batches that are no longer forming. -/
theorem advanceBatch {s s' : Impl} (agrees : s.FormingRegistry)
    {bid : BatchId} {b : BatchRec} {change : BatchRec → BatchRec}
    (found : s.batches[bid]? = some b) (before : b.state ≠ .forming)
    (after : (change b).state ≠ .forming)
    (batches : s'.batches = s.batches.modify bid change)
    (registry : s'.formingByKey = s.formingByKey) : s'.FormingRegistry := by
  apply agrees.of_same registry
  rw [batches]
  apply formingKey_modify
  intro record at_bid
  rw [found] at at_bid
  cases at_bid
  exact formingKey_of_not before after

theorem finishBatch {s : Impl} (agrees : s.FormingRegistry) {bid : BatchId}
    (closed : ∀ b, s.batches[bid]? = some b → b.state ≠ .forming)
    (worker : WorkerId) (now : TimePoint) :
    (s.finishBatch bid worker now).FormingRegistry := by
  obtain unchanged | ⟨b, stats, workers, found, ⟨_, ended⟩ | ⟨_, ended⟩⟩ :=
    finishBatch_cases s bid worker now
  · rw [unchanged]
    exact agrees
  · rw [ended]
    exact agrees.advanceBatch found (closed b found)
      (nofun : BatchState.completed ≠ .forming) rfl rfl
  · rw [ended]
    exact agrees.advanceBatch found (closed b found)
      (nofun : BatchState.partiallyCompleted ≠ .forming) rfl rfl

theorem recordRule (policy : BatchPolicy) (now : TimePoint) :
    RecordRule policy now (fun _ _ _ => true) FormingRegistry where
  count _ _ agrees := agrees
  conclude s r _ mc state fairness stats agrees _ _ :=
    agrees.of_frame (OutcomeFrame.conclude s r mc state now fairness stats)
  requeue s r _ mc state fairness stats agrees _ _ _ _ _ :=
    agrees.of_frame
      ((OutcomeFrame.conclude s r mc state now fairness stats).trans
        (OutcomeFrame.requeue _ mc.request r _))
  dispatch _ _ _ _ _ agrees found isSealed :=
    agrees.advanceBatch found (by rw [isSealed]; exact nofun)
      (nofun : BatchState.dispatched ≠ .forming) rfl rfl
  running _ _ _ agrees found dispatched :=
    agrees.advanceBatch found (by rw [dispatched]; exact nofun)
      (nofun : BatchState.running ≠ .forming) rfl rfl
  finish _ _ b worker agrees found inFlight := by
    apply agrees.finishBatch _ worker now
    intro before at_bid forming
    rw [found] at at_bid
    cases at_bid
    rw [forming] at inFlight
    rcases inFlight with state | state <;> cases state

end FormingRegistry

/-- A split takes only sealed batches apart, and no forming batch is merged
with itself. -/
def keepsRegistry (policy : BatchPolicy) (s : Impl) : Op → Bool
  | .split batch =>
      match s.batches[batch]? with
      | none => true
      | some b => !splittable b || b.state == .sealed
  | .merge a b =>
      match s.batches[a]? with
      | none => true
      | some r => a != b || !canMerge policy r r || r.state != .forming
  | _ => true

theorem FormingRegistry.stepRule (policy : BatchPolicy) :
    StepRule policy (fun s op => keepsRegistry policy s op = true)
      (fun _ _ _ => true) FormingRegistry where
  ticks now := tickRule policy now
  reports now := (recordRule policy now).reports.formed
  complete s comp now _ _ _ := allowsReport_always policy s comp now
  dispatchAndRun s bid executor now _ _ _ :=
    allowsRun_always policy s bid executor now
  submit s metadata now _ agrees _ := by
    obtain ⟨stats, taken⟩ | ⟨_, ⟨_, _, _, _, taken⟩ | ⟨_, _, taken⟩⟩ :=
      doSubmit_cases policy s metadata now
    · rw [taken]
      exact agrees
    · rw [taken]
      exact agrees
    · rw [taken]
      exact agrees
  splitSealed _ _ _ wellFormed agrees found isSealed _ :=
    agrees.splitSealed wellFormed found isSealed
  splitOpen _ _ _ _ _ guarded found unsealed possible := by
    simp [keepsRegistry, found, possible, unsealed] at guarded
  mergeInto s aid bid a b _ agrees guarded foundA foundB possible := by
    obtain ⟨keyed, _, states, _⟩ := canMerge_cases possible
    apply agrees.mergeInto foundA foundB keyed states
    rintro rfl
    rw [foundA] at foundB
    cases foundB
    simpa [keepsRegistry, foundA, possible] using guarded
  requeue _ _ _ _ _ _ agrees _ _ _ := agrees
  registerWorker _ _ _ _ agrees := agrees
  rollEpoch _ agrees := agrees

/-- The registry of forming batches is exact in every run that splits only
sealed batches and merges no forming batch with itself. -/
theorem formingRegistry_of_run (policy : BatchPolicy) (ops : List Op)
    (guarded : Transition.Along (BatchFabric.step policy)
      (fun s op => keepsRegistry policy s op = true) fresh ops) :
    (run policy ops).FormingRegistry :=
  (FormingRegistry.stepRule policy).of_run FormingRegistry.fresh ops guarded

/-- Two requests wait in a forming batch. It is sealed, then split. -/
theorem formingRegistry_of_splitting_sealed :
    (run { constraints.minimumPreferredBatch := 3 }
      [.submit minimalRequest 0, .submit minimalRequest 0, .tick [] 1,
        .sealBatch { value := 1 } .policyDerived 2,
        .split { value := 1 }]).FormingRegistry :=
  formingRegistry_of_run _ _ (by
    rw [step_eq_stepKnown .minimal]
    decide +kernel)

/-- A forming batch that is split leaves two forming batches of one key. -/
theorem not_formingRegistry_of_splitting_forming :
    ¬ (run { constraints.minimumPreferredBatch := 3 }
      [.submit minimalRequest 0, .submit minimalRequest 0, .tick [] 1,
        .split { value := 1 }]).FormingRegistry := by
  rw [run_eq_runKnown .minimal]
  decide +kernel

end Impl

end BatchFabric
