import BatchFabric.Safety.FillOrder
import BatchFabric.Safety.StepRule
import BatchFabric.Safety.TickPasses

namespace BatchFabric.Impl

open OrderedMap

/-! All placements of a run of the fabric, one after another. Between two of
them nobody is served. -/

/-- A placement: the state the filling loop makes it in, the candidates it has
left there, and the one it places. -/
structure Placement where
  state : Impl
  batch : BatchId
  key : CompatibilityKey
  candidates : List RequestId
  now : TimePoint
  pick : RequestId

def Placement.after (p : Placement) : Impl :=
  p.state.place p.batch p.key p.pick

def loopPlacements (policy : BatchPolicy) (bid : BatchId)
    (key : CompatibilityKey) (now : TimePoint) :
    Nat → Impl → List RequestId → List Placement
  | 0, _, _ => []
  | fuel + 1, s, cands =>
      match s.fillPick policy bid cands now with
      | none => []
      | some pick =>
          { state := s
            batch := bid
            key := key
            candidates := cands
            now := now
            pick := pick } ::
              loopPlacements policy bid key now fuel (s.place bid key pick)
                (cands.filter (· ≠ pick))

/-- The placements of one run of `fillForming`. -/
def fillPlacements (policy : BatchPolicy) (s : Impl) (bid : BatchId)
    (key : CompatibilityKey) (now : TimePoint) : List Placement :=
  match s.batches[bid]?, s.waitingIndex[key]? with
  | some _, some bucket =>
      loopPlacements policy bid key now bucket.length s bucket
  | _, _ => []

def formMissingPlacements (policy : BatchPolicy) (now : TimePoint) (s : Impl)
    (key : CompatibilityKey) : List Placement :=
  if s.formingByKey.contains key then []
  else
    (s.openForming key now).fillPlacements policy { value := s.nextBatch } key
      now

def refillPlacements (policy : BatchPolicy) (now : TimePoint) (s : Impl)
    (bid : BatchId) : List Placement :=
  match s.batches[bid]? with
  | none => []
  | some b => s.fillPlacements policy bid b.key now

/-- The placements of a tick: in the batches it opens, then in every batch that
is registered. -/
def tickPlacements (policy : BatchPolicy) (s : Impl)
    (order : List CompatibilityKey) (now : TimePoint) : List Placement :=
  Transition.outputs (formMissing policy now) (formMissingPlacements policy now)
      (s.expireLocked policy order now)
      (((s.expireLocked policy order now).waitingIndex.enumerate order).map
        (·.1)) ++
    Transition.outputs (refill policy now) (refillPlacements policy now)
      (s.formedState policy order now) (s.considered policy order now)

/-- The placements of an operation. Only a tick makes any, and a retry by the
tick it ends with. -/
def opPlacements (policy : BatchPolicy) (s : Impl) : Op → List Placement
  | .tick order now => s.tickPlacements policy order now
  | .retry request order now =>
      match s.retryQueued policy request now with
      | (.error _, _) => []
      | (.ok _, s) => s.tickPlacements policy order now
  | _ => []

/-- All placements of a run, in order. -/
def runPlacements (policy : BatchPolicy) (ops : List Op) : List Placement :=
  Transition.outputs (step policy) (opPlacements policy) fresh ops

/-- Placements that the filling loop chooses, each with what was served as the
one before leaves it. -/
def Consecutive (policy : BatchPolicy) :
    Map TenantId UInt64 → List Placement → Map TenantId UInt64 → Prop
  | start, [], finish => finish = start
  | start, p :: rest, finish =>
      (p.state.fairness.served = start ∧
        p.state.fillPick policy p.batch p.candidates p.now = some p.pick) ∧
      Consecutive policy p.after.fairness.served rest finish

theorem consecutive_append_iff {policy : BatchPolicy}
    {start finish : Map TenantId UInt64} {first second : List Placement} :
    Consecutive policy start (first ++ second) finish ↔
      ∃ middle, Consecutive policy start first middle ∧
        Consecutive policy middle second finish := by
  induction first generalizing start with
  | nil =>
      constructor
      · exact fun whole => ⟨start, rfl, whole⟩
      · rintro ⟨middle, rfl, rest⟩
        exact rest
  | cons p first induction =>
      rw [List.cons_append]
      constructor
      · rintro ⟨made, rest⟩
        obtain ⟨middle, inner, outer⟩ := induction.mp rest
        exact ⟨middle, ⟨made, inner⟩, outer⟩
      · rintro ⟨middle, ⟨made, inner⟩, outer⟩
        exact ⟨made, induction.mpr ⟨middle, inner, outer⟩⟩

/-- What a part of the fabric's work serves, it serves by these placements. -/
structure ServesBy (policy : BatchPolicy) (s : Impl)
    (placed : List Placement) (s' : Impl) : Prop where
  consecutive : Consecutive policy s.fairness.served placed s'.fairness.served

namespace ServesBy

variable {policy : BatchPolicy} {now : TimePoint} {s s' s'' : Impl}
  {placed placed' : List Placement}

theorem refl (s : Impl) : ServesBy policy s [] s :=
  ⟨rfl⟩

/-- Nobody is served. -/
theorem none (served : s'.fairness.served = s.fairness.served) :
    ServesBy policy s [] s' :=
  ⟨served⟩

theorem trans (earlier : ServesBy policy s placed s')
    (later : ServesBy policy s' placed' s'') :
    ServesBy policy s (placed ++ placed') s'' :=
  ⟨consecutive_append_iff.mpr ⟨_, earlier.consecutive, later.consecutive⟩⟩

/-- Whatever serves nobody may come before. -/
theorem of_before (served : s'.fairness.served = s.fairness.served)
    (later : ServesBy policy s' placed s'') :
    ServesBy policy s placed s'' :=
  ⟨served ▸ later.consecutive⟩

/-- Or after. -/
theorem of_after (earlier : ServesBy policy s placed s')
    (served : s''.fairness.served = s'.fairness.served) :
    ServesBy policy s placed s'' :=
  ⟨served ▸ earlier.consecutive⟩

theorem outputs {ι : Type} {step : Impl → ι → Impl}
    {emit : Impl → ι → List Placement}
    (each : ∀ s input, ServesBy policy s (emit s input) (step s input))
    (s : Impl) (inputs : List ι) :
    ServesBy policy s (Transition.outputs step emit s inputs)
      (Transition.run step s inputs) :=
  Transition.outputs_related (ServesBy policy) refl trans each s inputs

/-! Filling. -/

theorem fillLoop (bid : BatchId) (key : CompatibilityKey) (fuel : Nat)
    (s : Impl) (cands : List RequestId) :
    ServesBy policy s (loopPlacements policy bid key now fuel s cands)
      (Impl.fillLoop policy bid key now fuel s cands) := by
  induction fuel generalizing s cands with
  | zero => exact refl s
  | succ fuel induction =>
      unfold loopPlacements Impl.fillLoop
      cases picked : s.fillPick policy bid cands now with
      | none => exact refl s
      | some pick =>
          exact ⟨⟨rfl, picked⟩,
            (induction (s.place bid key pick) _).consecutive⟩

theorem fillForming (s : Impl) (bid : BatchId) (key : CompatibilityKey) :
    ServesBy policy s (s.fillPlacements policy bid key now)
      (s.fillForming policy bid key now) := by
  unfold fillPlacements Impl.fillForming
  cases s.batches[bid]? with
  | none => exact refl s
  | some b =>
      cases s.waitingIndex[key]? with
      | none => exact refl s
      | some bucket => exact fillLoop bid key _ s bucket

theorem formMissing (s : Impl) (key : CompatibilityKey) :
    ServesBy policy s (formMissingPlacements policy now s key)
      (Impl.formMissing policy now s key) := by
  unfold formMissingPlacements Impl.formMissing
  split
  · exact refl s
  · have filled : ServesBy policy (s.openForming key now)
        ((s.openForming key now).fillPlacements policy
          { value := s.nextBatch } key now)
        ((s.openForming key now).fillForming policy { value := s.nextBatch }
          key now) :=
      fillForming (s.openForming key now) { value := s.nextBatch } key
    exact ⟨filled.consecutive⟩

theorem refill (s : Impl) (bid : BatchId) :
    ServesBy policy s (refillPlacements policy now s bid)
      (Impl.refill policy now s bid) := by
  unfold refillPlacements Impl.refill
  cases s.batches[bid]? with
  | none => exact refl s
  | some b => exact (fillForming s bid b.key).of_after rfl

end ServesBy

/-! Nothing else serves anybody. -/

section Frame

variable {policy : BatchPolicy} {now : TimePoint}

theorem served_doCancel (policy : BatchPolicy) (s : Impl) (id : RequestId)
    (now : TimePoint) :
    (s.doCancel policy id now).2.fairness.served = s.fairness.served := by
  obtain unchanged | ⟨r, _, _, ⟨_, outside⟩ |
      ⟨_, b, _, ⟨_, forming⟩ | ⟨_, later⟩⟩⟩ := doCancel_cases policy s id now
  · rw [unchanged]
  · rw [outside]
    rfl
  · rw [forming]
    rfl
  · rw [later]
    rfl

theorem served_expireWaiting (s : Impl) (id : RequestId) :
    (expireWaiting now s id).fairness.served = s.fairness.served := by
  obtain unchanged | ⟨r, _, ⟨_, removed⟩ | ⟨_, stats, ended⟩⟩ :=
    expireWaiting_cases now s id
  · rw [unchanged]
  · rw [removed]
  · rw [ended]

theorem served_expireLocked (s : Impl) (order : List CompatibilityKey) :
    (s.expireLocked policy order now).fairness.served =
      s.fairness.served := by
  apply kept_expireLocked (fun s' : Impl =>
    s'.fairness.served = s.fairness.served)
  · exact fun s' id same => (served_expireWaiting s' id).trans same
  · exact fun s' id same => (served_doCancel policy s' id now).trans same
  · rfl

theorem served_doMerge (s : Impl) (aid bid : BatchId) :
    (s.doMerge policy aid bid).2.fairness.served = s.fairness.served := by
  obtain unchanged | ⟨_, _, _, _, _, merged⟩ := doMerge_cases policy s aid bid
  · rw [unchanged]
  · rw [merged]
    rfl

theorem served_doSplit (s : Impl) (bid : BatchId) :
    (s.doSplit bid).2.fairness.served = s.fairness.served := by
  obtain unchanged | ⟨b, _, _, ⟨_, taken⟩ | ⟨_, taken⟩⟩ := doSplit_cases s bid
  · rw [unchanged]
  · rw [taken]
    rfl
  · rw [taken]
    rfl

theorem served_sealPass (s : Impl) :
    (s.sealPass policy now).fairness.served =
      (s.refillAll policy now
        (s.formingByKey.toList.map (·.2))).fairness.served := by
  unfold sealPass
  dsimp only
  rw [decidePass_fst]
  apply Transition.run_invariant (fun s' : Impl => s'.fairness.served =
    (s.refillAll policy now
      (s.formingByKey.toList.map (·.2))).fairness.served)
  · intro s' bid _ same
    refine Eq.trans ?_ same
    unfold sealDecided
    split
    · rfl
    · obtain unchanged | ⟨b, _, _, closed⟩ :=
        doSeal_cases s' bid (s'.sealedReasonFor bid) now
      · rw [unchanged]
      · rw [closed]
        rfl
  · rfl

theorem served_mergePass (s : Impl) :
    (s.mergePass policy).fairness.served = s.fairness.served := by
  unfold mergePass
  split
  · apply Transition.run_invariant (fun s' : Impl =>
      s'.fairness.served = s.fairness.served)
    · intro s' pair _ same
      refine Eq.trans ?_ same
      unfold mergeNeighbours
      split
      · exact served_doMerge s' pair.1 pair.2
      · rfl
    · rfl
  · rfl

theorem served_sizePass (s : Impl) :
    s.sizePass.fairness.served = s.fairness.served := by
  apply Transition.run_invariant (fun s' : Impl =>
    s'.fairness.served = s.fairness.served)
  · intro s' i _ same
    refine Eq.trans ?_ same
    unfold splitOversized
    split
    · rfl
    · exact served_doSplit s' _
  · rfl

theorem served_finishBatch (s : Impl) (bid : BatchId) (worker : WorkerId) :
    (s.finishBatch bid worker now).fairness.served = s.fairness.served := by
  obtain unchanged | ⟨b, stats, workers, _, ⟨_, ended⟩ | ⟨_, partly⟩⟩ :=
    finishBatch_cases s bid worker now
  · rw [unchanged]
  · rw [ended]
  · rw [partly]

theorem served_applyMemberOutcome (s : Impl) (mc : MemberCompletion) :
    (s.applyMemberOutcome policy now mc).fairness.served =
      s.fairness.served := by
  unfold applyMemberOutcome
  split
  · rfl
  · split
    · rfl
    · split
      · unfold applySuccess
        dsimp only
        split <;> rfl
      · unfold applyRetryable
        dsimp only
        split <;> rfl
      all_goals rfl

theorem servedRule (s : Impl) : ReportRule policy now (fun _ _ _ => true)
    fun s' => s'.fairness.served = s.fairness.served where
  count _ _ same := same
  outcome s' mc same _ := (served_applyMemberOutcome s' mc).trans same
  dispatch _ _ _ _ _ same _ _ := same
  running _ _ _ same _ _ := same
  finish s' bid _ worker same _ _ :=
    (served_finishBatch s' bid worker).trans same

end Frame

namespace ServesBy

variable {policy : BatchPolicy}

theorem doTick (s : Impl) (order : List CompatibilityKey) (now : TimePoint) :
    ServesBy policy s (s.tickPlacements policy order now)
      (s.doTick policy order now) := by
  have forms : ServesBy policy (s.expireLocked policy order now)
      (Transition.outputs (Impl.formMissing policy now)
        (formMissingPlacements policy now) (s.expireLocked policy order now)
        (((s.expireLocked policy order now).waitingIndex.enumerate order).map
          (·.1)))
      (s.formedState policy order now) :=
    outputs formMissing (s.expireLocked policy order now) _
  have fills : ServesBy policy (s.formedState policy order now)
      (Transition.outputs (Impl.refill policy now)
        (refillPlacements policy now) (s.formedState policy order now)
          (s.considered policy order now))
      ((s.formedState policy order now).refillAll policy now
        (s.considered policy order now)) :=
    outputs refill (s.formedState policy order now) _
  have after : (s.doTick policy order now).fairness.served =
      ((s.formedState policy order now).refillAll policy now
        (s.considered policy order now)).fairness.served := by
    unfold Impl.doTick Impl.tickUntilSizePass
    dsimp only
    rw [served_sizePass, served_mergePass, served_sealPass]
    unfold formedState considered formedState
    rfl
  have filled := forms.trans fills
  have whole := filled.of_before (served_expireLocked s order)
  exact whole.of_after after

theorem step (s : Impl) (op : Op) :
    ServesBy policy s (s.opPlacements policy op)
      (BatchFabric.step policy s op) := by
  cases op with
  | submit metadata now =>
      apply none
      show (s.doSubmit policy metadata now).2.fairness.served = _
      unfold Impl.doSubmit
      dsimp only
      split
      · rfl
      · split
        · rfl
        · split
          · rfl
          · split <;> rfl
  | cancel request now => exact none (served_doCancel policy s request now)
  | complete completion now =>
      exact none ((servedRule s).doComplete rfl
        (allowsReport_always policy s completion now))
  | sealBatch batch reason now =>
      apply none
      show (s.sealBatch batch reason now).2.fairness.served = _
      obtain unchanged | ⟨b, _, _, closed⟩ := sealBatch_cases s batch reason now
      · rw [unchanged]
      · rw [closed]
        rfl
  | split batch => exact none (served_doSplit s batch)
  | merge a b => exact none (served_doMerge s a b)
  | retry request order now =>
      show ServesBy policy s (match s.retryQueued policy request now with
        | (.error _, _) => []
        | (.ok _, s) => s.tickPlacements policy order now)
          (s.doRetry policy request order now).2
      unfold Impl.doRetry
      obtain ⟨err, refused⟩ | ⟨r, _, _, _, queued⟩ :=
        retryQueued_cases policy s request now
      · rw [refused]
        exact refl s
      · rw [queued]
        have ticked : ServesBy policy
            (s.requeue request r (s.attemptNumber r + 1))
            ((s.requeue request r (s.attemptNumber r + 1)).tickPlacements
              policy order now)
            ((s.requeue request r (s.attemptNumber r + 1)).doTick policy order
              now) :=
          doTick _ order now
        have same : (s.requeue request r
            (s.attemptNumber r + 1)).fairness.served = s.fairness.served := rfl
        exact ticked.of_before same
  | tick order now => exact doTick s order now
  | expire order now => exact none (served_expireLocked s order)
  | dispatchAndRun batch executor now =>
      exact none ((servedRule s).doDispatchAndRun rfl
        (allowsRun_always policy s batch executor now))
  | prepareDispatch batch worker boot now =>
      have rule : ReportRule policy now (fun _ _ _ => true) fun s' =>
          s'.fairness.served = s.fairness.served := servedRule s
      exact none (rule.prepareDispatch rfl batch worker boot)
  | registerWorker worker boot cap => exact none rfl
  | rollEpoch => exact none rfl

/-- Whatever a run has served, it has served by its placements. -/
theorem run (ops : List Op) :
    ServesBy policy fresh (runPlacements policy ops) (run policy ops) :=
  outputs step fresh ops

end ServesBy

end BatchFabric.Impl
