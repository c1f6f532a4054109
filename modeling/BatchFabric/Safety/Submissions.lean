import BatchFabric.Safety.Reachable

namespace BatchFabric

open OrderedMap

/-! Where requests come from. Only a submission creates one, and what it was
submitted with never changes. -/

namespace Impl

/-- The tables hold the same requests, in states that may differ. -/
def SameFixed (requests requests' : Map RequestId RequestRec) : Prop :=
  ∀ id : RequestId, (requests'[id]?).map RequestRec.fixed =
    (requests[id]?).map RequestRec.fixed

def SameSubmission (r r' : RequestRec) : Prop :=
  r'.metadata = r.metadata ∧ r'.submitted = r.submitted

theorem SameSubmission.refl (r : RequestRec) : SameSubmission r r :=
  ⟨rfl, rfl⟩

theorem SameSubmission.trans {first second third : RequestRec}
    (earlier : SameSubmission first second)
    (later : SameSubmission second third) : SameSubmission first third :=
  ⟨later.1.trans earlier.1, later.2.trans earlier.2⟩

namespace SameFixed

variable {requests requests' requests'' : Map RequestId RequestRec}

theorem refl (requests : Map RequestId RequestRec) :
    SameFixed requests requests :=
  fun _ => rfl

theorem trans (first : SameFixed requests requests')
    (second : SameFixed requests' requests'') :
    SameFixed requests requests'' :=
  fun id => (second id).trans (first id)

theorem found (fixed : SameFixed requests requests') (id : RequestId) :
    (requests[id]? = none ∧ requests'[id]? = none) ∨
      ∃ r r', requests[id]? = some r ∧ requests'[id]? = some r' ∧
        r'.metadata = r.metadata ∧ r'.submitted = r.submitted := by
  have same := fixed id
  cases found : requests[id]? with
  | none =>
      rw [found, Option.map_none, Option.map_eq_none_iff] at same
      exact .inl ⟨rfl, same⟩
  | some r =>
      rw [found] at same
      obtain ⟨r', found', equal⟩ := Option.map_eq_some_iff.mp same
      refine .inr ⟨r, r', rfl, found', ?_, ?_⟩
      · exact congrArg (fun fixed => fixed.2.1) equal
      · exact congrArg (fun fixed => fixed.2.2.1) equal

/-- A request found afterwards was there before. -/
theorem found_before (fixed : SameFixed requests requests') {id : RequestId}
    {r' : RequestRec} (found' : requests'[id]? = some r') :
    ∃ r, requests[id]? = some r ∧ r'.metadata = r.metadata ∧
      r'.submitted = r.submitted := by
  rcases fixed.found id with ⟨_, missing⟩ | ⟨r, _, found, at_id, same⟩
  · rw [found'] at missing
    cases missing
  · rw [found'] at at_id
    cases at_id
    exact ⟨r, found, same⟩

/-- The requests known before are still there, as they were submitted. -/
theorem evolves (fixed : SameFixed requests requests') :
    Evolves SameSubmission requests requests' :=
  Evolves.of_view fixed fun _ _ same =>
    ⟨congrArg (fun fixed => fixed.2.1) same,
      congrArg (fun fixed => fixed.2.2.1) same⟩

section Updates

variable (policy : BatchPolicy) (s : Impl) (now : TimePoint)

theorem doCancel (id : RequestId) :
    SameFixed s.requests (s.doCancel policy id now).2.requests := by
  obtain unchanged | ⟨r, _, _, ⟨_, outside⟩ |
      ⟨_, b, _, ⟨_, forming⟩ | ⟨_, later⟩⟩⟩ := doCancel_cases policy s id now
  · rw [unchanged]
    exact refl _
  · rw [outside]
    exact (InPlace.cancelOutside s id r now).requests
  · rw [forming]
    exact (InPlace.cancelForming policy s id r now).requests
  · rw [later]
    exact (InPlace.cancelAfterSeal s id r now).requests

theorem expireWaiting (id : RequestId) :
    SameFixed s.requests (expireWaiting now s id).requests := by
  obtain unchanged | ⟨r, _, ⟨_, removed⟩ | ⟨_, stats, ended⟩⟩ :=
    expireWaiting_cases now s id
  · rw [unchanged]
    exact refl _
  · rw [removed]
    exact refl _
  · rw [ended]
    exact map_getElem?_modify (fun _ => by rfl) s.requests id

theorem sealForming (bid : BatchId) (b : BatchRec) (reason : SealReason) :
    SameFixed s.requests (s.sealForming bid b reason now).requests :=
  map_getElem?_modifyAll (fixed_advance .reserved .batched) s.requests
    b.members

theorem mergeInto (aid bid : BatchId) (a b : BatchRec) :
    SameFixed s.requests (s.mergeInto aid bid a b).requests :=
  map_getElem?_modifyAll (fun _ => by rfl) s.requests b.members

theorem requeue (id : RequestId) (r : RequestRec) (number : UInt32) :
    SameFixed s.requests (s.requeue id r number).requests :=
  map_getElem?_modify (fun _ => by rfl) s.requests id

theorem retryQueued (id : RequestId) :
    SameFixed s.requests (s.retryQueued policy id now).2.requests := by
  obtain ⟨err, refused⟩ | ⟨r, _, _, _, queued⟩ :=
    retryQueued_cases policy s id now
  · rw [refused]
    exact refl _
  · rw [queued]
    exact requeue s id r _

theorem tickRule : TickRule policy now fun s' =>
    WellFormed s' ∧ SameFixed s.requests s'.requests where
  wellFormed _ held := held.1
  expire s' id held :=
    ⟨held.1.expireWaiting now id, held.2.trans (expireWaiting s' now id)⟩
  cancel s' id held :=
    ⟨held.1.doCancel policy id now, held.2.trans (doCancel policy s' now id)⟩
  openForming _ key held _ := ⟨held.1.openForming key now, held.2⟩
  place s' bid key pick b r held placing := by
    refine ⟨(WellFormed.tickRule policy now).place s' bid key pick b r held.1
      placing, held.2.trans ?_⟩
    rw [place_eq placing.request]
    exact map_getElem?_modify (fun _ => by rfl) s'.requests pick
  retime _ bid _ held retimes := ⟨held.1.retime bid retimes, held.2⟩
  close s' bid b reason held found forming :=
    ⟨held.1.sealForming found forming reason now,
      held.2.trans (sealForming s' now bid b reason)⟩
  merge s' aid bid a b held merging :=
    ⟨held.1.mergeInto merging.first merging.second merging.keyed,
      held.2.trans (mergeInto s' aid bid a b)⟩

theorem recordRule : RecordRule policy now (fun _ _ _ => true) fun s' =>
    SameFixed s.requests s'.requests where
  count _ _ fixed := fixed
  conclude s' r _ mc state fairness stats fixed _ _ :=
    fixed.trans (InPlace.conclude s' r mc state now fairness stats).requests
  requeue s' r _ mc state fairness stats fixed _ _ _ _ _ :=
    (fixed.trans
      (InPlace.conclude s' r mc state now fairness stats).requests).trans
      (requeue _ mc.request r _)
  dispatch _ _ _ worker boot fixed found isSealed :=
    fixed.trans (InPlace.markDispatched found isSealed worker boot now).requests
  running _ _ _ fixed found dispatched :=
    fixed.trans (InPlace.markRunning found dispatched).requests
  finish _ _ _ worker fixed found inFlight :=
    fixed.trans (InPlace.finishBatch found inFlight worker now).requests

theorem doTick {s : Impl} (wellFormed : WellFormed s)
    (order : List CompatibilityKey) :
    SameFixed s.requests (s.doTick policy order now).requests :=
  ((tickRule policy s now).doTick
    (fun s' bid b held found _ _ => ⟨held.1.splitSealed found,
      held.2.trans (fixed_splitRequests s' bid { value := s'.nextBatch } b)⟩)
    ⟨wellFormed, refl _⟩ order).2

end Updates

/-- Every operation but a submission keeps the requests. -/
theorem step {policy : BatchPolicy} {s : Impl} (wellFormed : WellFormed s)
    {op : Op} (submits : ∀ metadata now, op ≠ .submit metadata now) :
    SameFixed s.requests (step policy s op).requests := by
  cases op with
  | submit metadata now => exact absurd rfl (submits metadata now)
  | cancel request now => exact doCancel policy s now request
  | complete completion now =>
      exact (recordRule policy s now).reports.doComplete (refl _)
        (allowsReport_always policy s completion now)
  | sealBatch batch reason now =>
      show SameFixed _ (s.sealBatch batch reason now).2.requests
      obtain unchanged | ⟨b, _, _, closed⟩ :=
        sealBatch_cases s batch reason now
      · rw [unchanged]
        exact refl _
      · rw [closed]
        exact sealForming s now batch b reason
  | split batch =>
      show SameFixed _ (s.doSplit batch).2.requests
      obtain unchanged | ⟨b, _, _, ⟨_, taken⟩ | ⟨_, taken⟩⟩ :=
        doSplit_cases s batch
      · rw [unchanged]
        exact refl _
      · rw [taken]
        exact fixed_splitRequests s batch { value := s.nextBatch } b
      · rw [taken]
        exact fixed_splitRequests s batch { value := s.nextBatch } b
  | merge a b =>
      show SameFixed _ (s.doMerge policy a b).2.requests
      obtain unchanged | ⟨first, second, _, _, _, merged⟩ :=
        doMerge_cases policy s a b
      · rw [unchanged]
        exact refl _
      · rw [merged]
        exact mergeInto s a b first second
  | retry request order now =>
      exact (kept_doRetry
        (fun s' => WellFormed s' ∧ SameFixed s.requests s'.requests)
        ⟨wellFormed.retryQueued policy request now,
          retryQueued policy s now request⟩
        fun _ held => ⟨held.1.doTick policy order now,
          held.2.trans (doTick policy now held.1 order)⟩).2
  | tick order now => exact doTick policy now wellFormed order
  | expire order now =>
      exact ((tickRule policy s now).expireLocked ⟨wellFormed, refl _⟩ order).2
  | dispatchAndRun batch executor now =>
      exact (recordRule policy s now).reports.doDispatchAndRun (refl _)
        (allowsRun_always policy s batch executor now)
  | prepareDispatch batch worker boot now =>
      exact (recordRule policy s now).reports.prepareDispatch (refl _) batch
        worker boot
  | registerWorker worker boot cap => exact refl _
  | rollEpoch => exact refl _

end SameFixed

/-- A submission adds at most one request, submitted as it says. -/
theorem found_doSubmit {policy : BatchPolicy} {s : Impl}
    {metadata : RequestMetadata} {now : TimePoint} {id : RequestId}
    {r' : RequestRec}
    (found' : (s.doSubmit policy metadata now).2.requests[id]? = some r') :
    s.requests[id]? = some r' ∨
      (id = { value := s.nextRequest } ∧ r'.metadata = metadata ∧
        r'.submitted = now) := by
  obtain ⟨stats, taken⟩ | ⟨_, ⟨_, _, _, _, taken⟩ | ⟨_, _, taken⟩⟩ :=
    doSubmit_cases policy s metadata now
  · rw [taken] at found'
    exact .inl found'
  · rw [taken] at found'
    unfold createRequest at found'
    dsimp only at found'
    rw [getElem?_insert] at found'
    split at found'
    · next same =>
        cases found'
        exact .inr ⟨same.symm, rfl, rfl⟩
    · exact .inl found'
  · rw [taken] at found'
    unfold admitted createRequest at found'
    dsimp only at found'
    rw [getElem?_insert] at found'
    split at found'
    · next same =>
        cases found'
        exact .inr ⟨same.symm, rfl, rfl⟩
    · exact .inl found'

theorem evolves_doSubmit {policy : BatchPolicy} {s : Impl}
    (wellFormed : WellFormed s) (metadata : RequestMetadata)
    (now : TimePoint) :
    Evolves SameSubmission s.requests
      (s.doSubmit policy metadata now).2.requests := by
  have absent := wellFormed.no_request
  obtain ⟨stats, taken⟩ | ⟨_, ⟨_, _, _, _, taken⟩ | ⟨_, _, taken⟩⟩ :=
    doSubmit_cases policy s metadata now
  · rw [taken]
    exact .refl SameSubmission.refl s.requests
  · rw [taken]
    exact .insert_absent SameSubmission.refl absent _
  · rw [taken]
    exact .insert_absent SameSubmission.refl absent _

/-- Every request of a run was submitted in it, as its record says. -/
theorem submitted_of_run (policy : BatchPolicy) (ops : List Op) :
    Everywhere (run policy ops).requests fun _ r =>
      Op.submit r.metadata r.submitted ∈ ops := by
  have kept : ∀ (s : Impl) (op : Op), op ∈ ops →
      (WellFormed s ∧ Everywhere s.requests fun _ r =>
        Op.submit r.metadata r.submitted ∈ ops) →
      WellFormed (step policy s op) ∧
        Everywhere (step policy s op).requests fun _ r =>
          Op.submit r.metadata r.submitted ∈ ops := by
    rintro s op member ⟨wellFormed, submitted⟩
    refine ⟨wellFormed.step op, ?_⟩
    intro id r' found'
    by_cases submits : ∃ metadata now, op = .submit metadata now
    · obtain ⟨metadata, now, rfl⟩ := submits
      rcases found_doSubmit found' with found | ⟨_, rfl, rfl⟩
      · exact submitted id r' found
      · exact member
    · have fixed : SameFixed s.requests (step policy s op).requests :=
        SameFixed.step wellFormed
          fun metadata now same => submits ⟨metadata, now, same⟩
      obtain ⟨r, found, metadata, time⟩ := fixed.found_before found'
      rw [metadata, time]
      exact submitted id r found
  have both : WellFormed (run policy ops) ∧ _ :=
    Transition.run_invariant (fun s => WellFormed s ∧
        Everywhere s.requests fun _ r =>
          Op.submit r.metadata r.submitted ∈ ops)
      kept ⟨WellFormed.fresh, everywhere_empty⟩
  exact both.2

end Impl

end BatchFabric
