import BatchFabric.Safety.StepRule

namespace BatchFabric.Impl

open OrderedMap

/-! What records are filed under: attempts under their own ids, totals under
tenants that have submitted. -/

structure Filed (fits : TenantId → Prop) (s : Impl) : Prop where
  attempts : Everywhere s.attempts fun aid a => a.id = aid
  tenants : Everywhere s.requests fun _ r => fits r.metadata.tenant
  served : Everywhere s.fairness.served fun t _ => fits t

namespace Filed

variable {fits : TenantId → Prop} {s s' : Impl}

theorem fresh : Filed fits fresh :=
  ⟨everywhere_empty, everywhere_empty, everywhere_empty⟩

theorem of_tables (filed : Filed fits s) (attempts : s'.attempts = s.attempts)
    (requests : s'.requests = s.requests)
    (served : s'.fairness.served = s.fairness.served) : Filed fits s' := by
  refine ⟨?_, ?_, ?_⟩
  · rw [attempts]
    exact filed.attempts
  · rw [requests]
    exact filed.tenants
  · rw [served]
    exact filed.served

theorem createRequest (filed : Filed fits s) {metadata : RequestMetadata}
    (known : fits metadata.tenant) (now : TimePoint)
    (state attemptState : RequestState) (outcome : CompletionStatus)
    (inWaiting : Bool) :
    Filed fits
      (s.createRequest metadata now state attemptState outcome inWaiting) :=
  ⟨filed.attempts.insert rfl, filed.tenants.insert known, filed.served⟩

theorem doSubmit (filed : Filed fits s) (policy : BatchPolicy)
    {metadata : RequestMetadata} (known : fits metadata.tenant)
    (now : TimePoint) : Filed fits (s.doSubmit policy metadata now).2 := by
  unfold Impl.doSubmit
  dsimp only
  split
  · exact filed.of_tables rfl rfl rfl
  · split
    · exact (filed.createRequest known now _ _ _ _).of_tables rfl rfl rfl
    · split
      · exact (filed.createRequest known now _ _ _ _).of_tables rfl rfl rfl
      · split
        · exact (filed.createRequest known now _ _ _ _).of_tables rfl rfl rfl
        · exact (filed.createRequest known now _ _ _ _).of_tables rfl rfl rfl

theorem doCancel (filed : Filed fits s) (policy : BatchPolicy)
    (id : RequestId) (now : TimePoint) :
    Filed fits (s.doCancel policy id now).2 := by
  obtain unchanged | ⟨r, _, _, ⟨_, outside⟩ |
      ⟨_, b, _, ⟨_, forming⟩ | ⟨_, later⟩⟩⟩ := doCancel_cases policy s id now
  · rw [unchanged]
    exact filed
  · rw [outside]
    exact ⟨filed.attempts.modify fun _ _ named => named,
      filed.tenants.modify fun _ _ known => known, filed.served⟩
  · rw [forming]
    exact ⟨filed.attempts.modify fun _ _ named => named,
      filed.tenants.modify fun _ _ known => known, filed.served⟩
  · rw [later]
    exact ⟨filed.attempts.modify fun _ _ named => named,
      filed.tenants.modify fun _ _ known => known, filed.served⟩

theorem expireWaiting (filed : Filed fits s) (now : TimePoint)
    (id : RequestId) : Filed fits (expireWaiting now s id) := by
  obtain unchanged | ⟨r, _, ⟨_, removed⟩ | ⟨_, stats, ended⟩⟩ :=
    expireWaiting_cases now s id
  · rw [unchanged]
    exact filed
  · rw [removed]
    exact filed.of_tables rfl rfl rfl
  · rw [ended]
    exact ⟨filed.attempts.modify fun _ _ named => named,
      filed.tenants.modify fun _ _ known => known, filed.served⟩

theorem place (filed : Filed fits s) {pick : RequestId} {r : RequestRec}
    (found : s.requests[pick]? = some r) (bid : BatchId)
    (key : CompatibilityKey) : Filed fits (s.place bid key pick) := by
  rw [place_eq found]
  exact ⟨filed.attempts, filed.tenants.modify fun _ _ known => known,
    filed.served.insert (filed.tenants pick r found)⟩

/-- Updates of all members of a batch. -/
theorem of_members (filed : Filed fits s) {members : List RequestId}
    {change : RequestRec → RequestRec}
    (requests : s'.requests = modifyAll s.requests members change)
    (kept : ∀ r, (change r).metadata = r.metadata)
    (attempts : s'.attempts = s.attempts)
    (served : s'.fairness.served = s.fairness.served) : Filed fits s' := by
  refine ⟨?_, ?_, ?_⟩
  · rw [attempts]
    exact filed.attempts
  · rw [requests]
    apply filed.tenants.modifyAll
    intro id r known
    rw [kept]
    exact known
  · rw [served]
    exact filed.served

theorem metadata_advance (source target : RequestState) (r : RequestRec) :
    (r.advance source target).metadata = r.metadata := by
  unfold RequestRec.advance
  split <;> rfl

theorem of_split (filed : Filed fits s) (bid child : BatchId) (b : BatchRec)
    (requests : s'.requests = s.splitRequests bid child b)
    (attempts : s'.attempts = s.attempts)
    (served : s'.fairness.served = s.fairness.served) : Filed fits s' := by
  let moved := modifyAll s.requests (secondHalf b) (RequestRec.setBatch child)
  have second : Filed fits { s with requests := moved } :=
    filed.of_members rfl (fun _ => rfl) rfl rfl
  exact second.of_members requests (fun _ => rfl) attempts served

theorem requeue (filed : Filed fits s) (id : RequestId) (r : RequestRec)
    (number : UInt32) : Filed fits (s.requeue id r number) :=
  ⟨filed.attempts.insert rfl, filed.tenants.modify fun _ _ known => known,
    filed.served⟩

theorem conclude (filed : Filed fits s) (r : RequestRec)
    (mc : MemberCompletion) (state : RequestState) (now : TimePoint) :
    Filed fits (s.conclude r mc state now) where
  attempts := filed.attempts.modify fun a _ named => by
    have same : (a.conclude mc state now).id = a.id := by
      unfold AttemptRec.conclude
      split <;> rfl
    exact same.trans named
  tenants := filed.tenants.modify fun r _ known => by
    have same : (r.conclude mc state).metadata = r.metadata := by
      unfold RequestRec.conclude
      split <;> rfl
    rw [same]
    exact known
  served := filed.served

theorem applyMemberOutcome (filed : Filed fits s) (policy : BatchPolicy)
    (now : TimePoint) (mc : MemberCompletion) :
    Filed fits (s.applyMemberOutcome policy now mc) := by
  unfold Impl.applyMemberOutcome
  split
  · exact filed
  · next r _ =>
    split
    · exact filed
    · have concluded := fun state => filed.conclude r mc state now
      split
      · refine (concluded .completed).of_tables rfl rfl ?_
        unfold applySuccess
        dsimp only
        split <;> rfl
      · unfold applyRetryable
        dsimp only
        split
        · apply Filed.requeue
          exact (concluded .failed).of_tables rfl rfl rfl
        · exact (concluded .failed).of_tables rfl rfl rfl
      · exact concluded .failed
      · exact (concluded .cancelled).of_tables rfl rfl rfl
      · exact (concluded .expired).of_tables rfl rfl rfl
      · exact filed.of_tables rfl rfl rfl
      · exact filed.of_tables rfl rfl rfl
      · exact filed

theorem finishBatch (filed : Filed fits s) (bid : BatchId)
    (worker : WorkerId) (now : TimePoint) :
    Filed fits (s.finishBatch bid worker now) := by
  obtain unchanged | ⟨b, stats, workers, _, ⟨_, ended⟩ | ⟨_, partly⟩⟩ :=
    finishBatch_cases s bid worker now
  · rw [unchanged]
    exact filed
  · rw [ended]
    exact filed.of_tables rfl rfl rfl
  · rw [partly]
    exact filed.of_tables rfl rfl rfl

theorem tickRule (policy : BatchPolicy) (now : TimePoint) :
    TickRule policy now fun s => WellFormed s ∧ Filed fits s where
  wellFormed _ held := held.1
  expire _ id held :=
    ⟨held.1.expireWaiting now id, held.2.expireWaiting now id⟩
  cancel _ id held :=
    ⟨held.1.doCancel policy id now, held.2.doCancel policy id now⟩
  openForming _ key held _ :=
    ⟨held.1.openForming key now, held.2.of_tables rfl rfl rfl⟩
  place s bid key pick b r held placing :=
    ⟨(WellFormed.tickRule policy now).place s bid key pick b r held.1 placing,
      held.2.place placing.request bid key⟩
  retime _ bid _ held retimes :=
    ⟨held.1.retime bid retimes, held.2.of_tables rfl rfl rfl⟩
  close _ _ _ reason held found forming :=
    ⟨held.1.sealForming found forming reason now,
      held.2.of_members rfl (metadata_advance _ _) rfl rfl⟩
  merge _ _ _ _ _ held merging :=
    ⟨held.1.mergeInto merging.first merging.second merging.keyed,
      held.2.of_members rfl (fun _ => rfl) rfl rfl⟩

theorem reportRule (policy : BatchPolicy) (now : TimePoint) :
    ReportRule policy now (fun _ _ _ => true) (Filed fits) where
  count _ _ filed := filed.of_tables rfl rfl rfl
  outcome _ mc filed _ := filed.applyMemberOutcome policy now mc
  dispatch _ _ _ _ _ filed _ _ :=
    filed.of_members rfl (metadata_advance _ _) rfl rfl
  running _ _ _ filed _ _ :=
    filed.of_members rfl (metadata_advance _ _) rfl rfl
  finish _ bid _ worker filed _ _ := filed.finishBatch bid worker now

/-- Only submissions bring tenants in. -/
def submitsOnly (fits : TenantId → Prop) : Op → Prop
  | .submit metadata _ => fits metadata.tenant
  | _ => True

theorem stepRule (policy : BatchPolicy) :
    StepRule policy (fun _ op => submitsOnly fits op) (fun _ _ _ => true)
      (Filed fits) where
  ticks := tickRule policy
  reports now := (reportRule policy now).formed
  complete s comp now _ _ _ := allowsReport_always policy s comp now
  dispatchAndRun s bid executor now _ _ _ :=
    allowsRun_always policy s bid executor now
  submit _ _ now _ filed known := filed.doSubmit policy known now
  splitSealed _ bid b _ filed _ _ _ := filed.of_split bid _ b rfl rfl rfl
  splitOpen _ bid b _ filed _ _ _ _ := filed.of_split bid _ b rfl rfl rfl
  mergeInto _ _ _ _ _ _ filed _ _ _ _ :=
    filed.of_members rfl (fun _ => rfl) rfl rfl
  requeue _ id r _ _ _ filed _ _ _ := filed.requeue id r _
  registerWorker _ _ _ _ filed := filed.of_tables rfl rfl rfl
  rollEpoch _ filed := filed.of_tables rfl rfl rfl

end Filed

end BatchFabric.Impl
