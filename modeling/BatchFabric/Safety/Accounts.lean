import BatchFabric.Safety.ActiveMembers
import BatchFabric.Safety.AgreementRun
import BatchFabric.Safety.Stranding
import Mathlib.Algebra.BigOperators.Group.List.Basic

/-! The outstanding totals of the tenants against the requests that make them
up. -/

namespace BatchFabric

open OrderedMap
open FairnessController (amount)

/-- What of a record decides what it owes. -/
def RequestRec.account (r : RequestRec) : TenantId × UInt64 × Bool :=
  (r.metadata.tenant, r.metadata.work.value, isRequestTerminal r.state)

/-- The work a request adds to a tenant's total. -/
def RequestRec.owes (r : RequestRec) (t : TenantId) : Nat :=
  if r.metadata.tenant = t ∧ isRequestTerminal r.state = false then
    r.metadata.work.value.toNat
  else 0

theorem RequestRec.owes_of_ended {r : RequestRec}
    (ended : isRequestTerminal r.state = true) (t : TenantId) :
    r.owes t = 0 := by
  simp [owes, ended]

theorem RequestRec.owes_of_weightless {r : RequestRec}
    (weightless : r.metadata.work.value = 0) (t : TenantId) :
    r.owes t = 0 := by
  simp [owes, weightless]

/-- The requests an operation admits. -/
def Impl.admitting (policy : BatchPolicy) (s : Impl) : Op → List RequestId
  | .submit metadata now =>
      let outcome := (s.doSubmit policy metadata now).1
      if outcome.admission = .admitted then [outcome.request] else []
  | _ => []

/-- The requests a run admits, in order. -/
def admissions (policy : BatchPolicy) (ops : List Op) : List RequestId :=
  Transition.outputs (step policy) (Impl.admitting policy) Impl.fresh ops

namespace Impl

def owedBy (s : Impl) (t : TenantId) (id : RequestId) : Nat :=
  match s.requests[id]? with
  | none => 0
  | some r => r.owes t

def owedTotal (s : Impl) (admitted : List RequestId) (t : TenantId) : Nat :=
  (admitted.map (s.owedBy t)).sum

/-- A tenant's total is the work of its admitted requests that have not ended,
and is closed once all its requests have. -/
structure AccountsClose (admitted : List RequestId) (s : Impl) : Prop where
  total : ∀ t,
    (amount s.fairness.outstanding t).toNat = s.owedTotal admitted t
  closed : ∀ t,
    (Everywhere s.requests fun _ r => r.metadata.tenant = t →
      isRequestTerminal r.state = true) →
    amount s.fairness.outstanding t = 0 ∧
      ∀ policy, s.fairness.atOutstandingCap policy t = false

/-- With what carries it from step to step. -/
structure Balanced (admitted : List RequestId) (s : Impl) : Prop where
  wellFormed : WellFormed s
  once : admitted.Nodup
  known : ∀ id ∈ admitted, id.value < s.nextRequest
  total : ∀ t,
    (amount s.fairness.outstanding t).toNat = s.owedTotal admitted t

theorem owedBy_of_found {s : Impl} {id : RequestId} {r : RequestRec}
    (found : s.requests[id]? = some r) (t : TenantId) :
    s.owedBy t id = r.owes t := by
  unfold owedBy
  rw [found]

theorem owedBy_congr {s s' : Impl} {id : RequestId}
    (same : (s'.requests[id]?).map RequestRec.account =
      (s.requests[id]?).map RequestRec.account) (t : TenantId) :
    s'.owedBy t id = s.owedBy t id := by
  have owed : ∀ s : Impl, s.owedBy t id =
      match (s.requests[id]?).map RequestRec.account with
      | none => 0
      | some (tenant, work, ended) =>
          if tenant = t ∧ ended = false then work.toNat else 0 := by
    intro s
    unfold owedBy
    cases s.requests[id]? <;> rfl
  rw [owed s, owed s', same]

/-- An admitted request that has not ended. -/
def counted (admitted : List RequestId) (s : Impl) (id : RequestId) : Bool :=
  admitted.contains id &&
    match s.requests[id]? with
    | none => false
    | some r => !isRequestTerminal r.state

/-- The request, if there is one, is for no work. -/
def weightless (s : Impl) (id : RequestId) : Bool :=
  match s.requests[id]? with
  | none => true
  | some r => r.metadata.work.value == 0

namespace Balanced

variable {admitted : List RequestId} {s s' : Impl}

theorem fresh : Balanced [] fresh where
  wellFormed := WellFormed.fresh
  once := List.nodup_nil
  known := nofun
  total _ := rfl

theorem accountsClose (balanced : s.Balanced admitted) :
    s.AccountsClose admitted where
  total := balanced.total
  closed := by
    intro t ended
    have none : s.owedTotal admitted t = 0 := by
      apply List.sum_eq_zero
      intro owed member
      obtain ⟨id, _, rfl⟩ := List.mem_map.mp member
      unfold owedBy
      split
      · rfl
      · next r found =>
          unfold RequestRec.owes
          rw [if_neg]
          rintro ⟨mine, going⟩
          rw [ended id r found mine] at going
          cases going
    have zero : amount s.fairness.outstanding t = 0 := by
      rw [← UInt64.toNat_inj, balanced.total t, none]
      rfl
    refine ⟨zero, fun policy => ?_⟩
    unfold FairnessController.atOutstandingCap
    rw [zero]
    split
    · rfl
    · next capped =>
        rw [decide_eq_false_iff_not, ge_iff_le, UInt64.not_le]
        rw [UInt64.lt_iff_toNat_lt, UInt32.toNat_toUInt64]
        exact Nat.pos_of_ne_zero fun same =>
          capped (UInt32.toNat_inj.mp same)

/-- Nothing happens to the totals, nor to what the admitted requests owe. -/
theorem carry (balanced : s.Balanced admitted) (wellFormed : WellFormed s')
    (next : s.nextRequest ≤ s'.nextRequest)
    (outstanding : ∀ t, amount s'.fairness.outstanding t =
      amount s.fairness.outstanding t)
    (owed : ∀ id ∈ admitted, ∀ t, s'.owedBy t id = s.owedBy t id) :
    s'.Balanced admitted where
  wellFormed := wellFormed
  once := balanced.once
  known id member := Nat.lt_of_lt_of_le (balanced.known id member) next
  total := by
    intro t
    rw [outstanding t, balanced.total t]
    unfold owedTotal
    rw [List.map_congr_left fun id member => owed id member t]

theorem of_accounts (balanced : s.Balanced admitted)
    (wellFormed : WellFormed s') (next : s.nextRequest ≤ s'.nextRequest)
    (fairness : s'.fairness = s.fairness)
    (accounts : ∀ id : RequestId,
      (s'.requests[id]?).map RequestRec.account =
        (s.requests[id]?).map RequestRec.account) : s'.Balanced admitted :=
  balanced.carry wellFormed next (fun _ => by rw [fairness])
    fun id _ => owedBy_congr (accounts id)

/-- One request changes in a way that leaves what it owes. -/
theorem of_owes (balanced : s.Balanced admitted) (wellFormed : WellFormed s')
    (next : s'.nextRequest = s.nextRequest)
    (outstanding : ∀ t, amount s'.fairness.outstanding t =
      amount s.fairness.outstanding t) {id : RequestId}
    {change : RequestRec → RequestRec}
    (requests : s'.requests = s.requests.modify id change)
    (same : ∀ r, s.requests[id]? = some r → id ∈ admitted →
      ∀ t, (change r).owes t = r.owes t) : s'.Balanced admitted := by
  apply balanced.carry wellFormed (Nat.le_of_eq next.symm) outstanding
  intro other member t
  unfold owedBy
  rw [requests, getElem?_modify]
  by_cases equal : id = other
  · subst equal
    rw [if_pos rfl]
    cases found : s.requests[id]? with
    | none => rfl
    | some r => exact same r found member t
  · rw [if_neg equal]

/-- A request ends that owes nothing. -/
theorem endUncounted (balanced : s.Balanced admitted)
    (wellFormed : WellFormed s') (next : s'.nextRequest = s.nextRequest)
    (outstanding : ∀ t, amount s'.fairness.outstanding t =
      amount s.fairness.outstanding t) {id : RequestId}
    {change : RequestRec → RequestRec}
    (requests : s'.requests = s.requests.modify id change)
    (ended : ∀ r, isRequestTerminal (change r).state = true)
    (uncounted : (s.weightless id || !s.counted admitted id) = true) :
    s'.Balanced admitted := by
  apply balanced.of_owes wellFormed next outstanding requests
  intro r found member t
  rw [RequestRec.owes_of_ended (ended r)]
  have nothing : r.metadata.work.value = 0 ∨
      isRequestTerminal r.state = true := by
    simpa [weightless, counted, found, member] using uncounted
  rcases nothing with none | ended
  · rw [RequestRec.owes_of_weightless none]
  · rw [RequestRec.owes_of_ended ended]

/-- A counted request ends, and its work is taken off the total. -/
theorem release (balanced : s.Balanced admitted) (wellFormed : WellFormed s')
    (next : s'.nextRequest = s.nextRequest) {id : RequestId} {r : RequestRec}
    (found : s.requests[id]? = some r) (member : id ∈ admitted)
    (going : isRequestTerminal r.state = false)
    (fairness : s'.fairness =
      s.fairness.noteCompleted r.metadata.tenant r.metadata.work.value)
    {change : RequestRec → RequestRec}
    (requests : s'.requests = s.requests.modify id change)
    (ended : isRequestTerminal (change r).state = true) :
    s'.Balanced admitted where
  wellFormed := wellFormed
  once := balanced.once
  known other listed := by
    rw [next]
    exact balanced.known other listed
  total := by
    intro t
    have after : s'.owedBy t id = 0 := by
      unfold owedBy
      rw [requests, getElem?_modify_self found]
      exact RequestRec.owes_of_ended ended t
    have others : (admitted.erase id).map (s'.owedBy t) =
        (admitted.erase id).map (s.owedBy t) := by
      apply List.map_congr_left
      intro other listed
      have different : id ≠ other :=
        fun same => (balanced.once.mem_erase_iff.mp listed).1 same.symm
      unfold owedBy
      rw [requests, getElem?_modify, if_neg different]
    have before := balanced.total t
    unfold owedTotal at before ⊢
    rw [← List.sum_map_erase (s'.owedBy t) member, after, others]
    rw [← List.sum_map_erase (s.owedBy t) member, owedBy_of_found found]
      at before
    rw [fairness, FairnessController.amount_noteCompleted]
    unfold RequestRec.owes at before
    by_cases mine : r.metadata.tenant = t
    · subst mine
      rw [if_pos ⟨rfl, going⟩] at before
      rw [if_pos rfl, before, Nat.add_sub_cancel_left, Nat.zero_add]
    · rw [if_neg fun both => mine both.1] at before
      rw [if_neg mine, before]

end Balanced

theorem account_advance {source target : RequestState}
    (before : isRequestTerminal source = false)
    (after : isRequestTerminal target = false) (r : RequestRec) :
    (r.advance source target).account = r.account := by
  unfold RequestRec.advance RequestRec.account
  split
  · next atSource => rw [atSource, before, after]
  · rfl

/-- What a submission does to the tables and totals the accounts rest on. -/
theorem doSubmit_accounts (policy : BatchPolicy) (s : Impl)
    (metadata : RequestMetadata) (now : TimePoint) :
    ((s.doSubmit policy metadata now).1.admission = .admitted ∧
        (s.doSubmit policy metadata now).1.request =
          { value := s.nextRequest } ∧
        (s.doSubmit policy metadata now).2.nextRequest = s.nextRequest + 1 ∧
        (s.doSubmit policy metadata now).2.fairness =
          s.fairness.noteSubmission metadata.tenant metadata.work.value ∧
        ∃ r, r.metadata = metadata ∧ isRequestTerminal r.state = false ∧
          (s.doSubmit policy metadata now).2.requests =
            s.requests.insert { value := s.nextRequest } r) ∨
      ((s.doSubmit policy metadata now).1.admission ≠ .admitted ∧
        s.nextRequest ≤ (s.doSubmit policy metadata now).2.nextRequest ∧
        (s.doSubmit policy metadata now).2.fairness = s.fairness ∧
        ((s.doSubmit policy metadata now).2.requests = s.requests ∨
          ∃ r, (s.doSubmit policy metadata now).2.requests =
            s.requests.insert { value := s.nextRequest } r)) := by
  unfold doSubmit
  dsimp only
  split
  · exact .inr ⟨nofun, Nat.le_refl _, rfl, .inl rfl⟩
  · split
    · exact .inr ⟨nofun, Nat.le_succ _, rfl, .inr ⟨_, rfl⟩⟩
    · split
      · exact .inr ⟨nofun, Nat.le_succ _, rfl, .inr ⟨_, rfl⟩⟩
      · split
        · exact .inr ⟨nofun, Nat.le_succ _, rfl, .inr ⟨_, rfl⟩⟩
        · exact .inl ⟨rfl, rfl, rfl, rfl, _, rfl, rfl, rfl⟩

/-- A refused cancellation is one the request or its batch does not allow. -/
def takesCancel (s : Impl) (id : RequestId) : Bool :=
  match s.requests[id]? with
  | none => false
  | some r =>
      !isRequestTerminal r.state &&
        (!isInBatch r.state ||
          match s.batches[r.batch]? with
          | none => false
          | some b =>
              match b.state with
              | .forming | .sealed | .dispatched | .running => true
              | _ => false)

theorem doCancel_of_not_takesCancel {s : Impl} {id : RequestId}
    (refused : s.takesCancel id = false) (policy : BatchPolicy)
    (now : TimePoint) : (s.doCancel policy id now).2 = s := by
  unfold takesCancel at refused
  unfold doCancel
  cases found : s.requests[id]? with
  | none => rfl
  | some r =>
      cases ended : isRequestTerminal r.state with
      | true => simp [ended]
      | false =>
          cases inBatch : isInBatch r.state with
          | false => simp [found, ended, inBatch] at refused
          | true =>
              cases listed : s.batches[r.batch]? with
              | none => simp [ended, inBatch, listed]
              | some b =>
                  cases state : b.state with
                  | forming | sealed | dispatched | running =>
                      simp [found, ended, inBatch, listed, state] at refused
                  | _ => simp [ended, inBatch, listed, state]

/-- Only what owes nothing is cancelled. -/
def cancelsUncounted (admitted : List RequestId) (s : Impl)
    (id : RequestId) : Bool :=
  !s.takesCancel id || s.weightless id || !s.counted admitted id

/-- Only what owes nothing is expired. -/
def expiresUncounted (policy : BatchPolicy) (admitted : List RequestId)
    (s : Impl) (order : List CompatibilityKey) (now : TimePoint) : Bool :=
  let due := s.expiredWaiting order now
  let expired := Transition.run (expireWaiting now) s due
  decide (Transition.Along (expireWaiting now)
    (fun s id => (s.weightless id || !s.counted admitted id) = true) s due) &&
  decide (Transition.Along (cancelExpired policy now)
    (fun s id => s.cancelsUncounted admitted id = true) expired
    (expired.expiredInForming now))

/-- The tick places only requests for no work, and expires only what owes
nothing. -/
def ticksUncounted (policy : BatchPolicy) (admitted : List RequestId)
    (s : Impl) (order : List CompatibilityKey) (now : TimePoint) : Bool :=
  let expired := s.expireLocked policy order now
  s.expiresUncounted policy admitted order now &&
    decide (Everywhere expired.requests fun id r =>
      isWaitingState r.state = true → r.metadata.work.value ≠ 0 →
        (s.doTick policy order now).Waits id)

/-- An outcome for which the total and what is owed move together: a success
of a counted request, or one that finds the total at zero; otherwise the end
of a request that owes nothing, or one more attempt at a counted one. -/
def settlesOutcome (policy : BatchPolicy) (admitted : List RequestId)
    (s : Impl) (id : RequestId) (status : CompletionStatus) : Bool :=
  match s.requests[id]? with
  | none => true
  | some r =>
      r.metadata.work.value == 0 ||
        match status with
        | .success =>
            s.counted admitted id ||
              amount s.fairness.outstanding r.metadata.tenant == 0
        | .stale | .deferred | .undeclared _ _ => true
        | _ =>
            !admitted.contains id ||
              s.counted admitted id == s.requeues policy id status

/-- The operation moves the totals as it moves what the admitted requests
owe. -/
def keepsBalance (policy : BatchPolicy)
    (history : List RequestId × Impl) (op : Op) : Bool :=
  let s := history.2
  match op with
  | .submit metadata now =>
      (s.doSubmit policy metadata now).1.admission != .admitted ||
        decide ((amount s.fairness.outstanding metadata.tenant).toNat +
          metadata.work.value.toNat < 2 ^ 64)
  | .cancel request _ => s.cancelsUncounted history.1 request
  | .complete completion now =>
      s.allowsReport policy (settlesOutcome policy history.1) completion now
  | .retry request order now =>
      !s.takesRetry policy request now ||
        ((s.weightless request || !history.1.contains request ||
            s.counted history.1 request) &&
          (s.retryQueued policy request now).2.ticksUncounted policy history.1
            order now)
  | .tick order now => s.ticksUncounted policy history.1 order now
  | .expire order now => s.expiresUncounted policy history.1 order now
  | .dispatchAndRun batch executor now =>
      s.allowsRun policy (settlesOutcome policy history.1) batch executor now
  | _ => true

namespace Balanced

variable {admitted : List RequestId} {policy : BatchPolicy} {s : Impl}
  {now : TimePoint}

theorem doCancel (balanced : s.Balanced admitted) {id : RequestId}
    (guarded : s.cancelsUncounted admitted id = true) (policy : BatchPolicy)
    (now : TimePoint) : (s.doCancel policy id now).2.Balanced admitted := by
  cases taken : s.takesCancel id with
  | false =>
      rw [doCancel_of_not_takesCancel taken]
      exact balanced
  | true =>
      have uncounted : (s.weightless id || !s.counted admitted id) = true := by
        unfold cancelsUncounted at guarded
        rwa [taken, Bool.not_true, Bool.false_or] at guarded
      have wellFormed := balanced.wellFormed.doCancel policy id now
      obtain unchanged | ⟨r, _, _, ⟨_, outside⟩ |
          ⟨_, b, _, ⟨_, forming⟩ | ⟨_, later⟩⟩⟩ :=
        doCancel_cases policy s id now
      · rw [unchanged]
        exact balanced
      · rw [outside] at wellFormed ⊢
        exact balanced.endUncounted wellFormed rfl (fun _ => rfl) rfl
          (fun _ => rfl) uncounted
      · rw [forming] at wellFormed ⊢
        exact balanced.endUncounted wellFormed rfl (fun _ => rfl) rfl
          (fun _ => rfl) uncounted
      · rw [later] at wellFormed ⊢
        exact balanced.endUncounted wellFormed rfl (fun _ => rfl) rfl
          (fun _ => rfl) uncounted

theorem expireWaiting (balanced : s.Balanced admitted) {id : RequestId}
    (uncounted : (s.weightless id || !s.counted admitted id) = true)
    (now : TimePoint) : (expireWaiting now s id).Balanced admitted := by
  have wellFormed := balanced.wellFormed.expireWaiting now id
  obtain unchanged | ⟨r, _, ⟨_, removed⟩ | ⟨_, stats, expired⟩⟩ :=
    expireWaiting_cases now s id
  · rw [unchanged]
    exact balanced
  · rw [removed] at wellFormed ⊢
    exact balanced.of_accounts wellFormed (Nat.le_refl _) rfl fun _ => rfl
  · rw [expired] at wellFormed ⊢
    exact balanced.endUncounted wellFormed rfl (fun _ => rfl) rfl
      (fun _ => rfl) uncounted

theorem expireLocked (balanced : s.Balanced admitted)
    {order : List CompatibilityKey}
    (guarded : s.expiresUncounted policy admitted order now = true) :
    (s.expireLocked policy order now).Balanced admitted := by
  obtain ⟨due, forming⟩ := (Bool.and_eq_true _ _).mp guarded
  unfold Impl.expireLocked
  dsimp only
  apply (of_decide_eq_true forming).invariant (Balanced admitted)
  · intro current id _ held allowed
    unfold cancelExpired
    split
    · exact held
    · exact held.doCancel allowed policy now
  · apply (of_decide_eq_true due).invariant (Balanced admitted)
    · intro current id _ held allowed
      exact held.expireWaiting allowed now
    · exact balanced

/-- A request for no work is placed. -/
theorem place (balanced : s.Balanced admitted) {bid : BatchId}
    {key : CompatibilityKey} {pick : RequestId} {b : BatchRec}
    {r : RequestRec} (placing : Placing policy s bid key pick now b r)
    (nothing : r.metadata.work.value = 0) :
    (s.place bid key pick).Balanced admitted := by
  have wellFormed := (WellFormed.tickRule policy now).place s bid key pick b r
    balanced.wellFormed placing
  rw [place_eq placing.request] at wellFormed ⊢
  apply balanced.carry wellFormed (Nat.le_refl _)
  · intro t
    show amount (s.fairness.notePlaced _ _).outstanding t = _
    rw [FairnessController.amount_notePlaced, nothing]
    split
    · next same => rw [same, UInt64.add_zero]
    · rfl
  · intro id member t
    apply owedBy_congr
    show ((s.requests.modify pick fun r => r.reserve bid)[id]?).map _ = _
    rw [getElem?_modify]
    by_cases same : pick = id
    · subst same
      rw [if_pos rfl, placing.request]
      unfold RequestRec.reserve RequestRec.account
      rw [Option.map_some, Option.map_some, Option.map_some,
        not_terminal_of_isWaiting placing.waiting]
      rfl
    · rw [if_neg same]

theorem account_splitRequests (s : Impl) (bid child : BatchId) (b : BatchRec)
    (id : RequestId) :
    ((s.splitRequests bid child b)[id]?).map RequestRec.account =
      (s.requests[id]?).map RequestRec.account := by
  unfold splitRequests
  rw [map_getElem?_modifyAll (fun _ => by rfl),
    map_getElem?_modifyAll (fun _ => by rfl)]

theorem sealForming (balanced : s.Balanced admitted) {bid : BatchId}
    {b : BatchRec} (found : s.batches[bid]? = some b)
    (forming : b.state = .forming) (reason : SealReason) (now : TimePoint) :
    (s.sealForming bid b reason now).Balanced admitted :=
  balanced.of_accounts
    (balanced.wellFormed.sealForming found forming reason now) (Nat.le_refl _)
    rfl (map_getElem?_modifyAll (account_advance rfl rfl) s.requests b.members)

theorem mergeInto (balanced : s.Balanced admitted) {aid bid : BatchId}
    {a b : BatchRec} (foundA : s.batches[aid]? = some a)
    (foundB : s.batches[bid]? = some b) (keys : a.key = b.key) :
    (s.mergeInto aid bid a b).Balanced admitted :=
  balanced.of_accounts (balanced.wellFormed.mergeInto foundA foundB keys)
    (Nat.le_refl _) rfl
    (map_getElem?_modifyAll (fun _ => by rfl) s.requests b.members)

theorem splitSealed (balanced : s.Balanced admitted) {bid : BatchId}
    {b : BatchRec} (found : s.batches[bid]? = some b) :
    (s.splitSealed bid b).Balanced admitted :=
  balanced.of_accounts (balanced.wellFormed.splitSealed found) (Nat.le_refl _)
    rfl (account_splitRequests s bid _ b)

theorem splitOpen (balanced : s.Balanced admitted) {bid : BatchId}
    {b : BatchRec} (found : s.batches[bid]? = some b) :
    (s.splitOpen bid b).Balanced admitted :=
  balanced.of_accounts (balanced.wellFormed.splitOpen found) (Nat.le_refl _)
    rfl (account_splitRequests s bid _ b)

theorem doSubmit (balanced : s.Balanced admitted) {metadata : RequestMetadata}
    (guarded : keepsBalance policy (admitted, s) (.submit metadata now) =
      true) :
    (s.doSubmit policy metadata now).2.Balanced
      (admitted ++ s.admitting policy (.submit metadata now)) := by
  have wellFormed := balanced.wellFormed.doSubmit policy metadata now
  have unused : ({ value := s.nextRequest } : RequestId) ∉ admitted :=
    fun listed => Nat.lt_irrefl _ (balanced.known _ listed)
  have others : ∀ {s' : Impl} {r : RequestRec},
      s'.requests = s.requests.insert { value := s.nextRequest } r →
      ∀ id ∈ admitted, ∀ t, s'.owedBy t id = s.owedBy t id := by
    intro s' r requests id member t
    unfold owedBy
    rw [requests, getElem?_insert, if_neg]
    rintro rfl
    exact unused member
  rcases doSubmit_accounts policy s metadata now with
    ⟨admission, named, next, fairness, r, recorded, going, requests⟩ |
      ⟨refused, next, fairness, requests⟩
  · have within : (amount s.fairness.outstanding metadata.tenant).toNat +
        metadata.work.value.toNat < 2 ^ 64 := by
      simpa [keepsBalance, admission] using guarded
    have admits : s.admitting policy (.submit metadata now) =
        [{ value := s.nextRequest }] := by
      simp [admitting, admission, named]
    rw [admits]
    constructor
    · exact wellFormed
    · rw [List.nodup_append]
      refine ⟨balanced.once, List.nodup_singleton _, ?_⟩
      rintro id member other new rfl
      exact unused (List.mem_singleton.mp new ▸ member)
    · intro id member
      rw [next]
      rcases List.mem_append.mp member with before | new
      · exact Nat.lt_succ_of_lt (balanced.known id before)
      · rw [List.mem_singleton.mp new]
        exact Nat.lt_succ_self _
    · intro t
      have mine : (s.doSubmit policy metadata now).2.owedBy t
          { value := s.nextRequest } = r.owes t := by
        apply owedBy_of_found
        rw [requests, getElem?_insert, if_pos rfl]
      unfold owedTotal
      rw [List.map_append, List.sum_append, List.map_singleton,
        List.sum_singleton, mine,
        List.map_congr_left fun id member => others requests id member t,
        fairness, FairnessController.amount_noteSubmission]
      have before := balanced.total t
      unfold owedTotal at before
      unfold RequestRec.owes
      rw [recorded, going]
      by_cases same : metadata.tenant = t
      · subst same
        rw [if_pos rfl, if_pos ⟨rfl, rfl⟩, UInt64.toNat_add,
          Nat.mod_eq_of_lt within, before]
      · rw [if_neg same, if_neg fun both => same both.1, before]
        rfl
  · have admits : s.admitting policy (.submit metadata now) = [] := by
      simp [admitting, refused]
    rw [admits, List.append_nil]
    apply balanced.carry wellFormed next (fun _ => by rw [fairness])
    rcases requests with same | ⟨r, requests⟩
    · intro id _ t
      unfold owedBy
      rw [same]
    · exact others requests

end Balanced

/-! Outcomes. -/

section Outcome

variable {admitted : List RequestId} {policy : BatchPolicy} {s : Impl}
  {mc : MemberCompletion} {r : RequestRec} {a : AttemptRec}

/-- A failure that is not followed by another attempt ends a request that owes
nothing. -/
theorem uncounted_of_settles (found : s.requests[mc.request]? = some r)
    (settles : s.settlesOutcome policy admitted mc.request mc.status = true)
    (failed : mc.status = .retryableFailure ∨
      mc.status = .nonRetryableFailure ∨ mc.status = .cancelled ∨
      mc.status = .expired)
    (last : s.requeues policy mc.request mc.status = false) :
    (s.weightless mc.request || !s.counted admitted mc.request) = true := by
  unfold settlesOutcome at settles
  simp only [found] at settles
  unfold weightless
  simp only [found]
  cases nothing : r.metadata.work.value == 0 with
  | true => rfl
  | false =>
      rw [nothing, Bool.false_or] at settles
      have uncounted : (!admitted.contains mc.request ||
          s.counted admitted mc.request == false) = true := by
        rcases failed with status | status | status | status <;>
          · rw [status] at settles last
            rw [last] at settles
            exact settles
      unfold counted at uncounted ⊢
      cases listed : admitted.contains mc.request with
      | false => rfl
      | true =>
          rw [listed] at uncounted
          simpa using uncounted

/-- A request that gets another attempt goes on owing what it owed. -/
theorem going_of_settles (found : s.requests[mc.request]? = some r)
    (settles : s.settlesOutcome policy admitted mc.request mc.status = true)
    (failed : mc.status = .retryableFailure)
    (again : s.requeues policy mc.request mc.status = true)
    (member : mc.request ∈ admitted) :
    r.metadata.work.value = 0 ∨ isRequestTerminal r.state = false := by
  unfold settlesOutcome at settles
  rw [failed] at settles again
  simp only [found, again] at settles
  simpa [counted, found, member] using settles

namespace Balanced

/-- A success takes the work of a counted request off the total, or finds
nothing to take off. -/
theorem applySuccess (balanced : s.Balanced admitted)
    (enabled : policy.fairness.enabled = true) {now : TimePoint}
    (found : s.requests[mc.request]? = some r)
    (wellFormed : WellFormed (s.applySuccess policy r mc now))
    (settles : s.settlesOutcome policy admitted mc.request .success = true) :
    (s.applySuccess policy r mc now).Balanced admitted := by
  have fairness : (s.applySuccess policy r mc now).fairness =
      s.fairness.noteCompleted r.metadata.tenant r.metadata.work.value := by
    unfold Impl.applySuccess
    exact if_pos enabled
  have ended : ∀ r : RequestRec,
      isRequestTerminal (r.conclude mc .completed).state = true := by
    intro r
    rw [state_conclude]
    rfl
  cases counts : s.counted admitted mc.request with
  | true =>
      have known : mc.request ∈ admitted ∧
          isRequestTerminal r.state = false := by
        simpa [counted, found] using counts
      exact balanced.release wellFormed rfl found known.1 known.2 fairness rfl
        (ended r)
  | false =>
      have nothing : r.metadata.work.value = 0 ∨
          amount s.fairness.outstanding r.metadata.tenant = 0 := by
        simpa [settlesOutcome, found, counts] using settles
      apply balanced.endUncounted wellFormed rfl _ rfl ended
      · rw [counts, Bool.not_false, Bool.or_true]
      · intro t
        rw [← UInt64.toNat_inj, fairness,
          FairnessController.amount_noteCompleted]
        split
        · next mine =>
            subst mine
            rcases nothing with none | zero
            · rw [none]
              rfl
            · rw [zero, UInt64.toNat_zero, Nat.zero_sub]
        · rfl

theorem outcome (balanced : s.Balanced admitted)
    (enabled : policy.fairness.enabled = true) (now : TimePoint)
    (settles : (endState mc.status).isSome →
      s.settlesOutcome policy admitted mc.request mc.status = true) :
    (s.applyMemberOutcome policy now mc).Balanced admitted := by
  have wellFormed : WellFormed (s.applyMemberOutcome policy now mc) :=
    (WellFormed.recordRule policy now).applyMemberOutcome balanced.wellFormed
      fun _ => rfl
  unfold applyMemberOutcome at wellFormed ⊢
  cases found : s.requests[mc.request]? with
  | none => exact balanced
  | some r =>
      dsimp only
      rw [found] at wellFormed
      dsimp only at wellFormed
      cases current : s.attempts[r.currentAttempt]? with
      | none => exact balanced
      | some a =>
          dsimp only
          rw [current] at wellFormed
          dsimp only at wellFormed
          have ends : ∀ (state : RequestState) (stats : BatchStats),
              isRequestTerminal state = true →
              (s.weightless mc.request ||
                !s.counted admitted mc.request) = true →
              WellFormed { s.conclude r mc state now with stats := stats } →
              Balanced admitted
                { s.conclude r mc state now with stats := stats } := by
            intro state stats ended uncounted wellFormed
            apply balanced.endUncounted wellFormed rfl (fun _ => rfl) rfl _
              uncounted
            intro r
            rw [state_conclude]
            exact ended
          cases status : mc.status with
          | success =>
              rw [status] at wellFormed settles
              exact balanced.applySuccess enabled found wellFormed
                (settles rfl)
          | retryableFailure =>
              rw [status] at wellFormed
              have settled := settles (by rw [status]; rfl)
              have requeues : s.requeues policy mc.request mc.status =
                  (policy.retry.enabled &&
                    decide (a.number < policy.retry.maxAttempts)) := by
                simp [Impl.requeues, status, found, current]
              dsimp only at wellFormed ⊢
              unfold applyRetryable at wellFormed ⊢
              dsimp only at wellFormed ⊢
              split
              · next again =>
                  rw [if_pos again] at wellFormed
                  apply balanced.carry wellFormed (Nat.le_refl _)
                    (fun _ => rfl)
                  intro id member t
                  unfold owedBy Impl.requeue conclude
                  dsimp only
                  rw [getElem?_modify, getElem?_modify]
                  by_cases same : mc.request = id
                  · subst same
                    rw [if_pos rfl, if_pos rfl, found]
                    have going := going_of_settles found settled status
                      (requeues.trans again) member
                    have kept : (r.conclude mc .failed).metadata =
                        r.metadata :=
                      congrArg (·.2.1) (fixed_conclude r mc .failed)
                    simp only [Option.map_some, RequestRec.owes, kept]
                    rcases going with nothing | going
                    · simp [nothing]
                    · rw [going]
                      rfl
                  · rw [if_neg same, if_neg same]
              · next last =>
                  rw [if_neg last] at wellFormed
                  apply ends .failed _ rfl _ wellFormed
                  apply uncounted_of_settles found settled (.inl status)
                  rw [requeues]
                  exact Bool.eq_false_iff.mpr last
          | nonRetryableFailure =>
              rw [status] at wellFormed
              apply ends .failed s.stats rfl _ wellFormed
              apply uncounted_of_settles found
                (settles (by rw [status]; rfl)) (.inr (.inl status))
              simp [Impl.requeues, status]
          | cancelled =>
              rw [status] at wellFormed
              apply ends .cancelled _ rfl _ wellFormed
              apply uncounted_of_settles found
                (settles (by rw [status]; rfl)) (.inr (.inr (.inl status)))
              simp [Impl.requeues, status]
          | expired =>
              rw [status] at wellFormed
              apply ends .expired _ rfl _ wellFormed
              apply uncounted_of_settles found
                (settles (by rw [status]; rfl)) (.inr (.inr (.inr status)))
              simp [Impl.requeues, status]
          | stale | deferred =>
              rw [status] at wellFormed
              exact balanced.of_accounts wellFormed (Nat.le_refl _) rfl
                fun _ => rfl
          | undeclared => exact balanced

end Balanced

end Outcome

end Impl

end BatchFabric
