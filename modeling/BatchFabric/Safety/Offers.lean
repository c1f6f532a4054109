import BatchFabric.Safety.Contribution
import BatchFabric.Safety.Opening

namespace BatchFabric.Impl

open OrderedMap

/-! What a tick could place in the batches it opens, and when that does not
depend on the totals of the tenants. -/

/-- Fairness holds the tenant back. -/
def capped (policy : BatchPolicy) (s : Impl) (t : TenantId) : Bool :=
  policy.fairness.enabled &&
    s.fairness.atOutstandingCap policy.fairness t

/-- May a tick still place the request? A tenant at its cap stays there. -/
def placeable (policy : BatchPolicy) (s : Impl) (now : TimePoint)
    (id : RequestId) : Bool :=
  s.onOffer now id && !s.capped policy (s.tenantOf id)

/-- What a tick may place in a batch it opens for the key. -/
def offers (policy : BatchPolicy) (s : Impl) (now : TimePoint)
    (key : CompatibilityKey) : List RequestId :=
  if s.formingByKey.contains key then []
  else ((s.bucket key).filter (s.placeable policy now)).dedup

/-- What a tick may place in all the batches it opens. -/
def allOffers (policy : BatchPolicy) (s : Impl) (now : TimePoint) :
    List RequestId :=
  s.waitingIndex.keys.flatMap (s.offers policy now)

/-- The work of a tenant's requests in a list. -/
def workOf (s : Impl) (members : List RequestId) (t : TenantId) : Nat :=
  Dimension.work.total s.requests (members.filter (s.tenantOf · = t))

/-- No tenant is offered under the key and under another one. -/
def SharesNoTenant (policy : BatchPolicy) (s : Impl) (now : TimePoint)
    (key : CompatibilityKey) : Prop :=
  ∀ id ∈ s.offers policy now key, ∀ other ∈ s.waitingIndex.keys,
    other ≠ key → ∀ id' ∈ s.offers policy now other,
      s.tenantOf id' ≠ s.tenantOf id

/-- No request offered under the key meets its tenant's cap, even when all
others of that tenant are placed first. -/
def BelowCaps (policy : BatchPolicy) (s : Impl) (now : TimePoint)
    (key : CompatibilityKey) : Prop :=
  policy.fairness.enabled = true →
    policy.fairness.maxOutstandingPerTenant ≠ 0 →
    ∀ id ∈ s.offers policy now key,
      (FairnessController.amount s.fairness.outstanding
          (s.tenantOf id)).toNat +
          s.workOf (s.allOffers policy now) (s.tenantOf id) <
        policy.fairness.maxOutstandingPerTenant.toNat +
          Dimension.work.total s.requests [id]

/-- All requests offered under the key are of one tenant. -/
def OneTenant (policy : BatchPolicy) (s : Impl) (now : TimePoint)
    (key : CompatibilityKey) : Prop :=
  ∀ id ∈ s.offers policy now key, ∀ id' ∈ s.offers policy now key,
    s.tenantOf id' = s.tenantOf id

/-- One batch holds the requests of a list, within its budget and the limit on
each tenant's members. -/
structure HoldsAll (policy : BatchPolicy) (requests : Map RequestId RequestRec)
    (members : List RequestId) : Prop where
  budget : ∀ d : Dimension, d.limit policy.constraints.budget ≠ 0 →
    d.total requests members ≤ d.limit policy.constraints.budget
  tenants : policy.fairness.maxContributionPerBatch ≠ 0 → ∀ t,
    contribution requests members t ≤
      policy.fairness.maxContributionPerBatch.toNat

/-- Whether the tenants' totals have a say in what is placed under the key, and
in the order in which it is placed, when they change under another key. -/
def TotalsFree (policy : BatchPolicy) (s : Impl) (now : TimePoint)
    (key : CompatibilityKey) : Prop :=
  s.SharesNoTenant policy now key ∨
    s.BelowCaps policy now key ∧
      (s.OneTenant policy now key ∨
        HoldsAll policy s.requests (s.offers policy now key) ∧
          s.maxWorkerBatchSize = 0)

/-! The work of the requests in a list, and the totals of their tenants. -/

section Work

variable {s : Impl}

theorem workOf_append (first second : List RequestId) (t : TenantId) :
    s.workOf (first ++ second) t = s.workOf first t + s.workOf second t := by
  unfold workOf
  rw [List.filter_append, Dimension.total_append]

theorem workOf_perm {members members' : List RequestId}
    (permuted : members'.Perm members) (t : TenantId) :
    s.workOf members' t = s.workOf members t := by
  unfold workOf Dimension.total
  exact ((permuted.filter _).map _).sum_eq

theorem workOf_le_of_subperm {fewer more : List RequestId}
    (subperm : fewer.Subperm more) (t : TenantId) :
    s.workOf fewer t ≤ s.workOf more t := by
  obtain ⟨part, permuted, sublist⟩ := subperm
  rw [← workOf_perm permuted]
  exact Dimension.work.total_le_of_sublist (sublist.filter _)

theorem workOf_singleton (id : RequestId) (t : TenantId) :
    s.workOf [id] t =
      if s.tenantOf id = t then Dimension.work.total s.requests [id]
      else 0 := by
  unfold workOf
  rw [List.filter_singleton]
  by_cases same : s.tenantOf id = t
  · simp [same]
  · simp [same, Dimension.total]

theorem noteRequest_other (fairness : FairnessController) {id : RequestId}
    {t : TenantId} (other : s.tenantOf id ≠ t) :
    FairnessController.amount (noteRequest s.requests fairness id).served t =
        FairnessController.amount fairness.served t ∧
      FairnessController.amount
          (noteRequest s.requests fairness id).outstanding t =
        FairnessController.amount fairness.outstanding t := by
  unfold noteRequest
  unfold tenantOf at other
  cases found : s.requests[id]? with
  | none => exact ⟨rfl, rfl⟩
  | some r =>
      rw [found] at other
      unfold FairnessController.notePlaced
      dsimp only
      rw [FairnessController.amount_insert, FairnessController.amount_insert,
        if_neg other, if_neg other]
      exact ⟨rfl, rfl⟩

theorem noteRequests_other (fairness : FairnessController)
    {picks : List RequestId} {t : TenantId}
    (others : ∀ id ∈ picks, s.tenantOf id ≠ t) :
    FairnessController.amount
          (picks.foldl (noteRequest s.requests) fairness).served t =
        FairnessController.amount fairness.served t ∧
      FairnessController.amount
          (picks.foldl (noteRequest s.requests) fairness).outstanding t =
        FairnessController.amount fairness.outstanding t := by
  induction picks generalizing fairness with
  | nil => exact ⟨rfl, rfl⟩
  | cons pick picks induction =>
      have rest := induction (noteRequest s.requests fairness pick)
        fun id member => others id (List.mem_cons_of_mem _ member)
      have first := noteRequest_other fairness (others pick List.mem_cons_self)
      exact ⟨rest.1.trans first.1, rest.2.trans first.2⟩

theorem amount_noteRequest_le (fairness : FairnessController) (id : RequestId)
    (t : TenantId) :
    (FairnessController.amount
        (noteRequest s.requests fairness id).outstanding t).toNat ≤
      (FairnessController.amount fairness.outstanding t).toNat +
        s.workOf [id] t := by
  by_cases same : s.tenantOf id = t
  · rw [workOf_singleton, if_pos same]
    unfold noteRequest
    unfold tenantOf at same
    cases found : s.requests[id]? with
    | none => exact Nat.le_add_right _ _
    | some r =>
        rw [found] at same
        dsimp only at same ⊢
        rw [FairnessController.amount_notePlaced, if_pos same, same,
          Dimension.work.total_singleton found, UInt64.toNat_add]
        exact Nat.mod_le _ _
  · rw [(noteRequest_other fairness same).2]
    exact Nat.le_add_right _ _

theorem amount_noteRequests_le (fairness : FairnessController)
    (picks : List RequestId) (t : TenantId) :
    (FairnessController.amount
        (picks.foldl (noteRequest s.requests) fairness).outstanding
          t).toNat ≤
      (FairnessController.amount fairness.outstanding t).toNat +
        s.workOf picks t := by
  induction picks generalizing fairness with
  | nil => exact Nat.le_add_right _ _
  | cons pick picks induction =>
      have rest := induction (noteRequest s.requests fairness pick)
      have first := amount_noteRequest_le (s := s) fairness pick t
      rw [← List.singleton_append, workOf_append]
      exact rest.trans (by omega)

theorem fairness_place (s : Impl) (bid : BatchId) (key : CompatibilityKey)
    (pick : RequestId) :
    (s.place bid key pick).fairness =
      noteRequest s.requests s.fairness pick := by
  unfold place addMemberToBatch noteRequest
  cases s.requests[pick]? with
  | none => rfl
  | some r => rfl

end Work

/-! Two runs of the filling loop, side by side. -/

section Lockstep

variable {policy : BatchPolicy} {bid bid' : BatchId} {key : CompatibilityKey}
  {now : TimePoint}

theorem fillPicks_lockstep
    {Lock : Impl → List RequestId → Impl → List RequestId → Prop}
    (agree : ∀ u cands u' cands', Lock u cands u' cands' →
      u'.fillPick policy bid' cands' now = u.fillPick policy bid cands now)
    (kept : ∀ u cands u' cands' pick, Lock u cands u' cands' →
      u.fillPick policy bid cands now = some pick →
      Lock (u.place bid key pick) (cands.filter (· ≠ pick))
        (u'.place bid' key pick) (cands'.filter (· ≠ pick)))
    (fuel : Nat) {u u' : Impl} {cands cands' : List RequestId}
    (lock : Lock u cands u' cands') :
    fillPicks policy bid' key now fuel u' cands' =
      fillPicks policy bid key now fuel u cands := by
  induction fuel generalizing u u' cands cands' with
  | zero => rfl
  | succ fuel induction =>
      unfold fillPicks
      rw [agree u cands u' cands' lock]
      cases picked : u.fillPick policy bid cands now with
      | none => rfl
      | some pick =>
          exact congrArg (pick :: ·)
            (induction (kept u cands u' cands' pick lock picked))

theorem mem_of_fillPicks (fuel : Nat) {u : Impl} {cands : List RequestId}
    {id : RequestId} (placed : id ∈ fillPicks policy bid key now fuel u cands) :
    id ∈ cands := by
  induction fuel generalizing u cands with
  | zero => cases placed
  | succ fuel induction =>
      unfold fillPicks at placed
      cases picked : u.fillPick policy bid cands now with
      | none =>
          rw [picked] at placed
          cases placed
      | some pick =>
          rw [picked] at placed
          rcases List.mem_cons.mp placed with rfl | later
          · exact (fillPick_cases picked).elim fun _ found => found.2.1
          · exact List.mem_of_mem_filter (induction later)

theorem nodup_fillPicks (fuel : Nat) (u : Impl) (cands : List RequestId) :
    (fillPicks policy bid key now fuel u cands).Nodup := by
  induction fuel generalizing u cands with
  | zero => exact List.nodup_nil
  | succ fuel induction =>
      unfold fillPicks
      cases picked : u.fillPick policy bid cands now with
      | none => exact List.nodup_nil
      | some pick =>
          refine List.nodup_cons.mpr ⟨?_, induction _ _⟩
          intro again
          have listed := mem_of_fillPicks fuel again
          exact of_decide_eq_true (List.mem_filter.mp listed).2 rfl

end Lockstep

end BatchFabric.Impl
