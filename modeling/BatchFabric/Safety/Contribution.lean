import BatchFabric.Budget
import BatchFabric.Safety.ContentRule

namespace BatchFabric

open OrderedMap

/-! The limit on one tenant's members of a batch. Filling respects it, and of
all later changes only merges take members together. -/

/-- The members of a list that belong to a tenant. -/
def contribution (requests : Map RequestId RequestRec)
    (members : List RequestId) (t : TenantId) : Nat :=
  members.countP fun m =>
    match requests[m]? with
    | none => false
    | some r => r.metadata.tenant == t

section Counts

variable {requests requests' : Map RequestId RequestRec}

theorem contribution_congr {members : List RequestId}
    (same : ∀ m ∈ members, (requests'[m]?).map (·.metadata) =
      (requests[m]?).map (·.metadata)) (t : TenantId) :
    contribution requests' members t = contribution requests members t := by
  unfold contribution
  apply List.countP_congr
  intro m member
  have metadata := same m member
  cases found : requests[m]? with
  | none =>
      rw [found, Option.map_none, Option.map_eq_none_iff] at metadata
      rw [metadata]
  | some r =>
      rw [found] at metadata
      obtain ⟨r', found', equal⟩ := Option.map_eq_some_iff.mp metadata
      rw [found']
      dsimp only
      rw [equal]

theorem contribution_append (first second : List RequestId) (t : TenantId) :
    contribution requests (first ++ second) t =
      contribution requests first t + contribution requests second t :=
  List.countP_append

theorem contribution_le_of_sublist {fewer more : List RequestId}
    (sublist : fewer.Sublist more) (t : TenantId) :
    contribution requests fewer t ≤ contribution requests more t :=
  sublist.countP_le

theorem contribution_singleton {m : RequestId} {r : RequestRec}
    (found : requests[m]? = some r) (t : TenantId) :
    contribution requests [m] t = if r.metadata.tenant = t then 1 else 0 := by
  by_cases same : r.metadata.tenant = t
  · simp [contribution, found, same]
  · simp [contribution, found, same]

end Counts

namespace Impl

/-- No tenant has more members than the limit in a batch that goes on. -/
def WithinContribution (policy : BatchPolicy) (s : Impl) : Prop :=
  Everywhere s.batches fun _ b => isBatchTerminal b.state = false →
    ∀ t, contribution s.requests b.members t ≤
      policy.fairness.maxContributionPerBatch.toNat

/-- The members of the two batches respect the limit together. A batch merged
with itself is superseded. -/
def contributionsFit (policy : BatchPolicy) (s : Impl)
    (pair : BatchId × BatchId) : Bool :=
  let both := s.membersOf pair.1 ++ s.membersOf pair.2
  pair.1 == pair.2 ||
    both.all fun m => decide (contribution s.requests both (s.tenantOf m) ≤
      policy.fairness.maxContributionPerBatch.toNat)

/-- It is enough to look at the tenants that have members. -/
theorem contribution_le_of_tenants {s : Impl} {members : List RequestId}
    {limit : Nat}
    (fits : ∀ m ∈ members,
      contribution s.requests members (s.tenantOf m) ≤ limit) (t : TenantId) :
    contribution s.requests members t ≤ limit := by
  by_cases none : contribution s.requests members t = 0
  · rw [none]
    exact Nat.zero_le limit
  · obtain ⟨m, member, counted⟩ :=
      List.countP_pos_iff.mp (Nat.pos_of_ne_zero none)
    cases found : s.requests[m]? with
    | none => simp [found] at counted
    | some r =>
        have tenant : s.tenantOf m = t := by
          simpa [tenantOf, found] using counted
        rw [← tenant]
        exact fits m member

theorem contribution_lt_of_fillable {policy : BatchPolicy} {s : Impl}
    {b : BatchRec} {now : TimePoint} {id : RequestId} {r : RequestRec}
    (limited : policy.fairness.maxContributionPerBatch ≠ 0)
    (within : contribution s.requests b.members r.metadata.tenant ≤
      policy.fairness.maxContributionPerBatch.toNat)
    (fillable : s.fillable policy b now id = true)
    (found : s.requests[id]? = some r) :
    contribution s.requests b.members r.metadata.tenant <
      policy.fairness.maxContributionPerBatch.toNat := by
  unfold Impl.fillable at fillable
  rw [found] at fillable
  simp only [passes_iff_not] at fillable
  have below : s.countTenant b r.metadata.tenant <
      policy.fairness.maxContributionPerBatch := by
    simpa [limited] using fillable.2.2.2.1
  have counted : (s.countTenant b r.metadata.tenant).toNat =
      contribution s.requests b.members r.metadata.tenant :=
    UInt32.toNat_ofNat_of_lt'
      (Nat.lt_of_le_of_lt within (UInt32.toNat_lt _))
  rw [← counted]
  exact UInt32.lt_iff_toNat_lt.mp below

theorem contributionRule (policy : BatchPolicy)
    (limited : policy.fairness.maxContributionPerBatch ≠ 0) :
    ContentRule policy (contributionsFit policy) fun requests b =>
      isBatchTerminal b.state = false → ∀ t,
        contribution requests b.members t ≤
          policy.fairness.maxContributionPerBatch.toNat where
  congr members _ ends same within going t := by
    rw [members, contribution_congr same t]
    apply within
    cases ended : isBatchTerminal _ with
    | false => rfl
    | true =>
        rw [ends ended] at going
        cases going
  empty requests b none _ _ t := by
    rw [none]
    exact Nat.zero_le _
  join s bid key pick now b r _ placing within going t := by
    have held := within going
    have room := contribution_lt_of_fillable limited
      (held r.metadata.tenant) placing.fillable placing.request
    show contribution s.requests (b.members ++ [pick]) t ≤ _
    rw [contribution_append, contribution_singleton placing.request]
    split
    · next same =>
        rw [← same]
        exact room
    · exact held t
  part requests b b' going part _ within _ t :=
    Nat.le_trans (contribution_le_of_sublist part t) (within going t)
  absorb s aid bid a b target first second possible allows _ _ members _ state
      going t := by
    by_cases same : aid = bid
    · rw [state, if_pos same] at going
      cases going
    · have fits : ∀ m ∈ target.members, contribution s.requests target.members
          (s.tenantOf m) ≤ policy.fairness.maxContributionPerBatch.toNat := by
        rw [members, List.forall_mem_append]
        simpa [contributionsFit, membersOf, first, second, same] using allows
      exact contribution_le_of_tenants fits t

/-- The limit holds in every run whose merges respect it. -/
theorem withinContribution_of_run (policy : BatchPolicy) (ops : List Op)
    (limited : policy.fairness.maxContributionPerBatch ≠ 0)
    (guarded : Transition.Along (BatchFabric.step policy)
      (KeepsContents policy (contributionsFit policy)) fresh ops) :
    (run policy ops).WithinContribution policy :=
  (contributionRule policy limited).of_run ops guarded

/-- Batches of two tenants are merged. -/
theorem withinContribution_of_two_tenants :
    (run { fairness.maxContributionPerBatch := 1 }
      [.submit minimalRequest 0, .tick [] 1,
        .submit { minimalRequest with tenant := { value := 1 } } 2,
        .tick [] 3]).WithinContribution
        { fairness.maxContributionPerBatch := 1 } :=
  withinContribution_of_run _ _ (by decide) (by
    rw [step_eq_stepKnown .minimal]
    decide +kernel)

/-- A tick merges two batches of one tenant. -/
theorem not_withinContribution_of_merged :
    ¬ ∀ (policy : BatchPolicy) (ops : List Op),
      policy.fairness.maxContributionPerBatch ≠ 0 →
        (run policy ops).WithinContribution policy := by
  intro within
  let policy : BatchPolicy := { fairness.maxContributionPerBatch := 1 }
  let ops : List Op := [.submit minimalRequest 0, .tick [] 1,
    .submit minimalRequest 2, .tick [] 3]
  have exceeded : ((run policy ops).batches[({ value := 1 } : BatchId)]?).any
      (fun b => !isBatchTerminal b.state && decide
        (1 < contribution (run policy ops).requests b.members .null)) =
      true := by
    rw [run_eq_runKnown .minimal]
    decide +kernel
  obtain ⟨b, found, above⟩ := (Option.any_eq_true _ _).mp exceeded
  obtain ⟨going, above⟩ := Bool.and_eq_true_iff.mp above
  exact Nat.not_le.mpr (of_decide_eq_true above)
    (within policy ops (by decide) _ b found
      (Bool.not_eq_true' _ ▸ going) .null)

end Impl

end BatchFabric
