import BatchFabric.Safety.ConsecutivePlacements
import Mathlib.Tactic.Linarith
import Mathlib.Tactic.NormNum

/-! How far two tenants that compete for a batch drift apart in what they are
served for their weight. -/

namespace BatchFabric

namespace FairnessController

theorem share_notePlaced (fairness : FairnessController)
    (policy : FairnessPolicy) {t : TenantId} {work : UInt64}
    (fits : (amount fairness.served t).toNat + work.toNat < 2 ^ 64) :
    (fairness.notePlaced t work).share policy t =
      fairness.share policy t + work.toNat / divisor policy t := by
  have sum : (amount fairness.served t + work).toNat =
      (amount fairness.served t).toNat + work.toNat := by
    rw [UInt64.toNat_add, Nat.mod_eq_of_lt fits]
  have served : amount (fairness.notePlaced t work).served t =
      amount fairness.served t + work := by
    unfold notePlaced
    rw [amount_insert, if_pos rfl]
  unfold share
  rw [served, sum, Nat.cast_add, add_div]

theorem share_notePlaced_of_ne (fairness : FairnessController)
    (policy : FairnessPolicy) {t other : TenantId} (different : t ≠ other)
    (work : UInt64) :
    (fairness.notePlaced t work).share policy other =
      fairness.share policy other := by
  have served : amount (fairness.notePlaced t work).served other =
      amount fairness.served other := by
    unfold notePlaced
    rw [amount_insert, if_neg different]
  unfold share
  rw [served]

/-- Serving a tenant that is behind both others, or one of them, by no more
than the bound, keeps the two within it. -/
theorem gap_notePlaced {fairness : FairnessController}
    {policy : FairnessPolicy} {a b t : TenantId} {work : UInt64} {M : ℚ}
    (within : |fairness.share policy a - fairness.share policy b| ≤ M)
    (behindA : fairness.share policy t ≤ fairness.share policy a)
    (behindB : fairness.share policy t ≤ fairness.share policy b)
    (small : t = a ∨ t = b → (work.toNat : ℚ) / divisor policy t ≤ M)
    (fits : t = a ∨ t = b →
      (amount fairness.served t).toNat + work.toNat < 2 ^ 64) :
    |(fairness.notePlaced t work).share policy a -
      (fairness.notePlaced t work).share policy b| ≤ M := by
  have added : (0 : ℚ) ≤ work.toNat / divisor policy t := by positivity
  have bounds := abs_le.mp within
  rw [abs_le]
  by_cases isA : t = a
  · subst isA
    rw [share_notePlaced _ _ (fits (.inl rfl))]
    by_cases isB : t = b
    · subst isB
      rw [share_notePlaced _ _ (fits (.inl rfl))]
      constructor <;> linarith
    · rw [share_notePlaced_of_ne _ _ isB]
      have step := small (.inl rfl)
      constructor <;> linarith
  · rw [share_notePlaced_of_ne _ _ isA]
    by_cases isB : t = b
    · subst isB
      rw [share_notePlaced _ _ (fits (.inr rfl))]
      have step := small (.inr rfl)
      constructor <;> linarith
    · rw [share_notePlaced_of_ne _ _ isB]
      exact bounds

end FairnessController

namespace Impl

open FairnessController (amount divisor)

/-- What a tenant was served for each unit of its weight. -/
def servedPerWeight (policy : BatchPolicy) (s : Impl) (t : TenantId) : ℚ :=
  (amount s.fairness.served t).toNat / (policy.fairness.weight t).toNat

/-- Some candidate of the tenant may join the batch. -/
def Offers (policy : BatchPolicy) (s : Impl) (bid : BatchId)
    (cands : List RequestId) (now : TimePoint) (t : TenantId) : Prop :=
  ∃ b, s.batches[bid]? = some b ∧
    ∃ id ∈ cands, s.fillable policy b now id = true ∧ s.tenantOf id = t

instance (policy : BatchPolicy) (s : Impl) (bid : BatchId)
    (cands : List RequestId) (now : TimePoint) (t : TenantId) :
    Decidable (s.Offers policy bid cands now t) :=
  decidable_of_iff (((s.batches[bid]?).any fun b => cands.any fun id =>
      s.fillable policy b now id && s.tenantOf id == t) = true) <| by
    simp only [Option.any_eq_true, List.any_eq_true, Bool.and_eq_true,
      beq_iff_eq]
    rfl

theorem divisor_of_positive {policy : FairnessPolicy} {t : TenantId}
    (positive : policy.weight t ≠ 0) :
    divisor policy t = (policy.weight t).toNat :=
  if_neg positive

theorem servedPerWeight_eq {policy : BatchPolicy} {t : TenantId}
    (positive : policy.fairness.weight t ≠ 0) (s : Impl) :
    s.servedPerWeight policy t = s.fairness.share policy.fairness t := by
  unfold servedPerWeight FairnessController.share
  rw [divisor_of_positive positive]

/-- The tenant of a pick is behind every tenant that could have been served. -/
theorem Picked.share_le {policy : BatchPolicy} {s : Impl} {bid : BatchId}
    {cands : List RequestId} {now : TimePoint} {b : BatchRec}
    {pick : RequestId} (picked : Picked policy s cands now b pick)
    (batch : s.batches[bid]? = some b) {t : TenantId}
    (offers : s.Offers policy bid cands now t) :
    s.fairness.share policy.fairness (s.tenantOf pick) ≤
      s.fairness.share policy.fairness t := by
  obtain ⟨b', batch', id, member, fillable, rfl⟩ := offers
  rw [batch] at batch'
  cases batch'
  rcases Prod.Lex.toLex_le_toLex.mp (picked.tenant id member fillable) with
    less | ⟨equal, _⟩
  · exact less.le
  · exact equal.le

section Bound

variable {policy : BatchPolicy} {a b : TenantId} {M : ℚ}

/-- How far two tenants are apart in what they were served for their weight. -/
def servedGap (policy : BatchPolicy) (s : Impl) (a b : TenantId) : ℚ :=
  |s.servedPerWeight policy a - s.servedPerWeight policy b|

theorem servedGap_eq (positiveA : policy.fairness.weight a ≠ 0)
    (positiveB : policy.fairness.weight b ≠ 0) (s : Impl) :
    s.servedGap policy a b =
      |s.fairness.share policy.fairness a -
        s.fairness.share policy.fairness b| := by
  unfold servedGap
  rw [servedPerWeight_eq positiveA, servedPerWeight_eq positiveB]

theorem servedGap_congr {s s' : Impl}
    (served : s.fairness.served = s'.fairness.served) :
    s.servedGap policy a b = s'.servedGap policy a b := by
  unfold servedGap servedPerWeight
  rw [served]

/-- A placement at which both tenants could be served, of a request that is no
larger than the bound when it is one of theirs. -/
structure Contested (policy : BatchPolicy) (a b : TenantId) (M : ℚ)
    (p : Placement) : Prop where
  offered : ∀ t ∈ [a, b], p.state.Offers policy p.batch p.candidates p.now t
  small : ∀ r, p.state.requests[p.pick]? = some r →
    r.metadata.tenant = a ∨ r.metadata.tenant = b →
      (r.metadata.work.value.toNat : ℚ) /
        (policy.fairness.weight r.metadata.tenant).toNat ≤ M
  unwrapped : ∀ r, p.state.requests[p.pick]? = some r →
    r.metadata.tenant = a ∨ r.metadata.tenant = b →
      (amount p.state.fairness.served r.metadata.tenant).toNat +
        r.metadata.work.value.toNat < 2 ^ 64

/-- One placement keeps the bound. -/
theorem Contested.servedGap_le {p : Placement}
    (contested : Contested policy a b M p)
    (positiveA : policy.fairness.weight a ≠ 0)
    (positiveB : policy.fairness.weight b ≠ 0)
    (chosen : p.state.fillPick policy p.batch p.candidates p.now =
      some p.pick)
    (within : p.state.servedGap policy a b ≤ M) :
    p.after.servedGap policy a b ≤ M := by
  obtain ⟨batch, found, picked⟩ := picked_of_fillPick chosen
  obtain ⟨r, request, _⟩ := fillable_cases picked.fillable
  have tenant : p.state.tenantOf p.pick = r.metadata.tenant := by
    unfold tenantOf
    rw [request]
  have behindA := picked.share_le found
    (contested.offered a List.mem_cons_self)
  have behindB := picked.share_le found
    (contested.offered b (List.mem_cons_of_mem a List.mem_cons_self))
  rw [tenant] at behindA behindB
  rw [servedGap_eq positiveA positiveB] at within ⊢
  unfold Placement.after
  rw [place_eq request]
  apply FairnessController.gap_notePlaced within behindA behindB
  · intro either
    have positive : policy.fairness.weight r.metadata.tenant ≠ 0 := by
      rcases either with same | same
      · rw [same]
        exact positiveA
      · rw [same]
        exact positiveB
    rw [divisor_of_positive positive]
    exact contested.small r request either
  · exact contested.unwrapped r request

theorem servedGap_le_of_consecutive
    (positiveA : policy.fairness.weight a ≠ 0)
    (positiveB : policy.fairness.weight b ≠ 0)
    {start finish : Map TenantId UInt64} {placed : List Placement}
    (consecutive : Consecutive policy start placed finish)
    (contested : ∀ p ∈ placed, Contested policy a b M p)
    (initially : ∀ p ∈ placed.head?, p.state.servedGap policy a b ≤ M) :
    ∀ p ∈ placed, p.after.servedGap policy a b ≤ M := by
  induction placed generalizing start with
  | nil => exact fun p member => absurd member List.not_mem_nil
  | cons p rest induction =>
      obtain ⟨⟨_, chosen⟩, later⟩ := consecutive
      have kept : p.after.servedGap policy a b ≤ M :=
        (contested p List.mem_cons_self).servedGap_le positiveA positiveB
          chosen (initially p rfl)
      have followed : ∀ q ∈ rest.head?, q.state.servedGap policy a b ≤ M := by
        cases rest with
        | nil => exact fun q absent => nomatch absent
        | cons next rest =>
            rintro q ⟨⟩
            rw [servedGap_congr later.1.1]
            exact kept
      have bounded := induction later
        (fun q member => contested q (List.mem_cons_of_mem p member)) followed
      intro q member
      rcases List.mem_cons.mp member with rfl | further
      · exact kept
      · exact bounded q further

/-- While both tenants could be served at every placement of a run, in whatever
batches and ticks they are made, the difference of what they are served for
their weight stays within any bound that holds at first and that no request of
theirs exceeds. -/
theorem servedPerWeight_gap_le {ops : List Op}
    {before middle after : List Placement}
    (positiveA : policy.fairness.weight a ≠ 0)
    (positiveB : policy.fairness.weight b ≠ 0)
    (placed : runPlacements policy ops = before ++ middle ++ after)
    (contested : ∀ p ∈ middle, Contested policy a b M p)
    (initially : ∀ p ∈ middle.head?,
      |p.state.servedPerWeight policy a - p.state.servedPerWeight policy b| ≤
        M) :
    ∀ p ∈ middle,
      |p.after.servedPerWeight policy a - p.after.servedPerWeight policy b| ≤
        M := by
  have whole := (ServesBy.run ops : ServesBy policy _ _ _).consecutive
  rw [placed] at whole
  obtain ⟨_, inner, _⟩ := consecutive_append_iff.mp whole
  obtain ⟨_, _, consecutive⟩ := consecutive_append_iff.mp inner
  exact servedGap_le_of_consecutive positiveA positiveB consecutive contested
    initially

end Bound

/-- Two tenants share two batches that two ticks form. -/
theorem servedPerWeight_gap_of_two :
    ∃ (policy : BatchPolicy) (ops : List Op),
      (runPlacements policy ops).map (·.batch.value) = [1, 1, 2, 2] ∧
      ∀ p ∈ runPlacements policy ops,
        |p.after.servedPerWeight policy .null -
          p.after.servedPerWeight policy { value := 1 }| ≤ 1 := by
  obtain ⟨policy, isPolicy⟩ : ∃ policy : BatchPolicy,
      policy = { constraints.budget.maxRequests := 2 } := ⟨_, rfl⟩
  obtain ⟨ops, isOps⟩ : ∃ ops : List Op, ops =
    [.submit minimalRequest 0, .submit minimalRequest 0,
      .submit minimalRequest 0,
      .submit { minimalRequest with tenant := { value := 1 } } 0,
      .submit { minimalRequest with tenant := { value := 1 } } 0,
      .submit { minimalRequest with tenant := { value := 1 } } 0,
      .tick [] 1, .tick [] 2] := ⟨_, rfl⟩
  have weights : policy.fairness.weight .null = 1 ∧
      policy.fairness.weight { value := 1 } = 1 := by
    rw [isPolicy]
    decide
  have views : (runPlacements policy ops).map (·.batch.value) =
        [1, 1, 2, 2] ∧
      (∀ p ∈ (runPlacements policy ops).head?,
        amount p.state.fairness.served .null = 0 ∧
        amount p.state.fairness.served { value := 1 } = 0) ∧
      ∀ p ∈ runPlacements policy ops,
        (∀ t ∈ ([.null, { value := 1 }] : List TenantId),
          p.state.Offers policy p.batch p.candidates p.now t) ∧
        ((p.state.requests[p.pick]?).all fun r => decide (
          r.metadata.work.value = 1 ∧
          (amount p.state.fairness.served r.metadata.tenant).toNat ≤ 9)) =
            true := by
    unfold runPlacements
    rw [step_eq_stepKnown .minimal, isPolicy, isOps]
    decide +kernel
  obtain ⟨batches, first, along⟩ := views
  have placed : runPlacements policy ops =
      [] ++ runPlacements policy ops ++ [] := by
    rw [List.nil_append, List.append_nil]
  refine ⟨policy, ops, batches, ?_⟩
  refine servedPerWeight_gap_le (by rw [weights.1]; decide)
    (by rw [weights.2]; decide) placed ?_ ?_
  · intro p member
    obtain ⟨offered, known⟩ := along p member
    refine ⟨offered, ?_, ?_⟩
    · intro r request either
      rw [request] at known
      have work := (of_decide_eq_true known).1
      have unit : ((1 : UInt64).toNat : ℚ) / ((1 : UInt32).toNat : ℚ) ≤ 1 := by
        have numerator : (1 : UInt64).toNat = 1 := rfl
        have denominator : (1 : UInt32).toNat = 1 := rfl
        rw [numerator, denominator]
        norm_num
      rw [work]
      rcases either with same | same
      · rw [same, weights.1]
        exact unit
      · rw [same, weights.2]
        exact unit
    · intro r request _
      rw [request] at known
      obtain ⟨work, few⟩ := of_decide_eq_true known
      rw [work]
      exact Nat.lt_of_le_of_lt (Nat.add_le_add_right few _) (by decide)
  · intro p head
    obtain ⟨servedA, servedB⟩ := first p head
    unfold servedPerWeight
    rw [servedA, servedB, weights.1, weights.2]
    norm_num

end Impl

end BatchFabric
