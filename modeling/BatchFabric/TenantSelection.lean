import BatchFabric.Fairness
import Mathlib.Algebra.Order.Field.Rat
import Mathlib.Data.Prod.Lex
import Mathlib.Tactic.Positivity

/-! Which tenant is served next: the one with the least served for its weight,
and of those the one with the least identifier. -/

namespace BatchFabric.FairnessController

/-- The weight a comparison uses. -/
def divisor (policy : FairnessPolicy) (t : TenantId) : Nat :=
  if policy.weight t = 0 then 1 else (policy.weight t).toNat

/-- What a tenant was served for each unit of its weight. -/
def share (fairness : FairnessController) (policy : FairnessPolicy)
    (t : TenantId) : ℚ :=
  (amount fairness.served t).toNat / divisor policy t

/-- Tenants in the order they are chosen. -/
def rank (fairness : FairnessController) (policy : FairnessPolicy)
    (t : TenantId) : ℚ ×ₗ ℕ :=
  toLex (fairness.share policy t, t.value)

theorem divisor_pos (policy : FairnessPolicy) (t : TenantId) :
    0 < divisor policy t := by
  unfold divisor
  split
  · exact Nat.one_pos
  · next positive =>
      apply Nat.pos_of_ne_zero
      intro zero
      exact positive (UInt32.toNat_inj.mp zero)

theorem isMoreUnderServed_iff (fairness : FairnessController)
    (policy : FairnessPolicy) (a b : TenantId) :
    isMoreUnderServed (amount fairness.served a) (policy.weight a)
        (amount fairness.served b) (policy.weight b) = true ↔
      fairness.share policy a < fairness.share policy b := by
  have weights : ∀ t, (if policy.weight t = 0 then 1
      else policy.weight t).toNat = divisor policy t := by
    intro t
    unfold divisor
    split <;> rfl
  have positive : ∀ t, (0 : ℚ) < divisor policy t := by
    intro t
    exact_mod_cast divisor_pos policy t
  unfold isMoreUnderServed share
  dsimp only
  rw [decide_eq_true_iff, weights, weights,
    div_lt_div_iff₀ (positive a) (positive b)]
  exact_mod_cast Iff.rfl

theorem rank_lt_iff (fairness : FairnessController) (policy : FairnessPolicy)
    (a b : TenantId) : fairness.rank policy a < fairness.rank policy b ↔
      fairness.share policy a < fairness.share policy b ∨
        (fairness.share policy a = fairness.share policy b ∧
          a.value < b.value) :=
  Prod.Lex.toLex_lt_toLex

/-- The better of two tenants is the one of lower rank. -/
theorem moreUnderServed_eq_ite (fairness : FairnessController)
    (policy : FairnessPolicy) (best candidate : TenantId) :
    fairness.moreUnderServed policy best candidate =
      if fairness.rank policy candidate < fairness.rank policy best then
        candidate
      else best := by
  have under : ∀ a b, isMoreUnderServed (amount fairness.served a)
      (policy.weight a) (amount fairness.served b) (policy.weight b) =
        decide (fairness.share policy a < fairness.share policy b) := by
    intro a b
    rw [Bool.eq_iff_iff, isMoreUnderServed_iff, decide_eq_true_iff]
  unfold moreUnderServed
  dsimp only
  rw [under, under]
  simp only [rank_lt_iff]
  rcases lt_trichotomy (fairness.share policy candidate)
      (fairness.share policy best) with less | equal | greater
  · simp [less, less.not_gt]
  · simp [equal]
  · simp [greater, greater.not_gt, greater.ne']

/-- The tenant chosen ranks no higher than any candidate. -/
theorem rank_selectNext_le (fairness : FairnessController)
    (policy : FairnessPolicy) {candidates : List TenantId} {t : TenantId}
    (member : t ∈ candidates) :
    fairness.rank policy (fairness.selectNext policy candidates) ≤
      fairness.rank policy t := by
  have folded : ∀ (rest : List TenantId) (best : TenantId),
      ∀ t ∈ best :: rest, fairness.rank policy
        (rest.foldl (fairness.moreUnderServed policy) best) ≤
          fairness.rank policy t := by
    intro rest
    induction rest with
    | nil =>
        intro best t member
        rw [List.mem_singleton.mp member]
        exact le_refl _
    | cons head tail induction =>
        intro best t member
        rw [List.foldl_cons]
        have first := induction (fairness.moreUnderServed policy best head) _
          List.mem_cons_self
        rw [moreUnderServed_eq_ite] at first ⊢
        rcases List.mem_cons.mp member with same | member
        · subst same
          apply first.trans
          split
          · next lower => exact lower.le
          · exact le_refl _
        · rcases List.mem_cons.mp member with same | later
          · subst same
            apply first.trans
            split
            · exact le_refl _
            · next notLower => exact not_lt.mp notLower
          · exact induction _ t (List.mem_cons_of_mem _ later)
  cases candidates with
  | nil => cases member
  | cons first rest => exact folded rest first t member

theorem share_selectNext_le (fairness : FairnessController)
    (policy : FairnessPolicy) {candidates : List TenantId} {t : TenantId}
    (member : t ∈ candidates) :
    fairness.share policy (fairness.selectNext policy candidates) ≤
      fairness.share policy t := by
  rcases Prod.Lex.toLex_le_toLex.mp
      (fairness.rank_selectNext_le policy member) with less | ⟨equal, _⟩
  · exact less.le
  · exact equal.le

theorem eq_of_rank_le (fairness : FairnessController)
    (policy : FairnessPolicy) {a b : TenantId}
    (first : fairness.rank policy a ≤ fairness.rank policy b)
    (second : fairness.rank policy b ≤ fairness.rank policy a) : a = b := by
  have same : fairness.rank policy a = fairness.rank policy b :=
    le_antisymm first second
  exact Identifier.eq_of_value_eq (congrArg (fun rank => (ofLex rank).2) same)

/-- The candidates in another order lead to the same choice. -/
theorem selectNext_perm (fairness : FairnessController)
    (policy : FairnessPolicy) {candidates permuted : List TenantId}
    (same : permuted.Perm candidates) (nonempty : candidates ≠ []) :
    fairness.selectNext policy permuted =
      fairness.selectNext policy candidates := by
  have permutedNonempty : permuted ≠ [] := by
    rintro rfl
    exact nonempty same.nil_eq.symm
  apply fairness.eq_of_rank_le policy
  · apply fairness.rank_selectNext_le policy
    exact same.mem_iff.mpr (fairness.selectNext_mem policy nonempty)
  · apply fairness.rank_selectNext_le policy
    exact same.mem_iff.mp (fairness.selectNext_mem policy permutedNonempty)

/-- The tenant chosen is a candidate with the smallest share, the one of least
identifier among those, whatever order the candidates are in. -/
theorem selectNext_weightedMinimum (fairness : FairnessController)
    (policy : FairnessPolicy) (candidates : List TenantId)
    (nonempty : candidates ≠ []) :
    fairness.selectNext policy candidates ∈ candidates ∧
    (∀ t ∈ candidates,
      fairness.share policy (fairness.selectNext policy candidates) ≤
          fairness.share policy t ∧
        (fairness.share policy t =
            fairness.share policy (fairness.selectNext policy candidates) →
          (fairness.selectNext policy candidates).value ≤ t.value)) ∧
    ∀ permuted : List TenantId, permuted.Perm candidates →
      fairness.selectNext policy permuted =
        fairness.selectNext policy candidates := by
  refine ⟨fairness.selectNext_mem policy nonempty, ?_,
    fun permuted same => fairness.selectNext_perm policy same nonempty⟩
  intro t member
  refine ⟨fairness.share_selectNext_le policy member, ?_⟩
  intro tie
  rcases Prod.Lex.toLex_le_toLex.mp
      (fairness.rank_selectNext_le policy member) with less | ⟨_, least⟩
  · exact absurd tie less.ne'
  · exact least

/-- Two tenants that were never served, one of weight zero. -/
theorem selectNext_of_unserved :
    let policy : FairnessPolicy :=
      { weights := (∅ : Map TenantId UInt32).insert { value := 2 } 0 }
    let chosen := ({} : FairnessController).selectNext policy
      [{ value := 2 }, { value := 1 }]
    chosen ∈ [({ value := 2 } : TenantId), { value := 1 }] ∧
    (∀ t ∈ [({ value := 2 } : TenantId), { value := 1 }],
      share {} policy chosen ≤ share {} policy t ∧
        (share {} policy t = share {} policy chosen →
          chosen.value ≤ t.value)) ∧
    ∀ permuted : List TenantId,
      permuted.Perm [{ value := 2 }, { value := 1 }] →
        ({} : FairnessController).selectNext policy permuted = chosen :=
  selectNext_weightedMinimum {} _ _ (by exact nofun)

end BatchFabric.FairnessController
