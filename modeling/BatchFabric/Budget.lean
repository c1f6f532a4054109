import BatchFabric.Scheduler.Reshaping
import Mathlib.Algebra.Order.BigOperators.Group.List
import Mathlib.Algebra.Order.Group.Nat

/-! The five quantities of a budget, as exact totals over a member list. -/

namespace BatchFabric

inductive Dimension
  | requests
  | inputTokens
  | outputTokens
  | work
  | memory
  deriving DecidableEq

namespace Dimension

/-- What one request adds to a batch. -/
def amount : Dimension → RequestMetadata → Nat
  | .requests, _ => 1
  | .inputTokens, metadata => metadata.tokens.input.toNat
  | .outputTokens, metadata => metadata.tokens.output.toNat
  | .work, metadata => metadata.work.value.toNat
  | .memory, metadata => metadata.memoryBytes.toNat

def used : Dimension → BatchAccum → Nat
  | .requests, accum => accum.count.toNat
  | .inputTokens, accum => accum.inputTokens.toNat
  | .outputTokens, accum => accum.outputTokens.toNat
  | .work, accum => accum.work.toNat
  | .memory, accum => accum.memory.toNat

/-- Zero leaves the dimension unbounded. -/
def limit : Dimension → BatchBudget → Nat
  | .requests, budget => budget.maxRequests.toNat
  | .inputTokens, budget => budget.maxInputTokens.toNat
  | .outputTokens, budget => budget.maxOutputTokens.toNat
  | .work, budget => budget.maxWork.toNat
  | .memory, budget => budget.maxMemoryBytes.toNat

/-- Where the running total of a batch wraps. -/
def modulus : Dimension → Nat
  | .requests => 2 ^ 32
  | _ => 2 ^ 64

theorem used_lt (d : Dimension) (accum : BatchAccum) :
    d.used accum < d.modulus := by
  cases d with
  | requests => exact accum.count.toNat_lt
  | inputTokens => exact accum.inputTokens.toNat_lt
  | outputTokens => exact accum.outputTokens.toNat_lt
  | work => exact accum.work.toNat_lt
  | memory => exact accum.memory.toNat_lt

theorem limit_lt (d : Dimension) (budget : BatchBudget) :
    d.limit budget < d.modulus := by
  cases d with
  | requests => exact budget.maxRequests.toNat_lt
  | inputTokens => exact budget.maxInputTokens.toNat_lt
  | outputTokens => exact budget.maxOutputTokens.toNat_lt
  | work => exact budget.maxWork.toNat_lt
  | memory => exact budget.maxMemoryBytes.toNat_lt

theorem modulus_le (d : Dimension) : d.modulus ≤ 2 ^ 64 := by
  cases d <;> decide

/-- The exact total over the members that exist. -/
def total (d : Dimension) (requests : Map RequestId RequestRec)
    (members : List RequestId) : Nat :=
  (members.map fun m =>
    match requests[m]? with
    | none => 0
    | some r => d.amount r.metadata).sum

section Total

variable (d : Dimension) {requests requests' : Map RequestId RequestRec}

theorem total_append (first second : List RequestId) :
    d.total requests (first ++ second) =
      d.total requests first + d.total requests second := by
  unfold total
  rw [List.map_append, List.sum_append]

theorem total_singleton {m : RequestId} {r : RequestRec}
    (found : requests[m]? = some r) :
    d.total requests [m] = d.amount r.metadata := by
  simp [total, found]

theorem total_le_of_sublist {fewer more : List RequestId}
    (sublist : fewer.Sublist more) :
    d.total requests fewer ≤ d.total requests more :=
  List.Sublist.sum_le_sum (sublist.map _) fun _ _ => Nat.zero_le _

theorem total_congr {members : List RequestId}
    (same : ∀ m ∈ members, (requests'[m]?).map (·.metadata) =
      (requests[m]?).map (·.metadata)) :
    d.total requests' members = d.total requests members := by
  unfold total
  congr 1
  apply List.map_congr_left
  intro m member
  have metadata := same m member
  cases found : requests[m]? with
  | none =>
      rw [found, Option.map_none, Option.map_eq_none_iff] at metadata
      rw [metadata]
  | some r =>
      rw [found, Option.map_some] at metadata
      obtain ⟨r', found', equal⟩ := Option.map_eq_some_iff.mp metadata
      rw [found']
      exact congrArg d.amount equal

theorem total_requests {members : List RequestId}
    (known : ∀ m ∈ members, (requests[m]?).isSome = true) :
    Dimension.requests.total requests members = members.length := by
  induction members with
  | nil => rfl
  | cons m rest induction =>
      obtain ⟨r, found⟩ := Option.isSome_iff_exists.mp
        (known m List.mem_cons_self)
      rw [← List.singleton_append, total_append, total_singleton _ found,
        induction fun m' member => known m' (List.mem_cons_of_mem m member),
        List.length_append]
      rfl

end Total

end Dimension

theorem passes_iff_not {refused : Prop} [Decidable refused] {rest : Bool} :
    (if refused then false else rest) = true ↔ ¬ refused ∧ rest = true := by
  by_cases refuses : refused
  · simp [refuses]
  · simp [refuses]

/-- A check of one limit is passed below the limit, or without one. -/
theorem withinLimit_iff (limit total : UInt64) :
    (limit != 0 && decide (total > limit)) = false ↔
      (limit.toNat ≠ 0 → total.toNat ≤ limit.toNat) := by
  by_cases unbounded : limit = 0
  · subst unbounded
    simp
  · have bounded : limit.toNat ≠ 0 := by
      intro zero
      exact unbounded (UInt64.toNat_inj.mp zero)
    rw [Bool.and_eq_false_imp]
    constructor
    · intro passed _
      have below := of_decide_eq_false (passed (bne_iff_ne.mpr unbounded))
      exact Nat.not_lt.mp below
    · intro below _
      exact decide_eq_false (Nat.not_lt.mpr (below bounded))

/-- The count is compared at 64 bits, where it cannot wrap. -/
theorem countLimit_iff (limit cur add : UInt32) :
    (limit != 0 && decide
        (cur.toUInt64 + add.toUInt64 > limit.toUInt64)) = false ↔
      (limit.toNat ≠ 0 →
        (cur.toNat + add.toNat) % 2 ^ 64 ≤ limit.toNat) := by
  have widened : (limit != 0) = (limit.toUInt64 != 0) := by
    by_cases zero : limit = 0
    · subst zero
      rfl
    · have wide : limit.toUInt64 ≠ 0 := by
        intro same
        apply zero
        apply UInt32.toNat_inj.mp
        exact congrArg UInt64.toNat same
      rw [bne_iff_ne.mpr zero, bne_iff_ne.mpr wide]
  rw [widened, withinLimit_iff, UInt64.toNat_add]
  exact Iff.rfl

theorem allowsAdd_iff (budget : BatchBudget) (cur add : BatchAccum) :
    budget.allowsAdd cur add = true ↔ ∀ d : Dimension, d.limit budget ≠ 0 →
      (d.used cur + d.used add) % 2 ^ 64 ≤ d.limit budget := by
  unfold BatchBudget.allowsAdd
  dsimp only
  simp only [passes_iff_not, Bool.not_eq_true]
  rw [countLimit_iff, withinLimit_iff, withinLimit_iff,
    withinLimit_iff, withinLimit_iff, UInt64.toNat_add, UInt64.toNat_add,
    UInt64.toNat_add, UInt64.toNat_add]
  constructor
  · rintro ⟨requests, input, output, work, memory, _⟩ d
    cases d with
    | requests => exact requests
    | inputTokens => exact input
    | outputTokens => exact output
    | work => exact work
    | memory => exact memory
  · intro all
    exact ⟨all .requests, all .inputTokens, all .outputTokens, all .work,
      all .memory, trivial⟩

/-- Every limit is respected by the amounts. -/
def BatchBudget.Respects (budget : BatchBudget) (amounts : BatchAccum) :
    Prop :=
  ∀ d : Dimension, d.limit budget ≠ 0 → d.used amounts ≤ d.limit budget

/-- The test compares the exact sums. -/
def BatchBudget.TestExact (budget : BatchBudget) (cur add : BatchAccum) :
    Prop :=
  budget.allowsAdd cur add = true ↔ ∀ d : Dimension, d.limit budget ≠ 0 →
    d.used cur + d.used add ≤ d.limit budget

/-- No sum under a limit wraps, or one that does not is above its limit. -/
def BatchBudget.SumsTell (budget : BatchBudget) (cur add : BatchAccum) :
    Prop :=
  (∀ d : Dimension, d.limit budget ≠ 0 →
    d.used cur + d.used add < 2 ^ 64) ∨
  ∃ d : Dimension, d.limit budget ≠ 0 ∧
    d.used cur + d.used add < 2 ^ 64 ∧
    d.limit budget < d.used cur + d.used add

/-- Two amounts within a limit whose sum wraps seem to fit together. -/
theorem wrapped_le_limit {first second limit : Nat} (firstLow : first ≤ limit)
    (secondLow : second ≤ limit) (bounded : limit < 2 ^ 64)
    (wraps : 2 ^ 64 ≤ first + second) :
    (first + second) % 2 ^ 64 ≤ limit := by
  have once : (first + second) % 2 ^ 64 = first + second - 2 ^ 64 := by
    rw [Nat.mod_eq_sub_mod wraps, Nat.mod_eq_of_lt (by omega)]
  omega

theorem testExact_iff {budget : BatchBudget} {cur add : BatchAccum}
    (within : budget.Respects cur) (fits : budget.Respects add) :
    budget.TestExact cur add ↔ budget.SumsTell cur add := by
  unfold BatchBudget.TestExact BatchBudget.SumsTell
  rw [allowsAdd_iff]
  constructor
  · intro exactly
    by_cases small : ∀ d : Dimension, d.limit budget ≠ 0 →
        d.used cur + d.used add < 2 ^ 64
    · exact .inl small
    · -- Some sum wraps, so it is too large, and the test has to see it.
      obtain ⟨wrapping, large⟩ := not_forall.mp small
      obtain ⟨limited, wraps⟩ := Classical.not_imp.mp large
      have refused := fun passed => exactly.mp passed wrapping limited
      by_contra unseen
      rw [not_or] at unseen
      have passed : ∀ d : Dimension, d.limit budget ≠ 0 →
          (d.used cur + d.used add) % 2 ^ 64 ≤ d.limit budget := by
        intro d limited
        by_cases wraps : 2 ^ 64 ≤ d.used cur + d.used add
        · exact wrapped_le_limit (within d limited) (fits d limited)
            (Nat.lt_of_lt_of_le (d.limit_lt budget) d.modulus_le) wraps
        · have below := Nat.not_le.mp wraps
          rw [Nat.mod_eq_of_lt below]
          by_contra above
          exact unseen.2 ⟨d, limited, below, Nat.not_le.mp above⟩
      have bounded := Nat.lt_of_lt_of_le (wrapping.limit_lt budget)
        wrapping.modulus_le
      exact wraps (Nat.lt_of_le_of_lt (refused passed) bounded)
  · rintro (small | ⟨d, limited, below, above⟩)
    · apply forall_congr'
      intro d
      apply imp_congr_right
      intro limited
      rw [Nat.mod_eq_of_lt (small d limited)]
    · apply iff_of_false
      · intro passed
        have low := passed d limited
        rw [Nat.mod_eq_of_lt below] at low
        exact Nat.not_le.mpr above low
      · intro all
        exact Nat.not_le.mpr above (all d limited)

/-- A sum that reaches its limit exactly. -/
theorem testExact_at_limit :
    BatchBudget.TestExact { maxWork := 10 } { work := 4 } { work := 6 } :=
  (testExact_iff (by intro d; cases d <;> decide)
    (by intro d; cases d <;> decide)).mpr
    (.inl (by intro d; cases d <;> decide))

/-- A full batch takes one more unit of work. -/
theorem not_testExact_of_full :
    ¬ ∀ (budget : BatchBudget) (cur add : BatchAccum),
      budget.Respects cur → budget.Respects add →
        budget.TestExact cur add := by
  intro exactly
  have tested := exactly { maxWork := 2 ^ 64 - 1 } { work := 2 ^ 64 - 1 }
    { work := 1 } (by intro d; cases d <;> decide +kernel)
    (by intro d; cases d <;> decide +kernel)
  have passed : BatchBudget.allowsAdd { maxWork := 2 ^ 64 - 1 }
      { work := 2 ^ 64 - 1 } { work := 1 } = true := by
    decide +kernel
  exact absurd (tested.mp passed .work (by decide +kernel)) (by decide +kernel)

theorem oversized_iff (budget : BatchBudget) (metadata : RequestMetadata) :
    budget.oversized metadata = false ↔ ∀ d : Dimension, d.limit budget ≠ 0 →
      d.amount metadata ≤ d.limit budget := by
  unfold BatchBudget.oversized
  rw [Bool.or_eq_false_iff, Bool.or_eq_false_iff, Bool.or_eq_false_iff,
    Bool.or_eq_false_iff, withinLimit_iff, withinLimit_iff, withinLimit_iff,
    withinLimit_iff]
  constructor
  · rintro ⟨⟨⟨⟨_, input⟩, output⟩, work⟩, memory⟩ d
    cases d with
    | requests => exact Nat.one_le_iff_ne_zero.mpr
    | inputTokens => exact input
    | outputTokens => exact output
    | work => exact work
    | memory => exact memory
  · intro all
    refine ⟨⟨⟨⟨?_, all .inputTokens⟩, all .outputTokens⟩, all .work⟩,
      all .memory⟩
    -- A limit below one request is no limit.
    rw [Bool.and_eq_false_imp]
    intro bounded
    apply decide_eq_false
    intro below
    have none' : budget.maxRequests.toNat = 0 := Nat.lt_one_iff.mp below
    exact bne_iff_ne.mp bounded (UInt32.toNat_inj.mp none')

/-- Limits so low that two amounts within them never wrap when added. -/
structure BatchBudget.Modest (budget : BatchBudget) : Prop where
  requests : budget.maxRequests.toNat < 2 ^ 31
  inputTokens : budget.maxInputTokens.toNat < 2 ^ 63
  outputTokens : budget.maxOutputTokens.toNat < 2 ^ 63
  work : budget.maxWork.toNat < 2 ^ 63
  memory : budget.maxMemoryBytes.toNat < 2 ^ 63

theorem BatchBudget.Modest.exact {budget : BatchBudget}
    (modest : budget.Modest) (d : Dimension) {first second : Nat}
    (firstLow : first ≤ d.limit budget) (secondLow : second ≤ d.limit budget) :
    first + second < d.modulus ∧ first + second < 2 ^ 64 := by
  have twice : d.limit budget + d.limit budget < d.modulus ∧
      d.limit budget + d.limit budget < 2 ^ 64 := by
    obtain ⟨requests, input, output, work, memory⟩ := modest
    cases d with
    | requests =>
        simp only [Dimension.limit, Dimension.modulus]
        omega
    | _ =>
        simp only [Dimension.limit, Dimension.modulus]
        omega
  have low := Nat.add_le_add firstLow secondLow
  exact ⟨Nat.lt_of_le_of_lt low twice.1, Nat.lt_of_le_of_lt low twice.2⟩

/-! The running totals a batch keeps. -/

/-- What one member adds to the totals. -/
def BatchAccum.addAmounts (accum : BatchAccum) (metadata : RequestMetadata) :
    BatchAccum where
  count := accum.count + 1
  inputTokens := accum.inputTokens + metadata.tokens.input
  outputTokens := accum.outputTokens + metadata.tokens.output
  work := accum.work + metadata.work.value
  memory := accum.memory + metadata.memoryBytes

theorem used_addAmounts (d : Dimension) (accum : BatchAccum)
    (metadata : RequestMetadata) :
    d.used (accum.addAmounts metadata) =
      (d.used accum + d.amount metadata) % d.modulus := by
  cases d with
  | requests => exact UInt32.toNat_add accum.count 1
  | inputTokens => exact UInt64.toNat_add _ _
  | outputTokens => exact UInt64.toNat_add _ _
  | work => exact UInt64.toNat_add _ _
  | memory => exact UInt64.toNat_add _ _

theorem used_accumOf (d : Dimension) (requests : Map RequestId RequestRec)
    (members : List RequestId) :
    d.used (accumOf requests members) =
      d.total requests members % d.modulus := by
  have folded : ∀ (members : List RequestId) (accum : BatchAccum),
      d.used (members.foldl (fun accum m =>
          match requests[m]? with
          | none => accum
          | some r => accum.addAmounts r.metadata) accum) =
        (d.used accum + d.total requests members) % d.modulus := by
    intro members
    induction members with
    | nil =>
        intro accum
        exact (Nat.mod_eq_of_lt (d.used_lt accum)).symm
    | cons m rest induction =>
        intro accum
        rw [List.foldl_cons, induction, ← List.singleton_append,
          d.total_append, ← Nat.add_assoc]
        cases found : requests[m]? with
        | none => simp [Dimension.total, found]
        | some r =>
            dsimp only
            rw [used_addAmounts, d.total_singleton found, Nat.mod_add_mod]
  have zero : d.used ({} : BatchAccum) = 0 := by
    cases d <;> rfl
  have total := folded members {}
  rw [zero, Nat.zero_add] at total
  exact total

/-- A merge is checked with the wrapped sums of the running totals. -/
theorem allowsAdd_of_canMerge {policy : BatchPolicy} {a b : BatchRec}
    (possible : Impl.canMerge policy a b = true) :
    ∃ sum : BatchAccum,
      (∀ d : Dimension,
        d.used sum = (d.used a.accum + d.used b.accum) % d.modulus) ∧
      policy.constraints.budget.allowsAdd {} sum = true := by
  unfold Impl.canMerge at possible
  simp only [passes_iff_not] at possible
  refine ⟨_, ?_, possible.2.2.2.2.2⟩
  intro d
  cases d with
  | requests => exact UInt32.toNat_add _ _
  | _ => exact UInt64.toNat_add _ _

/-- The totals of a batch are those of its members, and no limit is exceeded. -/
structure Measured (budget : BatchBudget)
    (requests : Map RequestId RequestRec) (b : BatchRec) : Prop where
  balanced : ∀ d : Dimension,
    d.used b.accum = d.total requests b.members % d.modulus
  bounded : ∀ d : Dimension, d.limit budget ≠ 0 →
    d.total requests b.members ≤ d.limit budget

namespace Measured

variable {budget : BatchBudget} {requests requests' : Map RequestId RequestRec}
  {b b' : BatchRec}

theorem congr (measured : Measured budget requests b)
    (members : b'.members = b.members) (accum : b'.accum = b.accum)
    (same : ∀ m ∈ b.members, (requests'[m]?).map (·.metadata) =
      (requests[m]?).map (·.metadata)) : Measured budget requests' b' where
  balanced d := by
    rw [members, accum, d.total_congr same]
    exact measured.balanced d
  bounded d limited := by
    rw [members, d.total_congr same]
    exact measured.bounded d limited

theorem recompute
    (bounded : ∀ d : Dimension, d.limit budget ≠ 0 →
      d.total requests b.members ≤ d.limit budget) :
    Measured budget requests (recomputeAccum requests b) where
  balanced d := used_accumOf d requests b.members
  bounded := bounded

/-- The recomputed totals of a part of the members. -/
theorem recompute_part (measured : Measured budget requests b)
    (part : b'.members.Sublist b.members) :
    Measured budget requests (recomputeAccum requests b') :=
  recompute fun d limited => Nat.le_trans (d.total_le_of_sublist part)
    (measured.bounded d limited)

/-- The running total of a limited dimension is exact. -/
theorem used_eq (measured : Measured budget requests b)
    (modest : budget.Modest) {d : Dimension} (limited : d.limit budget ≠ 0) :
    d.used b.accum = d.total requests b.members := by
  rw [measured.balanced d]
  have low := measured.bounded d limited
  exact Nat.mod_eq_of_lt (modest.exact d low (Nat.zero_le _)).1

/-- A member that fits on its own and passes the check may be added. -/
theorem addMember (measured : Measured budget requests b)
    (modest : budget.Modest) {id : RequestId} {r : RequestRec}
    (found : requests[id]? = some r)
    (known : ∀ m ∈ b.members, (requests[m]?).isSome = true)
    (fits : budget.oversized r.metadata = false)
    (allowed : budget.allowsAdd b.accum
      (r.toCandidate id).amounts = true) :
    Measured budget requests (b.addMember id r.metadata) := by
  have amounts : ∀ d : Dimension,
      d.used (r.toCandidate id).amounts = d.amount r.metadata := by
    intro d
    cases d <;> rfl
  have total : ∀ d : Dimension,
      d.total requests (b.addMember id r.metadata).members =
        d.total requests b.members + d.amount r.metadata := by
    intro d
    rw [← d.total_singleton found]
    exact d.total_append b.members [id]
  constructor
  · intro d
    rw [total]
    have balanced := measured.balanced d
    cases d with
    | requests =>
        rw [Dimension.total_requests known]
        show (UInt32.ofNat (b.members ++ [id]).length).toNat = _
        rw [UInt32.toNat_ofNat', List.length_append]
        rfl
    | inputTokens | outputTokens | work | memory =>
        rw [← Nat.mod_add_mod, ← balanced]
        exact UInt64.toNat_add _ _
  · intro d limited
    rw [total]
    have low := measured.bounded d limited
    have small := (oversized_iff budget r.metadata).mp fits d limited
    have checked := (allowsAdd_iff budget _ _).mp allowed d limited
    rw [measured.used_eq modest limited, amounts,
      Nat.mod_eq_of_lt (modest.exact d low small).2] at checked
    exact checked

/-- Two batches that may be merged fit into one. -/
theorem merge {a : BatchRec} {policy : BatchPolicy}
    (measured : Measured policy.constraints.budget requests a)
    (other : Measured policy.constraints.budget requests b)
    (modest : policy.constraints.budget.Modest)
    (possible : Impl.canMerge policy a b = true) (bid : BatchId) :
    Measured policy.constraints.budget requests
      (Impl.mergeTarget requests bid a b) := by
  apply recompute
  intro d limited
  show d.total requests (a.members ++ b.members) ≤ _
  rw [d.total_append]
  have low := measured.bounded d limited
  have low' := other.bounded d limited
  have exact := modest.exact d low low'
  obtain ⟨sum, used, allowed⟩ := allowsAdd_of_canMerge possible
  have checked := (allowsAdd_iff _ _ _).mp allowed d limited
  have zero : d.used ({} : BatchAccum) = 0 := by
    cases d <;> rfl
  rw [zero, Nat.zero_add, used, measured.used_eq modest limited,
    other.used_eq modest limited, Nat.mod_eq_of_lt exact.1,
    Nat.mod_eq_of_lt exact.2] at checked
  exact checked

end Measured

end BatchFabric
