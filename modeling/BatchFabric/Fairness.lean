import BatchFabric.Policy

namespace BatchFabric

/-- Per-tenant totals of served and outstanding work. -/
structure FairnessController where
  served : Map TenantId UInt64 := ∅
  outstanding : Map TenantId UInt64 := ∅

namespace FairnessController

/-- The amount a tenant has in a table, zero when it has no entry. -/
def amount (table : Map TenantId UInt64) (t : TenantId) : UInt64 :=
  (table[t]?).getD 0

def noteSubmission (fairness : FairnessController) (t : TenantId)
    (work : UInt64) : FairnessController :=
  { fairness with
    outstanding := fairness.outstanding.insert t
      (amount fairness.outstanding t + work) }

def notePlaced (fairness : FairnessController) (t : TenantId)
    (work : UInt64) : FairnessController :=
  { served := fairness.served.insert t (amount fairness.served t + work)
    outstanding := fairness.outstanding.insert t
      (amount fairness.outstanding t + work) }

def noteCompleted (fairness : FairnessController) (t : TenantId)
    (work : UInt64) : FairnessController :=
  let out := amount fairness.outstanding t
  { fairness with
    outstanding := fairness.outstanding.insert t
      (if out > work then out - work else 0) }

/-- Compares the exact quotients; a weight of zero counts as one. -/
def isMoreUnderServed (sa : UInt64) (wa : UInt32) (sb : UInt64)
    (wb : UInt32) : Bool :=
  let wa := if wa = 0 then 1 else wa
  let wb := if wb = 0 then 1 else wb
  decide (sa.toNat * wb.toNat < sb.toNat * wa.toNat)

/-- The better of two tenants for `selectNext`. -/
def moreUnderServed (fairness : FairnessController) (policy : FairnessPolicy)
    (best candidate : TenantId) : TenantId :=
  let wa := policy.weight best
  let wb := policy.weight candidate
  let servedBest := amount fairness.served best
  let servedCandidate := amount fairness.served candidate
  let bestUnder := isMoreUnderServed servedBest wa servedCandidate wb
  let candUnder := isMoreUnderServed servedCandidate wb servedBest wa
  if candUnder && !bestUnder then candidate
  else if !candUnder && !bestUnder then
    if candidate.value < best.value then candidate else best
  else if candUnder && bestUnder then
    -- The quotients again, now by the weights as they are.
    let bestCross := servedBest.toNat * wb.toNat
    let candCross := servedCandidate.toNat * wa.toNat
    if candCross < bestCross then candidate
    else if candCross = bestCross && candidate.value < best.value then
      candidate
    else best
  else best

/-- The next tenant among the candidates, `TenantId(0)` if there is none. -/
def selectNext (fairness : FairnessController) (policy : FairnessPolicy) :
    List TenantId → TenantId
  | [] => .null
  | first :: rest => rest.foldl (fairness.moreUnderServed policy) first

def atOutstandingCap (fairness : FairnessController) (policy : FairnessPolicy)
    (t : TenantId) : Bool :=
  if policy.maxOutstandingPerTenant = 0 then false
  else decide (amount fairness.outstanding t ≥
    policy.maxOutstandingPerTenant.toUInt64)

theorem amount_insert (table : Map TenantId UInt64) (t other : TenantId)
    (value : UInt64) :
    amount (table.insert t value) other =
      if t = other then value else amount table other := by
  unfold amount
  rw [OrderedMap.getElem?_insert]
  split <;> rfl

theorem amount_noteSubmission (fairness : FairnessController)
    (t other : TenantId) (work : UInt64) :
    amount (fairness.noteSubmission t work).outstanding other =
      if t = other then amount fairness.outstanding t + work
      else amount fairness.outstanding other :=
  amount_insert fairness.outstanding t other _

theorem amount_notePlaced (fairness : FairnessController)
    (t other : TenantId) (work : UInt64) :
    amount (fairness.notePlaced t work).outstanding other =
      if t = other then amount fairness.outstanding t + work
      else amount fairness.outstanding other :=
  amount_insert fairness.outstanding t other _

/-- A completion takes the work off the total, down to zero. -/
theorem amount_noteCompleted (fairness : FairnessController)
    (t other : TenantId) (work : UInt64) :
    (amount (fairness.noteCompleted t work).outstanding other).toNat =
      if t = other then (amount fairness.outstanding t).toNat - work.toNat
      else (amount fairness.outstanding other).toNat := by
  unfold noteCompleted
  dsimp only
  rw [amount_insert]
  split
  · split
    · next above => exact UInt64.toNat_sub_of_le _ _ (UInt64.le_of_lt above)
    · next covered =>
        have within := UInt64.le_iff_toNat_le.mp (UInt64.not_lt.mp covered)
        rw [Nat.sub_eq_zero_of_le within]
        rfl
  · rfl

theorem moreUnderServed_eq (fairness : FairnessController)
    (policy : FairnessPolicy) (best candidate : TenantId) :
    fairness.moreUnderServed policy best candidate = best ∨
      fairness.moreUnderServed policy best candidate = candidate := by
  unfold moreUnderServed
  dsimp only
  split
  · exact .inr rfl
  · split
    · split
      · exact .inr rfl
      · exact .inl rfl
    · split
      · split
        · exact .inr rfl
        · split
          · exact .inr rfl
          · exact .inl rfl
      · exact .inl rfl

theorem selectNext_mem (fairness : FairnessController)
    (policy : FairnessPolicy) {candidates : List TenantId}
    (nonempty : candidates ≠ []) :
    fairness.selectNext policy candidates ∈ candidates := by
  have folded : ∀ (rest : List TenantId) (best : TenantId),
      rest.foldl (fairness.moreUnderServed policy) best ∈ best :: rest := by
    intro rest
    induction rest with
    | nil =>
        intro best
        exact List.mem_singleton_self best
    | cons head tail induction =>
        intro best
        rw [List.foldl_cons]
        rcases moreUnderServed_eq fairness policy best head with kept | taken
        · rw [kept]
          rcases List.mem_cons.mp (induction best) with same | later
          · exact List.mem_cons.mpr (.inl same)
          · exact List.mem_cons_of_mem best (List.mem_cons_of_mem head later)
        · rw [taken]
          exact List.mem_cons_of_mem best (induction head)
  cases candidates with
  | nil => exact absurd rfl nonempty
  | cons first rest => exact folded rest first

end FairnessController

end BatchFabric
