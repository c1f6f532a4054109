import BatchFabric.Budget
import BatchFabric.Safety.TickPasses
import BatchFabric.Scheduler.KnownKeys

namespace BatchFabric.Impl

open OrderedMap

/-! When a batch that can take no more is sealed. -/

/-- The batch has the members it should have, by its running count, and none of
the requests queued under its key may join it. -/
structure Saturated (policy : BatchPolicy) (s : Impl) (b : BatchRec)
    (now : TimePoint) : Prop where
  enough : max 1 policy.constraints.minimumPreferredBatch.toNat ≤
    b.accum.count.toNat
  blocked : ∀ m ∈ s.bucket b.key, s.fillable policy b now m = false

instance (policy : BatchPolicy) (s : Impl) (b : BatchRec) (now : TimePoint) :
    Decidable (Saturated policy s b now) :=
  decidable_of_iff
    (max 1 policy.constraints.minimumPreferredBatch.toNat ≤
        b.accum.count.toNat ∧
      ∀ m ∈ s.bucket b.key, s.fillable policy b now m = false)
    ⟨fun both => ⟨both.1, both.2⟩,
      fun saturated => ⟨saturated.enough, saturated.blocked⟩⟩

/-- No request queued under the key is waiting. -/
def NoneWaiting (s : Impl) (key : CompatibilityKey) : Prop :=
  ∀ m ∈ s.bucket key, ∀ r, s.requests[m]? = some r →
    isWaitingState r.state = false

/-- What the former notices of a saturated batch: it has waited as long as it
may, a limit other than that of memory is reached to the unit, or its queue
is empty. -/
inductive Noticed (policy : BatchPolicy) (s : Impl) (b : BatchRec)
    (now : TimePoint) : Prop
  | waited (bounded : b.allowedWaitNs ≠ kNoDeadline)
      (elapsed : b.allowedWaitNs ≤ now - b.formedNs)
  | reached (d : Dimension) (counted : d ≠ .memory)
      (limited : d.limit policy.constraints.budget ≠ 0)
      (full : d.limit policy.constraints.budget ≤ d.used b.accum)
  | drained (none : s.NoneWaiting b.key)

theorem remainingCandidates_isEmpty_iff (s : Impl) (key : CompatibilityKey) :
    (s.remainingCandidates key).isEmpty = true ↔ s.NoneWaiting key := by
  unfold remainingCandidates NoneWaiting
  rw [List.isEmpty_iff, List.filterMap_eq_nil_iff]
  constructor
  · intro none m queued r found
    have dropped := none m queued
    rw [found] at dropped
    cases waiting : isWaitingState r.state with
    | false => rfl
    | true => simp [waiting] at dropped
  · intro none m queued
    cases found : s.requests[m]? with
    | none => rfl
    | some r => simp [none m queued r found]

/-- The former's limits, each checked when it is set. -/
theorem reached_iff (budget : BatchBudget) (used : BatchAccum) :
    (budget.maxRequests != 0 && decide (used.count ≥ budget.maxRequests) ||
        (budget.maxInputTokens != 0 &&
            decide (used.inputTokens ≥ budget.maxInputTokens) ||
          budget.maxOutputTokens != 0 &&
            decide (used.outputTokens ≥ budget.maxOutputTokens)) ||
        budget.maxWork != 0 && decide (used.work ≥ budget.maxWork)) = true ↔
      ∃ d : Dimension, d ≠ .memory ∧ d.limit budget ≠ 0 ∧
        d.limit budget ≤ d.used used := by
  have limit64 : ∀ limit amount : UInt64,
      (limit != 0 && decide (amount ≥ limit)) = true ↔
        limit.toNat ≠ 0 ∧ limit.toNat ≤ amount.toNat := by
    intro limit amount
    rw [Bool.and_eq_true, bne_iff_ne, decide_eq_true_iff]
    exact and_congr (not_congr UInt64.toNat_inj.symm) UInt64.le_iff_toNat_le
  have limit32 : (budget.maxRequests != 0 &&
        decide (used.count ≥ budget.maxRequests)) = true ↔
      budget.maxRequests.toNat ≠ 0 ∧
        budget.maxRequests.toNat ≤ used.count.toNat := by
    rw [Bool.and_eq_true, bne_iff_ne, decide_eq_true_iff]
    exact and_congr (not_congr UInt32.toNat_inj.symm) UInt32.le_iff_toNat_le
  rw [Bool.or_eq_true, Bool.or_eq_true, Bool.or_eq_true, limit32, limit64,
    limit64, limit64]
  constructor
  · rintro ((requests | input | output) | work)
    · exact ⟨.requests, nofun, requests⟩
    · exact ⟨.inputTokens, nofun, input⟩
    · exact ⟨.outputTokens, nofun, output⟩
    · exact ⟨.work, nofun, work⟩
  · rintro ⟨d, counted, reached⟩
    cases d with
    | requests => exact .inl (.inl reached)
    | inputTokens => exact .inl (.inr (.inl reached))
    | outputTokens => exact .inl (.inr (.inr reached))
    | work => exact .inr reached
    | memory => exact absurd rfl counted

/-- The branches of the former, for a batch with the members it should have. -/
theorem decide_eq_seal {policy : BatchPolicy} {batch : BatchFormer.FormingBatch}
    (enough : policy.constraints.minimumPreferredBatch ≤ batch.used.count)
    (candidates : List BatchFormer.Candidate) (now : TimePoint) :
    (BatchFormer.decide policy batch candidates now).action = .seal ↔
      (batch.allowedWaitNs ≠ kNoDeadline ∧
          batch.allowedWaitNs ≤ now - batch.formedNs) ∨
        (∃ d : Dimension, d ≠ .memory ∧
          d.limit policy.constraints.budget ≠ 0 ∧
          d.limit policy.constraints.budget ≤ d.used batch.used) ∨
        candidates.isEmpty = true := by
  rw [← reached_iff, ← bne_iff_ne, ← ge_iff_le, ← decide_eq_true_iff
    (p := now - batch.formedNs ≥ batch.allowedWaitNs), ← Bool.and_eq_true]
  unfold BatchFormer.decide
  dsimp only
  generalize (batch.allowedWaitNs != kNoDeadline &&
    decide (now - batch.formedNs ≥ batch.allowedWaitNs)) = waited
  generalize (policy.constraints.budget.maxRequests != 0 &&
    decide (batch.used.count ≥ policy.constraints.budget.maxRequests)) = count
  generalize (policy.constraints.budget.maxInputTokens != 0 &&
      decide (batch.used.inputTokens ≥
        policy.constraints.budget.maxInputTokens) ||
    policy.constraints.budget.maxOutputTokens != 0 &&
      decide (batch.used.outputTokens ≥
        policy.constraints.budget.maxOutputTokens)) = tokens
  generalize (policy.constraints.budget.maxWork != 0 &&
    decide (batch.used.work ≥ policy.constraints.budget.maxWork)) = work
  cases waited <;> cases count <;> cases tokens <;> cases work <;>
    cases candidates <;> simp [enough]

/-- The former seals a saturated batch if it notices. -/
theorem decidesToSeal_iff {policy : BatchPolicy} {s : Impl} {bid : BatchId}
    {b : BatchRec} (found : s.batches[bid]? = some b) {now : TimePoint}
    (saturated : Saturated policy s b now) :
    s.decidesToSeal policy bid now = true ↔ Noticed policy s b now := by
  have enough : policy.constraints.minimumPreferredBatch ≤ b.accum.count := by
    rw [UInt32.le_iff_toNat_le]
    exact Nat.le_trans (Nat.le_max_right 1 _) saturated.enough
  have branches : (BatchFormer.decide policy b.toFormerBatch
      (s.remainingCandidates b.key) now).action = .seal ↔ _ :=
    decide_eq_seal enough (s.remainingCandidates b.key) now
  unfold decidesToSeal
  rw [found]
  dsimp only
  rw [beq_iff_eq, branches, remainingCandidates_isEmpty_iff]
  constructor
  · rintro (⟨bounded, elapsed⟩ | ⟨d, counted, limited, full⟩ | none)
    · exact .waited bounded elapsed
    · exact .reached d counted limited full
    · exact .drained none
  · rintro (⟨bounded, elapsed⟩ | ⟨d, counted, limited, full⟩ | none)
    · exact .inl ⟨bounded, elapsed⟩
    · exact .inr (.inl ⟨d, counted, limited, full⟩)
    · exact .inr (.inr none)

/-- A tick seals a batch that its fill leaves saturated exactly if the former
notices. -/
theorem sealsSaturated_iff {policy : BatchPolicy} {s : Impl}
    (reachable : Reachable policy s) {order : List CompatibilityKey}
    {now : TimePoint} {before after : List BatchId} {bid : BatchId}
    (listed : s.considered policy order now = before ++ bid :: after)
    {filled : Impl}
    (fills : filled = (s.formedState policy order now).refillAll policy now
      (before ++ [bid]))
    {b : BatchRec} (found : filled.batches[bid]? = some b)
    (forming : b.state = .forming)
    (saturated : Saturated policy filled b now) :
    (s.tick policy order now).2.Closed bid ↔ Noticed policy filled b now := by
  subst fills
  have done := doTick_filled (wellFormed_of_reachable reachable) listed found
    forming
  rw [← decidesToSeal_iff found saturated]
  show (s.doTick policy order now).Closed bid ↔ _
  split at done
  · next decided => exact iff_of_true done decided
  · next undecided =>
      refine iff_of_false ?_ undecided
      rintro ⟨b', found', closed⟩
      rw [done] at found'
      cases found'
      exact closed forming

/-- One request may go into a batch, and there are two. -/
theorem sealsSaturated_of_full :
    ∃ (policy : BatchPolicy) (s filled : Impl) (b : BatchRec),
      filled.batches[({ value := 1 } : BatchId)]? = some b ∧
      Saturated policy filled b 1 ∧ ¬ filled.NoneWaiting b.key ∧
      (s.tick policy [] 1).2.Closed { value := 1 } := by
  obtain ⟨policy, known⟩ : ∃ policy : BatchPolicy,
      policy = { constraints.budget.maxRequests := 1 } := ⟨_, rfl⟩
  obtain ⟨s, ran⟩ : ∃ s, s = BatchFabric.run policy
      [.submit minimalRequest 0, .submit minimalRequest 0] := ⟨_, rfl⟩
  have reachable : Reachable policy s := ran ▸ reachable_run policy _
  obtain ⟨filled, fills⟩ : ∃ filled, filled =
      (s.formedState policy [] 1).refillAll policy 1 ([] ++ [{ value := 1 }]) :=
    ⟨_, rfl⟩
  have views : s.considered policy [] 1 = [{ value := 1 }] ∧
      (filled.batches[({ value := 1 } : BatchId)]?).map (fun b =>
        (b.state, decide (Saturated policy filled b 1), b.accum.count,
          (filled.remainingCandidates b.key).isEmpty)) =
        some (.forming, true, 1, false) := by
    rw [fills, ran, known, run_eq_runKnown .minimal]
    decide +kernel
  obtain ⟨listed, view⟩ := views
  obtain ⟨b, found, seen⟩ := Option.map_eq_some_iff.mp view
  have forming : b.state = .forming := congrArg Prod.fst seen
  have saturated : Saturated policy filled b 1 :=
    of_decide_eq_true (congrArg (fun view => view.2.1) seen)
  have count : b.accum.count = 1 := congrArg (fun view => view.2.2.1) seen
  have waits : (filled.remainingCandidates b.key).isEmpty = false :=
    congrArg (fun view => view.2.2.2) seen
  refine ⟨policy, s, filled, b, found, saturated, ?_, ?_⟩
  · rw [← remainingCandidates_isEmpty_iff, waits]
    exact nofun
  · apply (sealsSaturated_iff reachable listed fills found forming
      saturated).mpr
    apply Noticed.reached .requests
    · exact nofun
    · rw [known]
      decide
    · rw [known]
      show 1 ≤ b.accum.count.toNat
      rw [count]
      decide

/-- Two units of work may go into a batch. It holds one, and the request that
is left brings two. -/
theorem not_sealsSaturated_of_leftover :
    ¬ ∀ (policy : BatchPolicy) (s filled : Impl)
      (order : List CompatibilityKey) (now : TimePoint)
      (before after : List BatchId) (bid : BatchId) (b : BatchRec),
      Reachable policy s →
      s.considered policy order now = before ++ bid :: after →
      filled = (s.formedState policy order now).refillAll policy now
        (before ++ [bid]) →
      filled.batches[bid]? = some b → b.state = .forming →
      Saturated policy filled b now →
      (s.tick policy order now).2.Closed bid := by
  intro sealed'
  obtain ⟨policy, known⟩ : ∃ policy : BatchPolicy,
      policy = { constraints.budget.maxWork := 2 } := ⟨_, rfl⟩
  obtain ⟨s, ran⟩ : ∃ s, s = BatchFabric.run policy
      [.submit minimalRequest 0,
        .submit { minimalRequest with work := { value := 2 } } 0] := ⟨_, rfl⟩
  have reachable : Reachable policy s := ran ▸ reachable_run policy _
  obtain ⟨filled, fills⟩ : ∃ filled, filled =
      (s.formedState policy [] 1).refillAll policy 1 ([] ++ [{ value := 1 }]) :=
    ⟨_, rfl⟩
  have views : s.considered policy [] 1 = [{ value := 1 }] ∧
      (filled.batches[({ value := 1 } : BatchId)]?).map (fun b =>
        (b.state, decide (Saturated policy filled b 1))) =
        some (.forming, true) ∧
      ((s.tick policy [] 1).2.batches[({ value := 1 } : BatchId)]?).map
        (·.state) = some .forming := by
    rw [fills, ran, known, run_eq_runKnown .minimal]
    decide +kernel
  obtain ⟨listed, view, still⟩ := views
  obtain ⟨b, found, seen⟩ := Option.map_eq_some_iff.mp view
  have forming : b.state = .forming := congrArg Prod.fst seen
  have saturated : Saturated policy filled b 1 :=
    of_decide_eq_true (congrArg Prod.snd seen)
  obtain ⟨b', found', closed⟩ := sealed' policy s filled [] 1 [] []
    { value := 1 } b reachable listed fills found forming saturated
  rw [found'] at still
  exact closed (Option.some.inj still)

end BatchFabric.Impl
