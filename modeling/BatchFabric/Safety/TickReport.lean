import BatchFabric.Safety.SealedBefore
import BatchFabric.Safety.SizePass

namespace BatchFabric.Impl

open OrderedMap

/-! What a tick reports of the work that it seals: the entries of the order of
sealed batches that were not there before. -/

/-- A split for size, and the batch that its first half becomes. The other half
is not put into the order. -/
structure SizeSplit where
  batch : BatchId
  record : BatchRec
  first : BatchId

/-- The split that a turn of the loop makes, if it makes one. -/
def turnSplits (s : Impl) (i : Nat) : List SizeSplit :=
  match s.oversizedAt i with
  | none => []
  | some bid =>
      match s.batches[bid]? with
      | none => []
      | some b =>
          if splittable b then
            [{ batch := bid
               record := b
               first := { value := s.nextBatch + 1 } }]
          else []

/-- The splits for size from the end of the merges on. -/
def sizeSplits (s : Impl) : List SizeSplit :=
  Transition.outputs splitOversized turnSplits s
    (List.range s.sealedOrder.length)

section Splits

variable {s current : Impl} {id : RequestId}

theorem turnSplits_cases (wellFormed : WellFormed s) (i : Nat) :
    (s.turnSplits i = [] ∧ splitOversized s i = s) ∨
      ∃ bid b, s.sealedOrder[i]? = some bid ∧ s.batches[bid]? = some b ∧
        b.state = .sealed ∧
        (s.maxWorkerBatchSize ≠ 0 ∧ s.maxWorkerBatchSize < b.accum.count) ∧
        s.turnSplits i = [{
          batch := bid, record := b
          first := { value := s.nextBatch + 1 } }] ∧
        splitOversized s i = s.splitSealed bid b := by
  cases oversized : s.oversizedAt i with
  | none =>
      refine .inl ⟨?_, ?_⟩
      · unfold turnSplits
        rw [oversized]
      · unfold splitOversized
        rw [oversized]
  | some bid =>
      obtain ⟨listed, limited, _⟩ := oversizedAt_eq_some wellFormed oversized
      obtain ⟨b, found, isSealed, counted, taken⟩ :=
        splitOversized_split wellFormed oversized
      cases possible : splittable b with
      | false =>
          refine .inl ⟨?_, ?_⟩
          · simp [turnSplits, oversized, found, possible]
          · unfold splitOversized doSplit
            simp [oversized, found, possible]
      | true =>
          refine .inr ⟨bid, b, listed, found, isSealed, ⟨limited, counted⟩,
            ?_, ?_⟩
          · simp [turnSplits, oversized, found, possible]
          · obtain split | ⟨_, refused⟩ := taken
            · exact split
            · rw [possible] at refused
              cases refused

theorem membersOf_eq {bid : BatchId} {b : BatchRec}
    (found : s.batches[bid]? = some b) : s.membersOf bid = b.members := by
  unfold membersOf
  rw [found]

end Splits

section Ticks

variable {policy : BatchPolicy} {s : Impl} {order : List CompatibilityKey}
  {now : TimePoint}

/-- Until the tick splits, its new entries are sealed batches. -/
theorem listed_tickUntilSizePass (wellFormed : WellFormed s) :
    Listed s (s.tickUntilSizePass policy order now) := by
  have rule : MergeRule policy (Listed s) := {
    wellFormed := fun _ listed => listed.later.1
    merge := fun _ _ _ _ _ listed merging => listed.mergeInto merging }
  rw [tickUntilSizePass_eq]
  exact rule.mergePass (Announced.sealedState wellFormed order now).toListed

theorem mem_sealedBatches_iff {bid : BatchId} :
    bid ∈ (s.tick policy order now).1.sealedBatches ↔
      bid ∈ (s.doTick policy order now).sealedOrder ∧ bid ∉ s.sealedOrder := by
  show bid ∈ (s.doTick policy order now).sealedOrder.filter
    (· ∉ s.sealedOrder) ↔ _
  rw [List.mem_filter, decide_eq_true_iff]

theorem maxWorkerBatchSize_tickUntilSizePass (wellFormed : WellFormed s) :
    (s.tickUntilSizePass policy order now).maxWorkerBatchSize =
      s.maxWorkerBatchSize := by
  have kept := (workersRule policy now s.workers).passes
    ⟨(WellFormed.tickRule policy now).expireLocked wellFormed order,
      workers_expireLocked order⟩ order
  unfold maxWorkerBatchSize tickUntilSizePass
  rw [kept.2]

end Ticks

end BatchFabric.Impl
