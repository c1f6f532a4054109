import BatchFabric.Safety.Authority
import BatchFabric.Safety.BatchRule

namespace BatchFabric

open OrderedMap

/-! The lifecycle of a batch is one-way. -/

namespace BatchState

/-- The states from forming to completed. -/
def isOnPath : BatchState → Bool
  | .cancelled | .failed | .superseded => false
  | _ => true

/-- Where the state of a batch may go. -/
inductive Advances : BatchState → BatchState → Prop
  | stay (state : BatchState) : Advances state state
  | forward {state target : BatchState} (source : state.isOnPath = true)
      (onPath : target.isOnPath = true) (later : state.stage < target.stage) :
      Advances state target
  | supersede {state : BatchState}
      (opened : state = .forming ∨ state = .sealed) :
      Advances state .superseded

namespace Advances

variable {first second third state target : BatchState}

theorem trans (earlier : Advances first second)
    (later : Advances second third) : Advances first third := by
  cases earlier with
  | stay => exact later
  | forward source onPath passed =>
      cases later with
      | stay => exact .forward source onPath passed
      | forward _ reached further =>
          exact .forward source reached (Nat.lt_trans passed further)
      | supersede opened =>
          apply Advances.supersede
          rcases opened with rfl | rfl
          · exact absurd passed (Nat.not_lt_zero _)
          · exact .inl (BatchState.forming_of_stage (Nat.le_of_lt_succ passed))
  | supersede opened =>
      cases later with
      | stay => exact .supersede opened
      | forward source => cases source
      | supersede => exact .supersede opened

theorem stage_le (advances : Advances state target) :
    state.stage ≤ target.stage := by
  cases advances with
  | stay => exact Nat.le_refl _
  | forward _ _ later => exact Nat.le_of_lt later
  | supersede => exact state.stage_le

/-- A batch that has ended stays as it is. -/
theorem eq_of_terminal (advances : Advances state target)
    (ended : isBatchTerminal state = true) : target = state := by
  cases advances with
  | stay => rfl
  | forward source _ later =>
      have last : state.stage = 5 := by
        cases state <;> first | rfl | cases ended
      rw [last] at later
      exact absurd target.stage_le (Nat.not_le.mpr later)
  | supersede opened =>
      rcases opened with rfl | rfl
      · cases ended
      · cases ended

end Advances

end BatchState

namespace Impl

open BatchState

theorem Advances.of_inFlight {state target : BatchState}
    (inFlight : state = .dispatched ∨ state = .running)
    (ends : target = .partiallyCompleted ∨ target = .completed) :
    Advances state target := by
  rcases inFlight with rfl | rfl <;> rcases ends with rfl | rfl <;>
    exact .forward rfl rfl (by decide)

/-- The state of a record advances with every update. -/
theorem advancing :
    BatchRule (fun b b' => b.state.Advances b'.state) (fun _ => True)
      True where
  refl b := .stay b.state
  trans := Advances.trans
  join b _ _ _ := .stay b.state
  retime b _ _ := .stay b.state
  leave b _ _ _ := .stay b.state
  record b b' same := by
    rw [BatchRec.state_of_listing same]
    exact .stay b.state
  close b _ _ forming := by
    have forward : Advances .forming .sealed := .forward rfl rfl (by decide)
    rw [forming]
    exact forward
  halve b _ _ _ _ := .stay b.state
  replace _ _ _ _ isSealed := .supersede (.inr isSealed)
  absorb a _ _ _ _ := .stay a.state
  supersede _ _ opened := .supersede opened.symm
  dispatch b _ _ _ isSealed := by
    have forward : Advances .sealed .dispatched := .forward rfl rfl (by decide)
    rw [isSealed]
    exact forward
  start b dispatched := by
    have forward : Advances .dispatched .running :=
      .forward rfl rfl (by decide)
    rw [dispatched]
    exact forward
  complete _ _ inFlight := Advances.of_inFlight inFlight (.inr rfl)
  stop _ inFlight := Advances.of_inFlight inFlight (.inl rfl)

theorem advances_step {s : Impl} (wellFormed : WellFormed s)
    (policy : BatchPolicy) (op : Op) :
    Evolves (fun b b' => b.state.Advances b'.state) s.batches
      (step policy s op).batches :=
  advancing.step (WellFormed.tickInvariant policy)
    (fun _ _ _ _ _ _ _ => trivial) wellFormed (fun _ => trivial)

/-- The states of the batches only advance over a run. -/
theorem advances_run {s : Impl} (wellFormed : WellFormed s)
    (policy : BatchPolicy) (ops : List Op) :
    Evolves (fun b b' => b.state.Advances b'.state) s.batches
      (Transition.run (step policy) s ops).batches := by
  have both : WellFormed (Transition.run (step policy) s ops) ∧
      Evolves (fun b b' => b.state.Advances b'.state) s.batches
        (Transition.run (step policy) s ops).batches :=
    Transition.run_invariant (fun s' => WellFormed s' ∧
        Evolves (fun b b' => b.state.Advances b'.state) s.batches s'.batches)
      (fun _ op _ held => ⟨held.1.step op,
        advancing.chain held.2 (advances_step held.1 policy op)⟩)
      ⟨wellFormed, .refl advancing.refl s.batches⟩
  exact both.2

/-! Dispatches. -/

theorem sealed_of_dispatchOf {s : Impl} {op : Op}
    {entry : BatchId × WorkerId × WorkerBootId}
    (made : s.dispatchOf op = some entry) :
    ∃ b, s.batches[entry.1]? = some b ∧ b.state = .sealed := by
  cases op with
  | prepareDispatch batch worker boot now =>
      cases found : s.batches[batch]? with
      | none => simp [dispatchOf, found] at made
      | some b =>
          simp only [dispatchOf, found] at made
          split at made
          · next checks =>
              simp only [Bool.and_eq_true, decide_eq_true_eq] at checks
              cases made
              exact ⟨b, found, checks.1⟩
          · cases made
  | dispatchAndRun batch executor now =>
      cases found : s.batches[batch]? with
      | none => simp [dispatchOf, found] at made
      | some b =>
          simp only [dispatchOf, found] at made
          split at made
          · next isSealed =>
              cases made
              exact ⟨b, found, isSealed⟩
          · cases made
  | _ => cases made

/-- What is dispatched was never dispatched before. -/
theorem Assigned.dispatches_once
    {history : List (BatchId × WorkerId × WorkerBootId)} {s : Impl}
    (assigned : Assigned history s) (once : (history.map (·.1)).Nodup)
    (op : Op) : ((history ++ (s.dispatchOf op).toList).map (·.1)).Nodup := by
  cases made : s.dispatchOf op with
  | none => simpa using once
  | some entry =>
      obtain ⟨b, found, isSealed⟩ := sealed_of_dispatchOf made
      have new : entry.1 ∉ history.map (·.1) := by
        intro old
        obtain ⟨earlier, listed, same⟩ := List.mem_map.mp old
        obtain ⟨b', found', _, reached⟩ := assigned.recorded earlier listed
        rw [same, found] at found'
        cases found'
        rw [isSealed] at reached
        exact absurd reached (by decide)
      rw [List.map_append, Option.toList_some, List.map_singleton]
      refine List.nodup_append.mpr ⟨once, List.nodup_singleton _, ?_⟩
      rintro bid old other single rfl
      rw [List.mem_singleton.mp single] at old
      exact new old

theorem dispatches_once_of_run (policy : BatchPolicy) (ops : List Op)
    {history : List (BatchId × WorkerId × WorkerBootId)} {s : Impl}
    (assigned : Assigned history s) (wellFormed : WellFormed s)
    (once : (history.map (·.1)).Nodup) :
    ((history ++ dispatches policy s ops).map (·.1)).Nodup := by
  induction ops generalizing s history with
  | nil =>
      rw [dispatches, List.append_nil]
      exact once
  | cons op rest induction =>
      rw [dispatches, ← List.append_assoc]
      exact induction (assigned.step wellFormed op) (wellFormed.step op)
        (assigned.dispatches_once once op)

/-- At any point of a run, every operation keeps each batch and at most
advances it, one that has ended not at all, and no batch is dispatched twice
in the run. -/
theorem batches_oneWay (policy : BatchPolicy) (ops : List Op) :
    (∀ (op : Op) (bid : BatchId) (b : BatchRec),
        (run policy ops).batches[bid]? = some b →
        ∃ b', (step policy (run policy ops) op).batches[bid]? = some b' ∧
          b.state.Advances b'.state ∧
          (isBatchTerminal b.state = true → b'.state = b.state)) ∧
      ((dispatches policy fresh ops).map (·.1)).Nodup := by
  constructor
  · intro op bid b found
    have wellFormed := wellFormed_of_reachable (reachable_run policy ops)
    obtain ⟨b', found', advances⟩ :=
      advances_step wellFormed policy op bid b found
    exact ⟨b', found', advances, advances.eq_of_terminal⟩
  · exact dispatches_once_of_run policy ops Assigned.fresh WellFormed.fresh
      List.nodup_nil

end Impl

end BatchFabric
