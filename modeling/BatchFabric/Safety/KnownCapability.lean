import BatchFabric.Budget
import BatchFabric.Safety.LiveDispatch
import BatchFabric.Safety.Totals

namespace BatchFabric

open OrderedMap

/-! Whether the work handed over is what the worker is known to take. -/

/-- The sum of an amount over the members of an execution. -/
def BatchExecution.total (amount : MemberWork → UInt64)
    (execution : BatchExecution) : UInt64 :=
  execution.members.foldl (fun total m => total + amount m) 0

/-- The backend that the batch records is the worker's, unless one of them is
unknown, and no limit that is set lies below the totals that it records. -/
structure BatchRec.Within (cap : ExecutorCapability) (b : BatchRec) : Prop where
  backend : b.descriptor.backend = .unknown ∨ cap.backend = .unknown ∨
    b.descriptor.backend = cap.backend
  size : cap.maxBatchSize ≠ 0 → b.accum.count ≤ cap.maxBatchSize
  tokens : cap.maxTokens ≠ 0 →
    b.accum.inputTokens + b.accum.outputTokens ≤ cap.maxTokens
  work : cap.maxWork ≠ 0 → b.accum.work ≤ cap.maxWork
  memory : cap.maxMemoryBytes ≠ 0 → b.accum.memory ≤ cap.maxMemoryBytes

namespace Impl

/-- The memory that the request of a member asks for. -/
def memoryOf (s : Impl) (m : MemberWork) : UInt64 :=
  match s.requests[m.request]? with
  | none => 0
  | some r => r.metadata.memoryBytes

/-- The capability supports the execution, by the sums over its members. -/
def Supported (s : Impl) (cap : ExecutorCapability)
    (execution : BatchExecution) : Prop :=
  cap.supports execution.descriptor (UInt32.ofNat execution.members.length)
    (execution.total fun m => m.inputTokens + m.outputTokens)
    (execution.total (·.work)) (execution.total s.memoryOf) = true

/-- The totals recorded for a list of requests are the sums over their work. -/
theorem accumOf_eq_totals (s : Impl) (members : List RequestId) :
    accumOf s.requests members = {
      count := UInt32.ofNat (members.filterMap s.memberWork).length
      inputTokens := (members.filterMap s.memberWork).foldl
        (fun total m => total + m.inputTokens) 0
      outputTokens := (members.filterMap s.memberWork).foldl
        (fun total m => total + m.outputTokens) 0
      work := (members.filterMap s.memberWork).foldl
        (fun total m => total + m.work) 0
      memory := (members.filterMap s.memberWork).foldl
        (fun total m => total + s.memoryOf m) 0 } := by
  induction members using List.reverseRecOn with
  | nil => rfl
  | append_singleton members m induction =>
      cases found : s.requests[m]? with
      | none =>
          have skipped : accumOf s.requests (members ++ [m]) =
              accumOf s.requests members := by
            unfold accumOf
            rw [List.foldl_append, List.foldl_cons, found]
            rfl
          have dropped : s.memberWork m = none := by
            simp [memberWork, found]
          rw [skipped, induction, List.filterMap_append,
            List.filterMap_cons_none dropped, List.filterMap_nil,
            List.append_nil]
      | some r =>
          have taken : s.memberWork m = some {
              request := m
              attempt := r.currentAttempt
              work := r.metadata.work.value
              inputTokens := r.metadata.tokens.input
              outputTokens := r.metadata.tokens.output
              payload := r.metadata.payload } := by
            simp [memberWork, found]
          rw [accumOf_concat found, induction, List.filterMap_append,
            List.filterMap_cons_some taken, List.filterMap_nil,
            List.length_append, UInt32.ofNat_add]
          simp only [List.foldl_append, List.foldl_cons, List.foldl_nil]
          simp [BatchAccum.add, RequestMetadata.amounts, memoryOf, found]

theorem foldl_add_add (members : List MemberWork)
    (first second : MemberWork → UInt64) :
    members.foldl (fun total m => total + (first m + second m)) 0 =
      members.foldl (fun total m => total + first m) 0 +
        members.foldl (fun total m => total + second m) 0 := by
  induction members using List.reverseRecOn with
  | nil => rfl
  | append_singleton members m induction =>
      simp only [List.foldl_append, List.foldl_cons, List.foldl_nil, induction]
      ac_rfl

theorem passes_limit_iff {limit total : UInt64} :
    ¬ (limit != 0 && decide (total > limit)) = true ↔
      (limit ≠ 0 → total ≤ limit) := by
  rw [Bool.and_eq_true, bne_iff_ne, decide_eq_true_iff, not_and,
    gt_iff_lt, UInt64.not_lt]

theorem supports_iff (cap : ExecutorCapability) (b : BatchRec) :
    cap.supports b.descriptor b.accum.count
        (b.accum.inputTokens + b.accum.outputTokens) b.accum.work
        b.accum.memory = true ↔ b.Within cap := by
  have backends : ¬ (b.descriptor.backend != .unknown &&
        cap.backend != .unknown && b.descriptor.backend != cap.backend) =
        true ↔
      b.descriptor.backend = .unknown ∨ cap.backend = .unknown ∨
        b.descriptor.backend = cap.backend := by
    simp only [Bool.and_eq_true, bne_iff_ne, ne_eq]
    tauto
  have size : ¬ (cap.maxBatchSize != 0 &&
        decide (b.accum.count > cap.maxBatchSize)) = true ↔
      (cap.maxBatchSize ≠ 0 → b.accum.count ≤ cap.maxBatchSize) := by
    rw [Bool.and_eq_true, bne_iff_ne, decide_eq_true_iff, not_and,
      gt_iff_lt, UInt32.not_lt]
  unfold ExecutorCapability.supports
  rw [passes_iff_not, passes_iff_not, passes_iff_not, passes_iff_not,
    passes_iff_not, backends, size, passes_limit_iff, passes_limit_iff,
    passes_limit_iff]
  constructor
  · rintro ⟨backend, size, tokens, work, memory, _⟩
    exact ⟨backend, size, tokens, work, memory⟩
  · rintro ⟨backend, size, tokens, work, memory⟩
    exact ⟨backend, size, tokens, work, memory, rfl⟩

theorem supported_iff_within {s : Impl} (totalled : s.Totalled) {bid : BatchId}
    {b : BatchRec} (found : s.batches[bid]? = some b)
    (cap : ExecutorCapability) {execution : BatchExecution}
    (descriptor : execution.descriptor = b.descriptor)
    (members : execution.members = b.members.filterMap s.memberWork) :
    s.Supported cap execution ↔ b.Within cap := by
  have totals := (totalled bid b found).trans
    (accumOf_eq_totals s b.members)
  rw [← supports_iff, totals, ← foldl_add_add, ← members, ← descriptor]
  rfl

/-- Either way of dispatching hands over work that the capability supports
exactly when the batch records no more than it takes. -/
theorem supported_iff {policy : BatchPolicy} {s : Impl}
    (reachable : Reachable policy s) {bid : BatchId} {b : BatchRec}
    (found : s.batches[bid]? = some b) (now : TimePoint) :
    (∀ worker boot execution,
      (s.prepareDispatch bid worker boot now).1 = .ok execution →
        ∃ w, s.workers[worker]? = some w ∧
          (s.Supported w.cap execution ↔ b.Within w.cap)) ∧
    (∀ executor : Executor,
      s.Supported executor.capability
          (s.runExecution bid b executor.capability.worker now) ↔
        b.Within executor.capability) := by
  have totalled := totalled_of_reachable reachable
  constructor
  · intro worker boot execution prepared
    have current : s.workerCurrent worker boot = true := by
      obtain ⟨err, refused⟩ | ⟨_, _, _, current, _⟩ :=
        prepareDispatch_cases s bid worker boot now
      · rw [refused] at prepared
        cases prepared
      · exact current
    unfold workerCurrent at current
    cases registered : s.workers[worker]? with
    | none => simp [registered] at current
    | some w =>
        refine ⟨w, rfl, ?_⟩
        rw [execution_of_prepared found prepared]
        exact supported_iff_within totalled found w.cap rfl
          (members_executionOf s bid b worker boot now)
  · intro executor
    exact supported_iff_within totalled found executor.capability rfl
      (members_executionOf s bid b executor.capability.worker _ now)

instance (cap : ExecutorCapability) (b : BatchRec) :
    Decidable (b.Within cap) :=
  decidable_of_iff _ (supports_iff cap b)

/-- Two requests sealed together before a worker registers. -/
def beforeWorker (cap : ExecutorCapability) : List Op :=
  [.submit minimalRequest 0, .submit minimalRequest 0, .tick [] 1,
    .registerWorker { value := 1 } { value := 1 } cap]

theorem supported_of_two :
    ∃ (s : Impl) (w : WorkerRec) (execution : BatchExecution),
      w.cap.maxBatchSize = 2 ∧ execution.members.length = 2 ∧
      (s.prepareDispatch { value := 1 } { value := 1 } { value := 1 } 2).1 =
        .ok execution ∧ s.Supported w.cap execution := by
  obtain ⟨s, ran⟩ : ∃ s, s =
      BatchFabric.run {} (beforeWorker { maxBatchSize := 2 }) := ⟨_, rfl⟩
  have reachable : Reachable {} s := ran ▸ reachable_run {} _
  have views : (s.workers[({ value := 1 } : WorkerId)]?).map
        (fun w => w.cap.maxBatchSize) = some 2 ∧
      (s.batches[({ value := 1 } : BatchId)]?).any (fun b =>
        (s.workers[({ value := 1 } : WorkerId)]?).any fun w =>
          decide (b.Within w.cap)) = true ∧
      (s.prepareDispatch { value := 1 } { value := 1 } { value := 1 }
        2).1.toOption.map (·.members.length) = some 2 := by
    rw [ran, run_eq_runKnown .minimal]
    decide +kernel
  obtain ⟨size, view, accepted⟩ := views
  obtain ⟨b, found, view⟩ := (Option.any_eq_true _ _).mp view
  obtain ⟨w, registered, within⟩ := (Option.any_eq_true _ _).mp view
  obtain ⟨execution, answered, length⟩ := Option.map_eq_some_iff.mp accepted
  have prepared := ok_of_toOption answered
  obtain ⟨w', registered', supported⟩ :=
    (supported_iff reachable found 2).1 _ _ execution prepared
  rw [registered] at registered'
  cases registered'
  rw [registered] at size
  exact ⟨s, w, execution, Option.some.inj size, length, prepared,
    supported.mpr (of_decide_eq_true within)⟩

/-- A batch of two is handed to a worker that takes one request at a time, and
to an executor that does. -/
theorem not_supported_of_small :
    ¬ ∀ (policy : BatchPolicy) (s : Impl) (bid : BatchId) (b : BatchRec)
      (now : TimePoint), Reachable policy s → s.batches[bid]? = some b →
      b.state = .sealed →
      (∀ worker boot execution,
        (s.prepareDispatch bid worker boot now).1 = .ok execution →
          ∃ w, s.workers[worker]? = some w ∧ s.Supported w.cap execution) ∧
      (∀ executor : Executor, s.Supported executor.capability
        (s.runExecution bid b executor.capability.worker now)) := by
  intro supported
  obtain ⟨cap, known⟩ : ∃ cap : ExecutorCapability,
      cap = { maxBatchSize := 1 } := ⟨_, rfl⟩
  obtain ⟨s, ran⟩ : ∃ s, s = BatchFabric.run {} (beforeWorker cap) :=
    ⟨_, rfl⟩
  have reachable : Reachable {} s := ran ▸ reachable_run {} _
  have views : (s.workers[({ value := 1 } : WorkerId)]?).map
        (fun w => w.cap.maxBatchSize) = some 1 ∧
      (s.batches[({ value := 1 } : BatchId)]?).any (fun b =>
        b.state == .sealed) = true ∧
      (s.prepareDispatch { value := 1 } { value := 1 } { value := 1 }
        2).1.toOption.map (·.members.length) = some 2 := by
    rw [ran, known, run_eq_runKnown .minimal]
    decide +kernel
  obtain ⟨size, view, accepted⟩ := views
  obtain ⟨b, found, isSealed⟩ := (Option.any_eq_true _ _).mp view
  obtain ⟨execution, answered, length⟩ := Option.map_eq_some_iff.mp accepted
  obtain ⟨w, registered, supports⟩ := (supported {} s _ b 2 reachable found
    (eq_of_beq isSealed)).1 _ _ execution (ok_of_toOption answered)
  rw [registered] at size
  have one : w.cap.maxBatchSize = 1 := Option.some.inj size
  unfold Supported ExecutorCapability.supports at supports
  rw [length, one] at supports
  split at supports
  · cases supports
  · exact absurd supports (by simp)

end Impl

end BatchFabric
