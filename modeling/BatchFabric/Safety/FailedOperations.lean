import BatchFabric.Persistence.Recovery
import BatchFabric.Safety.Reachable
import BatchFabric.Scheduler.KnownKeys

namespace BatchFabric.Impl

open OrderedMap

/-! Operations that return an error, and what they leave. -/

/-- An operation that may return an error instead of its result. -/
inductive Fallible
  | cancel (request : RequestId) (now : TimePoint)
  | complete (completion : BatchCompletion) (now : TimePoint)
  | sealBatch (batch : BatchId) (reason : SealReason) (now : TimePoint)
  | split (batch : BatchId)
  | merge (a b : BatchId)
  | retry (request : RequestId) (order : List CompatibilityKey)
      (now : TimePoint)
  | prepareDispatch (batch : BatchId) (worker : WorkerId)
      (boot : WorkerBootId) (now : TimePoint)
  | recoverFrom (file : Option (List UInt8))

def failure : Except Error α → Option Error
  | .error err => some err
  | .ok _ => none

/-- The error an operation returns, if any, and the state it leaves. -/
def perform (policy : BatchPolicy) (s : Impl) : Fallible → Option Error × Impl
  | .cancel request now =>
      (failure (s.doCancel policy request now).1,
        (s.doCancel policy request now).2)
  | .complete completion now =>
      (failure (s.doComplete policy completion now).1,
        (s.doComplete policy completion now).2)
  | .sealBatch batch reason now =>
      (failure (s.sealBatch batch reason now).1,
        (s.sealBatch batch reason now).2)
  | .split batch => (failure (s.split batch).1, (s.split batch).2)
  | .merge a b => (failure (s.merge policy a b).1, (s.merge policy a b).2)
  | .retry request order now =>
      (failure (s.doRetry policy request order now).1,
        (s.doRetry policy request order now).2)
  | .prepareDispatch batch worker boot now =>
      (failure (s.prepareDispatch batch worker boot now).1,
        (s.prepareDispatch batch worker boot now).2)
  | .recoverFrom file =>
      (failure (s.recoverFrom file).1, (s.recoverFrom file).2)

section Failures

variable {policy : BatchPolicy} {s : Impl} {err : Error}

theorem error_of_failure {result : Except Error α}
    (failed : failure result = some err) : result = .error err := by
  cases result with
  | error other => exact congrArg _ (Option.some.inj failed)
  | ok value => cases failed

theorem doCancel_of_error {id : RequestId} {now : TimePoint}
    (failed : (s.doCancel policy id now).1 = .error err) :
    (s.doCancel policy id now).2 = s := by
  revert failed
  unfold doCancel
  split
  · exact fun _ => rfl
  · split
    · exact fun _ => rfl
    · split
      · exact nofun
      · dsimp only
        split
        · exact fun _ => rfl
        · split
          · exact nofun
          · exact nofun
          · exact nofun
          · exact nofun
          · exact fun _ => rfl

theorem sealBatch_of_error {bid : BatchId} {reason : SealReason}
    {now : TimePoint} (failed : (s.sealBatch bid reason now).1 = .error err) :
    (s.sealBatch bid reason now).2 = s := by
  obtain unchanged | ⟨b, found, forming, _⟩ := sealBatch_cases s bid reason now
  · exact unchanged
  · simp [sealBatch, doSeal, found, forming] at failed

/-- A split that happens names a batch that is not null. -/
theorem split_of_error (wellFormed : WellFormed s) {bid : BatchId}
    (failed : (s.split bid).1 = .error err) : (s.split bid).2 = s := by
  have named : ({ value := s.nextBatch } : BatchId).isNull = false := by
    have allocating := wellFormed.allocating
    simp [Identifier.isNull]
    omega
  revert failed
  unfold split doSplit
  split
  · exact fun _ => rfl
  · split
    · exact fun _ => rfl
    · split
      · dsimp only
        rw [named]
        exact nofun
      · dsimp only
        rw [named]
        exact nofun

/-- So does a merge: it names the first of the batches merged. -/
theorem merge_of_error (wellFormed : WellFormed s) {aid bid : BatchId}
    (failed : (s.merge policy aid bid).1 = .error err) :
    (s.merge policy aid bid).2 = s := by
  revert failed
  unfold merge doMerge
  split
  · next a b foundA foundB =>
      have positive := (wellFormed.batch aid a foundA).2.1
      have named : aid.isNull = false := by
        simp [Identifier.isNull]
        omega
      split
      · exact fun _ => rfl
      · dsimp only
        rw [named]
        exact nofun
  · exact fun _ => rfl

theorem doRetry_of_error {id : RequestId} {order : List CompatibilityKey}
    {now : TimePoint} (failed : (s.doRetry policy id order now).1 = .error err) :
    (s.doRetry policy id order now).2 = s := by
  obtain ⟨other, refused⟩ | ⟨r, _, _, _, queued⟩ :=
    retryQueued_cases policy s id now
  · unfold doRetry
    rw [refused]
  · unfold doRetry at failed
    rw [queued] at failed
    cases failed

theorem prepareDispatch_of_error {bid : BatchId} {worker : WorkerId}
    {boot : WorkerBootId} {now : TimePoint}
    (failed : (s.prepareDispatch bid worker boot now).1 = .error err) :
    (s.prepareDispatch bid worker boot now).2 = s := by
  obtain ⟨other, refused⟩ | ⟨b, _, _, _, dispatched⟩ :=
    prepareDispatch_cases s bid worker boot now
  · rw [refused]
  · rw [dispatched] at failed
    cases failed

theorem recoverFrom_of_error {file : Option (List UInt8)}
    (failed : (s.recoverFrom file).1 = .error err) :
    (s.recoverFrom file).2 = s := by
  unfold recoverFrom at failed ⊢
  cases loaded : PersistenceStore.loadPath file with
  | error other => rfl
  | ok rt =>
      rw [loaded] at failed
      cases failed

end Failures

theorem OnlyStale.of_eq {s s' : Impl} (same : s' = s) : OnlyStale s s' := by
  rw [same]
  exact .refl s

/-- An operation that returns an error changes no more than the count of stale
reports. -/
theorem failed_changes_nothing (policy : BatchPolicy) (s : Impl)
    (reachable : Reachable policy s) (op : Fallible) (err : Error)
    (failed : (s.perform policy op).1 = some err) :
    OnlyStale s (s.perform policy op).2 := by
  have wellFormed := wellFormed_of_reachable reachable
  cases op with
  | cancel request now =>
      exact .of_eq (doCancel_of_error (error_of_failure failed))
  | complete completion now =>
      apply onlyStale_of_refused
      rw [error_of_failure failed]
      exact nofun
  | sealBatch batch reason now =>
      exact .of_eq (sealBatch_of_error (error_of_failure failed))
  | split batch =>
      exact .of_eq (split_of_error wellFormed (error_of_failure failed))
  | merge a b =>
      exact .of_eq (merge_of_error wellFormed (error_of_failure failed))
  | retry request order now =>
      exact .of_eq (doRetry_of_error (error_of_failure failed))
  | prepareDispatch batch worker boot now =>
      exact .of_eq (prepareDispatch_of_error (error_of_failure failed))
  | recoverFrom file =>
      exact .of_eq (recoverFrom_of_error (error_of_failure failed))

/-- Two requests share a batch that has been dispatched. Its split is
refused. -/
theorem failed_changes_nothing_on_dispatched :
    let s := run {} [.submit minimalRequest 0, .submit minimalRequest 0,
      .tick [] 1, .prepareDispatch { value := 1 } .null .null 2]
    (s.perform {} (.split { value := 1 })).1 ≠ none ∧
      OnlyStale s (s.perform {} (.split { value := 1 })).2 := by
  intro s
  have refused : (s.perform {} (.split { value := 1 })).1 =
      some (.err .splitRequired "split not possible") := by
    show ((run {} _).perform {} _).1 = _
    rw [run_eq_runKnown .minimal]
    decide +kernel
  refine ⟨by rw [refused]; exact nofun, ?_⟩
  exact failed_changes_nothing {} s (reachable_run {} _)
    (.split { value := 1 }) _ refused

end BatchFabric.Impl
