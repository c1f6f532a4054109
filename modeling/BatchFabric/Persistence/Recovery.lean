import BatchFabric.Numerals
import BatchFabric.Persistence.Store
import BatchFabric.Scheduler.Operations

/-! What the fabric persists, and how it resumes from it. -/

namespace BatchFabric

namespace FairnessController

def restoreServed (fairness : FairnessController) (t : TenantId)
    (served : UInt64) : FairnessController where
  served := fairness.served.insert t served
  outstanding :=
    match fairness.outstanding[t]? with
    | some _ => fairness.outstanding
    | none => fairness.outstanding.insert t 0

end FairnessController

def RequestRec.persisted (r : RequestRec) : PersistedRequest where
  id := r.id
  tenant := r.metadata.tenant
  session := r.metadata.session
  sequence := r.metadata.sequence
  descriptor := r.metadata.descriptor
  tokens := r.metadata.tokens
  work := r.metadata.work
  memoryBytes := r.metadata.memoryBytes
  deadline := r.metadata.deadline
  latency := r.metadata.latency
  priority := r.metadata.priority
  payload := r.metadata.payload
  state := r.state
  submittedNs := r.submitted
  batch := r.batch
  currentAttempt := r.currentAttempt
  attemptIds := r.attempts

def AttemptRec.persisted (a : AttemptRec) : PersistedAttempt where
  id := a.id
  number := a.number
  state := a.state
  batch := a.batch
  outcome := a.outcome
  result := a.result
  started := a.started
  completed := a.completed

def BatchRec.persisted (b : BatchRec) : PersistedBatch where
  id := b.id
  generation := b.generation
  epoch := b.epoch
  state := b.state
  key := b.key
  members := b.members
  used := b.accum
  formedNs := b.formedNs
  sealedNs := b.sealedNs
  dispatchedNs := b.dispatchedNs
  completedNs := b.completedNs
  sealReason := b.sealReason
  worker := b.worker
  boot := b.boot
  parents := b.parents
  children := b.children

namespace Impl

def buildPersisted (s : Impl) : PersistedRuntime where
  epoch := s.epoch
  nextRequest := s.nextRequest
  nextBatch := s.nextBatch
  nextAttempt := s.nextAttempt
  nextGeneration := s.nextGeneration
  requests := s.requests.toList.map fun entry => entry.2.persisted
  attempts := s.attempts.toList.map fun entry => entry.2.persisted
  batches := s.batches.toList.map fun entry => entry.2.persisted
  fairnessServed := OrderedMap.insertAll ∅ (s.fairness.served.toList.map
    fun entry => (ByteString.ofNumber entry.1.value, entry.2))

def loadRequest (s : Impl) (pr : PersistedRequest) : Impl :=
  let key := CompatibilityKey.build pr.descriptor
  let inWaiting := isWaitingState pr.state
  { s with
    waitingIndex :=
      if inWaiting then s.waitingIndex.add key pr.id else s.waitingIndex
    requests := s.requests.insert pr.id {
      id := pr.id
      metadata := {
        tenant := pr.tenant
        session := pr.session
        sequence := pr.sequence
        descriptor := pr.descriptor
        tokens := pr.tokens
        work := pr.work
        memoryBytes := pr.memoryBytes
        deadline := pr.deadline
        latency := pr.latency
        priority := pr.priority
        payload := pr.payload }
      state := pr.state
      currentAttempt := pr.currentAttempt
      attempts := pr.attemptIds
      batch := pr.batch
      submitted := pr.submittedNs
      key := key
      inWaiting := inWaiting } }

def loadAttempt (s : Impl) (pa : PersistedAttempt) : Impl :=
  { s with
    attempts := s.attempts.insert pa.id {
      id := pa.id
      number := pa.number
      state := pa.state
      batch := pa.batch
      outcome := pa.outcome
      result := pa.result
      started := pa.started
      completed := pa.completed } }

/-- The descriptor of a recovered batch is that of its first member. -/
def frontDescriptor (s : Impl) (members : List RequestId) : ModelDescriptor :=
  match members with
  | [] => {}
  | front :: _ =>
      match s.requests[front]? with
      | none => {}
      | some r => r.metadata.descriptor

def loadBatch (s : Impl) (pb : PersistedBatch) : Impl :=
  let b : BatchRec := {
    id := pb.id
    generation := pb.generation
    epoch := pb.epoch
    state := pb.state
    key := pb.key
    phase := (s.frontDescriptor pb.members).phase
    descriptor := s.frontDescriptor pb.members
    members := pb.members
    accum := pb.used
    formedNs := pb.formedNs
    sealedNs := pb.sealedNs
    dispatchedNs := pb.dispatchedNs
    completedNs := pb.completedNs
    sealReason := pb.sealReason
    worker := pb.worker
    boot := pb.boot
    parents := pb.parents
    children := pb.children }
  let s :=
    if b.state = .forming then
      { s with
        formingByKey := s.formingByKey.insert b.key b.id
        stats.formingNow := s.stats.formingNow + 1 }
    else s
  let s :=
    if b.state = .sealed then
      { s with sealedOrder := s.sealedOrder ++ [b.id] }
    else s
  { s with batches := s.batches.insert pb.id b }

def loadServed (fairness : FairnessController)
    (record : ByteString × UInt64) : FairnessController :=
  match record.1.stoull with
  | none => fairness
  | some v => fairness.restoreServed { value := v } record.2

def loadPersisted (s : Impl) (rt : PersistedRuntime) : Impl :=
  let s := { s with
    epoch := rt.epoch
    nextRequest := rt.nextRequest
    nextBatch := rt.nextBatch
    nextAttempt := rt.nextAttempt
    nextGeneration := rt.nextGeneration
    requests := ∅
    attempts := ∅
    batches := ∅
    formingByKey := ∅
    sealedOrder := []
    waitingIndex := ∅ }
  let s := Transition.run loadRequest s rt.requests
  let s := Transition.run loadAttempt s rt.attempts
  let s := Transition.run loadBatch s rt.batches
  { s with
    fairness := rt.fairnessServed.toList.foldl loadServed {} }

def recoverFrom (s : Impl) (file : Option (List UInt8)) :
    Except Error Unit × Impl :=
  match PersistenceStore.loadPath file with
  | .error err => (.error { code := err.code, message := err.message }, s)
  | .ok rt => (.ok (), s.loadPersisted rt)

end Impl

end BatchFabric
