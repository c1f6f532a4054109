import BatchFabric.Compatibility
import BatchFabric.Library.Transition

namespace BatchFabric

structure AttemptRec where
  id : AttemptId := .null
  number : UInt32 := 0
  state : RequestState := .created
  batch : BatchId := .null
  outcome : CompletionStatus := .success
  result : ByteString := {}
  error : ErrorCode := .ok
  started : TimePoint := 0
  completed : TimePoint := 0

structure RequestRec where
  id : RequestId := .null
  metadata : RequestMetadata := {}
  state : RequestState := .created
  currentAttempt : AttemptId := .null
  attempts : List AttemptId := []
  batch : BatchId := .null
  submitted : TimePoint := 0
  key : CompatibilityKey := {}
  inWaiting : Bool := false
  authoritativeComplete : Bool := false

/-- The capability profile of an executor or worker. -/
structure ExecutorCapability where
  worker : WorkerId := .null
  backend : Backend := .cpu
  device : DeviceCapability := {}
  maxBatchSize : UInt32 := 0
  maxTokens : UInt64 := 0
  maxWork : UInt64 := 0
  maxMemoryBytes : UInt64 := 0
  supportsCancellation : Bool := false

/-- May the executor legally take such a batch? A backend unknown on either
side matches, and a limit of zero is none. -/
def ExecutorCapability.supports (cap : ExecutorCapability)
    (descriptor : ModelDescriptor) (batchSize : UInt32)
    (tokens work memory : UInt64) : Bool :=
  if descriptor.backend != .unknown && cap.backend != .unknown &&
      descriptor.backend != cap.backend then
    false
  else if cap.maxBatchSize != 0 && batchSize > cap.maxBatchSize then false
  else if cap.maxTokens != 0 && tokens > cap.maxTokens then false
  else if cap.maxWork != 0 && work > cap.maxWork then false
  else if cap.maxMemoryBytes != 0 && memory > cap.maxMemoryBytes then false
  else true

structure WorkerRec where
  cap : ExecutorCapability := {}
  boot : WorkerBootId := .null
  live : Bool := false
  running : List BatchId := []

structure BatchRec where
  id : BatchId := .null
  generation : Generation := .null
  epoch : BatchEpoch := .null
  state : BatchState := .forming
  key : CompatibilityKey := {}
  phase : Phase := .prefill
  descriptor : ModelDescriptor := {}
  members : List RequestId := []
  accum : BatchAccum := {}
  formedNs : TimePoint := 0
  sealedNs : TimePoint := 0
  dispatchedNs : TimePoint := 0
  completedNs : TimePoint := 0
  sealReason : SealReason := .maxWaitElapsed
  worker : WorkerId := .null
  boot : WorkerBootId := .null
  parents : List BatchId := []
  children : List BatchId := []
  allowedWaitNs : TimePoint := kNoDeadline
  outcomes : Map RequestId CompletionStatus := ∅
  memberResults : Map RequestId ByteString := ∅

/-- The integer counters. Some are filled in only where they are reported, and
two are never counted. -/
structure BatchStats where
  submitted : UInt64 := 0
  admitted : UInt64 := 0
  deferred : UInt64 := 0
  rejected : UInt64 := 0
  expired : UInt64 := 0
  cancelled : UInt64 := 0
  batchesFormed : UInt64 := 0
  batchesSealed : UInt64 := 0
  batchesDispatched : UInt64 := 0
  batchesCompleted : UInt64 := 0
  batchesSplit : UInt64 := 0
  batchesMerged : UInt64 := 0
  requestsCompleted : UInt64 := 0
  requestsRetried : UInt64 := 0
  retryableFailures : UInt64 := 0
  staleRejections : UInt64 := 0
  waitingNow : UInt64 := 0
  formingNow : UInt64 := 0
  runningNow : UInt64 := 0
  reservedNow : UInt64 := 0
  totalWorkCompleted : UInt64 := 0

/-- The scheduler's live state. -/
structure Impl where
  fairness : FairnessController := {}
  epoch : BatchEpoch := { value := 1 }
  nextRequest : Nat := 1
  nextBatch : Nat := 1
  nextAttempt : Nat := 1
  nextGeneration : Nat := 1
  requests : Map RequestId RequestRec := ∅
  attempts : Map AttemptId AttemptRec := ∅
  batches : Map BatchId BatchRec := ∅
  workers : Map WorkerId WorkerRec := ∅
  waitingIndex : CompatibilityIndex := ∅
  formingByKey : Map CompatibilityKey BatchId := ∅
  sealedOrder : List BatchId := []
  stats : BatchStats := {}

namespace Impl

/-- A freshly constructed fabric: the local CPU worker and nothing else. -/
def fresh : Impl where
  workers := (∅ : Map WorkerId WorkerRec).insert .null
    { cap := { worker := .null, backend := .cpu }
      boot := .null
      live := true }

/-- The requests queued under a key. -/
def bucket (s : Impl) (key : CompatibilityKey) : List RequestId :=
  s.waitingIndex.bucketOf key

/-- The worker is registered, live and in this incarnation. -/
def workerCurrent (s : Impl) (worker : WorkerId) (boot : WorkerBootId) :
    Bool :=
  match s.workers[worker]? with
  | none => false
  | some w => w.live && w.boot == boot

def countStale (s : Impl) : Impl :=
  { s with stats.staleRejections := s.stats.staleRejections + 1 }

end Impl

end BatchFabric
