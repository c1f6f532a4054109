import BatchFabric.Scheduler.Tick

namespace BatchFabric

/-! The public operations. Each runs under the fabric's lock, so a run of the
fabric is a sequence of them. A time is the one `resolve_now` settles on, and
`order` is the order the hash table of buckets is enumerated in. -/

namespace Impl

def sealBatch (s : Impl) (batch : BatchId) (reason : SealReason)
    (now : TimePoint) : Except Error Unit × Impl :=
  let failed := Error.err .invalidState "batch not forming or not found"
  match s.batches[batch]? with
  | none => (.error failed, s)
  | some b =>
      if b.state ≠ .forming then (.error failed, s)
      else
        let sealing := s.doSeal batch reason now
        (if sealing.1 then .ok () else .error failed, sealing.2)

def split (s : Impl) (batch : BatchId) : Except Error BatchId × Impl :=
  let splitting := s.doSplit batch
  (if splitting.1.isNull then .error (.err .splitRequired "split not possible")
   else .ok splitting.1, splitting.2)

def merge (policy : BatchPolicy) (s : Impl) (a b : BatchId) :
    Except Error BatchId × Impl :=
  let merging := s.doMerge policy a b
  (if merging.1.isNull then .error (.err .mergeRejected "merge not valid")
   else .ok merging.1, merging.2)

def registerWorker (s : Impl) (worker : WorkerId) (boot : WorkerBootId)
    (cap : ExecutorCapability) : Impl :=
  { s with
    workers := s.workers.insert worker
      { (s.workers[worker]?).getD {} with
        cap := cap
        boot := boot
        live := true } }

def rollEpoch (s : Impl) : Impl :=
  { s with epoch := { value := s.epoch.value + 1 } }

/-- The statistics as they are reported: the numbers of requests that wait or
run are taken from the records, everything else from the counters. -/
def doStats (s : Impl) : BatchStats :=
  let among (counted : RequestState → Bool) : UInt64 :=
    UInt64.ofNat (OrderedMap.count (fun r => counted r.state) s.requests)
  { s.stats with
    waitingNow := among isWaitingState
    reservedNow := among (· == .reserved)
    runningNow := among fun state => state == .dispatched || state == .running
    formingNow := s.stats.formingNow }

end Impl

inductive Op
  | submit (metadata : RequestMetadata) (now : TimePoint)
  | cancel (request : RequestId) (now : TimePoint)
  | complete (completion : BatchCompletion) (now : TimePoint)
  | sealBatch (batch : BatchId) (reason : SealReason) (now : TimePoint)
  | split (batch : BatchId)
  | merge (a b : BatchId)
  | retry (request : RequestId) (order : List CompatibilityKey)
      (now : TimePoint)
  | tick (order : List CompatibilityKey) (now : TimePoint)
  | expire (order : List CompatibilityKey) (now : TimePoint)
  | dispatchAndRun (batch : BatchId) (executor : Executor) (now : TimePoint)
  | prepareDispatch (batch : BatchId) (worker : WorkerId)
      (boot : WorkerBootId) (now : TimePoint)
  | registerWorker (worker : WorkerId) (boot : WorkerBootId)
      (cap : ExecutorCapability)
  | rollEpoch

/-- The state an operation leaves, whatever it returns. What else a merge of a
batch with itself may leave, `StepsTo` adds. -/
def step (policy : BatchPolicy) (s : Impl) : Op → Impl
  | .submit metadata now => (s.doSubmit policy metadata now).2
  | .cancel request now => (s.doCancel policy request now).2
  | .complete completion now => (s.doComplete policy completion now).2
  | .sealBatch batch reason now => (s.sealBatch batch reason now).2
  | .split batch => (s.split batch).2
  | .merge a b => (s.merge policy a b).2
  | .retry request order now => (s.doRetry policy request order now).2
  | .tick order now => (s.tick policy order now).2
  | .expire order now => s.expireLocked policy order now
  | .dispatchAndRun batch executor now =>
      (s.doDispatchAndRun policy batch executor now).2
  | .prepareDispatch batch worker boot now =>
      (s.prepareDispatch batch worker boot now).2
  | .registerWorker worker boot cap => s.registerWorker worker boot cap
  | .rollEpoch => s.rollEpoch

/-- The states the operations can lead a fresh fabric to. -/
def Reachable (policy : BatchPolicy) (s : Impl) : Prop :=
  Transition.Reachable (step policy) Impl.fresh s

/-- The state after a sequence of operations on a fresh fabric. -/
def run (policy : BatchPolicy) (ops : List Op) : Impl :=
  Transition.run (step policy) Impl.fresh ops

/-- A request for one unit of work of some model. -/
def minimalRequest : RequestMetadata where
  descriptor := { model := { bytes := [109] }, revision := { bytes := [49] } }
  work := { value := 1 }

theorem reachable_run (policy : BatchPolicy) (ops : List Op) :
    Reachable policy (run policy ops) :=
  ⟨ops, rfl⟩

/-! A batch that is merged with itself. The loops over its lists append to the
lists they go through: once a list has moved to make room, what is still to be
read is no longer its own. -/

/-- What a loop over a list reads that appends to it: one entry for each, the
first of them before anything is appended. -/
structure Rereads {α : Type} (xs read : List α) : Prop where
  length : read.length = xs.length
  head : read.head? = xs.head?

/-- A batch as its own merge reads it. -/
structure RereadsBatch (b read : BatchRec) : Prop where
  members : Rereads b.members read.members
  parents : Rereads b.parents read.parents
  children : Rereads b.children read.children
  others : read = { b with
    members := read.members
    parents := read.parents
    children := read.children }

/-- The operation merges a batch with itself, and that is not refused. -/
def mergesItself (policy : BatchPolicy) (s : Impl) : Op → Bool
  | .merge a b =>
      match s.batches[a]? with
      | none => false
      | some r => a == b && Impl.canMerge policy r r
  | _ => false

/-- The states an operation may lead to. It is left open only what a batch reads
of itself when it is merged with itself. -/
inductive StepsTo (policy : BatchPolicy) (s : Impl) : Op → Impl → Prop
  | plain (op : Op) : StepsTo policy s op (step policy s op)
  | mergeItself {bid : BatchId} {b read : BatchRec}
      (found : s.batches[bid]? = some b)
      (possible : Impl.canMerge policy b b = true)
      (reads : RereadsBatch b read) :
      StepsTo policy s (.merge bid bid) (s.mergeInto bid bid b read)

theorem StepsTo.eq_step {policy : BatchPolicy} {s s' : Impl} {op : Op}
    (stepsTo : StepsTo policy s op s')
    (apart : mergesItself policy s op = false) : s' = step policy s op := by
  cases stepsTo with
  | plain op => rfl
  | mergeItself found possible reads =>
      simp [mergesItself, found, possible] at apart

/-- The states that operations on a fresh fabric may lead to, where each is
allowed in the state in which it is carried out. -/
def RunsTo (policy : BatchPolicy) (allowed : Impl → Op → Prop)
    (ops : List Op) (s : Impl) : Prop :=
  Transition.Steps (StepsTo policy) allowed Impl.fresh ops s

theorem runsTo_run {policy : BatchPolicy} {allowed : Impl → Op → Prop}
    {ops : List Op}
    (guarded : Transition.Along (step policy) allowed Impl.fresh ops) :
    RunsTo policy allowed ops (run policy ops) :=
  Transition.steps_run (fun _ op => .plain op) guarded

/-- Unless a batch is merged with itself, there is one such state. -/
theorem RunsTo.eq_run {policy : BatchPolicy} {allowed : Impl → Op → Prop}
    {ops : List Op} {s : Impl} (runs : RunsTo policy allowed ops s)
    (apart : ∀ s op, allowed s op → mergesItself policy s op = false) :
    s = run policy ops ∧
      Transition.Along (step policy) allowed Impl.fresh ops :=
  Transition.Steps.determined runs fun s op _ admitted stepsTo =>
    stepsTo.eq_step (apart s op admitted)

end BatchFabric
