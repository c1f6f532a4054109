import BatchFabric.Scheduler.Completion

namespace BatchFabric

/-- Per-member input to an execution. -/
structure MemberWork where
  request : RequestId := .null
  attempt : AttemptId := .null
  work : UInt64 := 0
  inputTokens : UInt64 := 0
  outputTokens : UInt64 := 0
  payload : ByteString := {}
  deriving DecidableEq

/-- A sealed batch handed to an executor or worker. -/
structure BatchExecution where
  batch : BatchId := .null
  generation : Generation := .null
  epoch : BatchEpoch := .null
  worker : WorkerId := .null
  descriptor : ModelDescriptor := {}
  members : List MemberWork := []
  deriving DecidableEq

/-- Per-member output of an executor. -/
structure MemberResult where
  request : RequestId := .null
  attempt : AttemptId := .null
  output : ByteString := {}

/-- An executor, as far as one call of it goes. -/
structure Executor where
  capability : ExecutorCapability := {}
  execute : BatchExecution → Except Error (List MemberResult)

namespace Impl

/-- Marks a sealed batch as dispatched to a worker incarnation. -/
def markDispatched (s : Impl) (bid : BatchId) (b : BatchRec)
    (worker : WorkerId) (boot : WorkerBootId) (now : TimePoint) : Impl :=
  { s with
    batches := s.batches.modify bid fun b =>
      { b with
        state := .dispatched
        dispatchedNs := now
        worker := worker
        boot := boot }
    requests := OrderedMap.modifyAll s.requests b.members
      (RequestRec.advance .batched .dispatched) }

def memberWork (s : Impl) (m : RequestId) : Option MemberWork :=
  (s.requests[m]?).map fun r => {
    request := m
    attempt := r.currentAttempt
    work := r.metadata.work.value
    inputTokens := r.metadata.tokens.input
    outputTokens := r.metadata.tokens.output
    payload := r.metadata.payload }

def executionOf (s : Impl) (b : BatchRec) (worker : WorkerId) :
    BatchExecution where
  batch := b.id
  generation := b.generation
  epoch := b.epoch
  worker := worker
  descriptor := b.descriptor
  members := b.members.filterMap s.memberWork

def prepareDispatch (s : Impl) (bid : BatchId) (worker : WorkerId)
    (boot : WorkerBootId) (now : TimePoint) :
    Except Error BatchExecution × Impl :=
  match s.batches[bid]? with
  | none => (.error (.err .notFound "batch not found"), s)
  | some b =>
      if b.state ≠ .sealed then
        (.error (.err .invalidState "batch not sealed"), s)
      else if !s.workerCurrent worker boot then
        (.error (.err .staleWorker "worker not current"), s)
      else
        let dispatched := s.markDispatched bid b worker boot now
        (.ok (dispatched.executionOf b worker), dispatched)

/-- After the executor returned: the batch counts as running. -/
def markRunning (s : Impl) (bid : BatchId) (b : BatchRec) : Impl :=
  { s with
    batches := s.batches.modify bid fun b => { b with state := .running }
    requests := OrderedMap.modifyAll s.requests b.members
      (RequestRec.advance .dispatched .running) }

/-- The boot id a worker is registered with, zero when it is unknown. -/
def bootOf (s : Impl) (worker : WorkerId) : WorkerBootId :=
  match s.workers[worker]? with
  | none => .null
  | some w => w.boot

/-- An executor error counts as a retryable failure of the member's current
attempt, whatever state that attempt is in. -/
def failMember (policy : BatchPolicy) (now : TimePoint) (err : Error)
    (s : Impl) (m : RequestId) : Impl :=
  match s.requests[m]? with
  | none => s
  | some r =>
      s.applyMemberOutcome policy now {
        request := m
        attempt := r.currentAttempt
        status := .retryableFailure
        errorCode := err.code
        errorMessage := err.toString }

/-- The report made of an executor's results. -/
def resultsCompletion (b : BatchRec) (worker : WorkerId) (boot : WorkerBootId)
    (results : List MemberResult) : BatchCompletion where
  worker := worker
  boot := boot
  epoch := b.epoch
  generation := b.generation
  batch := b.id
  members := results.map fun mr => {
    request := mr.request
    attempt := mr.attempt
    status := .success
    result := mr.output }

/-- The state in which the executor's answer is taken up. -/
def startedRun (s : Impl) (bid : BatchId) (b : BatchRec) (worker : WorkerId)
    (now : TimePoint) : Impl :=
  (s.markDispatched bid b worker (s.bootOf worker) now).markRunning bid b

/-- The execution handed to the executor of an in-process run. -/
def runExecution (s : Impl) (bid : BatchId) (b : BatchRec)
    (worker : WorkerId) (now : TimePoint) : BatchExecution :=
  (s.markDispatched bid b worker (s.bootOf worker) now).executionOf b worker

def doDispatchAndRun (policy : BatchPolicy) (s : Impl) (bid : BatchId)
    (executor : Executor) (now : TimePoint) : Except Error BatchId × Impl :=
  match s.batches[bid]? with
  | none => (.error (.err .notFound "batch not found"), s)
  | some b =>
      if b.state ≠ .sealed then
        (.error (.err .invalidState "batch not sealed"), s)
      else
        let worker := executor.capability.worker
        let result := executor.execute (s.runExecution bid b worker now)
        let started := s.startedRun bid b worker now
        match result with
        | .error err =>
            (.error {
                code := err.code
                message := .ofAscii "executor failed: " ++ err.message },
              Transition.run (failMember policy now err) started b.members)
        | .ok results =>
            let report := resultsCompletion b worker (s.bootOf worker) results
            match started.doComplete policy report now with
            | (.error err, s) =>
                (.error { code := err.code, message := err.message }, s)
            | (.ok (), s) => (.ok b.id, s)

end Impl

end BatchFabric
