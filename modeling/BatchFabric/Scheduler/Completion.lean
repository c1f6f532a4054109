import BatchFabric.Scheduler.Reshaping

namespace BatchFabric

/-- The authoritative outcome of one member, as an executor reports it. -/
structure MemberCompletion where
  request : RequestId := .null
  attempt : AttemptId := .null
  status : CompletionStatus := .success
  result : ByteString := {}
  errorCode : ErrorCode := .ok
  errorMessage : ByteString := {}

/-- The completion report of a batch dispatched to a worker. -/
structure BatchCompletion where
  worker : WorkerId := .null
  boot : WorkerBootId := .null
  epoch : BatchEpoch := .null
  generation : Generation := .null
  batch : BatchId := .null
  members : List MemberCompletion := []

def BatchRec.recordOutcome (b : BatchRec) (id : RequestId)
    (status : CompletionStatus) : BatchRec :=
  { b with outcomes := b.outcomes.insert id status }

def AttemptRec.finish (a : AttemptRec) (state : RequestState)
    (outcome : CompletionStatus) (now : TimePoint) : AttemptRec :=
  { a with state := state, outcome := outcome, completed := now }

/-! What an outcome writes into the three records it concerns. A success also
keeps the result, a failure the error. -/

def RequestRec.conclude (r : RequestRec) (mc : MemberCompletion)
    (state : RequestState) : RequestRec :=
  match mc.status with
  | .success => { r with state := state, authoritativeComplete := true }
  | _ => { r with state := state }

def AttemptRec.conclude (a : AttemptRec) (mc : MemberCompletion)
    (state : RequestState) (now : TimePoint) : AttemptRec :=
  match mc.status with
  | .success => { a.finish state mc.status now with result := mc.result }
  | .retryableFailure | .nonRetryableFailure =>
      { a.finish state mc.status now with error := mc.errorCode }
  | _ => a.finish state mc.status now

def BatchRec.conclude (b : BatchRec) (mc : MemberCompletion) : BatchRec :=
  let b := b.recordOutcome mc.request mc.status
  match mc.status with
  | .success =>
      { b with memberResults := b.memberResults.insert mc.request mc.result }
  | .retryableFailure | .nonRetryableFailure =>
      { b with
        memberResults := b.memberResults.insert mc.request mc.errorMessage }
  | _ => b

/-- A final attempt state a report may not overwrite. Rejected attempts are
not among them. -/
def isSettledAttempt : RequestState → Bool
  | .completed | .cancelled | .expired | .failed => true
  | _ => false

namespace Impl

/-! Cancellation and expiry. -/

def completeRequestTerminal (s : Impl) (id : RequestId)
    (status : CompletionStatus) (state : RequestState) (now : TimePoint) :
    Impl :=
  match s.requests[id]? with
  | none => s
  | some r =>
      if isRequestTerminal r.state then s
      else
        { s with
          requests := s.requests.modify id fun r =>
            { r with state := state, inWaiting := false }
          attempts := s.attempts.modify r.currentAttempt fun a =>
            a.finish state status now
          stats :=
            if status = .expired then
              { s.stats with expired := s.stats.expired + 1 }
            else if status = .cancelled then
              { s.stats with cancelled := s.stats.cancelled + 1 }
            else
              { s.stats with
                requestsCompleted := s.stats.requestsCompleted + 1 } }

/-- The request states in which a cancellation looks for the batch. -/
def isInBatch : RequestState → Bool
  | .reserved | .batched | .dispatched | .running | .sealed => true
  | _ => false

/-- Cancels the request's current attempt and counts it. -/
def cancelAttempt (s : Impl) (r : RequestRec) (now : TimePoint) : Impl :=
  { s with
    attempts := s.attempts.modify r.currentAttempt fun a =>
      a.finish .cancelled .cancelled now
    stats.cancelled := s.stats.cancelled + 1 }

def cancelOutside (s : Impl) (id : RequestId) (r : RequestRec)
    (now : TimePoint) : Impl :=
  let s := s.cancelAttempt r now
  { s with
    waitingIndex :=
      if r.inWaiting then s.waitingIndex.remove r.key id else s.waitingIndex
    requests := s.requests.modify id fun r =>
      { r with state := .cancelled, inWaiting := false } }

def cancelForming (policy : BatchPolicy) (s : Impl) (id : RequestId)
    (r : RequestRec) (now : TimePoint) : Impl :=
  let requests := s.requests
  let s := s.cancelAttempt r now
  { s with
    batches := s.batches.modify r.batch fun b =>
      let b := recomputeAccum requests
        { b with members := b.members.filter (· ≠ id) }
      { b with allowedWaitNs := computeAllowedWait policy requests b now }
    requests := s.requests.modify id fun r =>
      { r with state := .cancelled, batch := .null } }

def cancelAfterSeal (s : Impl) (id : RequestId) (r : RequestRec)
    (now : TimePoint) : Impl :=
  let s := s.cancelAttempt r now
  { s with
    batches := s.batches.modify r.batch fun b =>
      b.recordOutcome id .cancelled
    requests := s.requests.modify id fun r => { r with state := .cancelled } }

def doCancel (policy : BatchPolicy) (s : Impl) (id : RequestId)
    (now : TimePoint) : Except Error Unit × Impl :=
  match s.requests[id]? with
  | none => (.error (.err .notFound "request not found"), s)
  | some r =>
      if isRequestTerminal r.state then
        (.error (.err .invalidState "request already terminal"), s)
      else if !isInBatch r.state then (.ok (), s.cancelOutside id r now)
      else
        let refused : Except Error Unit × Impl :=
          (.error (.err .invalidState "cannot cancel request in this state"),
            s)
        match s.batches[r.batch]? with
        | none => refused
        | some b =>
            match b.state with
            | .forming => (.ok (), s.cancelForming policy id r now)
            | .sealed | .dispatched | .running =>
                (.ok (), s.cancelAfterSeal id r now)
            | _ => refused

def deadlinePassed (s : Impl) (now : TimePoint) (id : RequestId) : Bool :=
  match s.requests[id]? with
  | none => false
  | some r =>
      r.metadata.deadline.hasDeadline && r.metadata.deadline.expired now

/-- Expires a request found in the waiting index. -/
def expireWaiting (now : TimePoint) (s : Impl) (id : RequestId) : Impl :=
  match s.requests[id]? with
  | none => s
  | some r =>
      { s with waitingIndex := s.waitingIndex.remove r.key id }
        |>.completeRequestTerminal id .expired .expired now

/-- Cancels a member of a forming batch whose deadline has passed. -/
def cancelExpired (policy : BatchPolicy) (now : TimePoint) (s : Impl)
    (id : RequestId) : Impl :=
  match s.requests[id]? with
  | none => s
  | some _ => (s.doCancel policy id now).2

def expiredWaiting (s : Impl) (order : List CompatibilityKey)
    (now : TimePoint) : List RequestId :=
  (s.waitingIndex.enumerate order).flatMap fun entry =>
    entry.2.filter (s.deadlinePassed now)

def expiredInForming (s : Impl) (now : TimePoint) : List RequestId :=
  s.formingByKey.toList.flatMap fun entry =>
    match s.batches[entry.2]? with
    | none => []
    | some b => b.members.filter (s.deadlinePassed now)

def expireLocked (policy : BatchPolicy) (s : Impl)
    (order : List CompatibilityKey) (now : TimePoint) : Impl :=
  let s := Transition.run (expireWaiting now) s (s.expiredWaiting order now)
  Transition.run (cancelExpired policy now) s (s.expiredInForming now)

/-! Outcomes. -/

/-- Gives the request a fresh attempt and queues it again. -/
def requeue (s : Impl) (id : RequestId) (r : RequestRec) (number : UInt32) :
    Impl :=
  let na : AttemptId := { value := s.nextAttempt }
  { s with
    nextAttempt := s.nextAttempt + 1
    attempts := s.attempts.insert na
      { id := na, number := number, state := .eligible }
    requests := s.requests.modify id fun r =>
      { r with
        currentAttempt := na
        attempts := r.attempts ++ [na]
        state := .eligible
        batch := .null
        inWaiting := true }
    waitingIndex := s.waitingIndex.add r.key r.id
    stats.requestsRetried := s.stats.requestsRetried + 1 }

/-- Ends the request and its current attempt alike, and notes the outcome in
the batch the request names. -/
def conclude (s : Impl) (r : RequestRec) (mc : MemberCompletion)
    (state : RequestState) (now : TimePoint) : Impl :=
  { s with
    requests := s.requests.modify mc.request fun r => r.conclude mc state
    attempts := s.attempts.modify r.currentAttempt fun a =>
      a.conclude mc state now
    batches := s.batches.modify r.batch fun b => b.conclude mc }

def applySuccess (policy : BatchPolicy) (s : Impl) (r : RequestRec)
    (mc : MemberCompletion) (now : TimePoint) : Impl :=
  { s.conclude r mc .completed now with
    fairness :=
      if policy.fairness.enabled then
        s.fairness.noteCompleted r.metadata.tenant r.metadata.work.value
      else s.fairness
    stats.requestsCompleted := s.stats.requestsCompleted + 1
    stats.totalWorkCompleted :=
      s.stats.totalWorkCompleted + r.metadata.work.value }

def applyRetryable (policy : BatchPolicy) (s : Impl) (r : RequestRec)
    (a : AttemptRec) (mc : MemberCompletion) (now : TimePoint) : Impl :=
  let failed := { s.conclude r mc .failed now with
    stats.retryableFailures := s.stats.retryableFailures + 1 }
  if policy.retry.enabled && a.number < policy.retry.maxAttempts then
    failed.requeue mc.request r (a.number + 1)
  else failed

/-- The outcome switch, on the current attempt of the request named. -/
def applyMemberOutcome (policy : BatchPolicy) (now : TimePoint) (s : Impl)
    (mc : MemberCompletion) : Impl :=
  match s.requests[mc.request]? with
  | none => s
  | some r =>
      match s.attempts[r.currentAttempt]? with
      | none => s
      | some a =>
          match mc.status with
          | .success => s.applySuccess policy r mc now
          | .retryableFailure => s.applyRetryable policy r a mc now
          | .nonRetryableFailure => s.conclude r mc .failed now
          | .cancelled =>
              { s.conclude r mc .cancelled now with
                stats.cancelled := s.stats.cancelled + 1 }
          | .expired =>
              { s.conclude r mc .expired now with
                stats.expired := s.stats.expired + 1 }
          | .stale | .deferred => s.countStale
          -- No case of the switch: nothing happens.
          | .undeclared _ _ => s

/-! Completion reports. -/

/-- One record of a report. -/
def completeMember (policy : BatchPolicy) (now : TimePoint) (s : Impl)
    (mc : MemberCompletion) : Impl :=
  match s.requests[mc.request]? with
  | none => s
  | some r =>
      if r.currentAttempt ≠ mc.attempt then s.countStale
      else
        match s.attempts[mc.attempt]? with
        | none => s
        | some a =>
            if isSettledAttempt a.state then s
            else s.applyMemberOutcome policy now mc

/-- Every member exists and has ended. -/
def allTerminal (s : Impl) (b : BatchRec) : Bool :=
  b.members.all fun m =>
    match s.requests[m]? with
    | none => false
    | some r => isRequestTerminal r.state

/-- Closes the batch of an accepted report. -/
def finishBatch (s : Impl) (bid : BatchId) (worker : WorkerId)
    (now : TimePoint) : Impl :=
  match s.batches[bid]? with
  | none => s
  | some b =>
      let s :=
        if s.allTerminal b then
          { s with
            batches := s.batches.modify bid fun b =>
              { b with state := .completed, completedNs := now }
            stats.batchesCompleted := s.stats.batchesCompleted + 1 }
        else
          { s with
            batches := s.batches.modify bid fun b =>
              { b with state := .partiallyCompleted } }
      { s with
        workers := s.workers.modify worker fun w =>
          { w with running := w.running.filter (· ≠ bid) } }

def doComplete (policy : BatchPolicy) (s : Impl) (comp : BatchCompletion)
    (now : TimePoint) : Except Error Unit × Impl :=
  if comp.epoch ≠ s.epoch then
    (.error (.err .staleEpoch "completion epoch mismatch"), s.countStale)
  else if !s.workerCurrent comp.worker comp.boot then
    (.error (.err .staleWorker "completion worker/boot not current"),
      s.countStale)
  else
    match s.batches[comp.batch]? with
    | none => (.error (.err .notFound "batch not found"), s.countStale)
    | some b =>
        if b.generation ≠ comp.generation then
          (.error (.err .staleAttempt "completion generation mismatch"),
            s.countStale)
        else if b.state ≠ .dispatched && b.state ≠ .running then
          (.error (.err .invalidState "batch not running"), s)
        else
          let s := Transition.run (completeMember policy now) s comp.members
          (.ok (), s.finishBatch comp.batch comp.worker now)

end Impl

end BatchFabric
