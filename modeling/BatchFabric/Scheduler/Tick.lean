import BatchFabric.Scheduler.Dispatch

namespace BatchFabric

structure FormationReport where
  sealedBatches : List BatchId := []
  forming : Nat := 0

namespace Impl

/-- Opens a forming batch for every queued key that has none. -/
def formMissing (policy : BatchPolicy) (now : TimePoint) (s : Impl)
    (key : CompatibilityKey) : Impl :=
  if s.formingByKey.contains key then s else s.makeForming policy key now

/-- The candidates a forming batch could still wait for. -/
def remainingCandidates (s : Impl) (key : CompatibilityKey) :
    List BatchFormer.Candidate :=
  (s.bucket key).filterMap fun m =>
    match s.requests[m]? with
    | none => none
    | some r => if isWaitingState r.state then some (r.toCandidate m) else none

/-- Fills a registered batch and recomputes how long it may wait. -/
def refill (policy : BatchPolicy) (now : TimePoint) (s : Impl)
    (bid : BatchId) : Impl :=
  match s.batches[bid]? with
  | none => s
  | some b =>
      (s.fillForming policy bid b.key now).setAllowedWait policy bid now

def decidesToSeal (policy : BatchPolicy) (s : Impl) (bid : BatchId)
    (now : TimePoint) : Bool :=
  match s.batches[bid]? with
  | none => false
  | some b =>
      (BatchFormer.decide policy b.toFormerBatch (s.remainingCandidates b.key)
        now).action == .seal

/-- The pass over the registered batches, collecting those to seal. -/
def decidePass (policy : BatchPolicy) (now : TimePoint) :
    Impl → List BatchId → Impl × List BatchId
  | s, [] => (s, [])
  | s, bid :: rest =>
      let filled := s.refill policy now bid
      let passed := decidePass policy now filled rest
      (passed.1,
        if filled.decidesToSeal policy bid now then bid :: passed.2
        else passed.2)

def sealedReasonFor (s : Impl) (bid : BatchId) : SealReason :=
  match s.batches[bid]? with
  | none => .maxWaitElapsed
  | some b => b.sealReason

def sealDecided (now : TimePoint) (s : Impl) (bid : BatchId) : Impl :=
  match s.batches[bid]? with
  | none => s
  | some _ => (s.doSeal bid (s.sealedReasonFor bid) now).2

/-- Merges neighbours while the counter of merges allows it. -/
def mergeNeighbours (policy : BatchPolicy) (s : Impl)
    (pair : BatchId × BatchId) : Impl :=
  if s.stats.batchesMerged < policy.merge.maxMergesPerCycle.toUInt64 then
    (s.doMerge policy pair.1 pair.2).2
  else s

def neighbours (v : List BatchId) : List (BatchId × BatchId) :=
  v.zip v.tail

def isSealedBatch (s : Impl) (bid : BatchId) : Bool :=
  match s.batches[bid]? with
  | none => false
  | some b => b.state == .sealed

def keyOfBatch (s : Impl) (bid : BatchId) : CompatibilityKey :=
  match s.batches[bid]? with
  | none => {}
  | some b => b.key

/-- Neighbouring sealed batches of one key, key by key. -/
def mergePairs (s : Impl) : List (BatchId × BatchId) :=
  (OrderedMap.groupBy s.keyOfBatch
    (s.sealedOrder.filter s.isSealedBatch)).toList.flatMap
    fun entry => neighbours entry.2

def maxWorkerBatchSize (s : Impl) : UInt32 :=
  s.workers.toList.foldl (fun m entry =>
    if !entry.2.live then m
    else
      let c := entry.2.cap.maxBatchSize
      if c != 0 && (m == 0 || c < m) then c else m) 0

/-- The sealed batch at a position of `sealedOrder`, if it is larger than
every worker takes. -/
def oversizedAt (s : Impl) (i : Nat) : Option BatchId :=
  match s.sealedOrder[i]? with
  | none => none
  | some bid =>
      match s.batches[bid]? with
      | none => none
      | some b =>
          let maxSz := s.maxWorkerBatchSize
          if b.state = .sealed && maxSz != 0 && b.accum.count > maxSz then
            some b.id
          else none

def splitOversized (s : Impl) (i : Nat) : Impl :=
  match s.oversizedAt i with
  | none => s
  | some bid => (s.doSplit bid).2

/-! The passes of a tick. -/

def formPass (policy : BatchPolicy) (s : Impl) (order : List CompatibilityKey)
    (now : TimePoint) : Impl :=
  Transition.run (formMissing policy now) s
    ((s.waitingIndex.enumerate order).map (·.1))

def sealPass (policy : BatchPolicy) (s : Impl) (now : TimePoint) : Impl :=
  let decided := decidePass policy now s (s.formingByKey.toList.map (·.2))
  Transition.run (sealDecided now) decided.1 decided.2

def mergePass (policy : BatchPolicy) (s : Impl) : Impl :=
  if policy.merge.enabled then
    Transition.run (mergeNeighbours policy) s s.mergePairs
  else s

/-- Everything `doTick` does before the pass over oversized batches. -/
def tickUntilSizePass (policy : BatchPolicy) (s : Impl)
    (order : List CompatibilityKey) (now : TimePoint) : Impl :=
  let s := s.expireLocked policy order now
  let s := s.formPass policy order now
  let s := s.sealPass policy now
  s.mergePass policy

/-- A split takes one entry out of `sealedOrder` and appends one, so the loop
runs over as many positions as there are at the start. -/
def sizePass (s : Impl) : Impl :=
  Transition.run splitOversized s (List.range s.sealedOrder.length)

def doTick (policy : BatchPolicy) (s : Impl) (order : List CompatibilityKey)
    (now : TimePoint) : Impl :=
  (s.tickUntilSizePass policy order now).sizePass

def tick (policy : BatchPolicy) (s : Impl) (order : List CompatibilityKey)
    (now : TimePoint) : FormationReport × Impl :=
  let ticked := s.doTick policy order now
  ({ sealedBatches := ticked.sealedOrder.filter (· ∉ s.sealedOrder)
     forming := ticked.formingByKey.size }, ticked)

/-- The number of the request's current attempt, zero without a record. -/
def attemptNumber (s : Impl) (r : RequestRec) : UInt32 :=
  match s.attempts[r.currentAttempt]? with
  | none => 0
  | some a => a.number

/-- The first half of a retry: the request is queued under a new attempt. -/
def retryQueued (policy : BatchPolicy) (s : Impl) (id : RequestId)
    (now : TimePoint) : Except Error AttemptId × Impl :=
  match s.requests[id]? with
  | none => (.error (.err .notFound "request not found"), s)
  | some r =>
      let num := s.attemptNumber r
      if num ≥ policy.retry.maxAttempts then
        (.error (.err .invalidState "retry budget exhausted"), s)
      else if r.metadata.deadline.hasDeadline &&
          r.metadata.deadline.expired now then
        (.error (.err .deadlineExpired "deadline impossible for retry"), s)
      else (.ok { value := s.nextAttempt }, s.requeue id r (num + 1))

def doRetry (policy : BatchPolicy) (s : Impl) (id : RequestId)
    (order : List CompatibilityKey) (now : TimePoint) :
    Except Error AttemptId × Impl :=
  match s.retryQueued policy id now with
  | (.error err, s) => (.error err, s)
  | (.ok na, s) => (.ok na, s.doTick policy order now)

end Impl

end BatchFabric
