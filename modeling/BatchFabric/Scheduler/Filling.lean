import BatchFabric.Scheduler.State

namespace BatchFabric

structure SubmitOutcome where
  request : RequestId := .null
  attempt : AttemptId := .null
  admission : AdmissionDecision := .rejected
  reason : String := ""

/-- No batch could ever hold the request. -/
def BatchBudget.oversized (budget : BatchBudget) (metadata : RequestMetadata) :
    Bool :=
  (budget.maxRequests != 0 && budget.maxRequests < 1) ||
  (budget.maxInputTokens != 0 &&
    metadata.tokens.input > budget.maxInputTokens) ||
  (budget.maxOutputTokens != 0 &&
    metadata.tokens.output > budget.maxOutputTokens) ||
  (budget.maxWork != 0 && metadata.work.value > budget.maxWork) ||
  (budget.maxMemoryBytes != 0 &&
    metadata.memoryBytes > budget.maxMemoryBytes)

/-- A joining member: the totals wrap, and the first member brings the
descriptor. -/
def BatchRec.addMember (b : BatchRec) (id : RequestId)
    (metadata : RequestMetadata) : BatchRec :=
  { b with
    members := b.members ++ [id]
    accum := {
      count := UInt32.ofNat (b.members ++ [id]).length
      inputTokens := b.accum.inputTokens + metadata.tokens.input
      outputTokens := b.accum.outputTokens + metadata.tokens.output
      work := b.accum.work + metadata.work.value
      memory := b.accum.memory + metadata.memoryBytes }
    descriptor :=
      if (b.members ++ [id]).length = 1 then metadata.descriptor
      else b.descriptor }

def RequestRec.reserve (r : RequestRec) (batch : BatchId) : RequestRec :=
  { r with state := .reserved, batch := batch, inWaiting := false }

def BatchRec.toFormerBatch (b : BatchRec) : BatchFormer.FormingBatch where
  batch := b.id
  key := b.key
  phase := b.phase
  formedNs := b.formedNs
  used := b.accum
  allowedWaitNs := b.allowedWaitNs

def RequestRec.toCandidate (r : RequestRec) (id : RequestId) :
    BatchFormer.Candidate where
  request := id
  tenant := r.metadata.tenant
  tokens := r.metadata.tokens
  work := r.metadata.work
  memory := r.metadata.memoryBytes
  deadline := r.metadata.deadline
  latency := r.metadata.latency
  arrivedNs := r.submitted

namespace Impl

/-! Submission. -/

/-- The records every accepted submission starts from, under fresh ids. -/
def createRequest (s : Impl) (metadata : RequestMetadata) (now : TimePoint)
    (state : RequestState) (attemptState : RequestState)
    (outcome : CompletionStatus) (inWaiting : Bool) : Impl :=
  let rid : RequestId := { value := s.nextRequest }
  let aid : AttemptId := { value := s.nextAttempt }
  { s with
    nextRequest := s.nextRequest + 1
    nextAttempt := s.nextAttempt + 1
    requests := s.requests.insert rid {
      id := rid
      metadata := metadata
      state := state
      currentAttempt := aid
      attempts := [aid]
      submitted := now
      key := CompatibilityKey.build metadata.descriptor
      inWaiting := inWaiting }
    attempts := s.attempts.insert aid {
      id := aid
      number := 1
      state := attemptState
      outcome := outcome } }

def doSubmit (policy : BatchPolicy) (s : Impl) (metadata : RequestMetadata)
    (now : TimePoint) : SubmitOutcome × Impl :=
  let rid : RequestId := { value := s.nextRequest }
  let aid : AttemptId := { value := s.nextAttempt }
  if metadata.descriptor.model.isEmpty ||
      metadata.descriptor.revision.isEmpty then
    ({ admission := .rejected, reason := "missing model/revision identity" },
      { s with stats.rejected := s.stats.rejected + 1 })
  else if metadata.deadline.hasDeadline && metadata.deadline.expired now then
    let s := s.createRequest metadata now .expired .expired .expired false
    ({ request := rid, attempt := aid, admission := .expired,
       reason := "deadline already expired" },
      { s with
        stats.submitted := s.stats.submitted + 1
        stats.expired := s.stats.expired + 1 })
  else if policy.constraints.budget.oversized metadata then
    let s := s.createRequest metadata now .rejected .rejected
      .nonRetryableFailure false
    ({ request := rid, attempt := aid, admission := .oversized,
       reason := "request exceeds any batch budget" },
      { s with
        stats.submitted := s.stats.submitted + 1
        stats.rejected := s.stats.rejected + 1 })
  else if policy.fairness.enabled &&
      s.fairness.atOutstandingCap policy.fairness metadata.tenant then
    -- A deferred request enters no bucket of the waiting index.
    let s := s.createRequest metadata now .waiting .waiting .success false
    ({ request := rid, attempt := aid, admission := .deferred,
       reason := "tenant outstanding cap reached" },
      { s with
        stats.submitted := s.stats.submitted + 1
        stats.deferred := s.stats.deferred + 1 })
  else
    let s := s.createRequest metadata now .eligible .eligible .success true
    ({ request := rid, attempt := aid, admission := .admitted,
       reason := "admitted" },
      { s with
        waitingIndex := s.waitingIndex.add
          (CompatibilityKey.build metadata.descriptor) rid
        fairness := s.fairness.noteSubmission metadata.tenant
          metadata.work.value
        stats.submitted := s.stats.submitted + 1
        stats.admitted := s.stats.admitted + 1 })

/-! Formation. -/

def computeAllowedWait (policy : BatchPolicy)
    (requests : Map RequestId RequestRec) (b : BatchRec) (now : TimePoint) :
    TimePoint :=
  let global := policy.constraints.globalMaxWaitNs
  let allowed := b.members.foldl (fun allowed id =>
      match requests[id]? with
      | none => allowed
      | some r =>
          let allowed :=
            match policy.wait.latencyMaxWaitNs r.metadata.latency with
            | none => allowed
            | some wait => min allowed wait
          if r.metadata.deadline.hasDeadline then
            let rem := r.metadata.deadline.remaining now
            if rem ≥ 0 then min allowed rem else allowed
          else allowed)
    (if global > 0 then min kNoDeadline global else kNoDeadline)
  if policy.wait.immediateSealWhenSolo && b.accum.count == 1 then 0
  else allowed

def addMemberToBatch (s : Impl) (bid : BatchId) (id : RequestId) : Impl :=
  match s.requests[id]? with
  | none => s
  | some r =>
      { s with
        batches := s.batches.modify bid fun b => b.addMember id r.metadata
        requests := s.requests.modify id fun r => r.reserve bid
        fairness := s.fairness.notePlaced r.metadata.tenant
          r.metadata.work.value
        stats.reservedNow := s.stats.reservedNow + 1 }

def countTenant (s : Impl) (b : BatchRec) (t : TenantId) : UInt32 :=
  UInt32.ofNat (b.members.countP fun m =>
    match s.requests[m]? with
    | none => false
    | some r => r.metadata.tenant == t)

/-- May the candidate join the batch in this round of filling? -/
def fillable (policy : BatchPolicy) (s : Impl) (b : BatchRec)
    (now : TimePoint) (id : RequestId) : Bool :=
  match s.requests[id]? with
  | none => false
  | some r =>
      if !isWaitingState r.state then false
      else if r.metadata.deadline.expired now then false
      else if policy.fairness.enabled &&
          s.fairness.atOutstandingCap policy.fairness r.metadata.tenant then
        false
      else if policy.fairness.maxContributionPerBatch != 0 &&
          s.countTenant b r.metadata.tenant ≥
            policy.fairness.maxContributionPerBatch then
        false
      else
        BatchFormer.fits b.toFormerBatch (r.toCandidate id)
          policy.constraints.budget

def tenantOf (s : Impl) (id : RequestId) : TenantId :=
  match s.requests[id]? with
  | none => .null
  | some r => r.metadata.tenant

/-- The order of a tenant's pool: by arrival, then by id. -/
def arrivedBefore (s : Impl) (x y : RequestId) : Bool :=
  match s.requests[x]?, s.requests[y]? with
  | some rx, some ry =>
      if rx.submitted ≠ ry.submitted then rx.submitted < ry.submitted
      else x.value ≤ y.value
  | _, _ => x.value ≤ y.value

/-- The request the next round of filling places, if any fits. -/
def fillPick (policy : BatchPolicy) (s : Impl) (bid : BatchId)
    (cands : List RequestId) (now : TimePoint) : Option RequestId :=
  match s.batches[bid]? with
  | none => none
  | some b =>
      let byTenant := OrderedMap.groupBy s.tenantOf
        (cands.filter (s.fillable policy b now))
      let chosen := s.fairness.selectNext policy.fairness byTenant.keys
      let pool := (byTenant[chosen]?).getD []
      (pool.insertionSort fun x y => s.arrivedBefore x y).head?

/-- Places a candidate and takes it off the waiting index. -/
def place (s : Impl) (bid : BatchId) (key : CompatibilityKey)
    (pick : RequestId) : Impl :=
  let s := s.addMemberToBatch bid pick
  { s with waitingIndex := s.waitingIndex.remove key pick }

/-- The filling loop. A round that places nothing ends it; every other round
drops its pick from the candidates, so `fuel` need not exceed their number. -/
def fillLoop (policy : BatchPolicy) (bid : BatchId) (key : CompatibilityKey)
    (now : TimePoint) : Nat → Impl → List RequestId → Impl
  | 0, s, _ => s
  | fuel + 1, s, cands =>
      match s.fillPick policy bid cands now with
      | none => s
      | some pick =>
          fillLoop policy bid key now fuel (s.place bid key pick)
            (cands.filter (· ≠ pick))

def fillForming (policy : BatchPolicy) (s : Impl) (bid : BatchId)
    (key : CompatibilityKey) (now : TimePoint) : Impl :=
  match s.batches[bid]?, s.waitingIndex[key]? with
  | some _, some bucket =>
      fillLoop policy bid key now bucket.length s bucket
  | _, _ => s

/-- The phase of the first queued request of a key. -/
def queuedPhase (s : Impl) (key : CompatibilityKey) : Phase :=
  match s.bucket key with
  | [] => .prefill
  | first :: _ =>
      match s.requests[first]? with
      | none => .prefill
      | some r => r.metadata.descriptor.phase

/-- A new forming batch, without members yet. -/
def newForming (s : Impl) (key : CompatibilityKey) (now : TimePoint) :
    BatchRec where
  id := { value := s.nextBatch }
  generation := { value := s.nextGeneration }
  epoch := s.epoch
  state := .forming
  key := key
  phase := s.queuedPhase key
  formedNs := now
  sealReason := .maxWaitElapsed

/-- Creates a forming batch and registers it under its key. -/
def openForming (s : Impl) (key : CompatibilityKey) (now : TimePoint) : Impl :=
  let bid : BatchId := { value := s.nextBatch }
  { s with
    nextBatch := s.nextBatch + 1
    nextGeneration := s.nextGeneration + 1
    batches := s.batches.insert bid (s.newForming key now)
    formingByKey := s.formingByKey.insert key bid
    stats.formingNow := s.stats.formingNow + 1 }

def setAllowedWait (policy : BatchPolicy) (s : Impl) (bid : BatchId)
    (now : TimePoint) : Impl :=
  { s with
    batches := s.batches.modify bid fun b =>
      { b with
        allowedWaitNs := computeAllowedWait policy s.requests b now } }

/-- The max-wait clock starts at the earliest member arrival. -/
def setFormed (s : Impl) (bid : BatchId) (now : TimePoint) : Impl :=
  { s with
    batches := s.batches.modify bid fun b =>
      { b with
        formedNs := b.members.foldl (fun earliest m =>
          match s.requests[m]? with
          | none => earliest
          | some r => if r.submitted < earliest then r.submitted else earliest)
          now } }

def makeForming (policy : BatchPolicy) (s : Impl) (key : CompatibilityKey)
    (now : TimePoint) : Impl :=
  let bid : BatchId := { value := s.nextBatch }
  let s := s.openForming key now
  let s := s.fillForming policy bid key now
  let s := s.setAllowedWait policy bid now
  s.setFormed bid now

end Impl

end BatchFabric
