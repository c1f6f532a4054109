import BatchFabric.Fairness

namespace BatchFabric.BatchFormer

structure Candidate where
  request : RequestId := .null
  tenant : TenantId := .null
  tokens : TokenEstimate := {}
  work : WorkEstimate := {}
  memory : UInt64 := 0
  deadline : Deadline := {}
  latency : LatencyClass := .batch
  arrivedNs : TimePoint := 0

structure FormingBatch where
  batch : BatchId := .null
  key : CompatibilityKey := {}
  phase : Phase := .prefill
  formedNs : TimePoint := 0
  used : BatchAccum := {}
  allowedWaitNs : TimePoint := kNoDeadline

inductive Action
  | noop
  | wait
  | seal
  | split
  | reject
  deriving DecidableEq

structure Decision where
  action : Action := .wait
  sealReason : SealReason := .maxWaitElapsed

/-- What one candidate adds to a batch. -/
def Candidate.amounts (c : Candidate) : BatchAccum where
  count := 1
  inputTokens := c.tokens.input
  outputTokens := c.tokens.output
  work := c.work.value
  memory := c.memory

def fits (batch : FormingBatch) (c : Candidate) (budget : BatchBudget) :
    Bool :=
  budget.allowsAdd batch.used c.amounts

/-- Should an already greedily filled batch wait, or be sealed now? -/
def decide (policy : BatchPolicy) (batch : FormingBatch)
    (candidates : List Candidate) (now : TimePoint) : Decision :=
  let budget := policy.constraints.budget
  let used := batch.used
  let countFull := budget.maxRequests != 0 && used.count ≥ budget.maxRequests
  let tokensFull :=
    (budget.maxInputTokens != 0 &&
      used.inputTokens ≥ budget.maxInputTokens) ||
    (budget.maxOutputTokens != 0 &&
      used.outputTokens ≥ budget.maxOutputTokens)
  let workFull := budget.maxWork != 0 && used.work ≥ budget.maxWork
  if batch.allowedWaitNs != kNoDeadline &&
      now - batch.formedNs ≥ batch.allowedWaitNs then
    { action := .seal, sealReason := .maxWaitElapsed }
  else if countFull then
    { action := .seal, sealReason := .maxCountReached }
  else if tokensFull then
    { action := .seal, sealReason := .maxTokensReached }
  else if workFull then
    { action := .seal, sealReason := .maxWorkReached }
  else if candidates.isEmpty then
    if used.count ≥ policy.constraints.minimumPreferredBatch ||
        used.count == 0 then
      { action := .seal, sealReason := .queueDrained }
    else { action := .wait, sealReason := .queueDrained }
  else { action := .wait, sealReason := .admissionFill }

end BatchFabric.BatchFormer
