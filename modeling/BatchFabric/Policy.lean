import BatchFabric.Identity

namespace BatchFabric

structure TokenEstimate where
  input : UInt64 := 0
  output : UInt64 := 0
  deriving DecidableEq

structure WorkEstimate where
  value : UInt64 := 0
  deriving DecidableEq

def kNoDeadline : TimePoint := 2 ^ 63 - 1

/-- An absolute deadline on the monotonic clock. Zero means none. -/
structure Deadline where
  absoluteNs : TimePoint := 0
  deriving DecidableEq

namespace Deadline

def hasDeadline (deadline : Deadline) : Bool :=
  decide (deadline.absoluteNs > 0)

def expired (deadline : Deadline) (now : TimePoint) : Bool :=
  deadline.hasDeadline && decide (now ≥ deadline.absoluteNs)

def remaining (deadline : Deadline) (now : TimePoint) : TimePoint :=
  if deadline.hasDeadline then
    let r := deadline.absoluteNs - now
    if r < 0 then 0 else r
  else kNoDeadline

end Deadline

/-- Running resource totals of a batch. -/
structure BatchAccum where
  count : UInt32 := 0
  inputTokens : UInt64 := 0
  outputTokens : UInt64 := 0
  work : UInt64 := 0
  memory : UInt64 := 0
  deriving DecidableEq

/-- Hard per-batch budgets. A zero field leaves its dimension unbounded. -/
structure BatchBudget where
  maxRequests : UInt32 := 0
  maxInputTokens : UInt64 := 0
  maxOutputTokens : UInt64 := 0
  maxWork : UInt64 := 0
  maxMemoryBytes : UInt64 := 0
  deriving DecidableEq

/-- Would adding `add` to a batch that holds `cur` stay within every limit?
Sums of amounts wrap at 64 bits. -/
def BatchBudget.allowsAdd (budget : BatchBudget) (cur add : BatchAccum) :
    Bool :=
  let count := cur.count.toUInt64 + add.count.toUInt64
  if budget.maxRequests != 0 && count > budget.maxRequests.toUInt64 then
    false
  else if budget.maxInputTokens != 0 &&
      cur.inputTokens + add.inputTokens > budget.maxInputTokens then
    false
  else if budget.maxOutputTokens != 0 &&
      cur.outputTokens + add.outputTokens > budget.maxOutputTokens then
    false
  else if budget.maxWork != 0 && cur.work + add.work > budget.maxWork then
    false
  else if budget.maxMemoryBytes != 0 &&
      cur.memory + add.memory > budget.maxMemoryBytes then
    false
  else true

/-- Its `global_max_wait_ns` is left out: callers set it and no code reads it. -/
structure WaitPolicy where
  latencyMaxWaitNs : LatencyClass → Option TimePoint := fun _ => none
  immediateSealWhenSolo : Bool := false

structure FairnessPolicy where
  enabled : Bool := true
  weights : Map TenantId UInt32 := ∅
  maxOutstandingPerTenant : UInt32 := 0
  maxContributionPerBatch : UInt32 := 0
  defaultWeight : UInt32 := 1

def FairnessPolicy.weight (policy : FairnessPolicy) (t : TenantId) : UInt32 :=
  match policy.weights[t]? with
  | none => policy.defaultWeight
  | some weight => weight

structure MergePolicy where
  enabled : Bool := true
  maxMergesPerCycle : UInt32 := 8
  requireSameEpoch : Bool := true

structure RetryPolicy where
  enabled : Bool := true
  maxAttempts : UInt32 := 3

/-- The constraints that some code reads. Two more, `latency_waits_ns` and
`allow_cross_phase`, are read by none: the waits of the classes are those of
`WaitPolicy`. -/
structure BatchConstraints where
  budget : BatchBudget := {}
  globalMaxWaitNs : TimePoint := 0
  minimumPreferredBatch : UInt32 := 1

/-- The policy bundle a fabric is configured with. -/
structure BatchPolicy where
  constraints : BatchConstraints := {}
  fairness : FairnessPolicy := {}
  wait : WaitPolicy := {}
  merge : MergePolicy := {}
  retry : RetryPolicy := {}

/-- The caller-visible description of an inference request. -/
structure RequestMetadata where
  tenant : TenantId := .null
  session : SessionId := .null
  sequence : SequenceId := .null
  descriptor : ModelDescriptor := {}
  tokens : TokenEstimate := {}
  work : WorkEstimate := {}
  memoryBytes : UInt64 := 0
  deadline : Deadline := {}
  latency : LatencyClass := .batch
  priority : PriorityClass := .normal
  payload : ByteString := {}
  deriving DecidableEq

end BatchFabric
