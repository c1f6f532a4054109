import BatchFabric.Scheduler.Filling

namespace BatchFabric

def RequestRec.setBatch (batch : BatchId) (r : RequestRec) : RequestRec :=
  { r with batch := batch }

/-- A request in state `source` moves on to `target`. -/
def RequestRec.advance (source target : RequestState) (r : RequestRec) :
    RequestRec :=
  if r.state = source then { r with state := target } else r

/-- The totals of the members that exist. -/
def accumOf (requests : Map RequestId RequestRec) (members : List RequestId) :
    BatchAccum :=
  members.foldl (fun accum m =>
    match requests[m]? with
    | none => accum
    | some r =>
        { count := accum.count + 1
          inputTokens := accum.inputTokens + r.metadata.tokens.input
          outputTokens := accum.outputTokens + r.metadata.tokens.output
          work := accum.work + r.metadata.work.value
          memory := accum.memory + r.metadata.memoryBytes }) {}

/-- The descriptor of a batch, taken from its first member when the batch has
none yet. -/
def descriptorOf (requests : Map RequestId RequestRec) (b : BatchRec) :
    ModelDescriptor :=
  match b.members with
  | [] => b.descriptor
  | front :: _ =>
      if b.descriptor.model.isEmpty then
        match requests[front]? with
        | none => b.descriptor
        | some r => r.metadata.descriptor
      else b.descriptor

def recomputeAccum (requests : Map RequestId RequestRec) (b : BatchRec) :
    BatchRec :=
  { b with
    accum := accumOf requests b.members
    descriptor := descriptorOf requests b }

namespace Impl

/-- Closes a forming batch to new members. -/
def sealForming (s : Impl) (bid : BatchId) (b : BatchRec)
    (reason : SealReason) (now : TimePoint) : Impl :=
  { s with
    batches := s.batches.modify bid fun b =>
      { b with state := .sealed, sealReason := reason, sealedNs := now }
    requests := OrderedMap.modifyAll s.requests b.members
      (RequestRec.advance .reserved .batched)
    formingByKey := s.formingByKey.erase b.key
    sealedOrder := s.sealedOrder ++ [bid]
    stats.formingNow := s.stats.formingNow - 1
    stats.batchesSealed := s.stats.batchesSealed + 1 }

def doSeal (s : Impl) (bid : BatchId) (reason : SealReason)
    (now : TimePoint) : Bool × Impl :=
  match s.batches[bid]? with
  | none => (false, s)
  | some b =>
      if b.state ≠ .forming then (false, s)
      else (true, s.sealForming bid b reason now)

/-! Splitting. -/

/-- Batches that may be split: not in flight, not ended, two members. -/
def splittable (b : BatchRec) : Bool :=
  !(b.state == .dispatched || b.state == .running ||
    isBatchTerminal b.state) &&
  b.members.length / 2 != 0

def firstHalf (b : BatchRec) : List RequestId :=
  b.members.take (b.members.length / 2)

def secondHalf (b : BatchRec) : List RequestId :=
  b.members.drop (b.members.length / 2)

/-- Both halves name the batch they go to: the second the child, the first
the batch that is split, also where that batch is superseded. -/
def splitRequests (s : Impl) (bid child : BatchId) (b : BatchRec) :
    Map RequestId RequestRec :=
  OrderedMap.modifyAll
    (OrderedMap.modifyAll s.requests (secondHalf b)
      (RequestRec.setBatch child))
    (firstHalf b) (RequestRec.setBatch bid)

/-- The batch that takes the second half. -/
def splitChild (requests : Map RequestId RequestRec) (bid child : BatchId)
    (b : BatchRec) : BatchRec :=
  recomputeAccum requests {
    id := child
    generation := b.generation
    epoch := b.epoch
    state := b.state
    key := b.key
    phase := b.phase
    descriptor := b.descriptor
    members := secondHalf b
    formedNs := b.formedNs
    sealedNs := b.sealedNs
    allowedWaitNs := b.allowedWaitNs
    parents := [bid]
    worker := b.worker
    boot := b.boot }

/-- What is left of the batch that is split. -/
def splitParent (requests : Map RequestId RequestRec) (child : BatchId)
    (b : BatchRec) : BatchRec :=
  recomputeAccum requests { b with
    members := firstHalf b
    children := b.children ++ [child] }

/-- The sealed batch that takes the first half of a sealed batch. -/
def splitFirst (requests : Map RequestId RequestRec)
    (bid firstid child : BatchId) (parent : BatchRec) : BatchRec :=
  recomputeAccum requests {
    id := firstid
    generation := parent.generation
    epoch := parent.epoch
    state := .sealed
    key := parent.key
    phase := parent.phase
    descriptor := parent.descriptor
    members := parent.members
    formedNs := parent.formedNs
    sealedNs := parent.sealedNs
    allowedWaitNs := parent.allowedWaitNs
    worker := parent.worker
    boot := parent.boot
    parents := [bid]
    children := [child] }

/-- A sealed batch is superseded by two new ones. -/
def splitSealed (s : Impl) (bid : BatchId) (b : BatchRec) : Impl :=
  let child : BatchId := { value := s.nextBatch }
  let firstid : BatchId := { value := s.nextBatch + 1 }
  let requests := s.splitRequests bid child b
  let parent := splitParent requests child b
  let c := splitChild requests bid child b
  { s with
    nextBatch := s.nextBatch + 2
    requests := requests
    batches := ((s.batches.insert bid { parent with
          state := .superseded
          children := parent.children ++ [firstid] }).insert child
        { c with parents := c.parents ++ [firstid] }).insert firstid
        (splitFirst requests bid firstid child parent)
    sealedOrder := s.sealedOrder.erase bid ++ [firstid]
    stats.batchesSplit := s.stats.batchesSplit + 1 }

/-- Any other batch keeps its first half and is registered as forming. -/
def splitOpen (s : Impl) (bid : BatchId) (b : BatchRec) : Impl :=
  let child : BatchId := { value := s.nextBatch }
  let requests := s.splitRequests bid child b
  { s with
    nextBatch := s.nextBatch + 1
    requests := requests
    batches := (s.batches.insert bid (splitParent requests child b)).insert
      child (splitChild requests bid child b)
    formingByKey := s.formingByKey.insert b.key bid
    stats.formingNow := s.stats.formingNow + 1
    stats.batchesSplit := s.stats.batchesSplit + 1 }

def doSplit (s : Impl) (bid : BatchId) : BatchId × Impl :=
  match s.batches[bid]? with
  | none => (.null, s)
  | some b =>
      if !splittable b then (.null, s)
      else if b.state = .sealed then
        ({ value := s.nextBatch }, s.splitSealed bid b)
      else ({ value := s.nextBatch }, s.splitOpen bid b)

/-! Merging. -/

def canMerge (policy : BatchPolicy) (a b : BatchRec) : Bool :=
  if a.key ≠ b.key then false
  else if a.phase ≠ b.phase then false
  else if a.state ≠ b.state then false
  else if a.state ≠ .sealed && a.state ≠ .forming then false
  else if !policy.merge.enabled then false
  else
    policy.constraints.budget.allowsAdd {} {
      count := a.accum.count + b.accum.count
      inputTokens := a.accum.inputTokens + b.accum.inputTokens
      outputTokens := a.accum.outputTokens + b.accum.outputTokens
      work := a.accum.work + b.accum.work
      memory := a.accum.memory + b.accum.memory }

/-- The batch that takes the other's members. The ranges copied are those the
other batch had on entry; of a batch merged with itself that is true only as
long as its lists have room (see `StepsTo`). -/
def mergeTarget (requests : Map RequestId RequestRec) (bid : BatchId)
    (a b : BatchRec) : BatchRec :=
  recomputeAccum requests { a with
    members := a.members ++ b.members
    parents := a.parents ++ b.parents ++ [bid]
    children := a.children ++ b.children }

/-- Moves the members of `b` into `a`. A batch merged with itself ends
superseded; what its lists then hold is left open by `StepsTo`. -/
def mergeInto (s : Impl) (aid bid : BatchId) (a b : BatchRec) : Impl :=
  let requests := OrderedMap.modifyAll s.requests b.members
    (RequestRec.setBatch aid)
  { s with
    requests := requests
    batches := (s.batches.insert aid (mergeTarget requests bid a b)).modify
      bid fun b => { b with state := .superseded }
    sealedOrder := s.sealedOrder.filter (· ≠ bid)
    formingByKey :=
      if s.formingByKey[b.key]? = some bid then
        s.formingByKey.insert b.key aid
      else s.formingByKey
    stats.batchesMerged := s.stats.batchesMerged + 1 }

def doMerge (policy : BatchPolicy) (s : Impl) (aid bid : BatchId) :
    BatchId × Impl :=
  match s.batches[aid]?, s.batches[bid]? with
  | some a, some b =>
      if !canMerge policy a b then (.null, s)
      else (aid, s.mergeInto aid bid a b)
  | _, _ => (.null, s)

end Impl

end BatchFabric
