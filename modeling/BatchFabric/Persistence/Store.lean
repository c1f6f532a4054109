import BatchFabric.Policy

/-! The state file: what is kept of the runtime, and how it is written and
read. Only its bytes are modelled; writing them out and renaming the temporary
file are not. -/

namespace BatchFabric

structure PersistedRequest where
  id : RequestId := .null
  tenant : TenantId := .null
  session : SessionId := .null
  sequence : SequenceId := .null
  descriptor : ModelDescriptor := {}
  tokens : TokenEstimate := {}
  work : WorkEstimate := {}
  memoryBytes : UInt64 := 0
  deadline : Deadline := {}
  latency : LatencyClass := .batch
  priority : PriorityClass := .normal
  payload : ByteString := {}
  state : RequestState := .created
  submittedNs : TimePoint := 0
  batch : BatchId := .null
  currentAttempt : AttemptId := .null
  attemptIds : List AttemptId := []
  deriving DecidableEq

structure PersistedAttempt where
  id : AttemptId := .null
  number : UInt32 := 0
  state : RequestState := .created
  batch : BatchId := .null
  outcome : CompletionStatus := .success
  result : ByteString := {}
  started : TimePoint := 0
  completed : TimePoint := 0
  deriving DecidableEq

structure PersistedBatch where
  id : BatchId := .null
  generation : Generation := .null
  epoch : BatchEpoch := .null
  state : BatchState := .forming
  key : CompatibilityKey := {}
  members : List RequestId := []
  used : BatchAccum := {}
  formedNs : TimePoint := 0
  sealedNs : TimePoint := 0
  dispatchedNs : TimePoint := 0
  completedNs : TimePoint := 0
  sealReason : SealReason := .maxWaitElapsed
  worker : WorkerId := .null
  boot : WorkerBootId := .null
  parents : List BatchId := []
  children : List BatchId := []
  deriving DecidableEq

structure PersistedRuntime where
  epoch : BatchEpoch := .null
  nextRequest : Nat := 1
  nextBatch : Nat := 1
  nextAttempt : Nat := 1
  nextGeneration : Nat := 1
  requests : List PersistedRequest := []
  attempts : List PersistedAttempt := []
  batches : List PersistedBatch := []
  fairnessServed : Map ByteString UInt64 := ∅

/-- The fields of a descriptor in the order both encoders write them. -/
def writeDescriptor (d : ModelDescriptor) : List UInt8 := [
  ByteWriter.u8 1,
  ByteWriter.string d.model,
  ByteWriter.string d.revision,
  ByteWriter.string d.adapter,
  ByteWriter.string d.tokenizer,
  ByteWriter.u8 (ByteEnum.toByte d.phase),
  ByteWriter.u8 (ByteEnum.toByte d.dtype),
  ByteWriter.u8 (ByteEnum.toByte d.backend),
  ByteWriter.u8 (ByteEnum.toByte d.executionMode),
  ByteWriter.u8 (ByteEnum.toByte d.device.backend),
  ByteWriter.u32 d.device.computeMajor,
  ByteWriter.u32 d.device.computeMinor,
  ByteWriter.u64 d.device.minMemoryBytes,
  ByteWriter.string d.shape,
  ByteWriter.string d.samplingSemantics,
  ByteWriter.u32 (UInt32.ofNat d.extensions.length),
  d.extensions.flatMap ByteWriter.string].flatten

/-- Reads a descriptor whose five enumeration bytes pass a check. -/
def readDescriptorChecked
    (enumsOk : UInt8 → UInt8 → UInt8 → UInt8 → UInt8 → Bool) :
    ByteReader.Read ModelDescriptor := do
  let ver ← ByteReader.u8
  Decoding.ensure (ver == 1) ()
  let model ← ByteReader.string
  let revision ← ByteReader.string
  let adapter ← ByteReader.string
  let tokenizer ← ByteReader.string
  let phase ← ByteReader.u8
  let dtype ← ByteReader.u8
  let backend ← ByteReader.u8
  let mode ← ByteReader.u8
  let dbackend ← ByteReader.u8
  Decoding.ensure (enumsOk phase dtype backend mode dbackend) ()
  let cmaj ← ByteReader.u32
  let cmin ← ByteReader.u32
  let mem ← ByteReader.u64
  let shape ← ByteReader.string
  let sampling ← ByteReader.string
  let nExt ← ByteReader.u32
  Decoding.ensure (nExt.toNat ≤ 1024) ()
  let exts ← Decoding.readMany (fun _ => ByteReader.string) nExt.toNat []
  pure {
    model := model
    revision := revision
    adapter := adapter
    tokenizer := tokenizer
    phase := ByteEnum.ofByte phase
    dtype := ByteEnum.ofByte dtype
    backend := ByteEnum.ofByte backend
    executionMode := ByteEnum.ofByte mode
    device := {
      backend := ByteEnum.ofByte dbackend
      computeMajor := cmaj
      computeMinor := cmin
      minMemoryBytes := mem }
    shape := shape
    samplingSemantics := sampling
    extensions := exts }

namespace PersistenceStore

def kMagic : UInt32 := 0x46435254

def kFormatVersion : UInt32 := 1

def kMaxRecords : Nat := 10 * 1024 * 1024

def enumOk (v max : UInt8) : Bool :=
  decide (v ≤ max)

/-- 255 stands for an optional enumeration left unspecified. -/
def enumOkUnknown (v max : UInt8) : Bool :=
  decide (v ≤ max) || v == 255

def readDescriptor : ByteReader.Read ModelDescriptor :=
  readDescriptorChecked fun phase dtype backend mode dbackend =>
    enumOk phase 1 && enumOkUnknown dtype 4 && enumOkUnknown backend 4 &&
      enumOkUnknown mode 3 && enumOkUnknown dbackend 4

def writeRequest (r : PersistedRequest) : List UInt8 := [
  ByteWriter.id r.id,
  ByteWriter.id r.tenant,
  ByteWriter.id r.session,
  ByteWriter.id r.sequence,
  writeDescriptor r.descriptor,
  ByteWriter.u64 r.tokens.input,
  ByteWriter.u64 r.tokens.output,
  ByteWriter.u64 r.work.value,
  ByteWriter.u64 r.memoryBytes,
  ByteWriter.i64 r.deadline.absoluteNs,
  ByteWriter.u8 (ByteEnum.toByte r.latency),
  ByteWriter.u8 (ByteEnum.toByte r.priority),
  ByteWriter.string r.payload,
  ByteWriter.u8 r.state.toByte,
  ByteWriter.i64 r.submittedNs,
  ByteWriter.id r.batch,
  ByteWriter.id r.currentAttempt,
  ByteWriter.size r.attemptIds.length,
  r.attemptIds.flatMap ByteWriter.id].flatten

def writeAttempt (a : PersistedAttempt) : List UInt8 := [
  ByteWriter.id a.id,
  ByteWriter.u32 a.number,
  ByteWriter.u8 a.state.toByte,
  ByteWriter.id a.batch,
  ByteWriter.u8 (ByteEnum.toByte a.outcome),
  ByteWriter.string a.result,
  ByteWriter.i64 a.started,
  ByteWriter.i64 a.completed].flatten

def writeBatch (b : PersistedBatch) : List UInt8 := [
  ByteWriter.id b.id,
  ByteWriter.id b.generation,
  ByteWriter.id b.epoch,
  ByteWriter.u8 b.state.toByte,
  ByteWriter.digest b.key.digest,
  ByteWriter.size b.members.length,
  b.members.flatMap ByteWriter.id,
  ByteWriter.u32 b.used.count,
  ByteWriter.u64 b.used.inputTokens,
  ByteWriter.u64 b.used.outputTokens,
  ByteWriter.u64 b.used.work,
  ByteWriter.u64 b.used.memory,
  ByteWriter.i64 b.formedNs,
  ByteWriter.i64 b.sealedNs,
  ByteWriter.i64 b.dispatchedNs,
  ByteWriter.i64 b.completedNs,
  ByteWriter.u8 b.sealReason.toByte,
  ByteWriter.id b.worker,
  ByteWriter.id b.boot,
  ByteWriter.size b.parents.length,
  b.parents.flatMap ByteWriter.id,
  ByteWriter.size b.children.length,
  b.children.flatMap ByteWriter.id].flatten

def writeFairness (record : ByteString × UInt64) : List UInt8 :=
  ByteWriter.string record.1 ++ ByteWriter.u64 record.2

/-- What is written before the checksum. -/
def writeBody (rt : PersistedRuntime) : List UInt8 := [
  ByteWriter.u32 kMagic,
  ByteWriter.u32 kFormatVersion,
  ByteWriter.id rt.epoch,
  ByteWriter.size rt.nextRequest,
  ByteWriter.size rt.nextBatch,
  ByteWriter.size rt.nextAttempt,
  ByteWriter.size rt.nextGeneration,
  ByteWriter.size rt.requests.length,
  ByteWriter.size rt.attempts.length,
  ByteWriter.size rt.batches.length,
  rt.requests.flatMap writeRequest,
  rt.attempts.flatMap writeAttempt,
  rt.batches.flatMap writeBatch,
  ByteWriter.size rt.fairnessServed.toList.length,
  rt.fairnessServed.toList.flatMap writeFairness].flatten

/-- The bytes `save` puts in the file. -/
def save (rt : PersistedRuntime) : List UInt8 :=
  writeBody rt ++ ByteWriter.digest (Sha256.digest (writeBody rt))

def corrupt (message : String) : Error :=
  .err .corruption message

/-- A read of the loader. -/
abbrev Load (α : Type) := Decoding.Decoder Error UInt8 α

def required (read : ByteReader.Read α) (message : String) : Load α :=
  Decoding.orError read (corrupt message)

def check (holds : Bool) (message : String) : Load PUnit :=
  Decoding.ensure holds (corrupt message)

/-- The check of an enumeration byte and its later cast. -/
def checked (value : Option α) (message : String) : Load α :=
  Decoding.fromOption value (corrupt message)

/-- A request record. The earlier ones hold the identifiers taken so far. -/
def readRequest (before : List PersistedRequest) : Load PersistedRequest := do
  let id ← required (ByteReader.id .request) "truncated request ids"
  let tenant ← required (ByteReader.id .tenant) "truncated request ids"
  let session ← required (ByteReader.id .session) "truncated request ids"
  let sequence ← required (ByteReader.id .sequence) "truncated request ids"
  let descriptor ← required readDescriptor "bad descriptor"
  let inT ← required ByteReader.u64 "truncated request estimates"
  let outT ← required ByteReader.u64 "truncated request estimates"
  let work ← required ByteReader.u64 "truncated request estimates"
  let mem ← required ByteReader.u64 "truncated request estimates"
  let dl ← required ByteReader.i64 "truncated deadline"
  let lat ← required ByteReader.u8 "truncated request enums"
  let pri ← required ByteReader.u8 "truncated request enums"
  check (enumOk lat 4 && enumOk pri 3) "invalid request enum"
  let payload ← required ByteReader.string "bad payload"
  let state ← required ByteReader.u8 "truncated request state"
  let state ← checked (RequestState.ofByte? state) "invalid request state"
  let sub ← required ByteReader.i64 "truncated submit time"
  let batch ← required (ByteReader.id .batch) "truncated request batch"
  let current ← required (ByteReader.id .attempt) "truncated request batch"
  let nAtt ← required ByteReader.u64 "truncated attempt count"
  check (nAtt.toNat ≤ 1024) "impossible attempt count"
  let attemptIds ← Decoding.readMany
    (fun _ => required (ByteReader.id .attempt) "truncated attempt id")
    nAtt.toNat []
  check (!id.isNull && !(before.map (·.id)).contains id)
    "duplicate request id"
  pure {
    id := id
    tenant := tenant
    session := session
    sequence := sequence
    descriptor := descriptor
    tokens := { input := inT, output := outT }
    work := { value := work }
    memoryBytes := mem
    deadline := { absoluteNs := dl }
    latency := ByteEnum.ofByte lat
    priority := ByteEnum.ofByte pri
    payload := payload
    state := state
    submittedNs := sub
    batch := batch
    currentAttempt := current
    attemptIds := attemptIds }

def readAttempt (before : List PersistedAttempt) : Load PersistedAttempt := do
  let id ← required (ByteReader.id .attempt) "truncated attempt"
  let number ← required ByteReader.u32 "truncated attempt"
  let state ← required ByteReader.u8 "truncated attempt"
  let batch ← required (ByteReader.id .batch) "truncated attempt out"
  let outcome ← required ByteReader.u8 "truncated attempt out"
  let result ← required ByteReader.string "bad attempt result"
  let started ← required ByteReader.i64 "truncated attempt times"
  let completed ← required ByteReader.i64 "truncated attempt times"
  let state ← checked (RequestState.ofByte? state) "invalid attempt enum"
  check (enumOk outcome 6) "invalid attempt enum"
  check (!id.isNull && !(before.map (·.id)).contains id)
    "duplicate attempt id"
  pure {
    id := id
    number := number
    state := state
    batch := batch
    outcome := ByteEnum.ofByte outcome
    result := result
    started := started
    completed := completed }

def readMember (requests : List RequestId) : Load RequestId := do
  let m ← required (ByteReader.id .request) "truncated member id"
  check (requests.contains m) "member references unknown request"
  pure m

def readBatch (requests : List RequestId) (before : List PersistedBatch) :
    Load PersistedBatch := do
  let id ← required (ByteReader.id .batch) "truncated batch"
  let generation ← required (ByteReader.id .generation) "truncated batch"
  let epoch ← required (ByteReader.id .epoch) "truncated batch"
  let state ← required ByteReader.u8 "truncated batch"
  let keyd ← required ByteReader.digest "truncated batch"
  let state ← checked (BatchState.ofByte? state) "invalid batch enum"
  let nMembers ← required ByteReader.u64 "truncated batch members"
  check (nMembers.toNat ≤ kMaxRecords) "impossible batch members"
  let members ← Decoding.readMany (fun _ => readMember requests)
    nMembers.toNat []
  let mr ← required ByteReader.u32 "truncated batch budget"
  let mi ← required ByteReader.u64 "truncated batch budget"
  let mo ← required ByteReader.u64 "truncated batch budget"
  let mw ← required ByteReader.u64 "truncated batch budget"
  let mm ← required ByteReader.u64 "truncated batch budget"
  let formed ← required ByteReader.i64 "truncated batch times"
  let sealedAt ← required ByteReader.i64 "truncated batch times"
  let dispatched ← required ByteReader.i64 "truncated batch times"
  let completed ← required ByteReader.i64 "truncated batch times"
  let reason ← required ByteReader.u8 "truncated seal reason"
  let reason ← checked (SealReason.ofByte? reason) "invalid seal reason"
  let worker ← required (ByteReader.id .worker) "truncated worker"
  let boot ← required (ByteReader.id .workerBoot) "truncated worker"
  let np ← required ByteReader.u64 "truncated lineage"
  let nc ← required ByteReader.u64 "truncated lineage"
  check (np.toNat ≤ kMaxRecords && nc.toNat ≤ kMaxRecords)
    "impossible lineage"
  let parents ← Decoding.readMany
    (fun _ => required (ByteReader.id .batch) "truncated parent") np.toNat []
  let children ← Decoding.readMany
    (fun _ => required (ByteReader.id .batch) "truncated child") nc.toNat []
  check (!id.isNull && !(before.map (·.id)).contains id)
    "duplicate batch id"
  pure {
    id := id
    generation := generation
    epoch := epoch
    state := state
    key := { digest := keyd }
    members := members
    used := {
      count := mr
      inputTokens := mi
      outputTokens := mo
      work := mw
      memory := mm }
    formedNs := formed
    sealedNs := sealedAt
    dispatchedNs := dispatched
    completedNs := completed
    sealReason := reason
    worker := worker
    boot := boot
    parents := parents
    children := children }

def readFairness : Load (ByteString × UInt64) := do
  let k ← required ByteReader.string "truncated fairness record"
  let v ← required ByteReader.u64 "truncated fairness record"
  pure (k, v)

/-- The records of a state file as they stand in it. -/
structure StateFile where
  epoch : BatchEpoch
  nextRequest : UInt64
  nextBatch : UInt64
  nextAttempt : UInt64
  nextGeneration : UInt64
  requests : List PersistedRequest
  attempts : List PersistedAttempt
  batches : List PersistedBatch
  fairness : List (ByteString × UInt64)

def readFile : Load StateFile := do
  let magic ← required ByteReader.u32 "truncated header"
  let ver ← required ByteReader.u32 "truncated header"
  check (magic == kMagic) "bad magic"
  check (ver == kFormatVersion) "bad version"
  let epoch ← required (ByteReader.id .epoch) "truncated counters"
  let nr ← required ByteReader.u64 "truncated counters"
  let nb ← required ByteReader.u64 "truncated counters"
  let na ← required ByteReader.u64 "truncated counters"
  let ng ← required ByteReader.u64 "truncated counters"
  let nReqc ← required ByteReader.u64 "truncated counters"
  let nAttc ← required ByteReader.u64 "truncated counters"
  let nBatc ← required ByteReader.u64 "truncated counters"
  check (nReqc.toNat ≤ kMaxRecords && nBatc.toNat ≤ kMaxRecords &&
    nAttc.toNat ≤ kMaxRecords) "impossible counts"
  let requests ← Decoding.readMany readRequest nReqc.toNat []
  let attempts ← Decoding.readMany readAttempt nAttc.toNat []
  let batches ← Decoding.readMany (readBatch (requests.map (·.id)))
    nBatc.toNat []
  let nFair ← required ByteReader.u64 "truncated fairness"
  check (nFair.toNat ≤ kMaxRecords) "impossible fairness count"
  let fairness ← Decoding.readMany (fun _ => readFairness) nFair.toNat []
  pure {
    epoch := epoch
    nextRequest := nr
    nextBatch := nb
    nextAttempt := na
    nextGeneration := ng
    requests := requests
    attempts := attempts
    batches := batches
    fairness := fairness }

/-- One turn of the loop over the members of an active batch. -/
def claimMember (batch : BatchId) (activeMember : Map RequestId BatchId)
    (m : RequestId) : Except Error (Map RequestId BatchId) :=
  match activeMember[m]? with
  | some other =>
      if other ≠ batch then
        .error (corrupt "request in two active batches")
      else .ok (activeMember.insert m batch)
  | none => .ok (activeMember.insert m batch)

def claimMembers (activeMember : Map RequestId BatchId)
    (b : PersistedBatch) : Except Error (Map RequestId BatchId) :=
  if isBatchTerminal b.state then .ok activeMember
  else b.members.foldlM (claimMember b.id) activeMember

/-- Each fairness record replaces an earlier one of its key. -/
def insertFairness (records : List (ByteString × UInt64)) :
    Map ByteString UInt64 :=
  OrderedMap.insertAll ∅ records

def StateFile.runtime (file : StateFile) : PersistedRuntime where
  epoch := file.epoch
  nextRequest := file.nextRequest.toNat
  nextBatch := file.nextBatch.toNat
  nextAttempt := file.nextAttempt.toNat
  nextGeneration := file.nextGeneration.toNat
  requests := file.requests
  attempts := file.attempts
  batches := file.batches
  fairnessServed := insertFairness file.fairness

def parse (bytes : List UInt8) : Except Error PersistedRuntime :=
  if bytes.length < 44 then .error (corrupt "truncated header")
  else
    let body := bytes.length - 32
    if (Sha256.digest (bytes.take body)).toList ≠ bytes.drop body then
      .error (corrupt "checksum mismatch")
    else do
      let (file, rest) ← readFile bytes
      let _ ← file.batches.foldlM claimMembers ∅
      if rest.length ≠ 32 then .error (corrupt "trailing garbage")
      else .ok file.runtime

/-- What `load` returns for a file of these bytes. -/
def load (bytes : List UInt8) : Except Error PersistedRuntime :=
  if bytes.length > kMaxRecords * 8 + 4096 then
    .error (corrupt "state file impossibly large")
  else parse bytes

/-- What `load` returns for a path, given the bytes of its file if there is
one. -/
def loadPath : Option (List UInt8) → Except Error PersistedRuntime
  | none => .error (.err .persistenceFailure "cannot open state file")
  | some bytes => load bytes

end PersistenceStore

end BatchFabric
