import BatchFabric.Persistence.WireSubmit
import BatchFabric.Scheduler.Completion
import BatchFabric.Scheduler.Dispatch

/-! The messages of the wire protocol. -/

namespace BatchFabric

namespace Protocol

open ByteReader Decoding

structure WireRegister where
  worker : WorkerId := .null
  boot : WorkerBootId := .null
  cap : ExecutorCapability := {}

structure WireSubmitResp where
  request : RequestId := .null
  attempt : AttemptId := .null
  admission : AdmissionDecision := .admitted
  reason : ByteString := {}
  batch : BatchId := .null

structure WireAck where
  ok : Bool := false
  code : ErrorCode := .ok
  message : ByteString := {}

structure WireCancel where
  request : RequestId := .null
  reason : CancellationReason := .clientRequest

def boolByte (value : Bool) : UInt8 :=
  if value then 1 else 0

def writeCap (c : ExecutorCapability) : List UInt8 := [
  ByteWriter.id c.worker,
  ByteWriter.u8 (ByteEnum.toByte c.backend),
  ByteWriter.u8 (ByteEnum.toByte c.device.backend),
  ByteWriter.u32 c.device.computeMajor,
  ByteWriter.u32 c.device.computeMinor,
  ByteWriter.u64 c.device.minMemoryBytes,
  ByteWriter.u32 c.maxBatchSize,
  ByteWriter.u64 c.maxTokens,
  ByteWriter.u64 c.maxWork,
  ByteWriter.u64 c.maxMemoryBytes,
  ByteWriter.u8 (boolByte c.supportsCancellation)].flatten

def readCap : Read ExecutorCapability := do
  let worker ← ByteReader.id .worker
  let backend ← u8
  let db ← u8
  let cmaj ← u32
  let cmin ← u32
  let minmem ← u64
  let maxb ← u32
  let maxt ← u64
  let maxw ← u64
  let maxmem ← u64
  let canc ← u8
  pure {
    worker := worker
    backend := ByteEnum.ofByte backend
    device := {
      backend := ByteEnum.ofByte db
      computeMajor := cmaj
      computeMinor := cmin
      minMemoryBytes := minmem }
    maxBatchSize := maxb
    maxTokens := maxt
    maxWork := maxw
    maxMemoryBytes := maxmem
    supportsCancellation := canc != 0 }

def writeMemberWork (m : MemberWork) : List UInt8 := [
  ByteWriter.id m.request,
  ByteWriter.id m.attempt,
  ByteWriter.u64 m.work,
  ByteWriter.u64 m.inputTokens,
  ByteWriter.u64 m.outputTokens,
  ByteWriter.string m.payload].flatten

def readMemberWork : Read MemberWork := do
  let request ← ByteReader.id .request
  let attempt ← ByteReader.id .attempt
  let work ← u64
  let inputTokens ← u64
  let outputTokens ← u64
  let payload ← string
  pure {
    request := request
    attempt := attempt
    work := work
    inputTokens := inputTokens
    outputTokens := outputTokens
    payload := payload }

def writeExec (e : BatchExecution) : List UInt8 := [
  ByteWriter.id e.batch,
  ByteWriter.id e.generation,
  ByteWriter.id e.epoch,
  ByteWriter.id e.worker,
  writeDescriptor e.descriptor,
  ByteWriter.u32 (UInt32.ofNat e.members.length),
  e.members.flatMap writeMemberWork].flatten

def kMaxMembers : Nat := 1 <<< 20

def readExec : Read BatchExecution := do
  let batch ← ByteReader.id .batch
  let generation ← ByteReader.id .generation
  let epoch ← ByteReader.id .epoch
  let worker ← ByteReader.id .worker
  let descriptor ← readDesc
  let n ← u32
  ensure (n.toNat ≤ kMaxMembers) ()
  let members ← readMany (fun _ => readMemberWork) n.toNat []
  pure {
    batch := batch
    generation := generation
    epoch := epoch
    worker := worker
    descriptor := descriptor
    members := members }

def writeMemberCompletion (m : MemberCompletion) : List UInt8 := [
  ByteWriter.id m.request,
  ByteWriter.id m.attempt,
  ByteWriter.u8 (ByteEnum.toByte m.status),
  ByteWriter.string m.result,
  ByteWriter.u32 m.errorCode.toWord,
  ByteWriter.string m.errorMessage].flatten

def readMemberCompletion : Read MemberCompletion := do
  let request ← ByteReader.id .request
  let attempt ← ByteReader.id .attempt
  let status ← u8
  let result ← string
  let ec ← u32
  let errorMessage ← string
  pure {
    request := request
    attempt := attempt
    status := ByteEnum.ofByte status
    result := result
    errorCode := ErrorCode.ofWord ec
    errorMessage := errorMessage }

def writeCompl (c : BatchCompletion) : List UInt8 := [
  ByteWriter.id c.worker,
  ByteWriter.id c.boot,
  ByteWriter.id c.epoch,
  ByteWriter.id c.generation,
  ByteWriter.id c.batch,
  ByteWriter.u32 (UInt32.ofNat c.members.length),
  c.members.flatMap writeMemberCompletion].flatten

def readCompl : Read BatchCompletion := do
  let worker ← ByteReader.id .worker
  let boot ← ByteReader.id .workerBoot
  let epoch ← ByteReader.id .epoch
  let generation ← ByteReader.id .generation
  let batch ← ByteReader.id .batch
  let n ← u32
  ensure (n.toNat ≤ kMaxMembers) ()
  let members ← readMany (fun _ => readMemberCompletion) n.toNat []
  pure {
    worker := worker
    boot := boot
    epoch := epoch
    generation := generation
    batch := batch
    members := members }

/-- What `ok_reader` lets through: nothing is left to read. -/
def whole (read : Read α) (bytes : List UInt8) : Option α :=
  match read bytes with
  | .error _ => none
  | .ok (value, rest) => if rest.length = 0 then some value else none

def encodeRegister (m : WireRegister) : List UInt8 :=
  ByteWriter.id m.worker ++ ByteWriter.id m.boot ++ writeCap m.cap

def readRegister : Read WireRegister := do
  let worker ← ByteReader.id .worker
  let boot ← ByteReader.id .workerBoot
  let cap ← readCap
  pure { worker := worker, boot := boot, cap := cap }

def decodeRegister : List UInt8 → Option WireRegister :=
  whole readRegister

def encodeSubmit : RequestMetadata → List UInt8 :=
  writeMeta

def encodeSubmitResp (m : WireSubmitResp) : List UInt8 := [
  ByteWriter.id m.request,
  ByteWriter.id m.attempt,
  ByteWriter.u8 (ByteEnum.toByte m.admission),
  ByteWriter.string m.reason,
  ByteWriter.id m.batch].flatten

def readSubmitResp : Read WireSubmitResp := do
  let request ← ByteReader.id .request
  let attempt ← ByteReader.id .attempt
  let adm ← u8
  let reason ← string
  let batch ← ByteReader.id .batch
  pure {
    request := request
    attempt := attempt
    admission := ByteEnum.ofByte adm
    reason := reason
    batch := batch }

def decodeSubmitResp : List UInt8 → Option WireSubmitResp :=
  whole readSubmitResp

def encodeDispatch : BatchExecution → List UInt8 :=
  writeExec

def decodeDispatch : List UInt8 → Option BatchExecution :=
  whole readExec

def encodeComplete : BatchCompletion → List UInt8 :=
  writeCompl

def decodeComplete : List UInt8 → Option BatchCompletion :=
  whole readCompl

def encodeAck (m : WireAck) : List UInt8 := [
  ByteWriter.u8 (boolByte m.ok),
  ByteWriter.u32 m.code.toWord,
  ByteWriter.string m.message].flatten

def readAck : Read WireAck := do
  let ok ← u8
  let code ← u32
  let message ← string
  pure { ok := ok != 0, code := ErrorCode.ofWord code, message := message }

def decodeAck : List UInt8 → Option WireAck :=
  whole readAck

def encodeRollEpoch (epoch : BatchEpoch) : List UInt8 :=
  ByteWriter.id epoch

def decodeRollEpoch : List UInt8 → Option BatchEpoch :=
  whole (ByteReader.id .epoch)

def encodeStatus : List UInt8 := []

def decodeStatus (bytes : List UInt8) : Bool :=
  bytes.isEmpty

def encodeStatusResp (stats : BatchStats) : List UInt8 := [
  ByteWriter.u64 stats.submitted,
  ByteWriter.u64 stats.admitted,
  ByteWriter.u64 stats.deferred,
  ByteWriter.u64 stats.rejected,
  ByteWriter.u64 stats.expired,
  ByteWriter.u64 stats.cancelled,
  ByteWriter.u64 stats.batchesFormed,
  ByteWriter.u64 stats.batchesSealed,
  ByteWriter.u64 stats.batchesDispatched,
  ByteWriter.u64 stats.batchesCompleted,
  ByteWriter.u64 stats.batchesSplit,
  ByteWriter.u64 stats.batchesMerged,
  ByteWriter.u64 stats.requestsCompleted,
  ByteWriter.u64 stats.requestsRetried,
  ByteWriter.u64 stats.retryableFailures,
  ByteWriter.u64 stats.staleRejections,
  ByteWriter.u64 stats.waitingNow,
  ByteWriter.u64 stats.formingNow,
  ByteWriter.u64 stats.runningNow,
  ByteWriter.u64 stats.reservedNow,
  ByteWriter.u64 stats.totalWorkCompleted].flatten

def readStatusResp : Read BatchStats := do
  let vals ← readMany (fun _ => u64) 21 []
  pure {
    submitted := vals.getD 0 0
    admitted := vals.getD 1 0
    deferred := vals.getD 2 0
    rejected := vals.getD 3 0
    expired := vals.getD 4 0
    cancelled := vals.getD 5 0
    batchesFormed := vals.getD 6 0
    batchesSealed := vals.getD 7 0
    batchesDispatched := vals.getD 8 0
    batchesCompleted := vals.getD 9 0
    batchesSplit := vals.getD 10 0
    batchesMerged := vals.getD 11 0
    requestsCompleted := vals.getD 12 0
    requestsRetried := vals.getD 13 0
    retryableFailures := vals.getD 14 0
    staleRejections := vals.getD 15 0
    waitingNow := vals.getD 16 0
    formingNow := vals.getD 17 0
    runningNow := vals.getD 18 0
    reservedNow := vals.getD 19 0
    totalWorkCompleted := vals.getD 20 0 }

def decodeStatusResp : List UInt8 → Option BatchStats :=
  whole readStatusResp

def encodeCancel (m : WireCancel) : List UInt8 :=
  ByteWriter.id m.request ++ ByteWriter.u8 (ByteEnum.toByte m.reason)

def readCancel : Read WireCancel := do
  let request ← ByteReader.id .request
  let reason ← u8
  pure { request := request, reason := ByteEnum.ofByte reason }

def decodeCancel : List UInt8 → Option WireCancel :=
  whole readCancel

/-- The messages that have an encoder and a decoder. -/
inductive WireMessage
  | register (m : WireRegister)
  | submit (metadata : RequestMetadata)
  | submitResp (m : WireSubmitResp)
  | dispatch (exec : BatchExecution)
  | complete (completion : BatchCompletion)
  | ack (m : WireAck)
  | rollEpoch (epoch : BatchEpoch)
  | status
  | statusResp (stats : BatchStats)
  | cancel (m : WireCancel)

inductive WireKind
  | register
  | submit
  | submitResp
  | dispatch
  | complete
  | ack
  | rollEpoch
  | status
  | statusResp
  | cancel
  deriving DecidableEq

namespace WireMessage

def kind : WireMessage → WireKind
  | .register _ => .register
  | .submit _ => .submit
  | .submitResp _ => .submitResp
  | .dispatch _ => .dispatch
  | .complete _ => .complete
  | .ack _ => .ack
  | .rollEpoch _ => .rollEpoch
  | .status => .status
  | .statusResp _ => .statusResp
  | .cancel _ => .cancel

def encode : WireMessage → List UInt8
  | .register m => encodeRegister m
  | .submit metadata => encodeSubmit metadata
  | .submitResp m => encodeSubmitResp m
  | .dispatch exec => encodeDispatch exec
  | .complete completion => encodeComplete completion
  | .ack m => encodeAck m
  | .rollEpoch epoch => encodeRollEpoch epoch
  | .status => encodeStatus
  | .statusResp stats => encodeStatusResp stats
  | .cancel m => encodeCancel m

/-- The decoder of the kind, on a body. -/
def decode (kind : WireKind) (bytes : List UInt8) : Option WireMessage :=
  match kind with
  | .register => (decodeRegister bytes).map .register
  | .submit => (decodeSubmit bytes).map .submit
  | .submitResp => (decodeSubmitResp bytes).map .submitResp
  | .dispatch => (decodeDispatch bytes).map .dispatch
  | .complete => (decodeComplete bytes).map .complete
  | .ack => (decodeAck bytes).map .ack
  | .rollEpoch => (decodeRollEpoch bytes).map .rollEpoch
  | .status => if decodeStatus bytes then some .status else none
  | .statusResp => (decodeStatusResp bytes).map .statusResp
  | .cancel => (decodeCancel bytes).map .cancel

end WireMessage

end Protocol

end BatchFabric
