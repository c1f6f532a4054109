import BatchFabric.Library.OrderedMap

namespace BatchFabric

/-- A C++ enumeration with a fixed underlying byte. Casting to it from a byte
keeps every byte, so the type also holds the values no enumerator names. -/
class ByteEnum (α : Type) where
  toByte : α → UInt8
  ofByte : UInt8 → α
  ofByte_toByte : ∀ value, ofByte (toByte value) = value
  toByte_ofByte : ∀ raw, toByte (ofByte raw) = raw

/-! Enumerations that arrive from outside input. -/

inductive Phase
  | prefill
  | decode
  | undeclared (raw : UInt8) (outside : raw ∉ [0, 1])
  deriving DecidableEq

namespace Phase

def toByte : Phase → UInt8
  | .prefill => 0
  | .decode => 1
  | .undeclared raw _ => raw

def ofByte (raw : UInt8) : Phase :=
  if is0 : raw = 0 then .prefill
  else if is1 : raw = 1 then .decode
  else .undeclared raw (by simp [is0, is1])

instance : ByteEnum Phase where
  toByte := toByte
  ofByte := ofByte
  ofByte_toByte value := by
    cases value with
    | undeclared raw outside =>
        have others := outside
        simp only [List.mem_cons, List.not_mem_nil, or_false, not_or] at others
        simp [toByte, ofByte, others]
    | _ => rfl
  toByte_ofByte raw := by
    unfold ofByte
    split_ifs <;> simp [toByte, *]

end Phase

inductive LatencyClass
  | batch
  | lowLatency
  | interactive
  | deadlineBounded
  | bestEffort
  | undeclared (raw : UInt8) (outside : raw ∉ [0, 1, 2, 3, 4])
  deriving DecidableEq

namespace LatencyClass

def toByte : LatencyClass → UInt8
  | .batch => 0
  | .lowLatency => 1
  | .interactive => 2
  | .deadlineBounded => 3
  | .bestEffort => 4
  | .undeclared raw _ => raw

def ofByte (raw : UInt8) : LatencyClass :=
  if is0 : raw = 0 then .batch
  else if is1 : raw = 1 then .lowLatency
  else if is2 : raw = 2 then .interactive
  else if is3 : raw = 3 then .deadlineBounded
  else if is4 : raw = 4 then .bestEffort
  else .undeclared raw (by simp [is0, is1, is2, is3, is4])

instance : ByteEnum LatencyClass where
  toByte := toByte
  ofByte := ofByte
  ofByte_toByte value := by
    cases value with
    | undeclared raw outside =>
        have others := outside
        simp only [List.mem_cons, List.not_mem_nil, or_false, not_or] at others
        simp [toByte, ofByte, others]
    | _ => rfl
  toByte_ofByte raw := by
    unfold ofByte
    split_ifs <;> simp [toByte, *]

end LatencyClass

inductive PriorityClass
  | high
  | normal
  | low
  | background
  | undeclared (raw : UInt8) (outside : raw ∉ [0, 1, 2, 3])
  deriving DecidableEq

namespace PriorityClass

def toByte : PriorityClass → UInt8
  | .high => 0
  | .normal => 1
  | .low => 2
  | .background => 3
  | .undeclared raw _ => raw

def ofByte (raw : UInt8) : PriorityClass :=
  if is0 : raw = 0 then .high
  else if is1 : raw = 1 then .normal
  else if is2 : raw = 2 then .low
  else if is3 : raw = 3 then .background
  else .undeclared raw (by simp [is0, is1, is2, is3])

instance : ByteEnum PriorityClass where
  toByte := toByte
  ofByte := ofByte
  ofByte_toByte value := by
    cases value with
    | undeclared raw outside =>
        have others := outside
        simp only [List.mem_cons, List.not_mem_nil, or_false, not_or] at others
        simp [toByte, ofByte, others]
    | _ => rfl
  toByte_ofByte raw := by
    unfold ofByte
    split_ifs <;> simp [toByte, *]

end PriorityClass

inductive Dtype
  | float16
  | bfloat16
  | float32
  | int8
  | int4
  | unknown
  | undeclared (raw : UInt8) (outside : raw ∉ [0, 1, 2, 3, 4, 255])
  deriving DecidableEq

namespace Dtype

def toByte : Dtype → UInt8
  | .float16 => 0
  | .bfloat16 => 1
  | .float32 => 2
  | .int8 => 3
  | .int4 => 4
  | .unknown => 255
  | .undeclared raw _ => raw

def ofByte (raw : UInt8) : Dtype :=
  if is0 : raw = 0 then .float16
  else if is1 : raw = 1 then .bfloat16
  else if is2 : raw = 2 then .float32
  else if is3 : raw = 3 then .int8
  else if is4 : raw = 4 then .int4
  else if is255 : raw = 255 then .unknown
  else .undeclared raw (by simp [is0, is1, is2, is3, is4, is255])

instance : ByteEnum Dtype where
  toByte := toByte
  ofByte := ofByte
  ofByte_toByte value := by
    cases value with
    | undeclared raw outside =>
        have others := outside
        simp only [List.mem_cons, List.not_mem_nil, or_false, not_or] at others
        simp [toByte, ofByte, others]
    | _ => rfl
  toByte_ofByte raw := by
    unfold ofByte
    split_ifs <;> simp [toByte, *]

end Dtype

inductive Backend
  | cpu
  | cuda
  | rocm
  | mps
  | trt
  | unknown
  | undeclared (raw : UInt8) (outside : raw ∉ [0, 1, 2, 3, 4, 255])
  deriving DecidableEq

namespace Backend

def toByte : Backend → UInt8
  | .cpu => 0
  | .cuda => 1
  | .rocm => 2
  | .mps => 3
  | .trt => 4
  | .unknown => 255
  | .undeclared raw _ => raw

def ofByte (raw : UInt8) : Backend :=
  if is0 : raw = 0 then .cpu
  else if is1 : raw = 1 then .cuda
  else if is2 : raw = 2 then .rocm
  else if is3 : raw = 3 then .mps
  else if is4 : raw = 4 then .trt
  else if is255 : raw = 255 then .unknown
  else .undeclared raw (by simp [is0, is1, is2, is3, is4, is255])

instance : ByteEnum Backend where
  toByte := toByte
  ofByte := ofByte
  ofByte_toByte value := by
    cases value with
    | undeclared raw outside =>
        have others := outside
        simp only [List.mem_cons, List.not_mem_nil, or_false, not_or] at others
        simp [toByte, ofByte, others]
    | _ => rfl
  toByte_ofByte raw := by
    unfold ofByte
    split_ifs <;> simp [toByte, *]

end Backend

inductive ExecutionMode
  | eager
  | graph
  | compiled
  | unknown
  | undeclared (raw : UInt8) (outside : raw ∉ [0, 1, 2, 255])
  deriving DecidableEq

namespace ExecutionMode

def toByte : ExecutionMode → UInt8
  | .eager => 0
  | .graph => 1
  | .compiled => 2
  | .unknown => 255
  | .undeclared raw _ => raw

def ofByte (raw : UInt8) : ExecutionMode :=
  if is0 : raw = 0 then .eager
  else if is1 : raw = 1 then .graph
  else if is2 : raw = 2 then .compiled
  else if is255 : raw = 255 then .unknown
  else .undeclared raw (by simp [is0, is1, is2, is255])

instance : ByteEnum ExecutionMode where
  toByte := toByte
  ofByte := ofByte
  ofByte_toByte value := by
    cases value with
    | undeclared raw outside =>
        have others := outside
        simp only [List.mem_cons, List.not_mem_nil, or_false, not_or] at others
        simp [toByte, ofByte, others]
    | _ => rfl
  toByte_ofByte raw := by
    unfold ofByte
    split_ifs <;> simp [toByte, *]

end ExecutionMode

/-- Per-member outcome. -/
inductive CompletionStatus
  | success
  | retryableFailure
  | nonRetryableFailure
  | cancelled
  | expired
  | stale
  | deferred
  | undeclared (raw : UInt8) (outside : raw ∉ [0, 1, 2, 3, 4, 5, 6])
  deriving DecidableEq

namespace CompletionStatus

def toByte : CompletionStatus → UInt8
  | .success => 0
  | .retryableFailure => 1
  | .nonRetryableFailure => 2
  | .cancelled => 3
  | .expired => 4
  | .stale => 5
  | .deferred => 6
  | .undeclared raw _ => raw

def ofByte (raw : UInt8) : CompletionStatus :=
  if is0 : raw = 0 then .success
  else if is1 : raw = 1 then .retryableFailure
  else if is2 : raw = 2 then .nonRetryableFailure
  else if is3 : raw = 3 then .cancelled
  else if is4 : raw = 4 then .expired
  else if is5 : raw = 5 then .stale
  else if is6 : raw = 6 then .deferred
  else .undeclared raw (by simp [is0, is1, is2, is3, is4, is5, is6])

instance : ByteEnum CompletionStatus where
  toByte := toByte
  ofByte := ofByte
  ofByte_toByte value := by
    cases value with
    | undeclared raw outside =>
        have others := outside
        simp only [List.mem_cons, List.not_mem_nil, or_false, not_or] at others
        simp [toByte, ofByte, others]
    | _ => rfl
  toByte_ofByte raw := by
    unfold ofByte
    split_ifs <;> simp [toByte, *]

end CompletionStatus

inductive AdmissionDecision
  | admitted
  | deferred
  | capacityExhausted
  | expired
  | oversized
  | rejected
  | undeclared (raw : UInt8) (outside : raw ∉ [0, 1, 2, 3, 4, 5])
  deriving DecidableEq

namespace AdmissionDecision

def toByte : AdmissionDecision → UInt8
  | .admitted => 0
  | .deferred => 1
  | .capacityExhausted => 2
  | .expired => 3
  | .oversized => 4
  | .rejected => 5
  | .undeclared raw _ => raw

def ofByte (raw : UInt8) : AdmissionDecision :=
  if is0 : raw = 0 then .admitted
  else if is1 : raw = 1 then .deferred
  else if is2 : raw = 2 then .capacityExhausted
  else if is3 : raw = 3 then .expired
  else if is4 : raw = 4 then .oversized
  else if is5 : raw = 5 then .rejected
  else .undeclared raw (by simp [is0, is1, is2, is3, is4, is5])

instance : ByteEnum AdmissionDecision where
  toByte := toByte
  ofByte := ofByte
  ofByte_toByte value := by
    cases value with
    | undeclared raw outside =>
        have others := outside
        simp only [List.mem_cons, List.not_mem_nil, or_false, not_or] at others
        simp [toByte, ofByte, others]
    | _ => rfl
  toByte_ofByte raw := by
    unfold ofByte
    split_ifs <;> simp [toByte, *]

end AdmissionDecision

inductive CancellationReason
  | clientRequest
  | deadlineExpired
  | preempted
  | superseded
  | shutdown
  | executorError
  | undeclared (raw : UInt8) (outside : raw ∉ [0, 1, 2, 3, 4, 5])
  deriving DecidableEq

namespace CancellationReason

def toByte : CancellationReason → UInt8
  | .clientRequest => 0
  | .deadlineExpired => 1
  | .preempted => 2
  | .superseded => 3
  | .shutdown => 4
  | .executorError => 5
  | .undeclared raw _ => raw

def ofByte (raw : UInt8) : CancellationReason :=
  if is0 : raw = 0 then .clientRequest
  else if is1 : raw = 1 then .deadlineExpired
  else if is2 : raw = 2 then .preempted
  else if is3 : raw = 3 then .superseded
  else if is4 : raw = 4 then .shutdown
  else if is5 : raw = 5 then .executorError
  else .undeclared raw (by simp [is0, is1, is2, is3, is4, is5])

instance : ByteEnum CancellationReason where
  toByte := toByte
  ofByte := ofByte
  ofByte_toByte value := by
    cases value with
    | undeclared raw outside =>
        have others := outside
        simp only [List.mem_cons, List.not_mem_nil, or_false, not_or] at others
        simp [toByte, ofByte, others]
    | _ => rfl
  toByte_ofByte raw := by
    unfold ofByte
    split_ifs <;> simp [toByte, *]

end CancellationReason

/-! Enumerations only ever assigned their enumerators: a stored byte is checked
before it is cast. -/

/-- Request lifecycle. -/
inductive RequestState
  | created
  | eligible
  | waiting
  | reserved
  | batched
  | sealed
  | dispatched
  | running
  | completed
  | cancelled
  | expired
  | rejected
  | failed
  deriving DecidableEq, Repr

namespace RequestState

def toByte : RequestState → UInt8
  | .created => 0
  | .eligible => 1
  | .waiting => 2
  | .reserved => 3
  | .batched => 4
  | .sealed => 5
  | .dispatched => 6
  | .running => 7
  | .completed => 8
  | .cancelled => 9
  | .expired => 10
  | .rejected => 11
  | .failed => 12

/-- The cast of a byte that passes `enum_ok`; no value otherwise. -/
def ofByte? (raw : UInt8) : Option RequestState :=
  if raw = 0 then some .created
  else if raw = 1 then some .eligible
  else if raw = 2 then some .waiting
  else if raw = 3 then some .reserved
  else if raw = 4 then some .batched
  else if raw = 5 then some .sealed
  else if raw = 6 then some .dispatched
  else if raw = 7 then some .running
  else if raw = 8 then some .completed
  else if raw = 9 then some .cancelled
  else if raw = 10 then some .expired
  else if raw = 11 then some .rejected
  else if raw = 12 then some .failed
  else none

@[simp] theorem ofByte?_toByte (value : RequestState) :
    ofByte? value.toByte = some value := by
  cases value <;> rfl

theorem toByte_of_ofByte? {raw : UInt8} {value : RequestState}
    (cast : ofByte? raw = some value) : value.toByte = raw := by
  unfold ofByte? at cast
  simp only [ite_eq_iff] at cast
  repeat
    rcases cast with ⟨rfl, cast⟩ | ⟨_, cast⟩
    · cases cast
      rfl
  cases cast

end RequestState

/-- Batch lifecycle. -/
inductive BatchState
  | forming
  | sealed
  | dispatched
  | running
  | partiallyCompleted
  | completed
  | cancelled
  | failed
  | superseded
  deriving DecidableEq, Repr

namespace BatchState

def toByte : BatchState → UInt8
  | .forming => 0
  | .sealed => 1
  | .dispatched => 2
  | .running => 3
  | .partiallyCompleted => 4
  | .completed => 5
  | .cancelled => 6
  | .failed => 7
  | .superseded => 8

/-- The cast of a byte that passes `enum_ok`; no value otherwise. -/
def ofByte? (raw : UInt8) : Option BatchState :=
  if raw = 0 then some .forming
  else if raw = 1 then some .sealed
  else if raw = 2 then some .dispatched
  else if raw = 3 then some .running
  else if raw = 4 then some .partiallyCompleted
  else if raw = 5 then some .completed
  else if raw = 6 then some .cancelled
  else if raw = 7 then some .failed
  else if raw = 8 then some .superseded
  else none

@[simp] theorem ofByte?_toByte (value : BatchState) :
    ofByte? value.toByte = some value := by
  cases value <;> rfl

theorem toByte_of_ofByte? {raw : UInt8} {value : BatchState}
    (cast : ofByte? raw = some value) : value.toByte = raw := by
  unfold ofByte? at cast
  simp only [ite_eq_iff] at cast
  repeat
    rcases cast with ⟨rfl, cast⟩ | ⟨_, cast⟩
    · cases cast
      rfl
  cases cast

end BatchState

/-- Why a batch sealed. -/
inductive SealReason
  | maxCountReached
  | maxTokensReached
  | maxWorkReached
  | maxWaitElapsed
  | deadlineDerived
  | policyDerived
  | immediate
  | queueDrained
  | executorRequired
  | minimumBatchMet
  | admissionFill
  deriving DecidableEq, Repr

namespace SealReason

def toByte : SealReason → UInt8
  | .maxCountReached => 0
  | .maxTokensReached => 1
  | .maxWorkReached => 2
  | .maxWaitElapsed => 3
  | .deadlineDerived => 4
  | .policyDerived => 5
  | .immediate => 6
  | .queueDrained => 7
  | .executorRequired => 8
  | .minimumBatchMet => 9
  | .admissionFill => 10

/-- The cast of a byte that passes `enum_ok`; no value otherwise. -/
def ofByte? (raw : UInt8) : Option SealReason :=
  if raw = 0 then some .maxCountReached
  else if raw = 1 then some .maxTokensReached
  else if raw = 2 then some .maxWorkReached
  else if raw = 3 then some .maxWaitElapsed
  else if raw = 4 then some .deadlineDerived
  else if raw = 5 then some .policyDerived
  else if raw = 6 then some .immediate
  else if raw = 7 then some .queueDrained
  else if raw = 8 then some .executorRequired
  else if raw = 9 then some .minimumBatchMet
  else if raw = 10 then some .admissionFill
  else none

@[simp] theorem ofByte?_toByte (value : SealReason) :
    ofByte? value.toByte = some value := by
  cases value <;> rfl

theorem toByte_of_ofByte? {raw : UInt8} {value : SealReason}
    (cast : ofByte? raw = some value) : value.toByte = raw := by
  unfold ofByte? at cast
  simp only [ite_eq_iff] at cast
  repeat
    rcases cast with ⟨rfl, cast⟩ | ⟨_, cast⟩
    · cases cast
      rfl
  cases cast

end SealReason

def isRequestTerminal : RequestState → Bool
  | .cancelled | .expired | .rejected | .failed | .completed => true
  | _ => false

def isBatchTerminal : BatchState → Bool
  | .cancelled | .failed | .completed | .superseded => true
  | _ => false

def isWaitingState : RequestState → Bool
  | .eligible | .waiting => true
  | _ => false

/-! Whether an enumerator names the value. -/

def Phase.isDeclared : Phase → Bool
  | .undeclared _ _ => false
  | _ => true

def LatencyClass.isDeclared : LatencyClass → Bool
  | .undeclared _ _ => false
  | _ => true

def PriorityClass.isDeclared : PriorityClass → Bool
  | .undeclared _ _ => false
  | _ => true

def Dtype.isDeclared : Dtype → Bool
  | .undeclared _ _ => false
  | _ => true

def Backend.isDeclared : Backend → Bool
  | .undeclared _ _ => false
  | _ => true

def ExecutionMode.isDeclared : ExecutionMode → Bool
  | .undeclared _ _ => false
  | _ => true

def CompletionStatus.isDeclared : CompletionStatus → Bool
  | .undeclared _ _ => false
  | _ => true

end BatchFabric
