import BatchFabric.Enums
import Mathlib.Algebra.Group.Nat.Defs

namespace BatchFabric

theorem length_nil_bounded : ([] : List UInt8).length < 2 ^ 64 := by
  decide

/-- `std::string`. Its size is a `std::size_t`. -/
structure ByteString where
  bytes : List UInt8 := []
  bounded : bytes.length < 2 ^ 64 := by first | exact length_nil_bounded | decide
  deriving DecidableEq

namespace ByteString

instance : Inhabited ByteString := ⟨{}⟩

def isEmpty (text : ByteString) : Bool :=
  text.bytes.isEmpty

/-- No string holds `2 ^ 64` bytes, so nothing is cut off here. -/
def ofBytes (bytes : List UInt8) : ByteString where
  bytes := bytes.take (2 ^ 64 - 1)
  bounded := by
    rw [List.length_take]
    omega

def ofAscii (text : String) : ByteString :=
  ofBytes (text.toList.map fun char => UInt8.ofNat char.toNat)

instance : Append ByteString where
  append left right := ofBytes (left.bytes ++ right.bytes)

theorem eq_of_bytes_eq {left right : ByteString}
    (equal : left.bytes = right.bytes) : left = right := by
  cases left
  cases right
  cases equal
  rfl

instance : Ord ByteString where
  compare left right := compare left.bytes right.bytes

instance : Std.TransOrd ByteString where
  eq_swap := Std.OrientedOrd.eq_swap (α := List UInt8)
  isLE_trans := Std.TransOrd.isLE_trans (α := List UInt8)

instance : Std.LawfulEqOrd ByteString where
  eq_of_compare := fun equal =>
    eq_of_bytes_eq (Std.LawfulEqOrd.eq_of_compare (α := List UInt8) equal)

end ByteString

/-- The structured error taxonomy. -/
inductive ErrorCode
  | ok
  | invalidArgument
  | invalidState
  | notFound
  | alreadyExists
  | capacityExhausted
  | deferred
  | deadlineExpired
  | cancelled
  | staleEpoch
  | staleWorker
  | staleAttempt
  | incompatible
  | batchSealed
  | batchTooLarge
  | splitRequired
  | mergeRejected
  | transportFailure
  | persistenceFailure
  | corruption
  | unsupported
  | internal
  | undeclared (raw : UInt32) (outside : 22 ≤ raw.toNat)
  deriving DecidableEq

namespace ErrorCode

/-- The enumerators in the order of their values. -/
def enumerators : List ErrorCode := [
  .ok, .invalidArgument, .invalidState, .notFound, .alreadyExists,
  .capacityExhausted, .deferred, .deadlineExpired, .cancelled, .staleEpoch,
  .staleWorker, .staleAttempt, .incompatible, .batchSealed, .batchTooLarge,
  .splitRequired, .mergeRejected, .transportFailure, .persistenceFailure,
  .corruption, .unsupported, .internal]

def toWord (code : ErrorCode) : UInt32 :=
  match code with
  | .undeclared raw _ => raw
  | declared => UInt32.ofNat (enumerators.idxOf declared)

def ofWord (raw : UInt32) : ErrorCode :=
  if declared : raw.toNat < enumerators.length then
    enumerators[raw.toNat]
  else .undeclared raw (Nat.not_lt.mp declared)

theorem ofWord_toWord (code : ErrorCode) : ofWord (toWord code) = code := by
  cases code with
  | undeclared raw outside => exact dif_neg (Nat.not_lt.mpr outside)
  | _ => decide

theorem toWord_ofWord (raw : UInt32) : toWord (ofWord raw) = raw := by
  have positions : ∀ i : Fin enumerators.length,
      toWord enumerators[i] = UInt32.ofNat i := by decide
  unfold ofWord
  split
  · next declared =>
      exact (positions ⟨raw.toNat, declared⟩).trans UInt32.ofNat_toNat
  · rfl

def toString : ErrorCode → String
  | .ok => "ok"
  | .invalidArgument => "invalid_argument"
  | .invalidState => "invalid_state"
  | .notFound => "not_found"
  | .alreadyExists => "already_exists"
  | .capacityExhausted => "capacity_exhausted"
  | .deferred => "deferred"
  | .deadlineExpired => "deadline_expired"
  | .cancelled => "cancelled"
  | .staleEpoch => "stale_epoch"
  | .staleWorker => "stale_worker"
  | .staleAttempt => "stale_attempt"
  | .incompatible => "incompatible"
  | .batchSealed => "batch_sealed"
  | .batchTooLarge => "batch_too_large"
  | .splitRequired => "split_required"
  | .mergeRejected => "merge_rejected"
  | .transportFailure => "transport_failure"
  | .persistenceFailure => "persistence_failure"
  | .corruption => "corruption"
  | .unsupported => "unsupported"
  | .internal => "internal"
  | .undeclared _ _ => "unknown"

end ErrorCode

structure Error where
  code : ErrorCode := .ok
  message : ByteString := {}
  category : ByteString := {}
  deriving DecidableEq

namespace Error

/-- `Result::err(code, message)`. -/
def err (code : ErrorCode) (message : String) : Error where
  code := code
  message := .ofAscii message

def toString (error : Error) : ByteString :=
  let coded := ByteString.ofAscii error.code.toString
  let categorised :=
    if error.category.isEmpty then coded
    else coded ++ .ofAscii "[" ++ error.category ++ .ofAscii "]"
  if error.message.isEmpty then categorised
  else categorised ++ .ofAscii ": " ++ error.message

end Error

end BatchFabric
