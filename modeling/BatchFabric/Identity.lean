import BatchFabric.Io

namespace BatchFabric

/-- The device a descriptor requires. -/
structure DeviceCapability where
  backend : Backend := .cpu
  computeMajor : UInt32 := 0
  computeMinor : UInt32 := 0
  minMemoryBytes : UInt64 := 0
  deriving DecidableEq

/-- The full compatibility tuple of an inference request. -/
structure ModelDescriptor where
  model : ByteString := {}
  revision : ByteString := {}
  adapter : ByteString := {}
  tokenizer : ByteString := {}
  phase : Phase := .prefill
  dtype : Dtype := .unknown
  backend : Backend := .cpu
  executionMode : ExecutionMode := .eager
  device : DeviceCapability := {}
  shape : ByteString := {}
  samplingSemantics : ByteString := {}
  extensions : List ByteString := []
  deriving DecidableEq

/-- The five enumerations of a descriptor. -/
def ModelDescriptor.isDeclared (d : ModelDescriptor) : Bool :=
  d.phase.isDeclared && d.dtype.isDeclared && d.backend.isDeclared &&
    d.executionMode.isDeclared && d.device.backend.isDeclared

/-- The digest requests are grouped by. -/
structure CompatibilityKey where
  digest : Digest := Vector.replicate 32 0
  deriving DecidableEq

namespace CompatibilityKey

theorem eq_of_digest_eq {left right : CompatibilityKey}
    (equal : left.digest = right.digest) : left = right := by
  cases left
  cases right
  cases equal
  rfl

instance : Inhabited CompatibilityKey := ⟨{}⟩

instance : Ord CompatibilityKey where
  compare left right := compare left.digest right.digest

instance : Std.TransOrd CompatibilityKey where
  eq_swap := Std.OrientedOrd.eq_swap (α := Digest)
  isLE_trans := Std.TransOrd.isLE_trans (α := Digest)

instance : Std.LawfulEqOrd CompatibilityKey where
  eq_of_compare := fun equal =>
    eq_of_digest_eq (Std.LawfulEqOrd.eq_of_compare (α := Digest) equal)

open ByteWriter in
/-- The bytes hashed for a key. The leading byte is the key format version. -/
def preimage (d : ModelDescriptor) : List UInt8 :=
  u8 1 ++
  string d.model ++
  string d.revision ++
  string d.adapter ++
  string d.tokenizer ++
  u8 (ByteEnum.toByte d.phase) ++
  u8 (ByteEnum.toByte d.dtype) ++
  u8 (ByteEnum.toByte d.backend) ++
  u8 (ByteEnum.toByte d.executionMode) ++
  u8 (ByteEnum.toByte d.device.backend) ++
  u32 d.device.computeMajor ++
  u32 d.device.computeMinor ++
  u64 d.device.minMemoryBytes ++
  string d.shape ++
  string d.samplingSemantics ++
  u32 (UInt32.ofNat d.extensions.length) ++
  d.extensions.flatMap string

def build (d : ModelDescriptor) : CompatibilityKey where
  digest := Sha256.digest (preimage d)

end CompatibilityKey

end BatchFabric
