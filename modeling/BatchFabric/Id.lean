import BatchFabric.Library.OrderedMap

namespace BatchFabric

/-- The strong identifier types of the runtime. -/
inductive IdKind
  | request
  | batch
  | tenant
  | session
  | sequence
  | attempt
  | generation
  | epoch
  | workerBoot
  | worker
  deriving DecidableEq, Repr

/-- An identifier of one kind. Zero is the null identifier. -/
structure Identifier (kind : IdKind) where
  value : Nat := 0
  deriving DecidableEq, Repr

abbrev RequestId := Identifier .request
abbrev BatchId := Identifier .batch
abbrev TenantId := Identifier .tenant
abbrev SessionId := Identifier .session
abbrev SequenceId := Identifier .sequence
abbrev AttemptId := Identifier .attempt
abbrev Generation := Identifier .generation
abbrev BatchEpoch := Identifier .epoch
abbrev WorkerBootId := Identifier .workerBoot
abbrev WorkerId := Identifier .worker

namespace Identifier

/-- The default-constructed identifier. -/
def null : Identifier kind := { value := 0 }

def isNull (id : Identifier kind) : Bool :=
  id.value == 0

instance : Inhabited (Identifier kind) := ⟨null⟩

theorem eq_of_value_eq {left right : Identifier kind}
    (equal : left.value = right.value) : left = right := by
  cases left
  cases right
  cases equal
  rfl

instance : Ord (Identifier kind) where
  compare left right := compare left.value right.value

instance : Std.TransOrd (Identifier kind) where
  eq_swap := Std.OrientedOrd.eq_swap (α := Nat)
  isLE_trans := Std.TransOrd.isLE_trans (α := Nat)

instance : Std.LawfulEqOrd (Identifier kind) where
  eq_of_compare := fun equal =>
    eq_of_value_eq (Std.LawfulEqOrd.eq_of_compare (α := Nat) equal)

/-- Lists of identifiers decide membership by this instance. -/
instance : LawfulBEq (Identifier kind) :=
  inferInstance

@[simp] theorem isNull_iff (id : Identifier kind) :
    id.isNull = true ↔ id = null := by
  constructor
  · intro zero
    exact eq_of_value_eq (eq_of_beq zero)
  · rintro rfl
    rfl

end Identifier

/-- `std::map`, iterated in ascending order of its keys. -/
abbrev Map (κ : Type u) (ν : Type v) [Ord κ] := Std.ExtTreeMap κ ν compare

end BatchFabric
