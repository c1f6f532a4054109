import BatchFabric.Persistence.Parsing

/-! Loading what was saved. -/

namespace BatchFabric

open Decoding

namespace PersistenceStore

/-- The limits the loader states, on a runtime to be saved. -/
structure WithinLimits (rt : PersistedRuntime) : Prop where
  epoch : Fits rt.epoch
  nextRequest : rt.nextRequest < 2 ^ 64
  nextBatch : rt.nextBatch < 2 ^ 64
  nextAttempt : rt.nextAttempt < 2 ^ 64
  nextGeneration : rt.nextGeneration < 2 ^ 64
  fewRequests : rt.requests.length ≤ kMaxRecords
  fewAttempts : rt.attempts.length ≤ kMaxRecords
  fewBatches : rt.batches.length ≤ kMaxRecords
  requests : ∀ r ∈ rt.requests, ReadableRequest r
  requestIds : (rt.requests.map (·.id)).Nodup
  attempts : ∀ a ∈ rt.attempts, ReadableAttempt a
  attemptIds : (rt.attempts.map (·.id)).Nodup
  batches : ∀ b ∈ rt.batches, ReadableBatch (rt.requests.map (·.id)) b
  batchIds : (rt.batches.map (·.id)).Nodup
  activeOnce : ActiveOnce rt.batches
  fairness : rt.fairnessServed.toList.length ≤ kMaxRecords ∧
    ∀ record ∈ rt.fairnessServed.toList, record.1.Short

/-- The records a saved runtime is written as. -/
def fileOf (rt : PersistedRuntime) : StateFile where
  epoch := rt.epoch
  nextRequest := UInt64.ofNat rt.nextRequest
  nextBatch := UInt64.ofNat rt.nextBatch
  nextAttempt := UInt64.ofNat rt.nextAttempt
  nextGeneration := UInt64.ofNat rt.nextGeneration
  requests := rt.requests
  attempts := rt.attempts
  batches := rt.batches
  fairness := rt.fairnessServed.toList

namespace WithinLimits

variable {rt : PersistedRuntime}

theorem readable (limits : WithinLimits rt) : ReadableFile (fileOf rt) where
  epoch := limits.epoch
  fewRequests := limits.fewRequests
  fewAttempts := limits.fewAttempts
  fewBatches := limits.fewBatches
  requests := limits.requests
  requestIds := limits.requestIds
  attempts := limits.attempts
  attemptIds := limits.attemptIds
  batches := limits.batches
  batchIds := limits.batchIds
  fairness := limits.fairness

theorem runtime_fileOf (limits : WithinLimits rt) :
    (fileOf rt).runtime = rt := by
  unfold fileOf StateFile.runtime insertFairness
  rw [OrderedMap.insertAll_toList,
    UInt64.toNat_ofNat_of_lt' limits.nextRequest,
    UInt64.toNat_ofNat_of_lt' limits.nextBatch,
    UInt64.toNat_ofNat_of_lt' limits.nextAttempt,
    UInt64.toNat_ofNat_of_lt' limits.nextGeneration]

end WithinLimits

/-- What comes before the batches in a file, and in a saved body. -/
def beforeBatches (file : StateFile) : List UInt8 := [
  ByteWriter.u32 kMagic,
  ByteWriter.u32 kFormatVersion,
  ByteWriter.id file.epoch,
  ByteWriter.u64 file.nextRequest,
  ByteWriter.u64 file.nextBatch,
  ByteWriter.u64 file.nextAttempt,
  ByteWriter.u64 file.nextGeneration,
  ByteWriter.size file.requests.length,
  ByteWriter.size file.attempts.length,
  ByteWriter.size file.batches.length,
  file.requests.flatMap writeRequest,
  file.attempts.flatMap writeAttempt].flatten

def fairnessLayout (records : List (ByteString × UInt64)) : List UInt8 :=
  ByteWriter.size records.length ++ records.flatMap writeFairness

theorem fileLayout_eq (file : StateFile) :
    fileLayout file = beforeBatches file ++
      (file.batches.flatMap batchLayout ++ fairnessLayout file.fairness) := by
  unfold fileLayout beforeBatches fairnessLayout
  simp only [List.flatten_cons, List.flatten_nil, List.append_assoc,
    List.append_nil]

theorem writeBody_eq {file : StateFile} {rt : PersistedRuntime}
    (same : file.runtime = rt) :
    writeBody rt = beforeBatches file ++
      (file.batches.flatMap writeBatch ++
        fairnessLayout rt.fairnessServed.toList) := by
  subst same
  unfold writeBody beforeBatches fairnessLayout StateFile.runtime
  simp only [List.flatten_cons, List.flatten_nil, List.append_assoc,
    List.append_nil, ByteWriter.size, UInt64.ofNat_toNat]

theorem length_writeBatch (b : PersistedBatch) :
    (writeBatch b).length = (batchLayout b).length := by
  unfold writeBatch batchLayout
  simp only [List.flatten_cons, List.flatten_nil, List.length_append]
  omega

/-- A batch record is read in the order it is written in only where the
parents can change places with the count of the children. -/
theorem writeBatch_eq_iff {requests : List RequestId} {b : PersistedBatch}
    (readable : ReadableBatch requests b) :
    writeBatch b = batchLayout b ↔
      ∀ p ∈ b.parents, p.value = b.children.length := by
  have swapped : writeBatch b = batchLayout b ↔
      b.parents.flatMap ByteWriter.id ++ ByteWriter.size b.children.length =
        ByteWriter.size b.children.length ++
          b.parents.flatMap ByteWriter.id := by
    unfold writeBatch batchLayout
    simp only [List.flatten_cons, List.append_cancel_left_eq]
    simp only [← List.append_assoc, List.append_cancel_right_eq]
  have widths : ∀ p ∈ b.parents, (ByteWriter.id p).length =
      (ByteWriter.size b.children.length).length := fun _ _ => rfl
  rw [swapped, Codec.append_flatMap_comm_iff _ widths]
  have few : b.children.length < 2 ^ 64 :=
    readable.children.1.trans_lt kMaxRecords_lt
  apply forall₂_congr
  intro p member
  have fits : p.value < 2 ^ 64 := readable.parents.2 p member
  constructor
  · intro same
    have word := congrArg UInt64.toNat (ByteWriter.delimits_u64.injective same)
    rwa [UInt64.toNat_ofNat_of_lt' fits, UInt64.toNat_ofNat_of_lt' few] at word
  · intro same
    rw [ByteWriter.id, ByteWriter.size, same]

theorem checksum_injective {left right : List UInt8}
    (same : left ++ ByteWriter.digest (Sha256.digest left) =
      right ++ ByteWriter.digest (Sha256.digest right)) : left = right := by
  apply (List.append_inj' same ?_).1
  simp [ByteWriter.digest]

/-- What is saved is loaded where each batch record is written as it is
read. -/
theorem parse_save_of_layouts {rt : PersistedRuntime}
    (limits : WithinLimits rt) :
    parse (save rt) = .ok rt ↔
      ∀ b ∈ rt.batches, writeBatch b = batchLayout b := by
  rw [parse_iff]
  constructor
  · rintro ⟨file, _, _, same, bytes⟩
    have bodies := checksum_injective bytes
    rw [writeBody_eq same, fileLayout_eq, List.append_cancel_left_eq,
      Codec.flatMap_append_inj_iff _ fun b _ => length_writeBatch b] at bodies
    rw [← same]
    exact bodies.1
  · intro layouts
    refine ⟨fileOf rt, limits.readable, limits.activeOnce,
      limits.runtime_fileOf, ?_⟩
    have bodies : writeBody rt = fileLayout (fileOf rt) := by
      rw [writeBody_eq limits.runtime_fileOf, fileLayout_eq,
        List.append_cancel_left_eq,
        Codec.flatMap_append_inj_iff _ fun b _ => length_writeBatch b]
      exact ⟨layouts, rfl⟩
    unfold save
    rw [bodies]

/-- A saved runtime is loaded as it was exactly where every parent of every
batch has the number of that batch's children. -/
theorem parse_save_iff (rt : PersistedRuntime) (limits : WithinLimits rt) :
    parse (save rt) = .ok rt ↔
      ∀ b ∈ rt.batches, ∀ p ∈ b.parents, p.value = b.children.length := by
  rw [parse_save_of_layouts limits]
  apply forall₂_congr
  intro b member
  exact writeBatch_eq_iff (limits.batches b member)

/-- A batch made from batch 1, with these children of its own. -/
def lineage (children : List BatchId) : PersistedRuntime where
  epoch := { value := 1 }
  nextBatch := 4
  batches := [
    { id := { value := 1 }, state := .superseded,
      children := [{ value := 2 }] },
    { id := { value := 2 }, state := .superseded,
      parents := [{ value := 1 }], children := children }]

theorem readable_superseded {requests : List RequestId} {id : BatchId}
    {parents children : List BatchId} (fits : Fits id)
    (identified : id ≠ .null) (fewParents : parents.length ≤ kMaxRecords)
    (fitParents : ∀ p ∈ parents, Fits p)
    (fewChildren : children.length ≤ kMaxRecords)
    (fitChildren : ∀ c ∈ children, Fits c) :
    ReadableBatch requests
      { id := id, state := .superseded, parents := parents,
        children := children } where
  id := fits
  generation := fits_null
  epoch := fits_null
  members := by simp
  formedNs := ByteReader.inInt64_zero
  sealedNs := ByteReader.inInt64_zero
  dispatchedNs := ByteReader.inInt64_zero
  completedNs := ByteReader.inInt64_zero
  worker := fits_null
  boot := fits_null
  parents := ⟨fewParents, fitParents⟩
  children := ⟨fewChildren, fitChildren⟩
  identified := identified

theorem withinLimits_lineage {children : List BatchId}
    (few : children.length ≤ kMaxRecords) (fit : ∀ c ∈ children, Fits c) :
    WithinLimits (lineage children) where
  epoch := (by decide : 1 < 2 ^ 64)
  nextRequest := (by decide : 1 < 2 ^ 64)
  nextBatch := (by decide : 4 < 2 ^ 64)
  nextAttempt := (by decide : 1 < 2 ^ 64)
  nextGeneration := (by decide : 1 < 2 ^ 64)
  fewRequests := Nat.zero_le _
  fewAttempts := Nat.zero_le _
  fewBatches := (by decide : 2 ≤ kMaxRecords)
  requests := by simp [lineage]
  requestIds := by simp [lineage]
  attempts := by simp [lineage]
  attemptIds := by simp [lineage]
  batches := by
    intro b member
    rcases List.mem_cons.mp member with rfl | member
    · exact readable_superseded (by decide) (by decide) (by decide) (by decide)
        (by decide) (by decide)
    · rw [List.mem_singleton] at member
      subst member
      exact readable_superseded (by decide) (by decide) (by decide)
        (by decide) few fit
  batchIds := by simp [lineage]
  activeOnce := by
    intro a inA b _ active
    have superseded : a.state = .superseded := by
      rcases List.mem_cons.mp inA with rfl | inA
      · rfl
      · rw [List.mem_singleton] at inA
        rw [inA]
    rw [superseded] at active
    cases active
  fairness := by
    have none : (lineage children).fairnessServed.toList = [] := rfl
    rw [none]
    decide

theorem parse_save_lineage :
    parse (save (lineage [{ value := 3 }])) = .ok (lineage [{ value := 3 }]) :=
  (parse_save_iff _ (withinLimits_lineage (by decide) (by decide))).mpr
    (by decide)

theorem not_parse_save : ¬∀ rt : PersistedRuntime, WithinLimits rt →
    parse (save rt) = .ok rt := by
  intro loads
  have limits : WithinLimits (lineage []) :=
    withinLimits_lineage (Nat.zero_le _) (by simp)
  have member : _ ∈ (lineage []).batches :=
    List.mem_cons_of_mem _ List.mem_cons_self
  have layout := (parse_save_of_layouts limits).mp (loads _ limits) _ member
  have swapped := (writeBatch_eq_iff (limits.batches _ member)).mp layout
  exact absurd (swapped { value := 1 } (by decide)) (by decide)

end PersistenceStore

end BatchFabric
