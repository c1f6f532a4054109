import BatchFabric.Persistence.RoundTrip

/-! Whether what the loader accepts is coherent. -/

namespace BatchFabric

/-- A runtime whose records fit together. The states and seal reasons have no
undeclared values. Only the batch of a request may be null. -/
structure PersistedRuntime.Coherent (rt : PersistedRuntime) : Prop where
  requestEnums : ∀ r ∈ rt.requests, (r.descriptor.isDeclared &&
    r.latency.isDeclared && r.priority.isDeclared) = true
  attemptEnums : ∀ a ∈ rt.attempts, a.outcome.isDeclared = true
  members : ∀ b ∈ rt.batches, b.members.Nodup
  listed : ∀ r ∈ rt.requests, r.batch ≠ .null →
    ∃ b ∈ rt.batches, b.id = r.batch ∧ r.id ∈ b.members
  currentAttempt : ∀ r ∈ rt.requests,
    ∃ a ∈ rt.attempts, a.id = r.currentAttempt
  attemptIds : ∀ r ∈ rt.requests, ∀ id ∈ r.attemptIds,
    ∃ a ∈ rt.attempts, a.id = id
  lineage : ∀ b ∈ rt.batches, ∀ id ∈ b.parents ++ b.children,
    ∃ other ∈ rt.batches, other.id = id
  nextRequest : ∀ r ∈ rt.requests, r.id.value < rt.nextRequest
  nextBatch : (∀ b ∈ rt.batches, b.id.value < rt.nextBatch) ∧
    ∀ a ∈ rt.attempts, a.batch.value < rt.nextBatch
  nextAttempt : ∀ a ∈ rt.attempts, a.id.value < rt.nextAttempt

namespace PersistenceStore

/-! The checks the loader leaves out. -/

/-- Three is no execution mode, though the loader lets it pass. -/
def modeDeclared (r : PersistedRequest) : Bool :=
  ByteEnum.toByte r.descriptor.executionMode != 3

def batchLists (batches : List PersistedBatch) (r : PersistedRequest) : Bool :=
  r.batch.isNull ||
    batches.any fun b => b.id == r.batch && b.members.contains r.id

def attemptsRecorded (attempts : List PersistedAttempt)
    (r : PersistedRequest) : Bool :=
  (attempts.map (·.id)).contains r.currentAttempt &&
    r.attemptIds.all fun id => (attempts.map (·.id)).contains id

def lineageRecorded (batches : List PersistedBatch) (b : PersistedBatch) :
    Bool :=
  (b.parents ++ b.children).all fun id => (batches.map (·.id)).contains id

def countersAbove (file : StateFile) : Bool :=
  file.requests.all (fun r => r.id.value < file.nextRequest.toNat) &&
    file.batches.all (fun b => b.id.value < file.nextBatch.toNat) &&
    file.attempts.all fun a => a.id.value < file.nextAttempt.toNat &&
      a.batch.value < file.nextBatch.toNat

def passesOmittedChecks (file : StateFile) : Bool :=
  file.requests.all (fun r => modeDeclared r && batchLists file.batches r &&
      attemptsRecorded file.attempts r) &&
    file.batches.all (fun b => decide b.members.Nodup &&
      lineageRecorded file.batches b) &&
    countersAbove file

/-- A byte up to a bound is one of the bytes counted up to it. -/
theorem mem_of_enumOk {raw max : UInt8} (passes : enumOk raw max = true) :
    raw ∈ (List.range (max.toNat + 1)).map UInt8.ofNat := by
  have small : raw.toNat ≤ max.toNat := of_decide_eq_true passes
  rw [List.mem_map]
  exact ⟨raw.toNat, List.mem_range.mpr (by omega), UInt8.ofNat_toNat⟩

theorem mem_of_enumOkUnknown {raw max : UInt8}
    (passes : enumOkUnknown raw max = true) :
    raw ∈ (List.range (max.toNat + 1)).map UInt8.ofNat ++ [255] := by
  rcases Bool.or_eq_true_iff.mp passes with low | unknown
  · exact List.mem_append_left _ (mem_of_enumOk low)
  · rw [eq_of_beq unknown]
    simp

theorem phase_declared {value : Phase}
    (passes : enumOk (ByteEnum.toByte value) 1 = true) :
    value.isDeclared = true := by
  cases value with
  | undeclared raw outside => exact absurd (mem_of_enumOk passes) outside
  | _ => rfl

theorem latency_declared {value : LatencyClass}
    (passes : enumOk (ByteEnum.toByte value) 4 = true) :
    value.isDeclared = true := by
  cases value with
  | undeclared raw outside => exact absurd (mem_of_enumOk passes) outside
  | _ => rfl

theorem priority_declared {value : PriorityClass}
    (passes : enumOk (ByteEnum.toByte value) 3 = true) :
    value.isDeclared = true := by
  cases value with
  | undeclared raw outside => exact absurd (mem_of_enumOk passes) outside
  | _ => rfl

theorem outcome_declared {value : CompletionStatus}
    (passes : enumOk (ByteEnum.toByte value) 6 = true) :
    value.isDeclared = true := by
  cases value with
  | undeclared raw outside => exact absurd (mem_of_enumOk passes) outside
  | _ => rfl

theorem dtype_declared {value : Dtype}
    (passes : enumOkUnknown (ByteEnum.toByte value) 4 = true) :
    value.isDeclared = true := by
  cases value with
  | undeclared raw outside => exact absurd (mem_of_enumOkUnknown passes) outside
  | _ => rfl

theorem backend_declared {value : Backend}
    (passes : enumOkUnknown (ByteEnum.toByte value) 4 = true) :
    value.isDeclared = true := by
  cases value with
  | undeclared raw outside => exact absurd (mem_of_enumOkUnknown passes) outside
  | _ => rfl

theorem mode_declared_iff {value : ExecutionMode}
    (passes : enumOkUnknown (ByteEnum.toByte value) 3 = true) :
    value.isDeclared = true ↔ ByteEnum.toByte value ≠ 3 := by
  cases value with
  | undeclared raw outside =>
      have bounded := mem_of_enumOkUnknown passes
      have bytes : ByteEnum.toByte (ExecutionMode.undeclared raw outside) =
          raw := rfl
      rw [bytes] at bounded ⊢
      have three : raw = 3 := by
        by_contra other
        have listed : (List.range ((3 : UInt8).toNat + 1)).map UInt8.ofNat ++
            [255] = [0, 1, 2, 3, 255] := rfl
        rw [listed] at bounded
        simp only [List.mem_cons, List.not_mem_nil, or_false] at bounded outside
        tauto
      simp [ExecutionMode.isDeclared, three]
  | _ => exact iff_of_true rfl (by decide)

theorem request_declared_iff {r : PersistedRequest}
    (readable : ReadableRequest r) :
    (r.descriptor.isDeclared && r.latency.isDeclared &&
      r.priority.isDeclared) = true ↔ modeDeclared r = true := by
  have enums := readable.descriptor.enums
  have classes := readable.enums
  simp only [Bool.and_eq_true] at enums classes
  obtain ⟨⟨⟨⟨phase, dtype⟩, backend⟩, mode⟩, device⟩ := enums
  unfold ModelDescriptor.isDeclared modeDeclared
  rw [phase_declared phase, dtype_declared dtype, backend_declared backend,
    backend_declared device, latency_declared classes.1,
    priority_declared classes.2]
  simp only [Bool.true_and, Bool.and_true, bne_iff_ne]
  exact mode_declared_iff mode

theorem batchLists_iff (batches : List PersistedBatch) (r : PersistedRequest) :
    batchLists batches r = true ↔
      (r.batch ≠ .null → ∃ b ∈ batches, b.id = r.batch ∧ r.id ∈ b.members) := by
  unfold batchLists
  rw [Bool.or_eq_true, Identifier.isNull_iff, List.any_eq_true,
    or_iff_not_imp_left]
  simp only [Bool.and_eq_true, beq_iff_eq, List.contains_eq_mem,
    decide_eq_true_eq, ne_eq]

/-- A recorded identifier is that of one of the records. -/
theorem contains_ids_iff {ρ : Type} (idOf : ρ → Identifier kind)
    (records : List ρ) (id : Identifier kind) :
    (records.map idOf).contains id = true ↔ ∃ r ∈ records, idOf r = id := by
  rw [List.contains_eq_mem, decide_eq_true_iff, List.mem_map]

theorem attemptsRecorded_iff (attempts : List PersistedAttempt)
    (r : PersistedRequest) :
    attemptsRecorded attempts r = true ↔
      (∃ a ∈ attempts, a.id = r.currentAttempt) ∧
        ∀ id ∈ r.attemptIds, ∃ a ∈ attempts, a.id = id := by
  unfold attemptsRecorded
  rw [Bool.and_eq_true, List.all_eq_true]
  simp only [contains_ids_iff]

theorem lineageRecorded_iff (batches : List PersistedBatch)
    (b : PersistedBatch) :
    lineageRecorded batches b = true ↔
      ∀ id ∈ b.parents ++ b.children, ∃ other ∈ batches, other.id = id := by
  unfold lineageRecorded
  rw [List.all_eq_true]
  simp only [contains_ids_iff]

/-- The records of a readable file fit together exactly where they pass the
checks the loader leaves out. -/
theorem coherent_runtime_iff {file : StateFile}
    (readable : ReadableFile file) :
    file.runtime.Coherent ↔ passesOmittedChecks file = true := by
  unfold passesOmittedChecks countersAbove
  simp only [Bool.and_eq_true, List.all_eq_true, decide_eq_true_iff,
    batchLists_iff, attemptsRecorded_iff, lineageRecorded_iff]
  constructor
  · intro coherent
    refine ⟨⟨?_, ?_⟩, ⟨?_, ?_⟩, ?_⟩
    · intro r member
      have declared := (request_declared_iff (readable.requests r member)).mp
        (coherent.requestEnums r member)
      exact ⟨⟨declared, coherent.listed r member⟩,
        coherent.currentAttempt r member, coherent.attemptIds r member⟩
    · intro b member
      exact ⟨coherent.members b member, coherent.lineage b member⟩
    · exact coherent.nextRequest
    · exact coherent.nextBatch.1
    · intro a member
      exact ⟨coherent.nextAttempt a member, coherent.nextBatch.2 a member⟩
  · rintro ⟨⟨requests, batches⟩, ⟨nextRequest, nextBatch⟩, attempts⟩
    refine {
      requestEnums := ?_
      attemptEnums := ?_
      members := fun b member => (batches b member).1
      listed := fun r member => (requests r member).1.2
      currentAttempt := fun r member => (requests r member).2.1
      attemptIds := fun r member => (requests r member).2.2
      lineage := fun b member => (batches b member).2
      nextRequest := nextRequest
      nextBatch := ⟨nextBatch, fun a member => (attempts a member).2⟩
      nextAttempt := fun a member => (attempts a member).1 }
    · intro r member
      exact (request_declared_iff (readable.requests r member)).mpr
        (requests r member).1.1
    · intro a member
      exact outcome_declared (readable.attempts a member).outcome

/-- The bytes of a file with its checksum. -/
def fileBytes (file : StateFile) : List UInt8 :=
  fileLayout file ++ ByteWriter.digest (Sha256.digest (fileLayout file))

/-- Accepting these bytes yields a coherent runtime exactly where the records
they hold pass the checks the loader leaves out. -/
theorem coherent_of_parse_iff (bytes : List UInt8) :
    (∀ rt, parse bytes = .ok rt → rt.Coherent) ↔
      ∀ file, ReadableFile file → ActiveOnce file.batches →
        bytes = fileBytes file → passesOmittedChecks file = true := by
  constructor
  · intro sound file readable once same
    apply (coherent_runtime_iff readable).mp
    apply sound
    exact (parse_iff bytes _).mpr ⟨file, readable, once, rfl, same⟩
  · intro checked rt accepted
    obtain ⟨file, readable, once, rfl, same⟩ := (parse_iff bytes rt).mp accepted
    exact (coherent_runtime_iff readable).mpr (checked file readable once same)

/-- A batch whose only child is not in the file. -/
theorem not_coherent_of_parse : ¬∀ (bytes : List UInt8)
    (rt : PersistedRuntime), parse bytes = .ok rt → rt.Coherent := by
  intro sound
  have limits : WithinLimits (lineage [{ value := 3 }]) := withinLimits_lineage
    (by decide) (by decide)
  have accepted := (parse_iff (fileBytes (fileOf _)) _).mpr
    ⟨fileOf _, limits.readable, limits.activeOnce, rfl, rfl⟩
  have checked := (coherent_runtime_iff limits.readable).mp
    (sound _ _ accepted)
  revert checked
  decide

end PersistenceStore

end BatchFabric
