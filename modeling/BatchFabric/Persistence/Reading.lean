import BatchFabric.Persistence.Store

/-! What the loader's reads accept: exactly what a writer makes of the records
that pass its checks. -/

namespace BatchFabric

open Decoding ByteReader

theorem eq_toNat_ofNat32_iff (count : Nat) :
    count = (UInt32.ofNat count).toNat ↔ count < 2 ^ 32 := by
  constructor
  · intro same
    rw [same]
    exact UInt32.toNat_lt _
  · exact fun small => (UInt32.toNat_ofNat_of_lt' small).symm

theorem eq_toNat_ofNat64_iff (count : Nat) :
    count = (UInt64.ofNat count).toNat ↔ count < 2 ^ 64 := by
  constructor
  · intro same
    rw [same]
    exact UInt64.toNat_lt _
  · exact fun small => (UInt64.toNat_ofNat_of_lt' small).symm

/-- A short enough string. -/
def ByteString.Short (s : ByteString) : Prop :=
  s.bytes.length ≤ kDefaultMaxStringLen

instance (s : ByteString) : Decidable s.Short :=
  inferInstanceAs (Decidable (s.bytes.length ≤ kDefaultMaxStringLen))

/-- The descriptors a reader with this check of the enumerations accepts. -/
structure ModelDescriptor.ReadableWith
    (enumsOk : UInt8 → UInt8 → UInt8 → UInt8 → UInt8 → Bool)
    (d : ModelDescriptor) : Prop where
  model : d.model.Short
  revision : d.revision.Short
  adapter : d.adapter.Short
  tokenizer : d.tokenizer.Short
  enums : enumsOk (ByteEnum.toByte d.phase) (ByteEnum.toByte d.dtype)
    (ByteEnum.toByte d.backend) (ByteEnum.toByte d.executionMode)
    (ByteEnum.toByte d.device.backend) = true
  shape : d.shape.Short
  samplingSemantics : d.samplingSemantics.Short
  extensions : d.extensions.length ≤ 1024 ∧ ∀ e ∈ d.extensions, e.Short

theorem decodes_readDescriptorChecked
    (enumsOk : UInt8 → UInt8 → UInt8 → UInt8 → UInt8 → Bool) :
    Decodes (readDescriptorChecked enumsOk) writeDescriptor
      (ModelDescriptor.ReadableWith enumsOk) := by
  apply Continues.decodes
  · apply Continues.field (fun _ : ModelDescriptor => (1 : UInt8)) decodes_u8
    intro ver _
    apply Continues.check fun _ => True
    · rintro _ ⟨_, rfl⟩
      simp
    intro version
    apply Continues.field ModelDescriptor.model decodes_string
    intro model _
    apply Continues.field ModelDescriptor.revision decodes_string
    intro revision _
    apply Continues.field ModelDescriptor.adapter decodes_string
    intro adapter _
    apply Continues.field ModelDescriptor.tokenizer decodes_string
    intro tokenizer _
    apply Continues.field
      (fun d : ModelDescriptor => ByteEnum.toByte d.phase) decodes_u8
    intro phase _
    apply Continues.field
      (fun d : ModelDescriptor => ByteEnum.toByte d.dtype) decodes_u8
    intro dtype _
    apply Continues.field
      (fun d : ModelDescriptor => ByteEnum.toByte d.backend) decodes_u8
    intro backend _
    apply Continues.field
      (fun d : ModelDescriptor => ByteEnum.toByte d.executionMode) decodes_u8
    intro mode _
    apply Continues.field
      (fun d : ModelDescriptor => ByteEnum.toByte d.device.backend) decodes_u8
    intro dbackend _
    apply Continues.check fun d : ModelDescriptor =>
      enumsOk (ByteEnum.toByte d.phase) (ByteEnum.toByte d.dtype)
        (ByteEnum.toByte d.backend) (ByteEnum.toByte d.executionMode)
        (ByteEnum.toByte d.device.backend) = true
    · rintro d ⟨⟨⟨⟨⟨_, rfl⟩, rfl⟩, rfl⟩, rfl⟩, rfl⟩
      exact Iff.rfl
    intro _
    apply Continues.field
      (fun d : ModelDescriptor => d.device.computeMajor) decodes_u32
    intro cmaj _
    apply Continues.field
      (fun d : ModelDescriptor => d.device.computeMinor) decodes_u32
    intro cmin _
    apply Continues.field
      (fun d : ModelDescriptor => d.device.minMemoryBytes) decodes_u64
    intro mem _
    apply Continues.field ModelDescriptor.shape decodes_string
    intro shape _
    apply Continues.field ModelDescriptor.samplingSemantics decodes_string
    intro sampling _
    apply Continues.field
      (fun d : ModelDescriptor => UInt32.ofNat d.extensions.length) decodes_u32
    intro nExt _
    apply Continues.check fun d : ModelDescriptor =>
      (UInt32.ofNat d.extensions.length).toNat ≤ 1024
    · rintro d ⟨_, rfl⟩
      simp
    intro _
    apply Continues.fieldGiven ModelDescriptor.extensions
      (fun d : ModelDescriptor => d.extensions.length < 2 ^ 32 ∧
        ∀ e ∈ d.extensions, e.Short)
      (Decodes.many decodes_string nExt.toNat)
    · rintro d ⟨_, rfl⟩
      exact and_congr_left' (eq_toNat_ofNat32_iff _)
    intro exts found
    apply Continues.done
    intro d
    simp only [and_assoc, true_and]
    constructor
    · rintro ⟨-, rfl, rfl, rfl, rfl, rfl, rfl, rfl, rfl, rfl, rfl, rfl, rfl,
        rfl, rfl, -, rfl⟩
      simp only [ByteEnum.ofByte_toByte]
    · rintro rfl
      simp [ByteEnum.toByte_ofByte, eq_of_beq version, found.1]
  · exact fun _ => rfl
  · intro d
    constructor
    · rintro ⟨-, -, model, revision, adapter, tokenizer, -, -, -, -, -, enums,
        -, -, -, shape, sampling, -, few, ⟨sized, short⟩, -⟩
      rw [UInt32.toNat_ofNat_of_lt' sized] at few
      exact ⟨model, revision, adapter, tokenizer, enums, shape, sampling,
        few, short⟩
    · rintro ⟨model, revision, adapter, tokenizer, enums, shape, sampling,
        few, short⟩
      have sized : d.extensions.length < 2 ^ 32 := by omega
      refine ⟨trivial, trivial, model, revision, adapter, tokenizer, trivial,
        trivial, trivial, trivial, trivial, enums, trivial, trivial, trivial,
        shape, sampling, trivial, ?_, ⟨sized, short⟩, trivial⟩
      rwa [UInt32.toNat_ofNat_of_lt' sized]

namespace PersistenceStore

/-- The descriptors the loader accepts. -/
abbrev ReadableDescriptor : ModelDescriptor → Prop :=
  ModelDescriptor.ReadableWith fun phase dtype backend mode dbackend =>
    enumOk phase 1 && enumOkUnknown dtype 4 && enumOkUnknown backend 4 &&
      enumOkUnknown mode 3 && enumOkUnknown dbackend 4

/-- An identifier of one machine word. -/
def Fits (id : Identifier kind) : Prop :=
  id.value < 2 ^ 64

instance (id : Identifier kind) : Decidable (Fits id) :=
  inferInstanceAs (Decidable (id.value < 2 ^ 64))

theorem fits_null : Fits (.null : Identifier kind) :=
  Nat.two_pow_pos 64

theorem decodes_required {read : Read α} {code : α → List UInt8}
    {Valid : α → Prop} (decodes : Decodes read code Valid)
    (message : String) :
    Decodes (required read message) code Valid :=
  decodes.orError _

theorem required_id (kind : IdKind) (message : String) :
    Decodes (required (ByteReader.id kind) message) ByteWriter.id Fits :=
  decodes_required (decodes_id kind) message

theorem required_u8 (message : String) :
    Decodes (required u8 message) ByteWriter.u8 fun _ => True :=
  decodes_required decodes_u8 message

theorem required_u32 (message : String) :
    Decodes (required u32 message) ByteWriter.u32 fun _ => True :=
  decodes_required decodes_u32 message

theorem required_u64 (message : String) :
    Decodes (required u64 message) ByteWriter.u64 fun _ => True :=
  decodes_required decodes_u64 message

theorem required_i64 (message : String) :
    Decodes (required i64 message) ByteWriter.i64 InInt64 :=
  decodes_required decodes_i64 message

theorem required_string (message : String) :
    Decodes (required string message) ByteWriter.string ByteString.Short :=
  decodes_required decodes_string message

theorem kMaxRecords_lt : kMaxRecords < 2 ^ 64 := by
  decide

/-- A request record the loader accepts when its identifier is new. -/
structure ReadableRequest (r : PersistedRequest) : Prop where
  id : Fits r.id
  tenant : Fits r.tenant
  session : Fits r.session
  sequence : Fits r.sequence
  descriptor : ReadableDescriptor r.descriptor
  deadline : InInt64 r.deadline.absoluteNs
  enums : (enumOk (ByteEnum.toByte r.latency) 4 &&
    enumOk (ByteEnum.toByte r.priority) 3) = true
  payload : r.payload.Short
  submittedNs : InInt64 r.submittedNs
  batch : Fits r.batch
  currentAttempt : Fits r.currentAttempt
  attemptIds : r.attemptIds.length ≤ 1024 ∧ ∀ a ∈ r.attemptIds, Fits a
  identified : r.id ≠ .null

/-- The check of a record's own identifier against the earlier ones. -/
theorem identified_iff (id : Identifier kind) (taken : List (Identifier kind)) :
    (!id.isNull && !taken.contains id) = true ↔ id ≠ .null ∧ id ∉ taken := by
  simp only [Bool.and_eq_true, Bool.not_eq_true', ne_eq,
    ← Identifier.isNull_iff, Bool.not_eq_true, List.contains_eq_mem,
    decide_eq_false_iff_not]

theorem decodes_readRequest (before : List PersistedRequest) :
    Decodes (readRequest before) writeRequest
      (fun r => ReadableRequest r ∧ r.id ∉ before.map (·.id)) := by
  apply Continues.decodes
  · apply Continues.field PersistedRequest.id (required_id _ _)
    intro id _
    apply Continues.field PersistedRequest.tenant (required_id _ _)
    intro tenant _
    apply Continues.field PersistedRequest.session (required_id _ _)
    intro session _
    apply Continues.field PersistedRequest.sequence (required_id _ _)
    intro sequence _
    apply Continues.field PersistedRequest.descriptor
      (decodes_required (decodes_readDescriptorChecked _) _)
    intro descriptor _
    apply Continues.field (fun r : PersistedRequest => r.tokens.input)
      (required_u64 _)
    intro inT _
    apply Continues.field (fun r : PersistedRequest => r.tokens.output)
      (required_u64 _)
    intro outT _
    apply Continues.field (fun r : PersistedRequest => r.work.value)
      (required_u64 _)
    intro work _
    apply Continues.field PersistedRequest.memoryBytes (required_u64 _)
    intro mem _
    apply Continues.field
      (fun r : PersistedRequest => r.deadline.absoluteNs) (required_i64 _)
    intro dl _
    apply Continues.field
      (fun r : PersistedRequest => ByteEnum.toByte r.latency) (required_u8 _)
    intro lat _
    apply Continues.field
      (fun r : PersistedRequest => ByteEnum.toByte r.priority) (required_u8 _)
    intro pri _
    apply Continues.check fun r : PersistedRequest =>
      (enumOk (ByteEnum.toByte r.latency) 4 &&
        enumOk (ByteEnum.toByte r.priority) 3) = true
    · rintro r ⟨⟨_, rfl⟩, rfl⟩
      exact Iff.rfl
    intro _
    apply Continues.field PersistedRequest.payload (required_string _)
    intro payload _
    apply Continues.field (fun r : PersistedRequest => r.state.toByte)
      (required_u8 _)
    intro raw _
    apply Continues.convert PersistedRequest.state
    · rintro r ⟨_, rfl⟩
      exact RequestState.ofByte?_toByte r.state
    intro state converted
    apply Continues.field PersistedRequest.submittedNs (required_i64 _)
    intro sub _
    apply Continues.field PersistedRequest.batch (required_id _ _)
    intro batch _
    apply Continues.field PersistedRequest.currentAttempt (required_id _ _)
    intro current _
    apply Continues.field
      (fun r : PersistedRequest => UInt64.ofNat r.attemptIds.length)
      (required_u64 _)
    intro nAtt _
    apply Continues.check fun r : PersistedRequest =>
      (UInt64.ofNat r.attemptIds.length).toNat ≤ 1024
    · rintro r ⟨_, rfl⟩
      simp
    intro _
    apply Continues.fieldGiven PersistedRequest.attemptIds
      (fun r : PersistedRequest => r.attemptIds.length < 2 ^ 64 ∧
        ∀ a ∈ r.attemptIds, Fits a)
      (Decodes.many (required_id _ _) nAtt.toNat)
    · rintro r ⟨_, rfl⟩
      exact and_congr_left' (eq_toNat_ofNat64_iff _)
    intro attemptIds found
    apply Continues.check fun r : PersistedRequest =>
      r.id ≠ .null ∧ r.id ∉ before.map (·.id)
    · intro r known
      simp only [and_assoc] at known
      rw [identified_iff, known.2.1]
    intro _
    apply Continues.done
    intro r
    simp only [and_assoc, true_and]
    constructor
    · rintro ⟨rfl, rfl, rfl, rfl, rfl, rfl, rfl, rfl, rfl, rfl, rfl, rfl, rfl,
        -, rfl, rfl, rfl, rfl, -, rfl⟩
      simp only [ByteEnum.ofByte_toByte]
    · rintro rfl
      simp [ByteEnum.toByte_ofByte, found.1,
        RequestState.toByte_of_ofByte? converted]
  · exact fun _ => rfl
  · intro r
    constructor
    · rintro ⟨id, tenant, session, sequence, descriptor, -, -, -, -, deadline,
        -, -, enums, payload, -, submittedNs, batch, currentAttempt, -, few,
        ⟨sized, fit⟩, ⟨identified, new⟩, -⟩
      rw [UInt64.toNat_ofNat_of_lt' sized] at few
      exact ⟨⟨id, tenant, session, sequence, descriptor, deadline, enums,
        payload, submittedNs, batch, currentAttempt, ⟨few, fit⟩, identified⟩,
        new⟩
    · rintro ⟨⟨id, tenant, session, sequence, descriptor, deadline, enums,
        payload, submittedNs, batch, currentAttempt, ⟨few, fit⟩, identified⟩,
        new⟩
      have sized : r.attemptIds.length < 2 ^ 64 := by omega
      refine ⟨id, tenant, session, sequence, descriptor, trivial, trivial,
        trivial, trivial, deadline, trivial, trivial, enums, payload, trivial,
        submittedNs, batch, currentAttempt, trivial, ?_, ⟨sized, fit⟩,
        ⟨identified, new⟩, trivial⟩
      rwa [UInt64.toNat_ofNat_of_lt' sized]

/-- An attempt record the loader accepts when its identifier is new. -/
structure ReadableAttempt (a : PersistedAttempt) : Prop where
  id : Fits a.id
  batch : Fits a.batch
  result : a.result.Short
  started : InInt64 a.started
  completed : InInt64 a.completed
  outcome : enumOk (ByteEnum.toByte a.outcome) 6 = true
  identified : a.id ≠ .null

theorem decodes_readAttempt (before : List PersistedAttempt) :
    Decodes (readAttempt before) writeAttempt
      (fun a => ReadableAttempt a ∧ a.id ∉ before.map (·.id)) := by
  apply Continues.decodes
  · apply Continues.field PersistedAttempt.id (required_id _ _)
    intro id _
    apply Continues.field PersistedAttempt.number (required_u32 _)
    intro number _
    apply Continues.field (fun a : PersistedAttempt => a.state.toByte)
      (required_u8 _)
    intro raw _
    apply Continues.field PersistedAttempt.batch (required_id _ _)
    intro batch _
    apply Continues.field
      (fun a : PersistedAttempt => ByteEnum.toByte a.outcome) (required_u8 _)
    intro outcome _
    apply Continues.field PersistedAttempt.result (required_string _)
    intro result _
    apply Continues.field PersistedAttempt.started (required_i64 _)
    intro started _
    apply Continues.field PersistedAttempt.completed (required_i64 _)
    intro completed _
    apply Continues.convert PersistedAttempt.state
    · intro a known
      simp only [and_assoc] at known
      rw [← known.2.2.2.1]
      exact RequestState.ofByte?_toByte a.state
    intro state converted
    apply Continues.check fun a : PersistedAttempt =>
      enumOk (ByteEnum.toByte a.outcome) 6 = true
    · intro a known
      simp only [and_assoc] at known
      rw [known.2.2.2.2.2.1]
    intro _
    apply Continues.check fun a : PersistedAttempt =>
      a.id ≠ .null ∧ a.id ∉ before.map (·.id)
    · intro a known
      simp only [and_assoc] at known
      rw [identified_iff, known.2.1]
    intro _
    apply Continues.done
    intro a
    simp only [and_assoc, true_and]
    constructor
    · rintro ⟨rfl, rfl, -, rfl, rfl, rfl, rfl, rfl, rfl⟩
      simp only [ByteEnum.ofByte_toByte]
    · rintro rfl
      simp [ByteEnum.toByte_ofByte, RequestState.toByte_of_ofByte? converted]
  · exact fun _ => rfl
  · intro a
    constructor
    · rintro ⟨id, -, -, batch, -, result, started, completed, outcome,
        ⟨identified, new⟩, -⟩
      exact ⟨⟨id, batch, result, started, completed, outcome, identified⟩, new⟩
    · rintro ⟨⟨id, batch, result, started, completed, outcome, identified⟩, new⟩
      exact ⟨id, trivial, trivial, batch, trivial, result, started, completed,
        outcome, ⟨identified, new⟩, trivial⟩

theorem decodes_readMember (requests : List RequestId) :
    Decodes (readMember requests) ByteWriter.id
      (fun m => Fits m ∧ m ∈ requests) := by
  apply Continues.decodes
  · apply Continues.field (fun m : RequestId => m) (required_id _ _)
    intro m _
    apply Continues.check fun m : RequestId => m ∈ requests
    · rintro m ⟨-, rfl⟩
      rw [List.contains_eq_mem, decide_eq_true_iff]
    intro _
    apply Continues.done
    intro other
    rw [true_and]
  · exact fun _ => List.append_nil _
  · intro m
    rw [and_true]

/-- A batch record the loader accepts when its identifier is new. -/
structure ReadableBatch (requests : List RequestId) (b : PersistedBatch) :
    Prop where
  id : Fits b.id
  generation : Fits b.generation
  epoch : Fits b.epoch
  members : b.members.length ≤ kMaxRecords ∧
    ∀ m ∈ b.members, Fits m ∧ m ∈ requests
  formedNs : InInt64 b.formedNs
  sealedNs : InInt64 b.sealedNs
  dispatchedNs : InInt64 b.dispatchedNs
  completedNs : InInt64 b.completedNs
  worker : Fits b.worker
  boot : Fits b.boot
  parents : b.parents.length ≤ kMaxRecords ∧ ∀ p ∈ b.parents, Fits p
  children : b.children.length ≤ kMaxRecords ∧ ∀ c ∈ b.children, Fits c
  identified : b.id ≠ .null

/-- A batch record in the order the loader reads it: both lineage counts come
before both lineages. -/
def batchLayout (b : PersistedBatch) : List UInt8 := [
  ByteWriter.id b.id,
  ByteWriter.id b.generation,
  ByteWriter.id b.epoch,
  ByteWriter.u8 b.state.toByte,
  ByteWriter.digest b.key.digest,
  ByteWriter.size b.members.length,
  b.members.flatMap ByteWriter.id,
  ByteWriter.u32 b.used.count,
  ByteWriter.u64 b.used.inputTokens,
  ByteWriter.u64 b.used.outputTokens,
  ByteWriter.u64 b.used.work,
  ByteWriter.u64 b.used.memory,
  ByteWriter.i64 b.formedNs,
  ByteWriter.i64 b.sealedNs,
  ByteWriter.i64 b.dispatchedNs,
  ByteWriter.i64 b.completedNs,
  ByteWriter.u8 b.sealReason.toByte,
  ByteWriter.id b.worker,
  ByteWriter.id b.boot,
  ByteWriter.size b.parents.length,
  ByteWriter.size b.children.length,
  b.parents.flatMap ByteWriter.id,
  b.children.flatMap ByteWriter.id].flatten

theorem decodes_readBatch (requests : List RequestId)
    (before : List PersistedBatch) :
    Decodes (readBatch requests before) batchLayout
      (fun b => ReadableBatch requests b ∧ b.id ∉ before.map (·.id)) := by
  apply Continues.decodes
  · apply Continues.field PersistedBatch.id (required_id _ _)
    intro id _
    apply Continues.field PersistedBatch.generation (required_id _ _)
    intro generation _
    apply Continues.field PersistedBatch.epoch (required_id _ _)
    intro epoch _
    apply Continues.field (fun b : PersistedBatch => b.state.toByte)
      (required_u8 _)
    intro raw _
    apply Continues.field (fun b : PersistedBatch => b.key.digest)
      (decodes_required decodes_digest _)
    intro keyd _
    apply Continues.convert PersistedBatch.state
    · rintro b ⟨⟨_, rfl⟩, _⟩
      exact BatchState.ofByte?_toByte b.state
    intro state converted
    apply Continues.field
      (fun b : PersistedBatch => UInt64.ofNat b.members.length)
      (required_u64 _)
    intro nMembers _
    apply Continues.check fun b : PersistedBatch =>
      (UInt64.ofNat b.members.length).toNat ≤ kMaxRecords
    · rintro b ⟨_, rfl⟩
      rw [decide_eq_true_iff]
    intro _
    apply Continues.fieldGiven PersistedBatch.members
      (fun b : PersistedBatch => b.members.length < 2 ^ 64 ∧
        ∀ m ∈ b.members, Fits m ∧ m ∈ requests)
      (Decodes.many (decodes_readMember requests) nMembers.toNat)
    · rintro b ⟨_, rfl⟩
      exact and_congr_left' (eq_toNat_ofNat64_iff _)
    intro members counted
    apply Continues.field (fun b : PersistedBatch => b.used.count)
      (required_u32 _)
    intro mr _
    apply Continues.field (fun b : PersistedBatch => b.used.inputTokens)
      (required_u64 _)
    intro mi _
    apply Continues.field (fun b : PersistedBatch => b.used.outputTokens)
      (required_u64 _)
    intro mo _
    apply Continues.field (fun b : PersistedBatch => b.used.work)
      (required_u64 _)
    intro mw _
    apply Continues.field (fun b : PersistedBatch => b.used.memory)
      (required_u64 _)
    intro mm _
    apply Continues.field PersistedBatch.formedNs (required_i64 _)
    intro formed _
    apply Continues.field PersistedBatch.sealedNs (required_i64 _)
    intro sealedAt _
    apply Continues.field PersistedBatch.dispatchedNs (required_i64 _)
    intro dispatched _
    apply Continues.field PersistedBatch.completedNs (required_i64 _)
    intro completed _
    apply Continues.field (fun b : PersistedBatch => b.sealReason.toByte)
      (required_u8 _)
    intro rawReason _
    apply Continues.convert PersistedBatch.sealReason
    · rintro b ⟨_, rfl⟩
      exact SealReason.ofByte?_toByte b.sealReason
    intro reason convertedReason
    apply Continues.field PersistedBatch.worker (required_id _ _)
    intro worker _
    apply Continues.field PersistedBatch.boot (required_id _ _)
    intro boot _
    apply Continues.field
      (fun b : PersistedBatch => UInt64.ofNat b.parents.length)
      (required_u64 _)
    intro np _
    apply Continues.field
      (fun b : PersistedBatch => UInt64.ofNat b.children.length)
      (required_u64 _)
    intro nc _
    apply Continues.check fun b : PersistedBatch =>
      (UInt64.ofNat b.parents.length).toNat ≤ kMaxRecords ∧
        (UInt64.ofNat b.children.length).toNat ≤ kMaxRecords
    · rintro b ⟨⟨_, rfl⟩, rfl⟩
      rw [Bool.and_eq_true, decide_eq_true_iff, decide_eq_true_iff]
    intro _
    apply Continues.fieldGiven PersistedBatch.parents
      (fun b : PersistedBatch => b.parents.length < 2 ^ 64 ∧
        ∀ p ∈ b.parents, Fits p)
      (Decodes.many (required_id _ _) np.toNat)
    · rintro b ⟨⟨_, rfl⟩, _⟩
      exact and_congr_left' (eq_toNat_ofNat64_iff _)
    intro parents countedParents
    apply Continues.fieldGiven PersistedBatch.children
      (fun b : PersistedBatch => b.children.length < 2 ^ 64 ∧
        ∀ c ∈ b.children, Fits c)
      (Decodes.many (required_id _ _) nc.toNat)
    · rintro b ⟨⟨_, rfl⟩, _⟩
      exact and_congr_left' (eq_toNat_ofNat64_iff _)
    intro children countedChildren
    apply Continues.check fun b : PersistedBatch =>
      b.id ≠ .null ∧ b.id ∉ before.map (·.id)
    · intro b known
      simp only [and_assoc] at known
      rw [identified_iff, known.2.1]
    intro _
    apply Continues.done
    intro b
    simp only [and_assoc, true_and]
    constructor
    · rintro ⟨rfl, rfl, rfl, -, rfl, rfl, -, rfl, rfl, rfl, rfl, rfl, rfl, rfl,
        rfl, rfl, rfl, -, rfl, rfl, rfl, -, -, rfl, rfl⟩
      rfl
    · rintro rfl
      simp [BatchState.toByte_of_ofByte? converted,
        SealReason.toByte_of_ofByte? convertedReason, counted.1,
        countedParents.1, countedChildren.1]
  · exact fun _ => rfl
  · intro b
    constructor
    · rintro ⟨id, generation, epoch, -, -, -, few, ⟨sized, members⟩, -, -, -, -,
        -, formedNs, sealedNs, dispatchedNs, completedNs, -, worker, boot, -, -,
        ⟨fewParents, fewChildren⟩, ⟨sizedParents, parents⟩,
        ⟨sizedChildren, children⟩, ⟨identified, new⟩, -⟩
      rw [UInt64.toNat_ofNat_of_lt' sized] at few
      rw [UInt64.toNat_ofNat_of_lt' sizedParents] at fewParents
      rw [UInt64.toNat_ofNat_of_lt' sizedChildren] at fewChildren
      exact ⟨⟨id, generation, epoch, ⟨few, members⟩, formedNs, sealedNs,
        dispatchedNs, completedNs, worker, boot, ⟨fewParents, parents⟩,
        ⟨fewChildren, children⟩, identified⟩, new⟩
    · rintro ⟨⟨id, generation, epoch, ⟨few, members⟩, formedNs, sealedNs,
        dispatchedNs, completedNs, worker, boot, ⟨fewParents, parents⟩,
        ⟨fewChildren, children⟩, identified⟩, new⟩
      have sized := few.trans_lt kMaxRecords_lt
      have sizedParents := fewParents.trans_lt kMaxRecords_lt
      have sizedChildren := fewChildren.trans_lt kMaxRecords_lt
      refine ⟨id, generation, epoch, trivial, trivial, trivial, ?_,
        ⟨sized, members⟩, trivial, trivial, trivial, trivial, trivial,
        formedNs, sealedNs, dispatchedNs, completedNs, trivial, worker, boot,
        trivial, trivial, ⟨?_, ?_⟩, ⟨sizedParents, parents⟩,
        ⟨sizedChildren, children⟩, ⟨identified, new⟩, trivial⟩
      · rwa [UInt64.toNat_ofNat_of_lt' sized]
      · rwa [UInt64.toNat_ofNat_of_lt' sizedParents]
      · rwa [UInt64.toNat_ofNat_of_lt' sizedChildren]

theorem decodes_readFairness :
    Decodes readFairness writeFairness (fun record => record.1.Short) := by
  apply Continues.decodes
  · apply Continues.field (fun record : ByteString × UInt64 => record.1)
      (required_string _)
    intro k _
    apply Continues.field (fun record : ByteString × UInt64 => record.2)
      (required_u64 _)
    intro v _
    apply Continues.done
    intro record
    rw [true_and, Prod.ext_iff]
  · intro record
    rw [List.append_nil]
    rfl
  · intro record
    simp

/-- Records that are each acceptable and new are acceptable records without a
repeated identifier. -/
theorem each_new_iff {P : α → Prop} (key : α → κ) (values : List α) :
    (∀ first value second, values = first ++ value :: second →
      P value ∧ key value ∉ first.map key) ↔
        (∀ value ∈ values, P value) ∧ (values.map key).Nodup := by
  constructor
  · intro each
    refine ⟨?_, ?_⟩
    · intro value member
      obtain ⟨first, second, split⟩ := List.append_of_mem member
      exact (each first value second split).1
    · induction values using List.reverseRecOn with
      | nil => exact List.nodup_nil
      | append_singleton values last induction =>
          have new := (each values last [] rfl).2
          have earlier := induction fun first value second split =>
            each first value (second ++ [last]) (by rw [split]; simp)
          rw [List.map_append, List.nodup_append]
          refine ⟨earlier, List.nodup_singleton _, ?_⟩
          rintro k before k' after rfl
          rw [List.map_singleton, List.mem_singleton] at after
          exact new (after ▸ before)
  · rintro ⟨all, distinct⟩ first value second rfl
    refine ⟨all value (by simp), ?_⟩
    intro member
    rw [List.map_append, List.nodup_append] at distinct
    exact distinct.2.2 (key value) member (key value) (by simp) rfl

/-- The files whose records the loader accepts one by one. -/
structure ReadableFile (file : StateFile) : Prop where
  epoch : Fits file.epoch
  fewRequests : file.requests.length ≤ kMaxRecords
  fewAttempts : file.attempts.length ≤ kMaxRecords
  fewBatches : file.batches.length ≤ kMaxRecords
  requests : ∀ r ∈ file.requests, ReadableRequest r
  requestIds : (file.requests.map (·.id)).Nodup
  attempts : ∀ a ∈ file.attempts, ReadableAttempt a
  attemptIds : (file.attempts.map (·.id)).Nodup
  batches : ∀ b ∈ file.batches,
    ReadableBatch (file.requests.map (·.id)) b
  batchIds : (file.batches.map (·.id)).Nodup
  fairness : file.fairness.length ≤ kMaxRecords ∧
    ∀ record ∈ file.fairness, record.1.Short

def fileLayout (file : StateFile) : List UInt8 := [
  ByteWriter.u32 kMagic,
  ByteWriter.u32 kFormatVersion,
  ByteWriter.id file.epoch,
  ByteWriter.u64 file.nextRequest,
  ByteWriter.u64 file.nextBatch,
  ByteWriter.u64 file.nextAttempt,
  ByteWriter.u64 file.nextGeneration,
  ByteWriter.size file.requests.length,
  ByteWriter.size file.attempts.length,
  ByteWriter.size file.batches.length,
  file.requests.flatMap writeRequest,
  file.attempts.flatMap writeAttempt,
  file.batches.flatMap batchLayout,
  ByteWriter.size file.fairness.length,
  file.fairness.flatMap writeFairness].flatten

theorem decodes_readFile : Decodes readFile fileLayout ReadableFile := by
  apply Continues.decodes
  · apply Continues.field (fun _ : StateFile => kMagic) (required_u32 _)
    intro magic _
    apply Continues.field (fun _ : StateFile => kFormatVersion)
      (required_u32 _)
    intro ver _
    apply Continues.check fun _ => True
    · rintro _ ⟨⟨_, rfl⟩, _⟩
      simp
    intro isMagic
    apply Continues.check fun _ => True
    · rintro _ ⟨_, rfl⟩
      simp
    intro isVersion
    apply Continues.field StateFile.epoch (required_id _ _)
    intro epoch _
    apply Continues.field StateFile.nextRequest (required_u64 _)
    intro nr _
    apply Continues.field StateFile.nextBatch (required_u64 _)
    intro nb _
    apply Continues.field StateFile.nextAttempt (required_u64 _)
    intro na _
    apply Continues.field StateFile.nextGeneration (required_u64 _)
    intro ng _
    apply Continues.field
      (fun file : StateFile => UInt64.ofNat file.requests.length)
      (required_u64 _)
    intro nReqc _
    apply Continues.field
      (fun file : StateFile => UInt64.ofNat file.attempts.length)
      (required_u64 _)
    intro nAttc _
    apply Continues.field
      (fun file : StateFile => UInt64.ofNat file.batches.length)
      (required_u64 _)
    intro nBatc _
    apply Continues.check fun file : StateFile =>
      (UInt64.ofNat file.requests.length).toNat ≤ kMaxRecords ∧
        (UInt64.ofNat file.batches.length).toNat ≤ kMaxRecords ∧
        (UInt64.ofNat file.attempts.length).toNat ≤ kMaxRecords
    · rintro file ⟨⟨⟨_, rfl⟩, rfl⟩, rfl⟩
      simp only [Bool.and_eq_true, decide_eq_true_iff, and_assoc]
    intro _
    apply Continues.fieldGiven StateFile.requests
      (fun file : StateFile => file.requests.length < 2 ^ 64 ∧
        (∀ r ∈ file.requests, ReadableRequest r) ∧
        (file.requests.map (·.id)).Nodup)
      (Decodes.manyAfter decodes_readRequest nReqc.toNat)
    · rintro file ⟨⟨⟨_, rfl⟩, _⟩, _⟩
      exact and_congr (eq_toNat_ofNat64_iff _) (each_new_iff _ _)
    intro requests countedRequests
    apply Continues.fieldGiven StateFile.attempts
      (fun file : StateFile => file.attempts.length < 2 ^ 64 ∧
        (∀ a ∈ file.attempts, ReadableAttempt a) ∧
        (file.attempts.map (·.id)).Nodup)
      (Decodes.manyAfter decodes_readAttempt nAttc.toNat)
    · rintro file ⟨⟨⟨_, rfl⟩, _⟩, _⟩
      exact and_congr (eq_toNat_ofNat64_iff _) (each_new_iff _ _)
    intro attempts countedAttempts
    apply Continues.fieldGiven StateFile.batches
      (fun file : StateFile => file.batches.length < 2 ^ 64 ∧
        (∀ b ∈ file.batches, ReadableBatch (file.requests.map (·.id)) b) ∧
        (file.batches.map (·.id)).Nodup)
      (Decodes.manyAfter (decodes_readBatch _) nBatc.toNat)
    · rintro file ⟨⟨⟨_, rfl⟩, rfl⟩, _⟩
      exact and_congr (eq_toNat_ofNat64_iff _) (each_new_iff _ _)
    intro batches countedBatches
    apply Continues.field
      (fun file : StateFile => UInt64.ofNat file.fairness.length)
      (required_u64 _)
    intro nFair _
    apply Continues.check fun file : StateFile =>
      (UInt64.ofNat file.fairness.length).toNat ≤ kMaxRecords
    · rintro file ⟨_, rfl⟩
      rw [decide_eq_true_iff]
    intro _
    apply Continues.fieldGiven StateFile.fairness
      (fun file : StateFile => file.fairness.length < 2 ^ 64 ∧
        ∀ record ∈ file.fairness, record.1.Short)
      (Decodes.many decodes_readFairness nFair.toNat)
    · rintro file ⟨_, rfl⟩
      exact and_congr_left' (eq_toNat_ofNat64_iff _)
    intro fairness countedFairness
    apply Continues.done
    intro file
    simp only [and_assoc, true_and]
    constructor
    · rintro ⟨-, -, rfl, rfl, rfl, rfl, rfl, -, -, -, rfl, rfl, rfl, -, rfl⟩
      rfl
    · rintro rfl
      simp [eq_of_beq isMagic, eq_of_beq isVersion, countedRequests.1,
        countedAttempts.1, countedBatches.1, countedFairness.1]
  · exact fun _ => rfl
  · intro file
    constructor
    · rintro ⟨-, -, -, -, epoch, -, -, -, -, -, -, -,
        ⟨fewRequests, fewBatches, fewAttempts⟩,
        ⟨sizedRequests, requests, requestIds⟩,
        ⟨sizedAttempts, attempts, attemptIds⟩,
        ⟨sizedBatches, batches, batchIds⟩, -, few, ⟨sized, fairness⟩, -⟩
      rw [UInt64.toNat_ofNat_of_lt' sizedRequests] at fewRequests
      rw [UInt64.toNat_ofNat_of_lt' sizedAttempts] at fewAttempts
      rw [UInt64.toNat_ofNat_of_lt' sizedBatches] at fewBatches
      rw [UInt64.toNat_ofNat_of_lt' sized] at few
      exact ⟨epoch, fewRequests, fewAttempts, fewBatches, requests, requestIds,
        attempts, attemptIds, batches, batchIds, few, fairness⟩
    · rintro ⟨epoch, fewRequests, fewAttempts, fewBatches, requests, requestIds,
        attempts, attemptIds, batches, batchIds, few, fairness⟩
      have sizedRequests := fewRequests.trans_lt kMaxRecords_lt
      have sizedAttempts := fewAttempts.trans_lt kMaxRecords_lt
      have sizedBatches := fewBatches.trans_lt kMaxRecords_lt
      have sized := few.trans_lt kMaxRecords_lt
      refine ⟨trivial, trivial, trivial, trivial, epoch, trivial, trivial,
        trivial, trivial, trivial, trivial, trivial, ⟨?_, ?_, ?_⟩,
        ⟨sizedRequests, requests, requestIds⟩,
        ⟨sizedAttempts, attempts, attemptIds⟩,
        ⟨sizedBatches, batches, batchIds⟩, trivial, ?_, ⟨sized, fairness⟩,
        trivial⟩
      · rwa [UInt64.toNat_ofNat_of_lt' sizedRequests]
      · rwa [UInt64.toNat_ofNat_of_lt' sizedBatches]
      · rwa [UInt64.toNat_ofNat_of_lt' sizedAttempts]
      · rwa [UInt64.toNat_ofNat_of_lt' sized]

end PersistenceStore

end BatchFabric
