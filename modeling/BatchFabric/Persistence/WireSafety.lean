import BatchFabric.Persistence.Recovery
import BatchFabric.Persistence.RoundTrip
import BatchFabric.Persistence.WireSubmit

/-! Whether a request taken from the wire can be saved and loaded again. -/

namespace BatchFabric

open Decoding PersistenceStore

namespace Protocol

/-- The enumerations of a request are in the loader's ranges. -/
def loaderTakesEnums (m : RequestMetadata) : Bool :=
  enumOk (ByteEnum.toByte m.descriptor.phase) 1 &&
    enumOkUnknown (ByteEnum.toByte m.descriptor.dtype) 4 &&
    enumOkUnknown (ByteEnum.toByte m.descriptor.backend) 4 &&
    enumOkUnknown (ByteEnum.toByte m.descriptor.executionMode) 3 &&
    enumOkUnknown (ByteEnum.toByte m.descriptor.device.backend) 4 &&
    (enumOk (ByteEnum.toByte m.latency) 4 &&
      enumOk (ByteEnum.toByte m.priority) 3)

/-- A submission names a model and a revision. -/
def identified (m : RequestMetadata) : Bool :=
  !(m.descriptor.model.isEmpty || m.descriptor.revision.isEmpty)

/-- The runtime built after one recorded submission. -/
def submittedRuntime (m : RequestMetadata) (now : TimePoint)
    (state : RequestState) (outcome : CompletionStatus) :
    PersistedRuntime where
  epoch := { value := 1 }
  nextRequest := 2
  nextBatch := 1
  nextAttempt := 2
  nextGeneration := 1
  requests := [{
    id := { value := 1 }
    tenant := m.tenant
    session := m.session
    sequence := m.sequence
    descriptor := m.descriptor
    tokens := m.tokens
    work := m.work
    memoryBytes := m.memoryBytes
    deadline := m.deadline
    latency := m.latency
    priority := m.priority
    payload := m.payload
    state := state
    submittedNs := now
    currentAttempt := { value := 1 }
    attemptIds := [{ value := 1 }] }]
  attempts := [{
    id := { value := 1 }
    number := 1
    state := state
    outcome := outcome }]

/-- A time as it comes back from its eight bytes. -/
def storedTime (now : TimePoint) : TimePoint :=
  castToI64 (castToU64 now)

theorem doSubmit_unidentified {m : RequestMetadata}
    (unidentified : identified m = false) (policy : BatchPolicy)
    (now : TimePoint) :
    ∃ stats, (Impl.fresh.doSubmit policy m now).2 =
      { Impl.fresh with stats := stats } := by
  have missing : (m.descriptor.model.isEmpty ||
      m.descriptor.revision.isEmpty) = true := by
    unfold identified at unidentified
    rwa [Bool.not_eq_eq_eq_not, Bool.not_false] at unidentified
  unfold Impl.doSubmit
  dsimp only
  rw [if_pos missing]
  exact ⟨_, rfl⟩

theorem doSubmit_identified {m : RequestMetadata}
    (named : identified m = true) (policy : BatchPolicy)
    (now : TimePoint) :
    ∃ state outcome inWaiting, enumOk (ByteEnum.toByte outcome) 6 = true ∧
      (Impl.fresh.doSubmit policy m now).2.requests =
        (Impl.fresh.createRequest m now state state outcome
          inWaiting).requests ∧
      (Impl.fresh.doSubmit policy m now).2.buildPersisted =
        (Impl.fresh.createRequest m now state state outcome
          inWaiting).buildPersisted := by
  have present : ¬(m.descriptor.model.isEmpty ||
      m.descriptor.revision.isEmpty) = true := by
    simpa [identified] using named
  unfold Impl.doSubmit
  dsimp only
  rw [if_neg present]
  split
  · exact ⟨.expired, .expired, false, rfl, rfl, rfl⟩
  · split
    · exact ⟨.rejected, .nonRetryableFailure, false, rfl, rfl, rfl⟩
    · split
      · exact ⟨.waiting, .success, false, rfl, rfl, rfl⟩
      · exact ⟨.eligible, .success, true, rfl, rfl, rfl⟩

theorem buildPersisted_createRequest (m : RequestMetadata) (now : TimePoint)
    (state : RequestState) (outcome : CompletionStatus) (inWaiting : Bool) :
    (Impl.fresh.createRequest m now state state outcome
      inWaiting).buildPersisted = submittedRuntime m now state outcome := by
  rfl

/-- The file the runtime is written as. Only the time is read back in the
range of its bytes. -/
def submittedFile (m : RequestMetadata) (now : TimePoint)
    (state : RequestState) (outcome : CompletionStatus) : StateFile :=
  fileOf (submittedRuntime m (storedTime now) state outcome)

theorem writeBody_submitted (m : RequestMetadata) (now : TimePoint)
    (state : RequestState) (outcome : CompletionStatus) :
    writeBody (submittedRuntime m now state outcome) =
      fileLayout (submittedFile m now state outcome) := by
  have time : ByteWriter.i64 now = ByteWriter.i64 (storedTime now) := by
    unfold ByteWriter.i64 storedTime
    rw [(ByteReader.castToU64_castToI64 _).2]
  have request : (submittedRuntime m now state outcome).requests.flatMap
      writeRequest = (submittedFile m now state outcome).requests.flatMap
        writeRequest := by
    show [_].flatMap writeRequest = [_].flatMap writeRequest
    rw [List.flatMap_singleton, List.flatMap_singleton]
    unfold writeRequest
    rw [time]
  unfold writeBody fileLayout
  rw [request]
  rfl

theorem length_writeBody_submitted (m : RequestMetadata) (now : TimePoint)
    (state : RequestState) (outcome : CompletionStatus) :
    (save (submittedRuntime m now state outcome)).length =
      (writeMeta m).length + 207 := by
  have word (v : UInt32) : (ByteWriter.u32 v).length = 4 := rfl
  have long (v : UInt64) : (ByteWriter.u64 v).length = 8 := rfl
  have digest (d : Digest) : (ByteWriter.digest d).length = 32 := by
    simp [ByteWriter.digest]
  have noFairness : (submittedRuntime m now state
      outcome).fairnessServed.toList = [] := rfl
  unfold save writeBody
  rw [noFairness]
  simp only [submittedRuntime, writeRequest, writeAttempt, writeMeta,
    List.flatten_cons, List.flatten_nil, List.flatMap_cons, List.flatMap_nil,
    List.length_append, List.length_nil, ByteWriter.id, ByteWriter.i64,
    ByteWriter.size, ByteWriter.string, ByteWriter.u8, List.length_singleton,
    word, long, digest]
  omega

theorem readable_submitted {m : RequestMetadata} (wire : WireMetadata m)
    (taken : loaderTakesEnums m = true) (now : TimePoint)
    (state : RequestState) {outcome : CompletionStatus}
    (declared : enumOk (ByteEnum.toByte outcome) 6 = true) :
    ReadableFile (submittedFile m now state outcome) := by
  obtain ⟨enums, classes⟩ := (Bool.and_eq_true _ _).mp taken
  have time := (ByteReader.castToU64_castToI64 (castToU64 now)).1
  have one (kind : IdKind) : Fits ({ value := 1 } : Identifier kind) :=
    (by decide : 1 < 2 ^ 64)
  refine {
    epoch := one _
    fewRequests := (by decide : 1 ≤ kMaxRecords)
    fewAttempts := (by decide : 1 ≤ kMaxRecords)
    fewBatches := Nat.zero_le _
    requests := ?_
    requestIds := List.nodup_singleton _
    attempts := ?_
    attemptIds := List.nodup_singleton _
    batches := ?_
    batchIds := List.nodup_nil
    fairness := ?_ }
  · intro r member
    rw [List.mem_singleton.mp member]
    have descriptor : ReadableDescriptor m.descriptor := {
      wire.descriptor with enums := enums }
    exact {
      id := one _
      tenant := wire.tenant
      session := wire.session
      sequence := wire.sequence
      descriptor := descriptor
      deadline := wire.deadline
      enums := classes
      payload := wire.payload
      submittedNs := time
      batch := fits_null
      currentAttempt := one _
      attemptIds := ⟨(by decide : 1 ≤ 1024), by
        intro a listed
        rw [List.mem_singleton.mp listed]
        exact one _⟩
      identified := (by decide : ({ value := 1 } : RequestId) ≠ .null) }
  · intro a member
    rw [List.mem_singleton.mp member]
    exact {
      id := one _
      batch := fits_null
      result := Nat.zero_le _
      started := ByteReader.inInt64_zero
      completed := ByteReader.inInt64_zero
      outcome := declared
      identified := (by decide : ({ value := 1 } : AttemptId) ≠ .null) }
  · exact fun b member => absurd member List.not_mem_nil
  · have none : (submittedFile m now state outcome).fairness = [] := rfl
    rw [none]
    exact ⟨Nat.zero_le _, fun _ member => absurd member List.not_mem_nil⟩

theorem requests_of_layout {left right : StateFile}
    (few : left.requests.length < 2 ^ 64)
    (few' : right.requests.length < 2 ^ 64)
    (same : fileLayout left = fileLayout right) :
    left.requests.length = right.requests.length ∧
      ∃ restLeft restRight,
        left.requests.flatMap writeRequest ++ restLeft =
          right.requests.flatMap writeRequest ++ restRight := by
  unfold fileLayout ByteWriter.id ByteWriter.size at same
  simp only [List.flatten_cons] at same
  obtain ⟨-, same⟩ := ByteWriter.delimits_u32 _ _ _ _ same
  obtain ⟨-, same⟩ := ByteWriter.delimits_u32 _ _ _ _ same
  obtain ⟨-, same⟩ := ByteWriter.delimits_u64 _ _ _ _ same
  obtain ⟨-, same⟩ := ByteWriter.delimits_u64 _ _ _ _ same
  obtain ⟨-, same⟩ := ByteWriter.delimits_u64 _ _ _ _ same
  obtain ⟨-, same⟩ := ByteWriter.delimits_u64 _ _ _ _ same
  obtain ⟨-, same⟩ := ByteWriter.delimits_u64 _ _ _ _ same
  obtain ⟨counts, same⟩ := ByteWriter.delimits_u64 _ _ _ _ same
  obtain ⟨-, same⟩ := ByteWriter.delimits_u64 _ _ _ _ same
  obtain ⟨-, same⟩ := ByteWriter.delimits_u64 _ _ _ _ same
  have numbers := congrArg UInt64.toNat counts
  rw [UInt64.toNat_ofNat_of_lt' few, UInt64.toNat_ofNat_of_lt' few'] at numbers
  exact ⟨numbers, _, _, same⟩

/-- The enumerations can be told from the bytes of a request record. -/
theorem enums_of_record {left right : PersistedRequest}
    (wireLeft : WireDescriptor left.descriptor)
    (wireRight : WireDescriptor right.descriptor)
    {restLeft restRight : List UInt8}
    (same : writeRequest left ++ restLeft = writeRequest right ++ restRight) :
    left.descriptor = right.descriptor ∧
      ByteEnum.toByte left.latency = ByteEnum.toByte right.latency ∧
      ByteEnum.toByte left.priority = ByteEnum.toByte right.priority := by
  unfold writeRequest ByteWriter.id ByteWriter.i64 at same
  simp only [List.flatten_cons, List.append_assoc] at same
  obtain ⟨-, same⟩ := ByteWriter.delimits_u64 _ _ _ _ same
  obtain ⟨-, same⟩ := ByteWriter.delimits_u64 _ _ _ _ same
  obtain ⟨-, same⟩ := ByteWriter.delimits_u64 _ _ _ _ same
  obtain ⟨-, same⟩ := ByteWriter.delimits_u64 _ _ _ _ same
  obtain ⟨descriptor, same⟩ :=
    (decodes_readDescriptorChecked _).delimits wireLeft wireRight same
  obtain ⟨-, same⟩ := ByteWriter.delimits_u64 _ _ _ _ same
  obtain ⟨-, same⟩ := ByteWriter.delimits_u64 _ _ _ _ same
  obtain ⟨-, same⟩ := ByteWriter.delimits_u64 _ _ _ _ same
  obtain ⟨-, same⟩ := ByteWriter.delimits_u64 _ _ _ _ same
  obtain ⟨-, same⟩ := ByteWriter.delimits_u64 _ _ _ _ same
  obtain ⟨latency, same⟩ := ByteWriter.delimits_u8 _ _ _ _ same
  obtain ⟨priority, -⟩ := ByteWriter.delimits_u8 _ _ _ _ same
  exact ⟨descriptor, latency, priority⟩

theorem loaderTakesEnums_of_layout {m : RequestMetadata}
    (wire : WireMetadata m) {now : TimePoint} {state : RequestState}
    {outcome : CompletionStatus} {file : StateFile}
    (readable : ReadableFile file)
    (same : fileLayout (submittedFile m now state outcome) =
      fileLayout file) : loaderTakesEnums m = true := by
  have single : (submittedFile m now state outcome).requests.length < 2 ^ 64 :=
    (by decide : 1 < 2 ^ 64)
  obtain ⟨one, restLeft, restRight, records⟩ := requests_of_layout single
    (readable.fewRequests.trans_lt kMaxRecords_lt) same
  obtain ⟨r, only⟩ := List.length_eq_one_iff.mp one.symm
  have read := readable.requests r (by rw [only]; exact List.mem_singleton_self r)
  have wireRead : WireDescriptor r.descriptor := {
    read.descriptor with enums := rfl }
  rw [only, List.flatMap_singleton] at records
  have written : ∃ written : PersistedRequest,
      written.descriptor = m.descriptor ∧ written.latency = m.latency ∧
        written.priority = m.priority ∧
        (submittedFile m now state outcome).requests.flatMap writeRequest =
          writeRequest written :=
    ⟨_, rfl, rfl, rfl, List.flatMap_singleton _ _⟩
  obtain ⟨written, isDescriptor, isLatency, isPriority, record⟩ := written
  have wireWritten : WireDescriptor written.descriptor :=
    isDescriptor ▸ wire.descriptor
  rw [record] at records
  obtain ⟨descriptor, latency, priority⟩ :=
    enums_of_record wireWritten wireRead records
  unfold loaderTakesEnums
  rw [← isDescriptor, ← isLatency, ← isPriority, descriptor, latency, priority]
  exact (Bool.and_eq_true _ _).mpr ⟨read.descriptor.enums, read.enums⟩

/-- The fabric after the submission, as it is saved. -/
def savedSubmission (policy : BatchPolicy) (m : RequestMetadata)
    (now : TimePoint) : List UInt8 :=
  save (Impl.fresh.doSubmit policy m now).2.buildPersisted

/-- The file loads, and every request of the fabric comes back with what was
submitted. -/
def Survives (policy : BatchPolicy) (m : RequestMetadata)
    (now : TimePoint) : Prop :=
  ∃ rt, load (savedSubmission policy m now) = .ok rt ∧
    ∀ id r, (Impl.fresh.doSubmit policy m now).2.requests[id]? = some r →
      ∃ pr ∈ rt.requests, pr.id = id ∧ pr.descriptor = m.descriptor ∧
        pr.latency = m.latency ∧ pr.priority = m.priority

theorem load_eq_ok_iff (bytes : List UInt8) (rt : PersistedRuntime) :
    load bytes = .ok rt ↔
      bytes.length ≤ kMaxRecords * 8 + 4096 ∧ parse bytes = .ok rt := by
  unfold load
  split
  · next large => simp [Nat.not_le.mpr large]
  · next small => simp [Nat.not_lt.mp small]

theorem withinLimits_empty : WithinLimits { epoch := { value := 1 } } where
  epoch := by decide
  nextRequest := by decide
  nextBatch := by decide
  nextAttempt := by decide
  nextGeneration := by decide
  fewRequests := Nat.zero_le _
  fewAttempts := Nat.zero_le _
  fewBatches := Nat.zero_le _
  requests := by simp
  requestIds := List.nodup_nil
  attempts := by simp
  attemptIds := List.nodup_nil
  batches := by simp
  batchIds := List.nodup_nil
  activeOnce := by simp [ActiveOnce]
  fairness := by
    have none : (∅ : Map ByteString UInt64).toList = [] := rfl
    rw [none]
    decide

theorem survives_of_unidentified {m : RequestMetadata}
    (unidentified : identified m = false) (policy : BatchPolicy)
    (now : TimePoint) : Survives policy m now := by
  obtain ⟨stats, after⟩ := doSubmit_unidentified unidentified policy now
  have runtime : (Impl.fresh.doSubmit policy m now).2.buildPersisted =
      { epoch := { value := 1 } } := by
    rw [after]
    rfl
  refine ⟨{ epoch := { value := 1 } }, ?_, ?_⟩
  · unfold savedSubmission
    rw [runtime, load_eq_ok_iff, parse_save_of_layouts withinLimits_empty]
    refine ⟨?_, fun b member => absurd member List.not_mem_nil⟩
    have body : (writeBody { epoch := { value := 1 } }).length = 80 := rfl
    unfold save
    rw [List.length_append, body, ByteWriter.digest, Vector.length_toList]
    decide
  · intro id r found
    rw [after] at found
    cases found

theorem survives_iff_of_identified {m : RequestMetadata}
    (wire : WireMetadata m) (named : identified m = true)
    (policy : BatchPolicy) (now : TimePoint) :
    Survives policy m now ↔ loaderTakesEnums m = true ∧
      (writeMeta m).length + 207 ≤ kMaxRecords * 8 + 4096 := by
  obtain ⟨state, outcome, inWaiting, declared, requests, runtime⟩ :=
    doSubmit_identified named policy now
  rw [buildPersisted_createRequest] at runtime
  unfold Survives savedSubmission
  rw [runtime, requests]
  constructor
  · rintro ⟨rt, loaded, _⟩
    obtain ⟨small, parsed⟩ := (load_eq_ok_iff _ _).mp loaded
    rw [length_writeBody_submitted] at small
    obtain ⟨file, readable, _, _, bytes⟩ := (parse_iff _ _).mp parsed
    have layout := checksum_injective bytes
    rw [writeBody_submitted] at layout
    exact ⟨loaderTakesEnums_of_layout wire readable layout, small⟩
  · rintro ⟨taken, small⟩
    refine ⟨(submittedFile m now state outcome).runtime, ?_, ?_⟩
    · rw [load_eq_ok_iff, length_writeBody_submitted, parse_iff]
      refine ⟨small, submittedFile m now state outcome,
        readable_submitted wire taken now state declared, ?_, rfl, ?_⟩
      · exact fun b member => absurd member List.not_mem_nil
      · unfold save
        rw [writeBody_submitted]
    · intro id r found
      have id1 : id = { value := 1 } := by
        by_contra other
        have absent : (Impl.fresh.createRequest m now state state outcome
            inWaiting).requests[id]? = none :=
          (OrderedMap.getElem?_insert _ _ _ _).trans
            (if_neg (Ne.symm other))
        rw [absent] at found
        cases found
      exact ⟨_, List.mem_singleton_self _, id1.symm, rfl, rfl, rfl⟩

/-- What a byte string submits comes back from the state file exactly where
the submission is refused for want of a model or revision, or its
enumerations are in the loader's ranges and the file is within its limit. -/
theorem survives_iff (policy : BatchPolicy) (now : TimePoint)
    (bytes : List UInt8) (m : RequestMetadata)
    (accepted : decodeSubmit bytes = some m) :
    Survives policy m now ↔ identified m = false ∨
      loaderTakesEnums m = true ∧
        bytes.length + 207 ≤ kMaxRecords * 8 + 4096 := by
  obtain ⟨wire, rfl⟩ := (decodeSubmit_eq_some_iff bytes m).mp accepted
  cases named : identified m with
  | false =>
      simp only [true_or, iff_true]
      exact survives_of_unidentified named policy now
  | true =>
      rw [survives_iff_of_identified wire named]
      simp

theorem survives_minimalRequest :
    Survives {} minimalRequest 0 ↔ identified minimalRequest = false ∨
      loaderTakesEnums minimalRequest = true ∧
        (writeMeta minimalRequest).length + 207 ≤ kMaxRecords * 8 + 4096 :=
  survives_iff {} 0 (writeMeta minimalRequest) minimalRequest (by
    decide +kernel)

/-- The phase is a byte no enumerator has. -/
def undeclaredPhase : RequestMetadata :=
  { minimalRequest with
    descriptor.phase := ByteEnum.ofByte 2 }

theorem not_survives : ¬∀ (policy : BatchPolicy) (now : TimePoint)
    (bytes : List UInt8) (m : RequestMetadata),
    decodeSubmit bytes = some m → Survives policy m now := by
  intro survives
  have accepted : decodeSubmit (writeMeta undeclaredPhase) =
      some undeclaredPhase := by
    decide +kernel
  have wire := ((decodeSubmit_eq_some_iff _ _).mp accepted).1
  have named : identified undeclaredPhase = true := by
    decide
  have taken := ((survives_iff_of_identified wire named {} 0).mp
    (survives {} 0 _ _ accepted)).1
  exact absurd taken (by decide)

end Protocol

end BatchFabric
