import BatchFabric.Protocol.Messages

/-! What the decoders of the wire messages accept. -/

namespace BatchFabric

namespace Protocol

open ByteReader Decoding PersistenceStore

theorem whole_eq_some (read : Read α) (bytes : List UInt8) (value : α) :
    whole read bytes = some value ↔ read bytes = .ok (value, []) := by
  unfold whole
  cases read bytes with
  | error error => simp
  | ok out =>
      obtain ⟨found, rest⟩ := out
      cases rest with
      | nil => simp
      | cons byte rest => simp

theorem whole_eq_some_iff {read : Read α} {code : α → List UInt8}
    {Valid : α → Prop} (decodes : Decodes read code Valid)
    (bytes : List UInt8) (value : α) :
    whole read bytes = some value ↔ Valid value ∧ bytes = code value := by
  rw [whole_eq_some, decodes, List.append_nil]

theorem whole_map_eq_some_iff {read : Read α} {code : α → List UInt8}
    {Valid : α → Prop} (decodes : Decodes read code Valid)
    (present : α → β) (bytes : List UInt8) (value : β) :
    whole (present <$> read) bytes = some value ↔
      ∃ found, Valid found ∧ present found = value ∧ bytes = code found := by
  rw [whole_eq_some, decodes.map_eq_ok_iff]
  simp only [List.append_nil]

/-! The capability's last byte stands for true whatever it is, unless zero. It
is kept beside the capability here. -/

def capBytes (c : ExecutorCapability) (canc : UInt8) : List UInt8 := [
  ByteWriter.id c.worker,
  ByteWriter.u8 (ByteEnum.toByte c.backend),
  ByteWriter.u8 (ByteEnum.toByte c.device.backend),
  ByteWriter.u32 c.device.computeMajor,
  ByteWriter.u32 c.device.computeMinor,
  ByteWriter.u64 c.device.minMemoryBytes,
  ByteWriter.u32 c.maxBatchSize,
  ByteWriter.u64 c.maxTokens,
  ByteWriter.u64 c.maxWork,
  ByteWriter.u64 c.maxMemoryBytes,
  ByteWriter.u8 canc].flatten

abbrev CapByte := ExecutorCapability × UInt8

def readCapByte : Read CapByte := do
  let worker ← ByteReader.id .worker
  let backend ← u8
  let db ← u8
  let cmaj ← u32
  let cmin ← u32
  let minmem ← u64
  let maxb ← u32
  let maxt ← u64
  let maxw ← u64
  let maxmem ← u64
  let canc ← u8
  pure ({
    worker := worker
    backend := ByteEnum.ofByte backend
    device := {
      backend := ByteEnum.ofByte db
      computeMajor := cmaj
      computeMinor := cmin
      minMemoryBytes := minmem }
    maxBatchSize := maxb
    maxTokens := maxt
    maxWork := maxw
    maxMemoryBytes := maxmem
    supportsCancellation := canc != 0 }, canc)

theorem readCap_eq : readCap = Prod.fst <$> readCapByte := by
  unfold readCap readCapByte
  simp only [map_bind, map_pure]

theorem decodes_readCapByte : Decodes readCapByte
    (fun read => capBytes read.1 read.2)
    fun read => Fits read.1.worker ∧
      read.1.supportsCancellation = (read.2 != 0) := by
  apply Continues.decodesKnown fun read : CapByte =>
    read.1.supportsCancellation = (read.2 != 0)
  · apply Continues.field (fun read : CapByte => read.1.worker)
      (decodes_id _)
    intro worker _
    apply Continues.field (fun read : CapByte => ByteEnum.toByte read.1.backend)
      decodes_u8
    intro backend _
    apply Continues.field (fun read : CapByte => ByteEnum.toByte read.1.device.backend)
      decodes_u8
    intro db _
    apply Continues.field (fun read : CapByte => read.1.device.computeMajor)
      decodes_u32
    intro cmaj _
    apply Continues.field (fun read : CapByte => read.1.device.computeMinor)
      decodes_u32
    intro cmin _
    apply Continues.field (fun read : CapByte => read.1.device.minMemoryBytes)
      decodes_u64
    intro minmem _
    apply Continues.field (fun read : CapByte => read.1.maxBatchSize)
      decodes_u32
    intro maxb _
    apply Continues.field (fun read : CapByte => read.1.maxTokens)
      decodes_u64
    intro maxt _
    apply Continues.field (fun read : CapByte => read.1.maxWork)
      decodes_u64
    intro maxw _
    apply Continues.field (fun read : CapByte => read.1.maxMemoryBytes)
      decodes_u64
    intro maxmem _
    apply Continues.field (fun read : CapByte => read.2)
      decodes_u8
    intro canc _
    apply Continues.done
    rintro ⟨c, byte⟩
    simp only [and_assoc, Prod.mk.injEq]
    constructor
    · rintro ⟨same, rfl, rfl, rfl, rfl, rfl, rfl, rfl, rfl, rfl, rfl, rfl⟩
      simp only [ByteEnum.ofByte_toByte, ← same, and_self]
    · rintro ⟨rfl, rfl⟩
      simp [ByteEnum.toByte_ofByte]
  · exact fun _ => rfl
  · rintro ⟨c, canc⟩
    simp only [and_true]
    exact and_comm

structure WireRegister.OnWire (m : WireRegister) : Prop where
  worker : Fits m.worker
  boot : Fits m.boot
  capWorker : Fits m.cap.worker

def registerBytes (m : WireRegister) (canc : UInt8) : List UInt8 :=
  ByteWriter.id m.worker ++ (ByteWriter.id m.boot ++ capBytes m.cap canc)

def readRegisterByte : Read (WireRegister × UInt8) := do
  let worker ← ByteReader.id .worker
  let boot ← ByteReader.id .workerBoot
  let read ← readCapByte
  pure ({ worker := worker, boot := boot, cap := read.1 }, read.2)

theorem readRegister_eq : readRegister = Prod.fst <$> readRegisterByte := by
  unfold readRegister readRegisterByte
  rw [readCap_eq]
  simp only [map_bind, map_pure, bind_map_left]

theorem decodes_readRegisterByte : Decodes readRegisterByte
    (fun read => registerBytes read.1 read.2)
    fun read => read.1.OnWire ∧
      read.1.cap.supportsCancellation = (read.2 != 0) := by
  apply Continues.decodes
  · apply Continues.field
      (fun read : WireRegister × UInt8 => read.1.worker) (decodes_id _)
    intro worker _
    apply Continues.field
      (fun read : WireRegister × UInt8 => read.1.boot) (decodes_id _)
    intro boot _
    apply Continues.field
      (fun read : WireRegister × UInt8 => (read.1.cap, read.2))
      decodes_readCapByte
    intro cap _
    apply Continues.done
    rintro ⟨m, canc⟩
    simp only [and_assoc, true_and]
    constructor
    · rintro ⟨rfl, rfl, rfl⟩
      rfl
    · rintro same
      cases same
      exact ⟨rfl, rfl, rfl⟩
  · intro read
    unfold registerBytes
    rw [List.append_nil]
  · rintro ⟨m, canc⟩
    constructor
    · rintro ⟨worker, boot, ⟨capWorker, flag⟩, -⟩
      exact ⟨⟨worker, boot, capWorker⟩, flag⟩
    · rintro ⟨⟨worker, boot, capWorker⟩, flag⟩
      exact ⟨worker, boot, ⟨capWorker, flag⟩, trivial⟩

theorem decodeRegister_eq_some_iff (bytes : List UInt8) (m : WireRegister) :
    decodeRegister bytes = some m ↔ m.OnWire ∧ ∃ canc : UInt8,
      m.cap.supportsCancellation = (canc != 0) ∧
        bytes = registerBytes m canc := by
  unfold decodeRegister
  rw [readRegister_eq, whole_map_eq_some_iff decodes_readRegisterByte]
  constructor
  · rintro ⟨⟨m, canc⟩, ⟨onWire, flag⟩, rfl, same⟩
    exact ⟨onWire, canc, flag, same⟩
  · rintro ⟨onWire, canc, flag, same⟩
    exact ⟨(m, canc), ⟨onWire, flag⟩, rfl, same⟩

/-! The acknowledgement begins with such a byte. -/

def ackBytes (m : WireAck) (ok : UInt8) : List UInt8 := [
  ByteWriter.u8 ok,
  ByteWriter.u32 m.code.toWord,
  ByteWriter.string m.message].flatten

def readAckByte : Read (WireAck × UInt8) := do
  let ok ← u8
  let code ← u32
  let message ← string
  pure ({ ok := ok != 0, code := ErrorCode.ofWord code, message := message },
    ok)

theorem readAck_eq : readAck = Prod.fst <$> readAckByte := by
  unfold readAck readAckByte
  simp only [map_bind, map_pure]

theorem decodes_readAckByte : Decodes readAckByte
    (fun read => ackBytes read.1 read.2)
    fun read => read.1.message.Short ∧ read.1.ok = (read.2 != 0) := by
  apply Continues.decodesKnown fun read : WireAck × UInt8 =>
    read.1.ok = (read.2 != 0)
  · apply Continues.field (fun read : WireAck × UInt8 => read.2) decodes_u8
    intro ok _
    apply Continues.field
      (fun read : WireAck × UInt8 => read.1.code.toWord) decodes_u32
    intro code _
    apply Continues.field
      (fun read : WireAck × UInt8 => read.1.message) decodes_string
    intro message _
    apply Continues.done
    rintro ⟨m, byte⟩
    simp only [and_assoc, Prod.mk.injEq]
    constructor
    · rintro ⟨same, rfl, rfl, rfl⟩
      simp only [ErrorCode.ofWord_toWord, ← same, and_self]
    · rintro ⟨rfl, rfl⟩
      simp [ErrorCode.toWord_ofWord]
  · exact fun _ => rfl
  · rintro ⟨m, ok⟩
    simp only [and_true, true_and]
    exact and_comm

theorem decodeAck_eq_some_iff (bytes : List UInt8) (m : WireAck) :
    decodeAck bytes = some m ↔ m.message.Short ∧ ∃ ok : UInt8,
      m.ok = (ok != 0) ∧ bytes = ackBytes m ok := by
  unfold decodeAck
  rw [readAck_eq, whole_map_eq_some_iff decodes_readAckByte]
  constructor
  · rintro ⟨⟨m, ok⟩, ⟨short, flag⟩, rfl, same⟩
    exact ⟨short, ok, flag, same⟩
  · rintro ⟨short, ok, flag, same⟩
    exact ⟨(m, ok), ⟨short, flag⟩, rfl, same⟩

/-! Every other message is read as it is written. -/

structure WireSubmitResp.OnWire (m : WireSubmitResp) : Prop where
  request : Fits m.request
  attempt : Fits m.attempt
  reason : m.reason.Short
  batch : Fits m.batch

theorem decodes_readSubmitResp :
    Decodes readSubmitResp encodeSubmitResp WireSubmitResp.OnWire := by
  apply Continues.decodes
  · apply Continues.field WireSubmitResp.request (decodes_id _)
    intro request _
    apply Continues.field WireSubmitResp.attempt (decodes_id _)
    intro attempt _
    apply Continues.field
      (fun m : WireSubmitResp => ByteEnum.toByte m.admission) decodes_u8
    intro adm _
    apply Continues.field WireSubmitResp.reason decodes_string
    intro reason _
    apply Continues.field WireSubmitResp.batch (decodes_id _)
    intro batch _
    apply Continues.done
    intro m
    simp only [and_assoc, true_and]
    constructor
    · rintro ⟨rfl, rfl, rfl, rfl, rfl⟩
      simp only [ByteEnum.ofByte_toByte]
    · rintro rfl
      simp [ByteEnum.toByte_ofByte]
  · exact fun _ => rfl
  · intro m
    constructor
    · rintro ⟨request, attempt, -, reason, batch, -⟩
      exact ⟨request, attempt, reason, batch⟩
    · rintro ⟨request, attempt, reason, batch⟩
      exact ⟨request, attempt, trivial, reason, batch, trivial⟩

structure WireMemberWork (m : MemberWork) : Prop where
  request : Fits m.request
  attempt : Fits m.attempt
  payload : m.payload.Short

theorem decodes_readMemberWork :
    Decodes readMemberWork writeMemberWork WireMemberWork := by
  apply Continues.decodes
  · apply Continues.field MemberWork.request (decodes_id _)
    intro request _
    apply Continues.field MemberWork.attempt (decodes_id _)
    intro attempt _
    apply Continues.field MemberWork.work decodes_u64
    intro work _
    apply Continues.field MemberWork.inputTokens decodes_u64
    intro inputTokens _
    apply Continues.field MemberWork.outputTokens decodes_u64
    intro outputTokens _
    apply Continues.field MemberWork.payload decodes_string
    intro payload _
    apply Continues.done
    intro m
    simp only [and_assoc, true_and]
    constructor
    · rintro ⟨rfl, rfl, rfl, rfl, rfl, rfl⟩
      rfl
    · rintro rfl
      simp
  · exact fun _ => rfl
  · intro m
    constructor
    · rintro ⟨request, attempt, -, -, -, payload, -⟩
      exact ⟨request, attempt, payload⟩
    · rintro ⟨request, attempt, payload⟩
      exact ⟨request, attempt, trivial, trivial, trivial, payload, trivial⟩

structure WireExecution (e : BatchExecution) : Prop where
  batch : Fits e.batch
  generation : Fits e.generation
  epoch : Fits e.epoch
  worker : Fits e.worker
  descriptor : WireDescriptor e.descriptor
  fewMembers : e.members.length ≤ kMaxMembers
  members : ∀ m ∈ e.members, WireMemberWork m

theorem kMaxMembers_lt : kMaxMembers < 2 ^ 32 := by
  decide

theorem decodes_readExec : Decodes readExec writeExec WireExecution := by
  apply Continues.decodes
  · apply Continues.field BatchExecution.batch (decodes_id _)
    intro batch _
    apply Continues.field BatchExecution.generation (decodes_id _)
    intro generation _
    apply Continues.field BatchExecution.epoch (decodes_id _)
    intro epoch _
    apply Continues.field BatchExecution.worker (decodes_id _)
    intro worker _
    apply Continues.field BatchExecution.descriptor
      (decodes_readDescriptorChecked _)
    intro descriptor _
    apply Continues.field
      (fun e : BatchExecution => UInt32.ofNat e.members.length) decodes_u32
    intro n _
    apply Continues.check fun e : BatchExecution =>
      (UInt32.ofNat e.members.length).toNat ≤ kMaxMembers
    · rintro e ⟨_, rfl⟩
      simp
    intro _
    apply Continues.fieldGiven BatchExecution.members
      (fun e : BatchExecution => e.members.length < 2 ^ 32 ∧
        ∀ m ∈ e.members, WireMemberWork m)
      (Decodes.many decodes_readMemberWork n.toNat)
    · rintro e ⟨_, rfl⟩
      exact and_congr_left' (eq_toNat_ofNat32_iff _)
    intro members found
    apply Continues.done
    intro e
    simp only [and_assoc, true_and]
    constructor
    · rintro ⟨rfl, rfl, rfl, rfl, rfl, -, rfl⟩
      rfl
    · rintro rfl
      simp [found.1]
  · exact fun _ => rfl
  · intro e
    constructor
    · rintro ⟨batch, generation, epoch, worker, descriptor, -, few,
        ⟨sized, members⟩, -⟩
      rw [UInt32.toNat_ofNat_of_lt' sized] at few
      exact ⟨batch, generation, epoch, worker, descriptor, few, members⟩
    · intro e
      have sized := e.fewMembers.trans_lt kMaxMembers_lt
      refine ⟨e.batch, e.generation, e.epoch, e.worker, e.descriptor, trivial,
        ?_, ⟨sized, e.members⟩, trivial⟩
      rw [UInt32.toNat_ofNat_of_lt' sized]
      exact e.fewMembers

structure WireMemberCompletion (m : MemberCompletion) : Prop where
  request : Fits m.request
  attempt : Fits m.attempt
  result : m.result.Short
  errorMessage : m.errorMessage.Short

theorem decodes_readMemberCompletion : Decodes readMemberCompletion
    writeMemberCompletion WireMemberCompletion := by
  apply Continues.decodes
  · apply Continues.field MemberCompletion.request (decodes_id _)
    intro request _
    apply Continues.field MemberCompletion.attempt (decodes_id _)
    intro attempt _
    apply Continues.field
      (fun m : MemberCompletion => ByteEnum.toByte m.status) decodes_u8
    intro status _
    apply Continues.field MemberCompletion.result decodes_string
    intro result _
    apply Continues.field
      (fun m : MemberCompletion => m.errorCode.toWord) decodes_u32
    intro ec _
    apply Continues.field MemberCompletion.errorMessage decodes_string
    intro errorMessage _
    apply Continues.done
    intro m
    simp only [and_assoc, true_and]
    constructor
    · rintro ⟨rfl, rfl, rfl, rfl, rfl, rfl⟩
      simp only [ByteEnum.ofByte_toByte, ErrorCode.ofWord_toWord]
    · rintro rfl
      simp [ByteEnum.toByte_ofByte, ErrorCode.toWord_ofWord]
  · exact fun _ => rfl
  · intro m
    constructor
    · rintro ⟨request, attempt, -, result, -, errorMessage, -⟩
      exact ⟨request, attempt, result, errorMessage⟩
    · rintro ⟨request, attempt, result, errorMessage⟩
      exact ⟨request, attempt, trivial, result, trivial, errorMessage, trivial⟩

structure WireCompletion (c : BatchCompletion) : Prop where
  worker : Fits c.worker
  boot : Fits c.boot
  epoch : Fits c.epoch
  generation : Fits c.generation
  batch : Fits c.batch
  fewMembers : c.members.length ≤ kMaxMembers
  members : ∀ m ∈ c.members, WireMemberCompletion m

theorem decodes_readCompl : Decodes readCompl writeCompl WireCompletion := by
  apply Continues.decodes
  · apply Continues.field BatchCompletion.worker (decodes_id _)
    intro worker _
    apply Continues.field BatchCompletion.boot (decodes_id _)
    intro boot _
    apply Continues.field BatchCompletion.epoch (decodes_id _)
    intro epoch _
    apply Continues.field BatchCompletion.generation (decodes_id _)
    intro generation _
    apply Continues.field BatchCompletion.batch (decodes_id _)
    intro batch _
    apply Continues.field
      (fun c : BatchCompletion => UInt32.ofNat c.members.length) decodes_u32
    intro n _
    apply Continues.check fun c : BatchCompletion =>
      (UInt32.ofNat c.members.length).toNat ≤ kMaxMembers
    · rintro c ⟨_, rfl⟩
      simp
    intro _
    apply Continues.fieldGiven BatchCompletion.members
      (fun c : BatchCompletion => c.members.length < 2 ^ 32 ∧
        ∀ m ∈ c.members, WireMemberCompletion m)
      (Decodes.many decodes_readMemberCompletion n.toNat)
    · rintro c ⟨_, rfl⟩
      exact and_congr_left' (eq_toNat_ofNat32_iff _)
    intro members found
    apply Continues.done
    intro c
    simp only [and_assoc, true_and]
    constructor
    · rintro ⟨rfl, rfl, rfl, rfl, rfl, -, rfl⟩
      rfl
    · rintro rfl
      simp [found.1]
  · exact fun _ => rfl
  · intro c
    constructor
    · rintro ⟨worker, boot, epoch, generation, batch, -, few,
        ⟨sized, members⟩, -⟩
      rw [UInt32.toNat_ofNat_of_lt' sized] at few
      exact ⟨worker, boot, epoch, generation, batch, few, members⟩
    · intro c
      have sized := c.fewMembers.trans_lt kMaxMembers_lt
      refine ⟨c.worker, c.boot, c.epoch, c.generation, c.batch, trivial,
        ?_, ⟨sized, c.members⟩, trivial⟩
      rw [UInt32.toNat_ofNat_of_lt' sized]
      exact c.fewMembers

theorem decodes_readCancel :
    Decodes readCancel encodeCancel fun m => Fits m.request := by
  apply Continues.decodes
  · apply Continues.field WireCancel.request (decodes_id _)
    intro request _
    apply Continues.field
      (fun m : WireCancel => ByteEnum.toByte m.reason) decodes_u8
    intro reason _
    apply Continues.done
    intro m
    simp only [true_and]
    constructor
    · rintro ⟨rfl, rfl⟩
      simp only [ByteEnum.ofByte_toByte]
    · rintro rfl
      simp [ByteEnum.toByte_ofByte]
  · exact fun _ => rfl
  · intro m
    simp only [and_true]
    rfl

/-- The counters in the order they are written. -/
def counters (stats : BatchStats) : List UInt64 := [
  stats.submitted, stats.admitted, stats.deferred, stats.rejected,
  stats.expired, stats.cancelled, stats.batchesFormed, stats.batchesSealed,
  stats.batchesDispatched, stats.batchesCompleted, stats.batchesSplit,
  stats.batchesMerged, stats.requestsCompleted, stats.requestsRetried,
  stats.retryableFailures, stats.staleRejections, stats.waitingNow,
  stats.formingNow, stats.runningNow, stats.reservedNow,
  stats.totalWorkCompleted]

theorem decodes_readStatusResp :
    Decodes readStatusResp encodeStatusResp fun _ => True := by
  unfold readStatusResp
  rw [bind_pure_comp]
  change Decodes _
    (fun stats => (counters stats).flatMap ByteWriter.u64) fun _ => True
  apply (decodes_u64.many 21).map
  · rintro vals ⟨length, _⟩
    have listed := map_range_getD vals 0
    rw [length] at listed
    exact ⟨listed, trivial⟩
  · intro stats _
    exact ⟨rfl, rfl, fun _ _ => trivial⟩

end Protocol

end BatchFabric
