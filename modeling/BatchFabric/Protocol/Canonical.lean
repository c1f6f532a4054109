import BatchFabric.Library.Layout
import BatchFabric.Persistence.Coherence
import BatchFabric.Protocol.RoundTrip

/-! Which bytes the decoders accept besides those the encoders write, and which
of the accepted enumerations have no enumerator. -/

namespace BatchFabric

def AdmissionDecision.isDeclared : AdmissionDecision → Bool
  | .undeclared _ _ => false
  | _ => true

def CancellationReason.isDeclared : CancellationReason → Bool
  | .undeclared _ _ => false
  | _ => true

def ErrorCode.isDeclared : ErrorCode → Bool
  | .undeclared _ _ => false
  | _ => true

namespace Protocol

open PersistenceStore

/-- Every enumeration of the message has an enumerator for its value. -/
def WireMessage.isDeclared : WireMessage → Bool
  | .register m => m.cap.backend.isDeclared && m.cap.device.backend.isDeclared
  | .submit metadata => metadata.descriptor.isDeclared &&
      metadata.latency.isDeclared && metadata.priority.isDeclared
  | .submitResp m => m.admission.isDeclared
  | .dispatch exec => exec.descriptor.isDeclared
  | .complete completion => completion.members.all fun m =>
      m.status.isDeclared && m.errorCode.isDeclared
  | .ack m => m.code.isDeclared
  | .rollEpoch _ | .status | .statusResp _ => true
  | .cancel m => m.reason.isDeclared

/-! The formats of the messages. Of the bytes of enumerations and booleans they
allow those with a meaning of their own. -/

open Layout

def byteIn (values : List UInt8) : Layout :=
  number 1 fun value => values.contains (UInt8.ofNat value)

def byte : Layout := anyNumber 1
def word : Layout := anyNumber 4
def long : Layout := anyNumber 8
def characters : Layout := text 8
def boolean : Layout := byteIn [0, 1]
def backendByte : Layout := byteIn [0, 1, 2, 3, 4, 255]
def errorWord : Layout := number 4 fun value => value < 22

def descriptorLayout : Layout := record [
  byte, characters, characters, characters, characters,
  byteIn [0, 1], byteIn [0, 1, 2, 3, 4, 255], backendByte,
  byteIn [0, 1, 2, 255], backendByte,
  word, word, long, characters, characters, counted 4 characters]

def capLayout : Layout := record [
  long, backendByte, backendByte, word, word, long, word, long, long, long,
  boolean]

def metaLayout : Layout := record [
  long, long, long, descriptorLayout, long, long, long, long, long,
  byteIn [0, 1, 2, 3, 4], byteIn [0, 1, 2, 3], characters]

def execLayout : Layout := record [
  long, long, long, long, descriptorLayout,
  counted 4 (record [long, long, long, long, long, characters])]

def complLayout : Layout := record [
  long, long, long, long, long,
  counted 4 (record [long, long, byteIn [0, 1, 2, 3, 4, 5, 6], characters,
    errorWord, characters])]

def WireKind.layout : WireKind → Layout
  | .register => .seq long (.seq long capLayout)
  | .submit => metaLayout
  | .submitResp => record [
      long, long, byteIn [0, 1, 2, 3, 4, 5], characters, long]
  | .dispatch => execLayout
  | .complete => complLayout
  | .ack => record [boolean, errorWord, characters]
  | .rollEpoch => long
  | .status => done
  | .statusResp => record (List.replicate 21 long)
  | .cancel => .seq long (byteIn [0, 1, 2, 3, 4, 5])

section Fields

open ByteWriter

theorem walks_u8 (v : UInt8) (allowed : Nat → Bool) :
    (number 1 allowed).Walks (u8 v) (allowed v.toNat) := by
  have spelled : u8 v = Codec.bigEndian 1 v.toNat := by
    simp [u8, Codec.bigEndian]
  rw [spelled]
  exact walks_number v.toNat_lt allowed

theorem walks_byte (v : UInt8) : byte.Walks (u8 v) true :=
  walks_u8 v _

theorem walks_byteIn (v : UInt8) (values : List UInt8) :
    (byteIn values).Walks (u8 v) (values.contains v) :=
  (walks_u8 v _).congr rfl (congrArg values.contains UInt8.ofNat_toNat)

theorem walks_u32 (v : UInt32) (allowed : Nat → Bool) :
    (number 4 allowed).Walks (u32 v) (allowed v.toNat) := by
  rw [u32_eq_bigEndian]
  exact walks_number v.toNat_lt allowed

theorem walks_word (v : UInt32) : word.Walks (u32 v) true :=
  walks_u32 v _

theorem walks_long (v : UInt64) : long.Walks (u64 v) true := by
  rw [u64_eq_bigEndian]
  exact walks_number v.toNat_lt _

theorem walks_characters (s : ByteString) :
    characters.Walks (ByteWriter.string s) true := by
  unfold ByteWriter.string size
  rw [u64_eq_bigEndian, UInt64.toNat_ofNat_of_lt' s.bounded]
  exact walks_text s.bounded

theorem walks_list {α : Type} {element : Layout} {code : α → List UInt8}
    {good : α → Bool} {values : List α} (few : values.length < 2 ^ 32)
    (walks : ∀ value ∈ values, element.Walks (code value) (good value)) :
    (counted 4 element).Walks
      (u32 (UInt32.ofNat values.length) ++ values.flatMap code)
      (values.all good) := by
  rw [u32_eq_bigEndian, UInt32.toNat_ofNat_of_lt' few]
  exact walks_counted few walks

theorem contains_undeclared {raw : UInt8} {values : List UInt8}
    (outside : raw ∉ values) : values.contains raw = false := by
  rwa [← Bool.not_eq_true, List.contains_iff_mem]

theorem walks_phase (value : Phase) :
    (byteIn [0, 1]).Walks (u8 (ByteEnum.toByte value))
      value.isDeclared := by
  apply (walks_byteIn _ _).congr rfl
  cases value with
  | undeclared raw outside => exact contains_undeclared outside
  | _ => rfl

theorem walks_dtype (value : Dtype) :
    (byteIn [0, 1, 2, 3, 4, 255]).Walks (u8 (ByteEnum.toByte value))
      value.isDeclared := by
  apply (walks_byteIn _ _).congr rfl
  cases value with
  | undeclared raw outside => exact contains_undeclared outside
  | _ => rfl

theorem walks_backend (value : Backend) :
    (byteIn [0, 1, 2, 3, 4, 255]).Walks (u8 (ByteEnum.toByte value))
      value.isDeclared := by
  apply (walks_byteIn _ _).congr rfl
  cases value with
  | undeclared raw outside => exact contains_undeclared outside
  | _ => rfl

theorem walks_mode (value : ExecutionMode) :
    (byteIn [0, 1, 2, 255]).Walks (u8 (ByteEnum.toByte value))
      value.isDeclared := by
  apply (walks_byteIn _ _).congr rfl
  cases value with
  | undeclared raw outside => exact contains_undeclared outside
  | _ => rfl

theorem walks_latency (value : LatencyClass) :
    (byteIn [0, 1, 2, 3, 4]).Walks (u8 (ByteEnum.toByte value))
      value.isDeclared := by
  apply (walks_byteIn _ _).congr rfl
  cases value with
  | undeclared raw outside => exact contains_undeclared outside
  | _ => rfl

theorem walks_priority (value : PriorityClass) :
    (byteIn [0, 1, 2, 3]).Walks (u8 (ByteEnum.toByte value))
      value.isDeclared := by
  apply (walks_byteIn _ _).congr rfl
  cases value with
  | undeclared raw outside => exact contains_undeclared outside
  | _ => rfl

theorem walks_status (value : CompletionStatus) :
    (byteIn [0, 1, 2, 3, 4, 5, 6]).Walks (u8 (ByteEnum.toByte value))
      value.isDeclared := by
  apply (walks_byteIn _ _).congr rfl
  cases value with
  | undeclared raw outside => exact contains_undeclared outside
  | _ => rfl

theorem walks_admission (value : AdmissionDecision) :
    (byteIn [0, 1, 2, 3, 4, 5]).Walks (u8 (ByteEnum.toByte value))
      value.isDeclared := by
  apply (walks_byteIn _ _).congr rfl
  cases value with
  | undeclared raw outside => exact contains_undeclared outside
  | _ => rfl

theorem walks_reason (value : CancellationReason) :
    (byteIn [0, 1, 2, 3, 4, 5]).Walks (u8 (ByteEnum.toByte value))
      value.isDeclared := by
  apply (walks_byteIn _ _).congr rfl
  cases value with
  | undeclared raw outside => exact contains_undeclared outside
  | _ => rfl

theorem walks_errorWord (code : ErrorCode) :
    errorWord.Walks (u32 code.toWord) code.isDeclared := by
  apply (walks_u32 _ _).congr rfl
  cases code with
  | undeclared raw outside => exact decide_eq_false (Nat.not_lt.mpr outside)
  | _ => rfl

theorem walks_id (id : Identifier kind) : long.Walks (ByteWriter.id id) true :=
  walks_long _

theorem walks_i64 (v : Int) : long.Walks (i64 v) true :=
  walks_long _

theorem walks_descriptor (d : ModelDescriptor)
    (few : d.extensions.length < 2 ^ 32) :
    descriptorLayout.Walks (writeDescriptor d) d.isDeclared := by
  have walks := (walks_byte 1).seq <| (walks_characters d.model).seq <|
    (walks_characters d.revision).seq <| (walks_characters d.adapter).seq <|
    (walks_characters d.tokenizer).seq <| (walks_phase d.phase).seq <|
    (walks_dtype d.dtype).seq <| (walks_backend d.backend).seq <|
    (walks_mode d.executionMode).seq <|
    (walks_backend d.device.backend).seq <|
    (walks_word d.device.computeMajor).seq <|
    (walks_word d.device.computeMinor).seq <|
    (walks_long d.device.minMemoryBytes).seq <|
    (walks_characters d.shape).seq <|
    (walks_characters d.samplingSemantics).seq <|
    (walks_list few fun e _ => walks_characters e).seq walks_done
  apply walks.congr
  · simp only [writeDescriptor, List.flatten_cons, List.flatten_nil,
      List.append_assoc]
  · have extensions : (d.extensions.all fun _ => true) = true :=
      List.all_eq_true.mpr fun _ _ => rfl
    unfold ModelDescriptor.isDeclared
    simp only [extensions, Bool.true_and, Bool.and_true, Bool.and_assoc]

theorem walks_cap (c : ExecutorCapability) (canc : UInt8) :
    capLayout.Walks (capBytes c canc) (c.backend.isDeclared &&
      c.device.backend.isDeclared && [0, 1].contains canc) := by
  have walks := (walks_id c.worker).seq <| (walks_backend c.backend).seq <|
    (walks_backend c.device.backend).seq <|
    (walks_word c.device.computeMajor).seq <|
    (walks_word c.device.computeMinor).seq <|
    (walks_long c.device.minMemoryBytes).seq <|
    (walks_word c.maxBatchSize).seq <| (walks_long c.maxTokens).seq <|
    (walks_long c.maxWork).seq <| (walks_long c.maxMemoryBytes).seq <|
    (walks_byteIn canc [0, 1]).seq walks_done
  apply walks.congr rfl
  simp only [Bool.true_and, Bool.and_true, Bool.and_assoc]

theorem walks_meta {m : RequestMetadata} (wire : WireMetadata m) :
    metaLayout.Walks (writeMeta m) (m.descriptor.isDeclared &&
      m.latency.isDeclared && m.priority.isDeclared) := by
  have few : m.descriptor.extensions.length < 2 ^ 32 :=
    wire.descriptor.extensions.1.trans_lt (by decide)
  have walks := (walks_id m.tenant).seq <| (walks_id m.session).seq <|
    (walks_id m.sequence).seq <| (walks_descriptor m.descriptor few).seq <|
    (walks_long m.tokens.input).seq <| (walks_long m.tokens.output).seq <|
    (walks_long m.work.value).seq <| (walks_long m.memoryBytes).seq <|
    (walks_i64 m.deadline.absoluteNs).seq <| (walks_latency m.latency).seq <|
    (walks_priority m.priority).seq <|
    (walks_characters m.payload).seq walks_done
  apply walks.congr rfl
  simp only [Bool.true_and, Bool.and_true, Bool.and_assoc]

theorem walks_memberWork (m : MemberWork) :
    (record [long, long, long, long, long, characters]).Walks
      (writeMemberWork m) true :=
  (walks_id m.request).seq <| (walks_id m.attempt).seq <|
    (walks_long m.work).seq <| (walks_long m.inputTokens).seq <|
    (walks_long m.outputTokens).seq <|
    (walks_characters m.payload).seq walks_done

theorem walks_exec {e : BatchExecution} (wire : WireExecution e) :
    execLayout.Walks (writeExec e) e.descriptor.isDeclared := by
  have few : e.descriptor.extensions.length < 2 ^ 32 :=
    wire.descriptor.extensions.1.trans_lt (by decide)
  have walks := (walks_id e.batch).seq <| (walks_id e.generation).seq <|
    (walks_id e.epoch).seq <| (walks_id e.worker).seq <|
    (walks_descriptor e.descriptor few).seq <|
    (walks_list (wire.fewMembers.trans_lt kMaxMembers_lt)
      fun m _ => walks_memberWork m).seq walks_done
  apply walks.congr
  · simp only [writeExec, List.flatten_cons, List.flatten_nil,
      List.append_assoc]
  · simp

theorem walks_memberCompletion (m : MemberCompletion) :
    (record [long, long, byteIn [0, 1, 2, 3, 4, 5, 6], characters,
      errorWord, characters]).Walks (writeMemberCompletion m)
        (m.status.isDeclared && m.errorCode.isDeclared) := by
  have walks := (walks_id m.request).seq <| (walks_id m.attempt).seq <|
    (walks_status m.status).seq <| (walks_characters m.result).seq <|
    (walks_errorWord m.errorCode).seq <|
    (walks_characters m.errorMessage).seq walks_done
  apply walks.congr rfl
  simp only [Bool.true_and, Bool.and_true]

theorem walks_compl {c : BatchCompletion} (wire : WireCompletion c) :
    complLayout.Walks (writeCompl c) (c.members.all fun m =>
      m.status.isDeclared && m.errorCode.isDeclared) := by
  have walks := (walks_id c.worker).seq <| (walks_id c.boot).seq <|
    (walks_id c.epoch).seq <| (walks_id c.generation).seq <|
    (walks_id c.batch).seq <|
    (walks_list (wire.fewMembers.trans_lt kMaxMembers_lt)
      fun m _ => walks_memberCompletion m).seq walks_done
  apply walks.congr
  · simp only [writeCompl, List.flatten_cons, List.flatten_nil,
      List.append_assoc]
  · simp only [Bool.true_and, Bool.and_true]

theorem walks_longs (values : List UInt64) :
    (record (List.replicate values.length long)).Walks
      (values.map u64).flatten true := by
  induction values with
  | nil => exact walks_done
  | cons value values induction => exact (walks_long value).seq induction

end Fields

/-- A message's own format, walked over one of its spellings. -/
theorem walks_spelled {m : WireMessage} (limits : m.WithinLimits)
    (flagByte : UInt8) : m.kind.layout.Walks (m.spelled flagByte)
      (m.isDeclared && (m.flag.isNone || [0, 1].contains flagByte)) := by
  cases m with
  | register m =>
      exact (walks_id m.worker).seq <| (walks_id m.boot).seq <|
        walks_cap m.cap flagByte
  | submit metadata =>
      exact (walks_meta limits).congr rfl (Bool.and_true _).symm
  | submitResp m =>
      have walks := (walks_id m.request).seq <| (walks_id m.attempt).seq <|
        (walks_admission m.admission).seq <| (walks_characters m.reason).seq <|
        (walks_id m.batch).seq walks_done
      exact walks.congr rfl rfl
  | dispatch exec =>
      exact (walks_exec limits).congr rfl (Bool.and_true _).symm
  | complete completion =>
      exact (walks_compl limits).congr rfl (Bool.and_true _).symm
  | ack m =>
      have walks := (walks_byteIn flagByte [0, 1]).seq <|
        (walks_errorWord m.code).seq <|
        (walks_characters m.message).seq walks_done
      apply walks.congr rfl
      rw [Bool.and_comm, Bool.and_true, Bool.and_true]
      rfl
  | rollEpoch epoch => exact walks_id epoch
  | status => exact walks_done
  | statusResp stats => exact walks_longs (counters stats)
  | cancel m =>
      exact ((walks_id m.request).seq (walks_reason m.reason)).congr rfl
        (Bool.and_true _).symm

/-- The byte of the boolean can be told from the message. -/
theorem spelled_injective {m : WireMessage} {value : Bool}
    (carried : m.flag = some value) :
    Function.Injective fun flagByte => m.spelled flagByte := by
  intro left right same
  cases m with
  | register m =>
      have afterIds := (List.append_cancel_left_eq _ _ _).mp
        ((List.append_cancel_left_eq _ _ _).mp same)
      unfold capBytes at afterIds
      simp only [List.flatten_cons, List.append_cancel_left_eq] at afterIds
      exact (List.cons.inj afterIds).1
  | ack m => exact (List.cons.inj same).1
  | _ => cases carried

theorem boolByte_eq_iff (flagByte : UInt8) :
    boolByte (flagByte != 0) = flagByte ↔ [0, 1].contains flagByte = true := by
  rcases eq_or_ne flagByte 0 with rfl | nonzero
  · exact iff_of_true rfl rfl
  · rw [bne_iff_ne.mpr nonzero, List.contains_iff_mem]
    simp only [List.mem_cons, nonzero, false_or, List.not_mem_nil, or_false]
    exact eq_comm

/-- The encoder's spelling is the one whose boolean byte is zero or one. -/
theorem encode_eq_spelled_iff {m : WireMessage} {flagByte : UInt8}
    (flag : ∀ value ∈ m.flag, value = (flagByte != 0)) :
    m.encode = m.spelled flagByte ↔
      (m.flag.isNone || [0, 1].contains flagByte) = true := by
  rw [← WireMessage.spelled_boolByte]
  cases carried : m.flag with
  | none =>
      have unmarked (a b : UInt8) : m.spelled a = m.spelled b := by
        cases m with
        | register m => cases carried
        | ack m => cases carried
        | _ => rfl
      simp [unmarked _ flagByte]
  | some value =>
      have given := flag value carried
      subst given
      rw [Option.getD_some, (spelled_injective carried).eq_iff,
        boolByte_eq_iff]
      rfl

namespace WireMessage

/-- What a decoder accepts has declared enumerations and is what the encoder
writes exactly where the bytes walked over in the message's format are those of
enumerators, and booleans are zero or one. -/
theorem canonical_iff (kind : WireKind) (bytes : List UInt8)
    (m : WireMessage) (accepted : decode kind bytes = some m) :
    (m.isDeclared = true ∧ m.encode = bytes) ↔
      kind.layout.conforms bytes = true := by
  obtain ⟨rfl, limits, flagByte, flag, rfl⟩ := of_decode accepted
  rw [(walks_spelled limits flagByte).conforms_eq,
    encode_eq_spelled_iff flag, Bool.and_eq_true]

/-- An acknowledgement whose boolean is written as two and whose code is no
enumerator's. -/
def looseAck : List UInt8 :=
  [2, 0, 0, 0, 22, 0, 0, 0, 0, 0, 0, 0, 0]

def readLooseAck : WireMessage :=
  .ack { ok := true, code := ErrorCode.ofWord 22 }

theorem canonical_looseAck :
    (readLooseAck.isDeclared = true ∧ readLooseAck.encode = looseAck) ↔
      WireKind.ack.layout.conforms looseAck = true :=
  canonical_iff .ack looseAck readLooseAck
    (decode_spelled readLooseAck (Nat.zero_le _) 2 (by decide))

theorem not_canonical : ¬∀ (kind : WireKind) (bytes : List UInt8)
    (m : WireMessage), decode kind bytes = some m →
      m.isDeclared = true ∧ m.encode = bytes := by
  intro canonical
  have accepted : decode .ack looseAck = some readLooseAck :=
    decode_spelled readLooseAck (Nat.zero_le _) 2 (by decide)
  exact absurd (canonical .ack looseAck readLooseAck accepted).1 (by decide)

end WireMessage

end Protocol

end BatchFabric
