import BatchFabric.Protocol.Reading

/-! Every message within the limits of the wire is decoded as it was encoded. -/

namespace BatchFabric

namespace Protocol

open ByteReader PersistenceStore

namespace WireMessage

/-- Numbers of one word, strings of at most a mebibyte, at most 1024 extensions
to a descriptor and at most `2 ^ 20` members to a list. -/
def WithinLimits : WireMessage → Prop
  | .register m => m.OnWire
  | .submit metadata => WireMetadata metadata
  | .submitResp m => m.OnWire
  | .dispatch exec => WireExecution exec
  | .complete completion => WireCompletion completion
  | .ack m => m.message.Short
  | .rollEpoch epoch => Fits epoch
  | .status => True
  | .statusResp _ => True
  | .cancel m => Fits m.request

/-- The boolean the message carries. -/
def flag : WireMessage → Option Bool
  | .register m => some m.cap.supportsCancellation
  | .ack m => some m.ok
  | _ => none

/-- The bytes of the message with a byte of choice for its boolean. -/
def spelled (flagByte : UInt8) : WireMessage → List UInt8
  | .register m => registerBytes m flagByte
  | .ack m => ackBytes m flagByte
  | m => m.encode

theorem unflagged {m : WireMessage} (none : m.flag = none)
    {bytes : List UInt8} (same : bytes = m.spelled 0) :
    ∃ flagByte : UInt8, (∀ value ∈ m.flag, value = (flagByte != 0)) ∧
      bytes = m.spelled flagByte := by
  refine ⟨0, ?_, same⟩
  rw [none]
  exact fun value member => absurd member (Option.not_mem_none value)

theorem of_decode {kind : WireKind} {bytes : List UInt8} {m : WireMessage}
    (accepted : decode kind bytes = some m) :
    m.kind = kind ∧ m.WithinLimits ∧ ∃ flagByte : UInt8,
      (∀ value ∈ m.flag, value = (flagByte != 0)) ∧
        bytes = m.spelled flagByte := by
  cases kind with
  | register =>
      obtain ⟨m, found, rfl⟩ := Option.map_eq_some_iff.mp accepted
      obtain ⟨onWire, canc, flag, same⟩ :=
        (decodeRegister_eq_some_iff bytes m).mp found
      refine ⟨rfl, onWire, canc, ?_, same⟩
      rintro value ⟨⟩
      exact flag
  | submit =>
      obtain ⟨metadata, found, rfl⟩ := Option.map_eq_some_iff.mp accepted
      obtain ⟨wire, same⟩ := (decodeSubmit_eq_some_iff bytes metadata).mp found
      exact ⟨rfl, wire, unflagged rfl same⟩
  | submitResp =>
      obtain ⟨m, found, rfl⟩ := Option.map_eq_some_iff.mp accepted
      obtain ⟨wire, same⟩ :=
        (whole_eq_some_iff decodes_readSubmitResp bytes m).mp found
      exact ⟨rfl, wire, unflagged rfl same⟩
  | dispatch =>
      obtain ⟨exec, found, rfl⟩ := Option.map_eq_some_iff.mp accepted
      obtain ⟨wire, same⟩ :=
        (whole_eq_some_iff decodes_readExec bytes exec).mp found
      exact ⟨rfl, wire, unflagged rfl same⟩
  | complete =>
      obtain ⟨completion, found, rfl⟩ := Option.map_eq_some_iff.mp accepted
      obtain ⟨wire, same⟩ :=
        (whole_eq_some_iff decodes_readCompl bytes completion).mp found
      exact ⟨rfl, wire, unflagged rfl same⟩
  | ack =>
      obtain ⟨m, found, rfl⟩ := Option.map_eq_some_iff.mp accepted
      obtain ⟨short, ok, flag, same⟩ := (decodeAck_eq_some_iff bytes m).mp found
      refine ⟨rfl, short, ok, ?_, same⟩
      rintro value ⟨⟩
      exact flag
  | rollEpoch =>
      obtain ⟨epoch, found, rfl⟩ := Option.map_eq_some_iff.mp accepted
      obtain ⟨wire, same⟩ :=
        (whole_eq_some_iff (decodes_id _) bytes epoch).mp found
      exact ⟨rfl, wire, unflagged rfl same⟩
  | status =>
      cases bytes with
      | nil =>
          cases accepted
          exact ⟨rfl, trivial, unflagged rfl rfl⟩
      | cons byte bytes => cases accepted
  | statusResp =>
      obtain ⟨stats, found, rfl⟩ := Option.map_eq_some_iff.mp accepted
      obtain ⟨wire, same⟩ :=
        (whole_eq_some_iff decodes_readStatusResp bytes stats).mp found
      exact ⟨rfl, wire, unflagged rfl same⟩
  | cancel =>
      obtain ⟨m, found, rfl⟩ := Option.map_eq_some_iff.mp accepted
      obtain ⟨wire, same⟩ :=
        (whole_eq_some_iff decodes_readCancel bytes m).mp found
      exact ⟨rfl, wire, unflagged rfl same⟩

theorem decode_spelled (m : WireMessage) (limits : m.WithinLimits)
    (flagByte : UInt8) (flag : ∀ value ∈ m.flag, value = (flagByte != 0)) :
    decode m.kind (m.spelled flagByte) = some m := by
  cases m with
  | register m =>
      exact congrArg (Option.map register) ((decodeRegister_eq_some_iff _ m).mpr
        ⟨limits, flagByte, flag _ rfl, rfl⟩)
  | submit metadata =>
      exact congrArg (Option.map submit)
        ((decodeSubmit_eq_some_iff _ metadata).mpr ⟨limits, rfl⟩)
  | submitResp m =>
      exact congrArg (Option.map submitResp)
        ((whole_eq_some_iff decodes_readSubmitResp _ m).mpr ⟨limits, rfl⟩)
  | dispatch exec =>
      exact congrArg (Option.map dispatch)
        ((whole_eq_some_iff decodes_readExec _ exec).mpr ⟨limits, rfl⟩)
  | complete completion =>
      exact congrArg (Option.map complete)
        ((whole_eq_some_iff decodes_readCompl _ completion).mpr ⟨limits, rfl⟩)
  | ack m =>
      exact congrArg (Option.map ack) ((decodeAck_eq_some_iff _ m).mpr
        ⟨limits, flagByte, flag _ rfl, rfl⟩)
  | rollEpoch epoch =>
      exact congrArg (Option.map rollEpoch)
        ((whole_eq_some_iff (decodes_id _) _ epoch).mpr ⟨limits, rfl⟩)
  | status => rfl
  | statusResp stats =>
      exact congrArg (Option.map statusResp)
        ((whole_eq_some_iff decodes_readStatusResp _ stats).mpr ⟨limits, rfl⟩)
  | cancel m =>
      exact congrArg (Option.map cancel)
        ((whole_eq_some_iff decodes_readCancel _ m).mpr ⟨limits, rfl⟩)

/-- The encoder writes one for true and zero for false. -/
theorem spelled_boolByte (m : WireMessage) :
    m.spelled (boolByte (m.flag.getD false)) = m.encode := by
  cases m with
  | register m => exact (List.append_assoc _ _ _).symm
  | _ => rfl

/-- Decoding what was encoded gives the message back. -/
theorem decode_encode (m : WireMessage) (limits : m.WithinLimits) :
    decode m.kind m.encode = some m := by
  rw [← spelled_boolByte]
  apply decode_spelled m limits
  intro value carried
  rw [Option.mem_def.mp carried]
  cases value <;> rfl

/-- A report with one member, whose result is its only nonempty string. -/
def oneMember : WireMessage :=
  .complete {
    worker := { value := 1 }
    members := [{
      request := { value := 1 }
      result := { bytes := [100] }
      errorCode := .internal }] }

theorem decode_encode_oneMember :
    decode .complete oneMember.encode = some oneMember :=
  decode_encode oneMember {
    worker := by decide
    boot := fits_null
    epoch := fits_null
    generation := fits_null
    batch := fits_null
    fewMembers := by decide
    members := by
      intro m member
      rw [List.mem_singleton.mp member]
      exact {
        request := (by decide : 1 < 2 ^ 64)
        attempt := fits_null
        result := (by decide : 1 ≤ kDefaultMaxStringLen)
        errorMessage := Nat.zero_le _ } }

end WireMessage

end Protocol

end BatchFabric
