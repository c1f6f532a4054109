import BatchFabric.Io

/-! Framed messages over a stream socket. -/

namespace BatchFabric

/-- The type of a message. Every byte can be cast to it. -/
inductive MessageType
  | hello
  | registerWorker
  | submit
  | cancel
  | dispatch
  | complete
  | status
  | statusResponse
  | epoch
  | ack
  | ping
  | pong
  | error
  | rollEpoch
  | shutdown
  | undeclared (raw : UInt8) (outside : 15 ≤ raw.toNat)
  deriving DecidableEq

namespace MessageType

/-- The enumerators in the order of their values. -/
def enumerators : List MessageType := [
  .hello, .registerWorker, .submit, .cancel, .dispatch, .complete, .status,
  .statusResponse, .epoch, .ack, .ping, .pong, .error, .rollEpoch, .shutdown]

def toByte (type : MessageType) : UInt8 :=
  match type with
  | .undeclared raw _ => raw
  | declared => UInt8.ofNat (enumerators.idxOf declared)

def ofByte (raw : UInt8) : MessageType :=
  if declared : raw.toNat < enumerators.length then enumerators[raw.toNat]
  else .undeclared raw (Nat.not_lt.mp declared)

instance : ByteEnum MessageType where
  toByte := toByte
  ofByte := ofByte
  ofByte_toByte type := by
    cases type with
    | undeclared raw outside => exact dif_neg (Nat.not_lt.mpr outside)
    | _ => decide
  toByte_ofByte raw := by
    have positions : ∀ i : Fin enumerators.length,
        toByte enumerators[i] = UInt8.ofNat i := by decide
    unfold ofByte
    split
    · next declared =>
        exact (positions ⟨raw.toNat, declared⟩).trans UInt8.ofNat_toNat
    · rfl

end MessageType

structure FrameMessage where
  type : MessageType := .hello
  body : List UInt8 := []
  deriving DecidableEq

/-- What a call on a socket comes to. A call that moves bytes moves one of
them, and of those it was asked for at most `more` others. -/
inductive Turn
  | interrupted
  | moved (more : Nat)
  | failed
  deriving DecidableEq

def Turn.moves : Turn → Bool
  | .moved _ => true
  | _ => false

/-- A channel. `incoming` holds what the peer sends before it closes, and
`turns` what the calls to come will meet. -/
structure Channel where
  valid : Bool := false
  incoming : List UInt8 := []
  outgoing : List UInt8 := []
  turns : List Turn := []

def kDefaultMaxFrameSize : UInt32 := (64 : UInt32) <<< 20

namespace Channel

def kMaxFrameSize : UInt32 := kDefaultMaxFrameSize

/-- The loop has stopped with the value it returns, or its last call has not
returned. -/
structure Received where
  returned : Option Int
  buf : List UInt8
  incoming : List UInt8
  turns : List Turn

def recvAll (n : Nat) : List Turn → List UInt8 → List UInt8 → Received
  | [], buf, incoming =>
      ⟨if buf.length < n then none else some buf.length, buf, incoming, []⟩
  | turn :: turns, buf, incoming =>
      if buf.length < n then
        match turn with
        | .interrupted => recvAll n turns buf incoming
        | .failed => ⟨some (-1), buf, incoming, turns⟩
        | .moved more =>
            let r := min (more + 1) (n - buf.length)
            if incoming.isEmpty then ⟨some 0, buf, incoming, turns⟩
            else recvAll n turns (buf ++ incoming.take r) (incoming.drop r)
      else ⟨some buf.length, buf, incoming, turn :: turns⟩

structure Sent where
  returned : Option Int
  outgoing : List UInt8
  turns : List Turn

def sendAll (buf : List UInt8) : List Turn → Nat → List UInt8 → Sent
  | [], sent, outgoing =>
      ⟨if sent < buf.length then none else some sent, outgoing, []⟩
  | turn :: turns, sent, outgoing =>
      if sent < buf.length then
        match turn with
        | .interrupted => sendAll buf turns sent outgoing
        | .failed => ⟨some (-1), outgoing, turns⟩
        | .moved more =>
            let r := min (more + 1) (buf.length - sent)
            sendAll buf turns (sent + r) (outgoing ++ (buf.drop sent).take r)
      else ⟨some sent, outgoing, turn :: turns⟩

def failure (message : String) : Except Error α :=
  .error (.err .transportFailure message)

def frame (msg : FrameMessage) : List UInt8 :=
  let len : UInt64 := 1 + UInt64.ofNat msg.body.length
  [(len >>> 24).toUInt8, (len >>> 16).toUInt8, (len >>> 8).toUInt8,
    len.toUInt8, msg.type.toByte] ++ msg.body

def send (channel : Channel) (msg : FrameMessage) :
    Option (Except Error Unit) × Channel :=
  let len : UInt64 := 1 + UInt64.ofNat msg.body.length
  if !channel.valid then (some (failure "channel not connected"), channel)
  else if len = 0 ∨ len > kMaxFrameSize.toUInt64 then
    (some (failure "frame too large (or zero)"), channel)
  else
    let sent := sendAll (frame msg) channel.turns 0 channel.outgoing
    (sent.returned.map fun r => if r < 0 then failure "send failed" else .ok (),
      { channel with outgoing := sent.outgoing, turns := sent.turns })

/-- The length that a header names. -/
def lengthOf (hdr : List UInt8) : UInt32 :=
  ((hdr.getD 0 0).toUInt32 <<< 24) ||| ((hdr.getD 1 0).toUInt32 <<< 16) |||
    ((hdr.getD 2 0).toUInt32 <<< 8) ||| (hdr.getD 3 0).toUInt32

def recv (channel : Channel) : Option (Except Error FrameMessage) × Channel :=
  if !channel.valid then (some (failure "channel not connected"), channel)
  else
    let hdr := recvAll 4 channel.turns [] channel.incoming
    let channel := { channel with incoming := hdr.incoming, turns := hdr.turns }
    match hdr.returned with
    | none => (none, channel)
    | some r =>
        let len := lengthOf hdr.buf
        if r = 0 then (some (failure "peer closed connection"), channel)
        else if r < 0 then (some (failure "recv failed"), channel)
        else if len = 0 then (some (failure "zero-length frame"), channel)
        else if len > kMaxFrameSize then
          (some (failure "oversized frame"), channel)
        else
          let payload := recvAll len.toNat hdr.turns [] hdr.incoming
          (payload.returned.map fun r =>
              if r ≤ 0 then failure "truncated frame"
              else .ok {
                type := .ofByte (payload.buf.getD 0 0)
                body := payload.buf.drop 1 },
            { channel with
              incoming := payload.incoming, turns := payload.turns })

/-- A message after the other, up to a call that does not return. -/
def sendEach (channel : Channel) :
    List FrameMessage → List (Except Error Unit) × Channel
  | [] => ([], channel)
  | msg :: rest =>
      match channel.send msg with
      | (none, channel) => ([], channel)
      | (some result, channel) =>
          let later := channel.sendEach rest
          (result :: later.1, later.2)

def recvEach (channel : Channel) :
    Nat → List (Except Error FrameMessage) × Channel
  | 0 => ([], channel)
  | calls + 1 =>
      match channel.recv with
      | (none, channel) => ([], channel)
      | (some result, channel) =>
          let later := channel.recvEach calls
          (result :: later.1, later.2)

/-! A socket that serves its calls. -/

/-- The socket never fails, and moves bytes at least `count` times, however
many and between whatever interruptions. -/
structure Serves (turns : List Turn) (count : Nat) : Prop where
  steady : .failed ∉ turns
  enough : count ≤ turns.countP Turn.moves

/-- What the calls on a socket meet that never fails and that is never
interrupted for good, in whatever pieces it moves the bytes. -/
structure Fair (schedule : Nat → Turn) : Prop where
  steady : ∀ i, schedule i ≠ .failed
  moving : ∀ i, ∃ j, i ≤ j ∧ (schedule j).moves = true

def beginning (schedule : Nat → Turn) (count : Nat) : List Turn :=
  (List.range count).map schedule

namespace Serves

variable {turns : List Turn} {count : Nat}

theorem mono (serves : Serves turns count) {fewer : Nat}
    (less : fewer ≤ count) : Serves turns fewer :=
  ⟨serves.steady, Nat.le_trans less serves.enough⟩

theorem of_interrupted (serves : Serves (.interrupted :: turns) count) :
    Serves turns count where
  steady member := serves.steady (List.mem_cons_of_mem _ member)
  enough := by
    have enough := serves.enough
    rwa [List.countP_cons_of_neg (by decide)] at enough

theorem of_moved {more : Nat} (serves : Serves (.moved more :: turns) count) :
    Serves turns (count - 1) where
  steady member := serves.steady (List.mem_cons_of_mem _ member)
  enough := by
    have enough := serves.enough
    rw [List.countP_cons_of_pos rfl] at enough
    omega

theorem not_failed (serves : Serves (.failed :: turns) count) : False :=
  serves.steady List.mem_cons_self

theorem eq_zero (serves : Serves [] count) : count = 0 :=
  Nat.le_zero.mp serves.enough

end Serves

theorem Fair.serves {schedule : Nat → Turn} (fair : Fair schedule)
    (count : Nat) :
    ∃ enough, ∀ n, enough ≤ n → Serves (beginning schedule n) count := by
  have steady : ∀ n, .failed ∉ beginning schedule n := by
    intro n member
    obtain ⟨i, _, failed⟩ := List.mem_map.mp member
    exact fair.steady i failed
  induction count with
  | zero => exact ⟨0, fun n _ => ⟨steady n, Nat.zero_le _⟩⟩
  | succ count induction =>
      obtain ⟨enough, serves⟩ := induction
      obtain ⟨j, later, moves⟩ := fair.moving enough
      refine ⟨j + 1, fun n more => ⟨steady n, ?_⟩⟩
      obtain ⟨extra, rfl⟩ := Nat.exists_eq_add_of_le more
      have before := (serves j later).enough
      unfold beginning at before ⊢
      rw [List.range_add, List.range_succ, List.map_append, List.map_append,
        List.countP_append, List.countP_append, List.map_singleton,
        List.countP_singleton, if_pos moves]
      omega

theorem recvAll_of_full {n : Nat} {buf : List UInt8} (full : buf.length = n)
    (turns : List Turn) (incoming : List UInt8) :
    recvAll n turns buf incoming = ⟨some n, buf, incoming, turns⟩ := by
  subst full
  cases turns with
  | nil => simp [recvAll]
  | cons turn turns => cases turn <;> simp [recvAll]

theorem sendAll_of_length (buf : List UInt8) (turns : List Turn)
    (outgoing : List UInt8) :
    sendAll buf turns buf.length outgoing =
      ⟨some buf.length, outgoing, turns⟩ := by
  cases turns with
  | nil => simp [sendAll]
  | cons turn turns => cases turn <;> simp [sendAll]

/-- The loop reads what is missing, and nothing behind it. -/
theorem recvAll_full {n spare : Nat} {turns : List Turn}
    {buf data : List UInt8} (full : buf.length + data.length = n)
    (serves : Serves turns (data.length + spare)) (rest : List UInt8) :
    ∃ left, Serves left spare ∧
      recvAll n turns buf (data ++ rest) = ⟨some n, buf ++ data, rest, left⟩ := by
  induction turns generalizing buf data with
  | nil =>
      have nothing : data = [] := by
        apply List.eq_nil_of_length_eq_zero
        exact (Nat.add_eq_zero_iff.mp serves.eq_zero).1
      subst nothing
      refine ⟨[], serves.mono (Nat.le_add_left _ _), ?_⟩
      rw [recvAll_of_full full, List.append_nil]
      rfl
  | cons turn turns induction =>
      by_cases nothing : data = []
      case pos =>
        subst nothing
        refine ⟨turn :: turns, serves.mono (Nat.le_add_left _ _), ?_⟩
        rw [recvAll_of_full full, List.append_nil]
        rfl
      have some' : 0 < data.length := List.length_pos_of_ne_nil nothing
      have missing : buf.length < n := by omega
      cases turn with
      | interrupted =>
          rw [recvAll, if_pos missing]
          exact induction full serves.of_interrupted
      | failed => exact serves.not_failed.elim
      | moved more =>
          have available : (data ++ rest).isEmpty = false := by
            cases data with
            | nil => exact absurd rfl nothing
            | cons => rfl
          rw [recvAll, if_pos missing]
          simp only [available, Bool.false_eq_true, if_false]
          generalize taken : min (more + 1) (n - buf.length) = r
          have within : r ≤ data.length := by omega
          rw [List.take_append_of_le_length within,
            List.drop_append_of_le_length within]
          have progress : Serves turns ((data.drop r).length + spare) :=
            serves.of_moved.mono (by
              rw [List.length_drop]
              omega)
          have longer : (buf ++ data.take r).length + (data.drop r).length =
              n := by
            rw [List.length_append, List.length_take, List.length_drop]
            omega
          have next := induction longer progress
          rw [List.append_assoc, List.take_append_drop] at next
          exact next

theorem sendAll_full {buf : List UInt8} {spare sent : Nat}
    {turns : List Turn} (room : sent ≤ buf.length)
    (serves : Serves turns (buf.length - sent + spare))
    (outgoing : List UInt8) :
    ∃ left, Serves left spare ∧
      sendAll buf turns sent outgoing =
        ⟨some buf.length, outgoing ++ buf.drop sent, left⟩ := by
  induction turns generalizing sent outgoing with
  | nil =>
      have reached : sent = buf.length := by
        have nothing := serves.eq_zero
        omega
      subst reached
      refine ⟨[], serves.mono (Nat.le_add_left _ _), ?_⟩
      rw [sendAll_of_length, List.drop_length, List.append_nil]
  | cons turn turns induction =>
      by_cases missing : sent < buf.length
      case neg =>
        have reached : sent = buf.length := by omega
        subst reached
        refine ⟨turn :: turns, serves.mono (Nat.le_add_left _ _), ?_⟩
        rw [sendAll_of_length, List.drop_length, List.append_nil]
      cases turn with
      | interrupted =>
          rw [sendAll, if_pos missing]
          exact induction room serves.of_interrupted outgoing
      | failed => exact serves.not_failed.elim
      | moved more =>
          rw [sendAll, if_pos missing]
          dsimp only
          generalize taken : min (more + 1) (buf.length - sent) = r
          have progress : Serves turns (buf.length - (sent + r) + spare) :=
            serves.of_moved.mono (by omega)
          have within : sent + r ≤ buf.length := by omega
          obtain ⟨left, served, next⟩ := induction within progress
            (outgoing ++ (buf.drop sent).take r)
          refine ⟨left, served, ?_⟩
          rw [next, ← List.drop_drop, List.append_assoc,
            List.take_append_drop]

/-- At the end of the stream the next call returns nothing. -/
theorem recvAll_end {n spare : Nat} {turns : List Turn} {buf : List UInt8}
    (missing : buf.length < n) (serves : Serves turns (1 + spare)) :
    ∃ left, Serves left spare ∧
      recvAll n turns buf [] = ⟨some 0, buf, [], left⟩ := by
  induction turns with
  | nil => exact absurd serves.eq_zero (by omega)
  | cons turn turns induction =>
      cases turn with
      | interrupted =>
          rw [recvAll, if_pos missing]
          exact induction serves.of_interrupted
      | failed => exact serves.not_failed.elim
      | moved more =>
          refine ⟨turns, serves.of_moved.mono (by omega), ?_⟩
          rw [recvAll, if_pos missing]
          rfl

/-- A loop that returns a positive number has filled its buffer. -/
theorem recvAll_positive {n : Nat} {turns : List Turn}
    {buf incoming : List UInt8} {r : Int} (room : buf.length ≤ n)
    (returned : (recvAll n turns buf incoming).returned = some r)
    (positive : 0 < r) :
    ∃ data, incoming = data ++ (recvAll n turns buf incoming).incoming ∧
      (recvAll n turns buf incoming).buf = buf ++ data ∧
      buf.length + data.length = n := by
  induction turns generalizing buf incoming with
  | nil =>
      rw [recvAll] at returned ⊢
      by_cases missing : buf.length < n
      · rw [if_pos missing] at returned
        cases returned
      · exact ⟨[], rfl, (List.append_nil buf).symm, by
          rw [List.length_nil]
          omega⟩
  | cons turn turns induction =>
      by_cases missing : buf.length < n
      case neg =>
        have full : buf.length = n := by omega
        rw [recvAll_of_full full]
        exact ⟨[], rfl, (List.append_nil buf).symm, full⟩
      cases turn with
      | interrupted =>
          rw [recvAll, if_pos missing] at returned ⊢
          exact induction room returned
      | failed =>
          rw [recvAll, if_pos missing, Option.some.injEq] at returned
          omega
      | moved more =>
          rw [recvAll, if_pos missing] at returned ⊢
          dsimp only at returned ⊢
          cases ended : incoming.isEmpty with
          | true =>
              rw [ended, if_pos rfl, Option.some.injEq] at returned
              omega
          | false =>
              simp only [ended, Bool.false_eq_true, if_false] at returned ⊢
              generalize taken : min (more + 1) (n - buf.length) = r' at *
              have within : (incoming.take r').length ≤ r' :=
                List.length_take_le r' incoming
              obtain ⟨data, rest, buffered, full⟩ := induction (by
                rw [List.length_append]
                omega) returned
              rw [List.length_append] at full
              refine ⟨incoming.take r' ++ data, ?_, ?_, ?_⟩
              · rw [List.append_assoc, ← rest, List.take_append_drop]
              · rw [buffered, List.append_assoc]
              · rw [List.length_append]
                omega

/-! Frames. -/

/-- The bodies that fit into a frame. -/
def Fits (msg : FrameMessage) : Prop :=
  msg.body.length ≤ 64 * 2 ^ 20 - 1

theorem toNat_kMaxFrameSize : kMaxFrameSize.toNat = 64 * 2 ^ 20 := by
  decide

theorem toNat_len {msg : FrameMessage} (fits : Fits msg) :
    (1 + UInt64.ofNat msg.body.length).toNat = 1 + msg.body.length := by
  unfold Fits at fits
  have counted : (UInt64.ofNat msg.body.length).toNat = msg.body.length := by
    rw [UInt64.toNat_ofNat']
    exact Nat.mod_eq_of_lt (by omega)
  rw [UInt64.toNat_add, counted]
  exact Nat.mod_eq_of_lt (by
    rw [UInt64.toNat_one]
    omega)

theorem frame_eq {msg : FrameMessage} (fits : Fits msg) :
    frame msg = Codec.bigEndian 4 (1 + msg.body.length) ++
      msg.type.toByte :: msg.body := by
  have digits : ∀ v : UInt64, [(v >>> 24).toUInt8, (v >>> 16).toUInt8,
      (v >>> 8).toUInt8, v.toUInt8] = Codec.bigEndian 4 v.toNat := by
    intro v
    simp only [Codec.bigEndian, List.cons.injEq, and_true]
    refine ⟨?_, ?_, ?_, ?_⟩ <;> apply UInt8.toNat_inj.mp <;>
      simp [Nat.shiftRight_eq_div_pow]
  rw [← toNat_len fits, ← digits]
  rfl

theorem length_frame (msg : FrameMessage) :
    (frame msg).length = 4 + (1 + msg.body.length) := by
  unfold frame
  rw [List.length_append]
  simp only [List.length_cons, List.length_nil]
  omega

theorem send_of_fits {channel : Channel} {msg : FrameMessage} {spare : Nat}
    (valid : channel.valid = true) (fits : Fits msg)
    (serves : Serves channel.turns ((frame msg).length + spare)) :
    ∃ left, Serves left spare ∧
      channel.send msg = (some (.ok ()),
        { channel with
          outgoing := channel.outgoing ++ frame msg, turns := left }) := by
  rw [← Nat.sub_zero (frame msg).length] at serves
  obtain ⟨left, served, sent⟩ := sendAll_full (Nat.zero_le _) serves
    channel.outgoing
  refine ⟨left, served, ?_⟩
  have allowed : ¬(1 + UInt64.ofNat msg.body.length = 0 ∨
      1 + UInt64.ofNat msg.body.length > kMaxFrameSize.toUInt64) := by
    have size := toNat_len fits
    unfold Fits at fits
    rw [← UInt64.toNat_inj, gt_iff_lt, UInt64.lt_iff_toNat_lt, size,
      UInt32.toNat_toUInt64, toNat_kMaxFrameSize, UInt64.toNat_zero]
    omega
  have counted : ¬((frame msg).length : Int) < 0 := by omega
  unfold send
  simp only [valid, Bool.not_true, Bool.false_eq_true, if_false, allowed, sent,
    Option.map_some, counted, List.drop_zero]

theorem toNat_lengthOf {hdr : List UInt8} (four : hdr.length = 4) :
    (lengthOf hdr).toNat = Codec.ofDigits 0 hdr := by
  match hdr, four with
  | [b0, b1, b2, b3], _ => exact ByteReader.toNat_u32 b0 b1 b2 b3

theorem toNat_lengthOf_bigEndian {size : Nat} (small : size < 2 ^ 32) :
    (lengthOf (Codec.bigEndian 4 size)).toNat = size := by
  have power : 256 ^ 4 = 2 ^ 32 := by decide
  rw [toNat_lengthOf (Codec.length_bigEndian 4 size),
    Codec.ofDigits_bigEndian, power, Nat.mod_eq_of_lt small]
  omega

theorem recv_of_frame {channel : Channel} {msg : FrameMessage}
    {rest : List UInt8} {spare : Nat} (valid : channel.valid = true)
    (fits : Fits msg) (starts : channel.incoming = frame msg ++ rest)
    (serves : Serves channel.turns ((frame msg).length + spare)) :
    ∃ left, Serves left spare ∧
      channel.recv = (some (.ok msg),
        { channel with incoming := rest, turns := left }) := by
  have small : 1 + msg.body.length < 2 ^ 32 := by
    unfold Fits at fits
    omega
  have named := toNat_lengthOf_bigEndian small
  rw [frame_eq fits, List.append_assoc] at starts
  rw [length_frame, Nat.add_assoc] at serves
  have header : ([] : List UInt8).length +
      (Codec.bigEndian 4 (1 + msg.body.length)).length = 4 := by simp
  rw [← Codec.length_bigEndian 4 (1 + msg.body.length)] at serves
  obtain ⟨between, served, hdr⟩ := recvAll_full header serves
    (msg.type.toByte :: msg.body ++ rest)
  generalize Codec.bigEndian 4 (1 + msg.body.length) = digits at *
  have whole : ([] : List UInt8).length +
      (msg.type.toByte :: msg.body).length = (lengthOf digits).toNat := by
    rw [named, List.length_cons, List.length_nil]
    omega
  have served' : Serves between
      ((msg.type.toByte :: msg.body).length + spare) := by
    rw [List.length_cons, Nat.add_comm msg.body.length]
    exact served
  obtain ⟨left, finished, payload⟩ := recvAll_full whole served' rest
  refine ⟨left, finished, ?_⟩
  have positive : ¬lengthOf digits = 0 := by
    rw [← UInt32.toNat_inj, named, UInt32.toNat_zero]
    omega
  have allowed : ¬lengthOf digits > kMaxFrameSize := by
    unfold Fits at fits
    rw [gt_iff_lt, UInt32.lt_iff_toNat_lt, named, toNat_kMaxFrameSize]
    omega
  have counted : ¬((lengthOf digits).toNat : Int) ≤ 0 := by omega
  unfold recv
  have arrived : ¬((4 : Nat) : Int) = 0 ∧ ¬((4 : Nat) : Int) < 0 := by decide
  simp only [valid, Bool.not_true, Bool.false_eq_true, if_false, starts, hdr,
    arrived.1, arrived.2, List.nil_append, positive, allowed, payload,
    Option.map_some, counted]
  have cast : MessageType.ofByte msg.type.toByte = msg.type :=
    ByteEnum.ofByte_toByte msg.type
  rw [List.getD_cons_zero, List.drop_one, List.tail_cons, cast]

theorem recv_at_end {channel : Channel} {spare : Nat}
    (valid : channel.valid = true) (ended : channel.incoming = [])
    (serves : Serves channel.turns (1 + spare)) :
    ∃ left, Serves left spare ∧
      channel.recv = (some (failure "peer closed connection"),
        { channel with turns := left }) := by
  have missing : ([] : List UInt8).length < 4 := by decide
  obtain ⟨left, served, hdr⟩ := recvAll_end missing serves
  refine ⟨left, served, ?_⟩
  unfold recv
  simp only [valid, Bool.not_true, Bool.false_eq_true, if_false, ended, hdr,
    if_true]

theorem sendEach_of_fits {channel : Channel} {messages : List FrameMessage}
    {spare : Nat} (valid : channel.valid = true)
    (fits : ∀ msg ∈ messages, Fits msg)
    (serves : Serves channel.turns
      ((messages.flatMap frame).length + spare)) :
    (channel.sendEach messages).1 =
        List.replicate messages.length (.ok ()) ∧
      (channel.sendEach messages).2.outgoing =
        channel.outgoing ++ messages.flatMap frame := by
  induction messages generalizing channel with
  | nil => exact ⟨rfl, (List.append_nil _).symm⟩
  | cons msg messages induction =>
      rw [List.flatMap_cons, List.length_append, Nat.add_assoc] at serves
      obtain ⟨left, served, sent⟩ :=
        send_of_fits valid (fits msg List.mem_cons_self) serves
      generalize after : { channel with
        outgoing := channel.outgoing ++ frame msg, turns := left } = next
        at sent
      have turns : next.turns = left := by rw [← after]
      have outgoing : next.outgoing = channel.outgoing ++ frame msg := by
        rw [← after]
      have valid' : next.valid = true := by
        rw [← after]
        exact valid
      rw [← turns] at served
      obtain ⟨results, written⟩ := induction valid'
        (fun other member => fits other (List.mem_cons_of_mem _ member)) served
      unfold sendEach
      rw [sent]
      dsimp only
      rw [results, written, outgoing, List.flatMap_cons, List.append_assoc]
      exact ⟨rfl, rfl⟩

theorem recvEach_at_end {channel : Channel} {calls : Nat}
    (valid : channel.valid = true) (ended : channel.incoming = [])
    (serves : Serves channel.turns calls) :
    (channel.recvEach calls).1 =
      List.replicate calls (failure "peer closed connection") := by
  induction calls generalizing channel with
  | zero => rfl
  | succ calls induction =>
      rw [Nat.add_comm] at serves
      obtain ⟨left, served, received⟩ := recv_at_end valid ended serves
      generalize after : { channel with turns := left } = next at received
      have turns : next.turns = left := by rw [← after]
      have valid' : next.valid = true := by
        rw [← after]
        exact valid
      have ended' : next.incoming = [] := by
        rw [← after]
        exact ended
      rw [← turns] at served
      unfold recvEach
      rw [received]
      dsimp only
      rw [induction valid' ended' served, List.replicate_succ]

theorem recvEach_of_frames {channel : Channel} {messages : List FrameMessage}
    {further : Nat} (valid : channel.valid = true)
    (fits : ∀ msg ∈ messages, Fits msg)
    (arrives : channel.incoming = messages.flatMap frame)
    (serves : Serves channel.turns
      ((messages.flatMap frame).length + further)) :
    (channel.recvEach (messages.length + further)).1 =
      messages.map .ok ++
        List.replicate further (failure "peer closed connection") := by
  induction messages generalizing channel with
  | nil =>
      rw [List.flatMap_nil, List.length_nil, Nat.zero_add] at serves
      rw [List.length_nil, Nat.zero_add]
      exact recvEach_at_end valid arrives serves
  | cons msg messages induction =>
      rw [List.flatMap_cons] at arrives
      rw [List.flatMap_cons, List.length_append, Nat.add_assoc] at serves
      obtain ⟨left, served, received⟩ :=
        recv_of_frame valid (fits msg List.mem_cons_self) arrives serves
      generalize after : { channel with
        incoming := messages.flatMap frame, turns := left } = next at received
      have turns : next.turns = left := by rw [← after]
      have incoming : next.incoming = messages.flatMap frame := by rw [← after]
      have valid' : next.valid = true := by
        rw [← after]
        exact valid
      rw [← turns] at served
      have later := induction valid'
        (fun other member => fits other (List.mem_cons_of_mem _ member))
        incoming served
      rw [List.length_cons, Nat.add_right_comm]
      unfold recvEach
      rw [received]
      dsimp only
      rw [later, List.map_cons, List.cons_append]

/-- Whatever the socket does, a message that is received is a whole frame,
and nothing else is read. -/
theorem recv_ok {channel after : Channel} {msg : FrameMessage}
    (received : channel.recv = (some (.ok msg), after)) :
    ∃ hdr payload, channel.incoming = hdr ++ payload ++ after.incoming ∧
      hdr.length = 4 ∧ payload.length = Codec.ofDigits 0 hdr ∧
      1 ≤ payload.length ∧ payload.length ≤ 64 * 2 ^ 20 ∧
      payload = msg.type.toByte :: msg.body := by
  unfold recv at received
  split at received
  · cases received
  dsimp only at received
  split at received
  · cases received
  next r returned =>
    split at received
    · cases received
    split at received
    · cases received
    split at received
    · cases received
    split at received
    · cases received
    next nonzero nonnegative positive allowed =>
      obtain ⟨hdr, read, buffered, four⟩ :=
        recvAll_positive (Nat.zero_le 4) returned (by omega)
      rw [List.nil_append] at buffered
      rw [List.length_nil, Nat.zero_add] at four
      rw [Prod.mk.injEq, Option.map_eq_some_iff] at received
      obtain ⟨⟨r', returned', message⟩, rfl⟩ := received
      split at message
      · cases message
      next nonempty =>
        obtain ⟨payload, read', buffered', size⟩ :=
          recvAll_positive (Nat.zero_le _) returned' (by omega)
        rw [List.nil_append] at buffered'
        rw [List.length_nil, Nat.zero_add] at size
        rw [buffered] at positive allowed size
        rw [buffered', Except.ok.injEq] at message
        have least : 1 ≤ payload.length := by
          rw [← UInt32.toNat_inj, UInt32.toNat_zero] at positive
          omega
        have most : payload.length ≤ 64 * 2 ^ 20 := by
          rw [gt_iff_lt, UInt32.lt_iff_toNat_lt, toNat_kMaxFrameSize]
            at allowed
          omega
        refine ⟨hdr, payload, ?_, four, ?_, least, most, ?_⟩
        · rw [List.append_assoc, ← read', ← read]
        · rw [size, toNat_lengthOf four]
        · cases payload with
          | nil => exact absurd least (by decide)
          | cons type body =>
              rw [← message]
              have cast : (MessageType.ofByte type).toByte = type :=
                ByteEnum.toByte_ofByte (α := MessageType) type
              rw [List.getD_cons_zero, cast]
              rfl

/-- Messages arrive as they were sent, in their order, and behind them the
stream ends. On any stream at all, a message that is received was one whole
frame. -/
theorem frames_arrive :
    (∀ (messages : List FrameMessage) (sending receiving : Nat → Turn)
      (further : Nat),
      (∀ msg ∈ messages, msg.body.length ≤ 64 * 2 ^ 20 - 1) →
      Fair sending → Fair receiving →
      ∃ enough, ∀ m n, enough ≤ m → enough ≤ n →
        let sent := sendEach
          { valid := true, turns := beginning sending m } messages
        let received := recvEach {
            valid := true
            incoming := sent.2.outgoing
            turns := beginning receiving n }
          (messages.length + further)
        sent.1 = List.replicate messages.length (.ok ()) ∧
          received.1 = messages.map .ok ++
            List.replicate further (failure "peer closed connection")) ∧
      ∀ (channel after : Channel) (msg : FrameMessage),
        channel.recv = (some (.ok msg), after) →
        ∃ hdr payload, channel.incoming = hdr ++ payload ++ after.incoming ∧
          hdr.length = 4 ∧ payload.length = Codec.ofDigits 0 hdr ∧
          1 ≤ payload.length ∧ payload.length ≤ 64 * 2 ^ 20 ∧
          payload = msg.type.toByte :: msg.body := by
  refine ⟨?_, fun channel after msg => recv_ok⟩
  intro messages sending receiving further fits fair fair'
  obtain ⟨enough, serves⟩ := fair.serves ((messages.flatMap frame).length + 0)
  obtain ⟨enough', serves'⟩ :=
    fair'.serves ((messages.flatMap frame).length + further)
  refine ⟨max enough enough', fun m n moreSent moreRead => ?_⟩
  have turns := serves m (Nat.le_trans (Nat.le_max_left _ _) moreSent)
  have turns' := serves' n (Nat.le_trans (Nat.le_max_right _ _) moreRead)
  intro sent received
  have sender : ({ valid := true, turns := beginning sending m } :
      Channel).valid = true := rfl
  obtain ⟨results, written⟩ := sendEach_of_fits sender fits turns
  refine ⟨results, ?_⟩
  exact recvEach_of_frames rfl fits written turns'

/-- A sender cut at every byte, and a receiver interrupted every other time. -/
theorem frames_arrive_of_ping :
    ∃ enough, ∀ m n, enough ≤ m → enough ≤ n →
      (recvEach {
          valid := true
          incoming := (sendEach {
              valid := true, turns := beginning (fun _ => .moved 0) m }
            [{ type := .ping }, { body := [1, 2, 3] }]).2.outgoing
          turns := beginning
            (fun i => if i % 2 = 0 then .interrupted else .moved i) n }
        3).1 =
        [.ok { type := .ping }, .ok { body := [1, 2, 3] },
          failure "peer closed connection"] := by
  obtain ⟨enough, arrives⟩ := frames_arrive.1
    [{ type := .ping }, { body := [1, 2, 3] }] (fun _ => .moved 0)
    (fun i => if i % 2 = 0 then .interrupted else .moved i) 1 (by decide)
    ⟨fun _ => by simp, fun i => ⟨i, Nat.le_refl i, rfl⟩⟩
    ⟨fun i => by split <;> simp, fun i => ⟨2 * i + 1, by omega, by
      have odd : ¬(2 * i + 1) % 2 = 0 := by omega
      rw [if_neg odd]
      rfl⟩⟩
  exact ⟨enough, fun m n moreSent moreRead =>
    (arrives m n moreSent moreRead).2⟩

end Channel

end BatchFabric
