import BatchFabric.Protocol.Programs

/-! No decoder reads outside its buffer, and what it accepts is read to the
end. -/

namespace BatchFabric

open Decoding PersistenceStore

namespace Protocol

def readWhole {read : ByteReader.Read α} (program : Program read)
    (buffer : Buffer) : Option α × Cursor buffer :=
  match program.run {} with
  | (.error _, r) => (none, r)
  | (.ok value, r) => (if r.remaining = 0 then some value else none, r)

/-- The decoder of the kind, on the bytes of a vector. -/
def decodeBuffer (kind : WireKind) (buffer : Buffer) :
    Option WireMessage × Cursor buffer :=
  match kind with
  | .register => (readWhole .register buffer).map (Option.map .register) id
  | .submit => (readWhole .metadata buffer).map (Option.map .submit) id
  | .submitResp =>
      (readWhole .submitResp buffer).map (Option.map .submitResp) id
  | .dispatch => (readWhole .exec buffer).map (Option.map .dispatch) id
  | .complete => (readWhole .compl buffer).map (Option.map .complete) id
  | .ack => (readWhole .ack buffer).map (Option.map .ack) id
  | .rollEpoch => (readWhole (.id .epoch) buffer).map (Option.map .rollEpoch) id
  | .status => (if decodeStatus buffer.bytes then some .status else none, {})
  | .statusResp =>
      (readWhole .statusResp buffer).map (Option.map .statusResp) id
  | .cancel => (readWhole .cancel buffer).map (Option.map .cancel) id

end Protocol

namespace PersistenceStore

/-- What `parse` returns, and the cursors over the checksum and over the
records. -/
structure Parsed (buffer : Buffer) where
  result : Except Error PersistedRuntime
  checksum : Cursor buffer := {}
  records : Cursor buffer := {}

def parseBuffer (buffer : Buffer) : Parsed buffer :=
  if buffer.size < 44 then { result := .error (corrupt "truncated header") }
  else
    let body := ({} : Cursor buffer).fetch (buffer.size - 32)
    let sum := body.2.fetch 32
    if (Sha256.digest body.1).toList ≠ sum.1 then {
      result := .error (corrupt "checksum mismatch")
      checksum := sum.2 }
    else
      let out := Program.file.run ({} : Cursor buffer)
      { result := do
          let file ← out.1
          let _ ← file.batches.foldlM claimMembers ∅
          if out.2.remaining ≠ 32 then .error (corrupt "trailing garbage")
          else .ok file.runtime
        checksum := sum.2
        records := out.2 }

end PersistenceStore

theorem Cursor.unread_start {buffer : Buffer} :
    ({} : Cursor buffer).unread = buffer.bytes :=
  List.drop_zero

theorem Cursor.Within.eq_zero_iff {buffer : Buffer} {r : Cursor buffer}
    (within : r.Within) : r.remaining = 0 ↔ r.unread.length = 0 := by
  rw [← UInt64.toNat_inj, within.toNat_remaining, UInt64.toNat_zero]

namespace Protocol

variable {buffer : Buffer}

/-- A run that stays inside the buffer, and accepts only when it has reached
the end. -/
structure Covers (accepted : Bool) (r : Cursor buffer) : Prop where
  within : r.Within
  complete : accepted = true → r.pos.toNat = buffer.bytes.length

theorem readWhole_covers {read : ByteReader.Read α} (program : Program read)
    (buffer : Buffer) :
    (readWhole program buffer).1 = whole read buffer.bytes ∧
      Covers (readWhole program buffer).1.isSome
        (readWhole program buffer).2 := by
  have start : ({} : Cursor buffer).Within := Cursor.within_start
  obtain ⟨inside, reads⟩ := program.run_within start
  rw [Cursor.unread_start] at reads
  unfold readWhole whole
  rw [reads]
  cases out : program.run ({} : Cursor buffer) with
  | mk result r =>
      rw [out] at inside
      change r.Within at inside
      cases result with
      | error error => exact ⟨rfl, inside, nofun⟩
      | ok value =>
          refine ⟨if_congr inside.eq_zero_iff rfl rfl, inside, ?_⟩
          intro accepted
          have ended : r.remaining = 0 := by
            by_contra left
            dsimp only at accepted
            rw [if_neg left] at accepted
            cases accepted
          have empty := inside.eq_zero_iff.mp ended
          have below := inside.below
          unfold Cursor.unread at empty
          rw [List.length_drop] at empty
          exact Nat.le_antisymm below (Nat.le_of_sub_eq_zero empty)

theorem decodeSubmit_eq_whole (bytes : List UInt8) :
    decodeSubmit bytes = whole readMeta bytes := by
  unfold decodeSubmit whole
  cases readMeta bytes <;> rfl

theorem decodeBuffer_covers (kind : WireKind) (buffer : Buffer) :
    (decodeBuffer kind buffer).1 = WireMessage.decode kind buffer.bytes ∧
      Covers (decodeBuffer kind buffer).1.isSome
        (decodeBuffer kind buffer).2 := by
  have mapped : ∀ {α : Type} {read : ByteReader.Read α}
      (program : Program read) (message : α → WireMessage),
      ((readWhole program buffer).map (Option.map message) id).1 =
          (whole read buffer.bytes).map message ∧
        Covers ((readWhole program buffer).map (Option.map message) id).1.isSome
          ((readWhole program buffer).map (Option.map message) id).2 := by
    intro α read program message
    obtain ⟨same, covers⟩ := readWhole_covers program buffer
    refine ⟨congrArg (Option.map message) same, covers.within, ?_⟩
    intro accepted
    apply covers.complete
    rw [← accepted]
    exact Option.isSome_map.symm
  cases kind with
  | register => exact mapped .register _
  | submit =>
      unfold WireMessage.decode
      rw [decodeSubmit_eq_whole]
      exact mapped .metadata _
  | submitResp => exact mapped .submitResp _
  | dispatch => exact mapped .exec _
  | complete => exact mapped .compl _
  | ack => exact mapped .ack _
  | rollEpoch => exact mapped (.id .epoch) _
  | status =>
      refine ⟨rfl, Cursor.within_start, ?_⟩
      intro accepted
      unfold decodeBuffer decodeStatus at accepted
      cases bytes : buffer.bytes with
      | nil => rfl
      | cons byte rest =>
          rw [bytes] at accepted
          cases accepted
  | statusResp => exact mapped .statusResp _
  | cancel => exact mapped .cancel _

end Protocol

namespace PersistenceStore

variable {buffer : Buffer}

/-- The two parts of the checksum's check. -/
theorem fetch_checksum (large : 44 ≤ buffer.bytes.length) :
    let body := ({} : Cursor buffer).fetch (buffer.size - 32)
    body.1 = buffer.bytes.take (buffer.bytes.length - 32) ∧
      (body.2.fetch 32).1 = buffer.bytes.drop (buffer.bytes.length - 32) ∧
      (body.2.fetch 32).2.Within := by
  have start : ({} : Cursor buffer).Within := Cursor.within_start
  have size : (buffer.size - 32).toNat = buffer.bytes.length - 32 := by
    rw [UInt64.toNat_sub_of_le, Cursor.toNat_size]
    · rfl
    · rw [UInt64.le_iff_toNat_le, Cursor.toNat_size]
      exact Nat.le_trans (by decide) large
  have room : (buffer.size - 32).toNat ≤
      ({} : Cursor buffer).unread.length := by
    rw [size, Cursor.unread_start]
    exact Nat.sub_le _ _
  obtain ⟨inside, hashed, rest⟩ := start.fetch room
  rw [size, Cursor.unread_start] at hashed rest
  have tail : (buffer.bytes.drop (buffer.bytes.length - 32)).length = 32 := by
    rw [List.length_drop]
    omega
  have room' : (32 : UInt64).toNat ≤
      (({} : Cursor buffer).fetch (buffer.size - 32)).2.unread.length := by
    rw [rest, tail]
    decide
  obtain ⟨inside', stored, _⟩ := inside.fetch room'
  rw [rest] at stored
  refine ⟨hashed, stored.trans ?_, inside'⟩
  apply List.take_of_length_le
  rw [tail]
  decide

theorem parseBuffer_covers (buffer : Buffer) :
    (parseBuffer buffer).result = parse buffer.bytes ∧
      (parseBuffer buffer).checksum.Within ∧
      (parseBuffer buffer).records.Within ∧
      ∀ rt, (parseBuffer buffer).result = .ok rt →
        (parseBuffer buffer).records.pos.toNat =
          buffer.bytes.length - 32 := by
  have start : ({} : Cursor buffer).Within := Cursor.within_start
  have short : buffer.size < 44 ↔ buffer.bytes.length < 44 := by
    rw [UInt64.lt_iff_toNat_lt, Cursor.toNat_size]
    rfl
  unfold parseBuffer parse
  split
  next small =>
    rw [if_pos (short.mp small)]
    exact ⟨rfl, start, start, nofun⟩
  next large =>
    have enough : ¬buffer.bytes.length < 44 := fun small =>
      large (short.mpr small)
    obtain ⟨hashed, stored, inside⟩ := fetch_checksum (Nat.not_lt.mp enough)
    rw [if_neg enough]
    dsimp only
    rw [hashed, stored]
    split
    next differs => exact ⟨rfl, inside, start, nofun⟩
    next =>
      obtain ⟨inside', reads⟩ := Program.file.run_within start
      rw [Cursor.unread_start] at reads
      rw [reads]
      cases out : Program.file.run ({} : Cursor buffer) with
      | mk result r =>
          rw [out] at inside'
          change r.Within at inside'
          cases result with
          | error error => exact ⟨rfl, inside, inside', nofun⟩
          | ok file =>
              have left : r.remaining = 32 ↔ r.unread.length = 32 := by
                rw [← UInt64.toNat_inj, inside'.toNat_remaining]
                rfl
              cases claimed : file.batches.foldlM claimMembers ∅ with
              | error error =>
                  simp only [Except.map, bind, Except.bind, claimed]
                  exact ⟨trivial, inside, inside', nofun⟩
              | ok active =>
                  simp only [Except.map, bind, Except.bind, claimed]
                  refine ⟨if_congr (not_congr left) rfl rfl, inside, inside',
                    ?_⟩
                  intro rt accepted
                  have ended : r.remaining = 32 := by
                    by_contra trailing
                    rw [if_pos trailing] at accepted
                    cases accepted
                  have rest := left.mp ended
                  have below := inside'.below
                  unfold Cursor.unread at rest
                  rw [List.length_drop] at rest
                  omega

end PersistenceStore

/-- Every decoder of the protocol and the parser of the state file return
what their readers find, touch no byte outside the buffer, and never leave it
with their position. A decoder accepts only what it has read to the end, the
parser only what it has read up to the checksum. -/
theorem decoders_within (buffer : Buffer) :
    (∀ kind, let out := Protocol.decodeBuffer kind buffer
      out.1 = Protocol.WireMessage.decode kind buffer.bytes ∧
        (∀ i ∈ out.2.touched, i < buffer.bytes.length) ∧
        (∀ p ∈ out.2.positions, p.toNat ≤ buffer.bytes.length) ∧
        (out.1.isSome = true →
          out.2.touched = List.range buffer.bytes.length)) ∧
      let out := parseBuffer buffer
      out.result = parse buffer.bytes ∧
        (∀ i ∈ out.checksum.touched, i < buffer.bytes.length) ∧
        (∀ i ∈ out.records.touched, i < buffer.bytes.length) ∧
        (∀ p ∈ out.records.positions, p.toNat ≤ buffer.bytes.length) ∧
        ∀ rt, out.result = .ok rt →
          out.records.touched = List.range (buffer.bytes.length - 32) := by
  have inside : ∀ {r : Cursor buffer}, r.Within →
      ∀ i ∈ r.touched, i < buffer.bytes.length := by
    intro r within i listed
    rw [within.touched] at listed
    exact Nat.lt_of_lt_of_le (List.mem_range.mp listed) within.below
  constructor
  · intro kind
    obtain ⟨same, covers⟩ := Protocol.decodeBuffer_covers kind buffer
    refine ⟨same, inside covers.within, covers.within.positions, ?_⟩
    intro accepted
    rw [covers.within.touched, covers.complete accepted]
  · obtain ⟨same, checksum, records, complete⟩ := parseBuffer_covers buffer
    refine ⟨same, inside checksum, inside records, records.positions, ?_⟩
    intro rt parsed
    rw [records.touched, complete rt parsed]

end BatchFabric
