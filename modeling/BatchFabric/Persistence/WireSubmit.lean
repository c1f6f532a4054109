import BatchFabric.Persistence.Reading

/-! The submission message of the wire protocol. -/

namespace BatchFabric

open Decoding ByteReader

namespace Protocol

/-- The wire reader checks none of the enumerations. -/
def readDesc : Read ModelDescriptor :=
  readDescriptorChecked fun _ _ _ _ _ => true

def writeMeta (m : RequestMetadata) : List UInt8 := [
  ByteWriter.id m.tenant,
  ByteWriter.id m.session,
  ByteWriter.id m.sequence,
  writeDescriptor m.descriptor,
  ByteWriter.u64 m.tokens.input,
  ByteWriter.u64 m.tokens.output,
  ByteWriter.u64 m.work.value,
  ByteWriter.u64 m.memoryBytes,
  ByteWriter.i64 m.deadline.absoluteNs,
  ByteWriter.u8 (ByteEnum.toByte m.latency),
  ByteWriter.u8 (ByteEnum.toByte m.priority),
  ByteWriter.string m.payload].flatten

def readMeta : Read RequestMetadata := do
  let tenant ← ByteReader.id .tenant
  let session ← ByteReader.id .session
  let sequence ← ByteReader.id .sequence
  let descriptor ← readDesc
  let tin ← u64
  let tout ← u64
  let tw ← u64
  let mem ← u64
  let dl ← i64
  let lat ← u8
  let pri ← u8
  let payload ← string
  pure {
    tenant := tenant
    session := session
    sequence := sequence
    descriptor := descriptor
    tokens := { input := tin, output := tout }
    work := { value := tw }
    memoryBytes := mem
    deadline := { absoluteNs := dl }
    latency := ByteEnum.ofByte lat
    priority := ByteEnum.ofByte pri
    payload := payload }

def decodeSubmit (bytes : List UInt8) : Option RequestMetadata :=
  match readMeta bytes with
  | .error _ => none
  | .ok (metadata, rest) => if rest.length = 0 then some metadata else none

/-- The descriptors the wire reader accepts. -/
abbrev WireDescriptor : ModelDescriptor → Prop :=
  ModelDescriptor.ReadableWith fun _ _ _ _ _ => true

structure WireMetadata (m : RequestMetadata) : Prop where
  tenant : PersistenceStore.Fits m.tenant
  session : PersistenceStore.Fits m.session
  sequence : PersistenceStore.Fits m.sequence
  descriptor : WireDescriptor m.descriptor
  deadline : InInt64 m.deadline.absoluteNs
  payload : m.payload.Short

theorem decodes_readMeta : Decodes readMeta writeMeta WireMetadata := by
  apply Continues.decodes
  · apply Continues.field RequestMetadata.tenant (decodes_id _)
    intro tenant _
    apply Continues.field RequestMetadata.session (decodes_id _)
    intro session _
    apply Continues.field RequestMetadata.sequence (decodes_id _)
    intro sequence _
    apply Continues.field RequestMetadata.descriptor
      (decodes_readDescriptorChecked _)
    intro descriptor _
    apply Continues.field (fun m : RequestMetadata => m.tokens.input)
      decodes_u64
    intro tin _
    apply Continues.field (fun m : RequestMetadata => m.tokens.output)
      decodes_u64
    intro tout _
    apply Continues.field (fun m : RequestMetadata => m.work.value) decodes_u64
    intro tw _
    apply Continues.field RequestMetadata.memoryBytes decodes_u64
    intro mem _
    apply Continues.field
      (fun m : RequestMetadata => m.deadline.absoluteNs) decodes_i64
    intro dl _
    apply Continues.field
      (fun m : RequestMetadata => ByteEnum.toByte m.latency) decodes_u8
    intro lat _
    apply Continues.field
      (fun m : RequestMetadata => ByteEnum.toByte m.priority) decodes_u8
    intro pri _
    apply Continues.field RequestMetadata.payload decodes_string
    intro payload _
    apply Continues.done
    intro m
    simp only [and_assoc, true_and]
    constructor
    · rintro ⟨rfl, rfl, rfl, rfl, rfl, rfl, rfl, rfl, rfl, rfl, rfl, rfl⟩
      simp only [ByteEnum.ofByte_toByte]
    · rintro rfl
      simp [ByteEnum.toByte_ofByte]
  · exact fun _ => rfl
  · intro m
    constructor
    · rintro ⟨tenant, session, sequence, descriptor, -, -, -, -, deadline, -, -,
        payload, -⟩
      exact ⟨tenant, session, sequence, descriptor, deadline, payload⟩
    · rintro ⟨tenant, session, sequence, descriptor, deadline, payload⟩
      exact ⟨tenant, session, sequence, descriptor, trivial, trivial, trivial,
        trivial, deadline, trivial, trivial, payload, trivial⟩

theorem decodeSubmit_eq_some_iff (bytes : List UInt8) (m : RequestMetadata) :
    decodeSubmit bytes = some m ↔ WireMetadata m ∧ bytes = writeMeta m := by
  have whole := decodes_readMeta bytes m []
  rw [List.append_nil] at whole
  rw [← whole]
  unfold decodeSubmit
  cases read : readMeta bytes with
  | error error => simp
  | ok out =>
      obtain ⟨metadata, rest⟩ := out
      cases rest with
      | nil => simp
      | cons byte rest => simp

end Protocol

end BatchFabric
