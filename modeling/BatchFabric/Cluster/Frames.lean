import BatchFabric.Cluster.System
import BatchFabric.Protocol.Reading

namespace BatchFabric.Cluster

open Codec OrderedMap PersistenceStore Protocol

/-! What is read from the frames of dispatches and reports. They need not be
within the limits of the decoders, but whatever these accept is what was
written. -/

theorem id_inj {kind : IdKind} {left right : Identifier kind}
    {leftRest rightRest : List UInt8} (fitsLeft : Fits left)
    (fitsRight : Fits right)
    (same : ByteWriter.id left ++ leftRest = ByteWriter.id right ++ rightRest) :
    left = right ∧ leftRest = rightRest := by
  obtain ⟨words, rests⟩ := ByteWriter.delimits_u64 _ _ _ _ same
  have values := congrArg UInt64.toNat words
  rw [UInt64.toNat_ofNat_of_lt' fitsLeft,
    UInt64.toNat_ofNat_of_lt' fitsRight] at values
  exact ⟨Identifier.eq_of_value_eq values, rests⟩

theorem id_rest {kind : IdKind} {left right : Identifier kind}
    {leftRest rightRest : List UInt8}
    (same : ByteWriter.id left ++ leftRest = ByteWriter.id right ++ rightRest) :
    leftRest = rightRest :=
  (ByteWriter.delimits_u64 _ _ _ _ same).2

theorem writeMemberWork_inj (left right : MemberWork)
    (fitsLeft : Fits left.request ∧ Fits left.attempt)
    (fitsRight : Fits right.request ∧ Fits right.attempt)
    (leftRest rightRest : List UInt8)
    (same : writeMemberWork left ++ leftRest =
      writeMemberWork right ++ rightRest) :
    left = right ∧ leftRest = rightRest := by
  unfold writeMemberWork at same
  simp only [List.flatten_cons, List.flatten_nil, List.append_assoc,
    List.nil_append] at same
  obtain ⟨request, same⟩ := id_inj fitsLeft.1 fitsRight.1 same
  obtain ⟨attempt, same⟩ := id_inj fitsLeft.2 fitsRight.2 same
  obtain ⟨work, same⟩ := ByteWriter.delimits_u64 _ _ _ _ same
  obtain ⟨input, same⟩ := ByteWriter.delimits_u64 _ _ _ _ same
  obtain ⟨output, same⟩ := ByteWriter.delimits_u64 _ _ _ _ same
  obtain ⟨payload, rests⟩ := ByteWriter.delimits_string _ _ _ _ same
  cases left
  cases right
  cases request
  cases attempt
  cases work
  cases input
  cases output
  cases payload
  exact ⟨rfl, rests⟩

theorem writeMemberCompletion_inj (left right : MemberCompletion)
    (fitsLeft : Fits left.request ∧ Fits left.attempt)
    (fitsRight : Fits right.request ∧ Fits right.attempt)
    (leftRest rightRest : List UInt8)
    (same : writeMemberCompletion left ++ leftRest =
      writeMemberCompletion right ++ rightRest) :
    left = right ∧ leftRest = rightRest := by
  unfold writeMemberCompletion at same
  simp only [List.flatten_cons, List.flatten_nil, List.append_assoc,
    List.nil_append] at same
  obtain ⟨request, same⟩ := id_inj fitsLeft.1 fitsRight.1 same
  obtain ⟨attempt, same⟩ := id_inj fitsLeft.2 fitsRight.2 same
  obtain ⟨status, same⟩ :=
    ByteWriter.delimits_enum CompletionStatus _ _ _ _ same
  obtain ⟨result, same⟩ := ByteWriter.delimits_string _ _ _ _ same
  obtain ⟨code, same⟩ := ByteWriter.delimits_u32 _ _ _ _ same
  obtain ⟨message, rests⟩ := ByteWriter.delimits_string _ _ _ _ same
  have code : left.errorCode = right.errorCode := by
    rw [← ErrorCode.ofWord_toWord left.errorCode, code,
      ErrorCode.ofWord_toWord]
  cases left
  cases right
  cases request
  cases attempt
  cases status
  cases result
  cases code
  cases message
  exact ⟨rfl, rests⟩

theorem string_ne_nil (s : ByteString) : ByteWriter.string s ≠ [] :=
  nofun

/-- What follows a descriptor is told apart from it, as long as its extensions
are counted in one word. -/
theorem writeDescriptor_rest {left right : ModelDescriptor}
    (fewLeft : left.extensions.length < 2 ^ 32)
    (fewRight : right.extensions.length < 2 ^ 32)
    {leftRest rightRest : List UInt8}
    (same : writeDescriptor left ++ leftRest =
      writeDescriptor right ++ rightRest) :
    leftRest = rightRest := by
  unfold writeDescriptor at same
  simp only [List.flatten_cons, List.flatten_nil, List.append_assoc,
    List.nil_append] at same
  obtain ⟨-, same⟩ := ByteWriter.delimits_u8 _ _ _ _ same
  obtain ⟨-, same⟩ := ByteWriter.delimits_string _ _ _ _ same
  obtain ⟨-, same⟩ := ByteWriter.delimits_string _ _ _ _ same
  obtain ⟨-, same⟩ := ByteWriter.delimits_string _ _ _ _ same
  obtain ⟨-, same⟩ := ByteWriter.delimits_string _ _ _ _ same
  obtain ⟨-, same⟩ := ByteWriter.delimits_u8 _ _ _ _ same
  obtain ⟨-, same⟩ := ByteWriter.delimits_u8 _ _ _ _ same
  obtain ⟨-, same⟩ := ByteWriter.delimits_u8 _ _ _ _ same
  obtain ⟨-, same⟩ := ByteWriter.delimits_u8 _ _ _ _ same
  obtain ⟨-, same⟩ := ByteWriter.delimits_u8 _ _ _ _ same
  obtain ⟨-, same⟩ := ByteWriter.delimits_u32 _ _ _ _ same
  obtain ⟨-, same⟩ := ByteWriter.delimits_u32 _ _ _ _ same
  obtain ⟨-, same⟩ := ByteWriter.delimits_u64 _ _ _ _ same
  obtain ⟨-, same⟩ := ByteWriter.delimits_string _ _ _ _ same
  obtain ⟨-, same⟩ := ByteWriter.delimits_string _ _ _ _ same
  obtain ⟨counts, same⟩ := ByteWriter.delimits_u32 _ _ _ _ same
  have lengths := congrArg UInt32.toNat counts
  rw [UInt32.toNat_ofNat_of_lt' fewLeft, UInt32.toNat_ofNat_of_lt' fewRight]
    at lengths
  exact (ByteWriter.delimits_string.flatMap _ _ lengths _ _ same).2

/-! Dispatches. -/

theorem executionOf_dispatchFrame_iff (exec read : BatchExecution) :
    executionOf (dispatchFrame exec) = some read ↔
      WireExecution read ∧ writeExec exec = writeExec read :=
  whole_eq_some_iff decodes_readExec (writeExec exec) read

theorem wire_of_executionOf {frame : FrameMessage} {exec : BatchExecution}
    (read : executionOf frame = some exec) : WireExecution exec := by
  unfold executionOf at read
  split at read
  · exact ((whole_eq_some_iff decodes_readExec _ exec).mp read).1
  · cases read

theorem batch_of_dispatchFrame {exec read : BatchExecution}
    (fits : Fits exec.batch)
    (found : executionOf (dispatchFrame exec) = some read) :
    read.batch = exec.batch := by
  obtain ⟨wire, same⟩ := (executionOf_dispatchFrame_iff exec read).mp found
  unfold writeExec at same
  simp only [List.flatten_cons] at same
  exact (id_inj fits wire.batch same).1.symm

theorem generation_of_dispatchFrame {exec read : BatchExecution}
    (fits : Fits exec.generation)
    (found : executionOf (dispatchFrame exec) = some read) :
    read.generation = exec.generation := by
  obtain ⟨wire, same⟩ := (executionOf_dispatchFrame_iff exec read).mp found
  unfold writeExec at same
  simp only [List.flatten_cons] at same
  exact (id_inj fits wire.generation (id_rest same)).1.symm

/-- A dispatch that can be sent and read carries the work it was made for. -/
theorem members_of_dispatchFrame {exec read : BatchExecution}
    (small : sendable (dispatchFrame exec) = true)
    (fits : ∀ m ∈ exec.members, Fits m.request ∧ Fits m.attempt)
    (found : executionOf (dispatchFrame exec) = some read) :
    read.members = exec.members := by
  obtain ⟨wire, same⟩ := (executionOf_dispatchFrame_iff exec read).mp found
  have few : exec.descriptor.extensions.length < 2 ^ 32 := by
    have counted :=
      length_le_length_flatMap string_ne_nil exec.descriptor.extensions
    have bytes : (exec.descriptor.extensions.flatMap
        ByteWriter.string).length ≤ (dispatchFrame exec).body.length := by
      unfold dispatchFrame encodeDispatch writeExec writeDescriptor
      simp only [List.flatten_cons, List.flatten_nil, List.length_append]
      omega
    have limit := of_decide_eq_true small
    have most : Channel.kMaxFrameSize.toNat = 67108864 := by decide
    omega
  have few' : read.descriptor.extensions.length < 2 ^ 32 := by
    have limit := wire.descriptor.extensions.1
    omega
  unfold writeExec at same
  simp only [List.flatten_cons, List.flatten_nil, List.append_nil] at same
  have same := id_rest (id_rest (id_rest (id_rest same)))
  have same := writeDescriptor_rest few few' same
  obtain ⟨-, same⟩ := ByteWriter.delimits_u32 _ _ _ _ same
  apply (flatMap_inj ?_ writeMemberWork_inj fits ?_ same).symm
  · exact nofun
  · exact fun m member =>
      ⟨(wire.members m member).request, (wire.members m member).attempt⟩

/-! Reports. -/

theorem completionOf_completeFrame_iff (comp read : BatchCompletion) :
    completionOf (completeFrame comp) = some read ↔
      WireCompletion read ∧ writeCompl comp = writeCompl read :=
  whole_eq_some_iff decodes_readCompl (writeCompl comp) read

theorem batch_of_completeFrame {comp read : BatchCompletion}
    (fits : Fits comp.batch)
    (found : completionOf (completeFrame comp) = some read) :
    read.batch = comp.batch := by
  obtain ⟨wire, same⟩ := (completionOf_completeFrame_iff comp read).mp found
  unfold writeCompl at same
  simp only [List.flatten_cons] at same
  have same := id_rest (id_rest (id_rest (id_rest same)))
  exact (id_inj fits wire.batch same).1.symm

theorem generation_of_completeFrame {comp read : BatchCompletion}
    (fits : Fits comp.generation)
    (found : completionOf (completeFrame comp) = some read) :
    read.generation = comp.generation := by
  obtain ⟨wire, same⟩ := (completionOf_completeFrame_iff comp read).mp found
  unfold writeCompl at same
  simp only [List.flatten_cons] at same
  have same := id_rest (id_rest (id_rest same))
  exact (id_inj fits wire.generation same).1.symm

theorem members_of_completeFrame {comp read : BatchCompletion}
    (fits : ∀ m ∈ comp.members, Fits m.request ∧ Fits m.attempt)
    (found : completionOf (completeFrame comp) = some read) :
    read.members = comp.members := by
  obtain ⟨wire, same⟩ := (completionOf_completeFrame_iff comp read).mp found
  unfold writeCompl at same
  simp only [List.flatten_cons, List.flatten_nil, List.append_nil] at same
  have same := id_rest (id_rest (id_rest (id_rest (id_rest same))))
  obtain ⟨-, same⟩ := ByteWriter.delimits_u32 _ _ _ _ same
  apply (flatMap_inj ?_ writeMemberCompletion_inj fits ?_ same).symm
  · exact nofun
  · exact fun m member =>
      ⟨(wire.members m member).request, (wire.members m member).attempt⟩

end BatchFabric.Cluster
