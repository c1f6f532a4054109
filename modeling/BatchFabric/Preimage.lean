import BatchFabric.Identity

namespace BatchFabric

open Codec

/-! The bytes hashed for a key determine the descriptor. -/

open ByteWriter in
/-- Fewer than `2 ^ 32` extensions are counted without wrapping. -/
theorem CompatibilityKey.preimage_injective {left right : ModelDescriptor}
    (fewLeft : left.extensions.length < 2 ^ 32)
    (fewRight : right.extensions.length < 2 ^ 32)
    (same : preimage left = preimage right) : left = right := by
  unfold preimage at same
  simp only [List.append_assoc] at same
  obtain ⟨_, same⟩ := delimits_u8 _ _ _ _ same
  obtain ⟨model, same⟩ := delimits_string _ _ _ _ same
  obtain ⟨revision, same⟩ := delimits_string _ _ _ _ same
  obtain ⟨adapter, same⟩ := delimits_string _ _ _ _ same
  obtain ⟨tokenizer, same⟩ := delimits_string _ _ _ _ same
  obtain ⟨phase, same⟩ := delimits_enum Phase _ _ _ _ same
  obtain ⟨dtype, same⟩ := delimits_enum Dtype _ _ _ _ same
  obtain ⟨backend, same⟩ := delimits_enum Backend _ _ _ _ same
  obtain ⟨mode, same⟩ := delimits_enum ExecutionMode _ _ _ _ same
  obtain ⟨device, same⟩ := delimits_enum Backend _ _ _ _ same
  obtain ⟨major, same⟩ := delimits_u32 _ _ _ _ same
  obtain ⟨minor, same⟩ := delimits_u32 _ _ _ _ same
  obtain ⟨memory, same⟩ := delimits_u64 _ _ _ _ same
  obtain ⟨shape, same⟩ := delimits_string _ _ _ _ same
  obtain ⟨sampling, same⟩ := delimits_string _ _ _ _ same
  obtain ⟨count, same⟩ := delimits_u32 _ _ _ _ same
  have lengths : left.extensions.length = right.extensions.length := by
    have same := congrArg UInt32.toNat count
    rwa [UInt32.toNat_ofNat_of_lt' fewLeft,
      UInt32.toNat_ofNat_of_lt' fewRight] at same
  have extensions : left.extensions = right.extensions :=
    (delimits_string.flatMap _ _ lengths [] [] (by
      simpa only [List.append_nil] using same)).1
  obtain ⟨_, _, _, _, _, _, _, _, ⟨_, _, _, _⟩, _, _, _⟩ := left
  obtain ⟨_, _, _, _, _, _, _, _, ⟨_, _, _, _⟩, _, _, _⟩ := right
  dsimp only at *
  subst model revision adapter tokenizer phase dtype backend mode device major
    minor memory shape sampling extensions
  rfl

end BatchFabric
