import Mathlib.Data.BitVec

/-! The steps hash functions are made of, and that no two words meet in one of
them. -/

namespace Mixing

open Function

/-- A word xored with itself shifted down. -/
theorem xorShiftRight_injective {w k : Nat} (positive : 0 < k) :
    Injective fun x : BitVec w => x ^^^ x >>> k := by
  intro x y equal
  have shifted : x ^^^ y = (x ^^^ y) >>> k := by
    rw [BitVec.ushiftRight_xor_distrib]
    have moved := congrArg (fun z => z ^^^ (y ^^^ x >>> k)) equal
    dsimp only at moved
    calc x ^^^ y = x ^^^ x >>> k ^^^ (y ^^^ x >>> k) := by
          rw [BitVec.xor_comm y, ← BitVec.xor_assoc, BitVec.xor_assoc x,
            BitVec.xor_self, BitVec.xor_zero]
      _ = y ^^^ y >>> k ^^^ (y ^^^ x >>> k) := moved
      _ = x >>> k ^^^ y >>> k := by
          rw [BitVec.xor_comm y, BitVec.xor_assoc, ← BitVec.xor_assoc y,
            BitVec.xor_self, BitVec.zero_xor, BitVec.xor_comm]
  have zero : (x ^^^ y).toNat = 0 := by
    by_contra nonzero
    have divided := congrArg BitVec.toNat shifted
    rw [BitVec.toNat_ushiftRight, Nat.shiftRight_eq_div_pow] at divided
    have less := Nat.div_lt_self (Nat.pos_of_ne_zero nonzero)
      (Nat.one_lt_two_pow positive.ne')
    omega
  have same : x ^^^ y = 0 := BitVec.eq_of_toNat_eq zero
  exact BitVec.xor_eq_zero_iff.mp same

theorem xorShift_injective (k : UInt64) (positive : 0 < k.toNat % 64) :
    Injective fun x : UInt64 => x ^^^ x >>> k := by
  intro x y equal
  have bits := congrArg UInt64.toBitVec equal
  dsimp only at bits
  rw [UInt64.toBitVec_xor, UInt64.toBitVec_xor, UInt64.toBitVec_shiftRight,
    UInt64.toBitVec_shiftRight] at bits
  exact UInt64.toBitVec_inj.mp (xorShiftRight_injective (by
    rw [BitVec.toNat_umod]
    exact positive) bits)

theorem xor_injective (mask : UInt64) : Injective fun x : UInt64 =>
    x ^^^ mask := by
  intro x y equal
  have undone := congrArg (· ^^^ mask) equal
  dsimp only at undone
  rwa [UInt64.xor_assoc, UInt64.xor_assoc, UInt64.xor_self, UInt64.xor_zero,
    UInt64.xor_zero] at undone

theorem add_injective (offset : UInt64) : Injective fun x : UInt64 =>
    x + offset := by
  intro x y equal
  have undone := congrArg (· - offset) equal
  dsimp only at undone
  rwa [UInt64.add_sub_cancel, UInt64.add_sub_cancel] at undone

/-- A factor with an inverse, as every odd one has. -/
theorem mul_injective (factor inverse : UInt64)
    (inverts : factor * inverse = 1) : Injective fun x : UInt64 =>
      x * factor := by
  intro x y equal
  have undone := congrArg (· * inverse) equal
  dsimp only at undone
  rwa [UInt64.mul_assoc, UInt64.mul_assoc, inverts, UInt64.mul_one,
    UInt64.mul_one] at undone

end Mixing
