import BatchFabric.Hash
import BatchFabric.Id
import BatchFabric.Library.Codec
import BatchFabric.Library.Decoding

namespace BatchFabric

def kDefaultMaxStringLen : Nat := 1 <<< 20

/-- Times are carried as unbounded integers and cast on the wire. -/
abbrev TimePoint := Int

def castToU64 (value : Int) : UInt64 :=
  UInt64.ofInt value

def castToI64 (value : UInt64) : Int :=
  if value.toNat < 2 ^ 63 then value.toNat else value.toNat - 2 ^ 64

/-! What each call on the writer appends. -/

namespace ByteWriter

def u8 (v : UInt8) : List UInt8 := [v]

def u32 (v : UInt32) : List UInt8 :=
  [(v >>> 24).toUInt8, (v >>> 16).toUInt8, (v >>> 8).toUInt8, v.toUInt8]

def u64 (v : UInt64) : List UInt8 :=
  [(v >>> 56).toUInt8, (v >>> 48).toUInt8, (v >>> 40).toUInt8,
    (v >>> 32).toUInt8, (v >>> 24).toUInt8, (v >>> 16).toUInt8,
    (v >>> 8).toUInt8, v.toUInt8]

def i64 (v : Int) : List UInt8 :=
  u64 (castToU64 v)

def size (count : Nat) : List UInt8 :=
  u64 (UInt64.ofNat count)

def string (s : ByteString) : List UInt8 :=
  size s.bytes.length ++ s.bytes

def id (id : Identifier kind) : List UInt8 :=
  u64 (UInt64.ofNat id.value)

def digest (d : Digest) : List UInt8 :=
  d.toList

theorem u32_eq_bigEndian (v : UInt32) :
    u32 v = Codec.bigEndian 4 v.toNat := by
  simp only [u32, Codec.bigEndian, List.cons.injEq, and_true]
  refine ⟨?_, ?_, ?_, ?_⟩ <;> apply UInt8.toNat_inj.mp <;>
    simp [Nat.shiftRight_eq_div_pow]

theorem u64_eq_bigEndian (v : UInt64) :
    u64 v = Codec.bigEndian 8 v.toNat := by
  simp only [u64, Codec.bigEndian, List.cons.injEq, and_true]
  refine ⟨?_, ?_, ?_, ?_, ?_, ?_, ?_, ?_⟩ <;> apply UInt8.toNat_inj.mp <;>
    simp [Nat.shiftRight_eq_div_pow]

open Codec

theorem injective_of_digits {α : Type} {encode : α → List UInt8}
    {value : α → Nat} (width : Nat) (injective : Function.Injective value)
    (bounded : ∀ v, value v < 256 ^ width)
    (digits : ∀ v, encode v = bigEndian width (value v)) :
    Function.Injective encode := by
  intro left right same
  rw [digits, digits] at same
  apply injective
  have read : ∀ v, ofDigits 0 (bigEndian width (value v)) = value v := by
    intro v
    rw [ofDigits_bigEndian, Nat.zero_mul, Nat.zero_add,
      Nat.mod_eq_of_lt (bounded v)]
  rw [← read left, ← read right, same]

theorem delimits_u8 : SelfDelimiting u8 :=
  .of_length (fun _ _ same => List.singleton_inj.mp same) 1 (fun _ => rfl)

theorem delimits_u32 : SelfDelimiting u32 :=
  .of_length
    (injective_of_digits 4 (fun _ _ same => UInt32.toNat_inj.mp same)
      (fun v => v.toNat_lt) u32_eq_bigEndian)
    4 (fun _ => rfl)

theorem delimits_u64 : SelfDelimiting u64 :=
  .of_length
    (injective_of_digits 8 (fun _ _ same => UInt64.toNat_inj.mp same)
      (fun v => v.toNat_lt) u64_eq_bigEndian)
    8 (fun _ => rfl)

theorem delimits_string : SelfDelimiting string := by
  intro left right leftRest rightRest same
  unfold string at same
  rw [List.append_assoc, List.append_assoc] at same
  obtain ⟨sizes, rest⟩ := delimits_u64 _ _ _ _ same
  have lengths : left.bytes.length = right.bytes.length := by
    have same := congrArg UInt64.toNat sizes
    rwa [UInt64.toNat_ofNat_of_lt' left.bounded,
      UInt64.toNat_ofNat_of_lt' right.bounded] at same
  obtain ⟨bytes, rests⟩ := List.append_inj rest lengths
  exact ⟨ByteString.eq_of_bytes_eq bytes, rests⟩

theorem delimits_enum (α : Type) [ByteEnum α] :
    SelfDelimiting fun value : α => u8 (ByteEnum.toByte value) := by
  apply delimits_u8.comp
  intro left right same
  rw [← ByteEnum.ofByte_toByte left, ← ByteEnum.ofByte_toByte right, same]

end ByteWriter

/-! The reader, as the bytes it has not read yet. A failed read says
nothing but that it failed. -/

namespace ByteReader

abbrev Read (α : Type) := Decoding.Decoder Unit UInt8 α

def take (count : Nat) : Read (List UInt8) := fun bytes =>
  if count ≤ bytes.length then .ok (bytes.take count, bytes.drop count)
  else .error ()

def u8 : Read UInt8
  | v :: rest => .ok (v, rest)
  | [] => .error ()

def u32 : Read UInt32
  | b0 :: b1 :: b2 :: b3 :: rest =>
      .ok ((b0.toUInt32 <<< 24) ||| (b1.toUInt32 <<< 16) |||
        (b2.toUInt32 <<< 8) ||| b3.toUInt32, rest)
  | _ => .error ()

def u64 : Read UInt64 :=
  (fun bytes => bytes.foldl (fun v byte => (v <<< 8) ||| byte.toUInt64) 0) <$>
    take 8

def i64 : Read Int :=
  castToI64 <$> u64

def string : Read ByteString := do
  let len ← u64
  Decoding.ensure (len.toNat ≤ kDefaultMaxStringLen) ()
  ByteString.ofBytes <$> take len.toNat

def id (kind : IdKind) : Read (Identifier kind) :=
  (fun v => { value := v.toNat }) <$> u64

def digest : Read Digest :=
  (fun bytes => Vector.ofFn fun i => bytes.getD i 0) <$> take 32

open Decoding

theorem decodes_take (count : Nat) :
    Decodes (take count) (fun bytes => bytes)
      (fun bytes => bytes.length = count) := by
  intro input bytes rest
  unfold take
  split
  · next enough =>
      rw [Except.ok.injEq, Prod.mk.injEq]
      constructor
      · rintro ⟨rfl, rfl⟩
        exact ⟨List.length_take_of_le enough, (List.take_append_drop _ _).symm⟩
      · rintro ⟨rfl, rfl⟩
        exact ⟨List.take_left, List.drop_left⟩
  · next short =>
      constructor
      · intro taken
        cases taken
      · rintro ⟨rfl, rfl⟩
        exact absurd (by simp) short

theorem decodes_u8 : Decodes u8 ByteWriter.u8 fun _ => True := by
  intro input v rest
  cases input with
  | nil => simp [u8, ByteWriter.u8]
  | cons head tail => simp [u8, ByteWriter.u8]

/-- The low digits of a number can be or-ed in. -/
theorem shiftLeft_or {high low width : Nat} (small : low < 2 ^ width) :
    high <<< width ||| low = high * 2 ^ width + low := by
  rw [← Nat.shiftLeft_add_eq_or_of_lt small, Nat.shiftLeft_eq]

theorem toNat_u32 (b0 b1 b2 b3 : UInt8) :
    ((b0.toUInt32 <<< 24) ||| (b1.toUInt32 <<< 16) |||
      (b2.toUInt32 <<< 8) ||| b3.toUInt32).toNat =
        Codec.ofDigits 0 [b0, b1, b2, b3] := by
  have lt0 : b0.toNat < 256 := b0.toNat_lt
  have lt1 : b1.toNat < 256 := b1.toNat_lt
  have lt2 : b2.toNat < 256 := b2.toNat_lt
  have lt3 : b3.toNat < 256 := b3.toNat_lt
  have shifted (b : UInt8) (width : UInt32) (room : width.toNat ≤ 24) :
      (b.toUInt32 <<< width).toNat = b.toNat <<< width.toNat := by
    have lt : b.toNat < 256 := b.toNat_lt
    have power : 2 ^ width.toNat ≤ 2 ^ 24 :=
      Nat.pow_le_pow_right (by decide) room
    have product : b.toNat * 2 ^ width.toNat ≤ 255 * 2 ^ 24 :=
      Nat.mul_le_mul (by omega) power
    rw [UInt32.toNat_shiftLeft, UInt8.toNat_toUInt32,
      Nat.mod_eq_of_lt (by omega : width.toNat < 32),
      Nat.mod_eq_of_lt]
    rw [Nat.shiftLeft_eq]
    omega
  rw [UInt32.toNat_or, UInt32.toNat_or, UInt32.toNat_or,
    shifted b0 24 (by decide), shifted b1 16 (by decide),
    shifted b2 8 (by decide), UInt8.toNat_toUInt32, Nat.or_assoc, Nat.or_assoc]
  change b0.toNat <<< 24 ||| (b1.toNat <<< 16 |||
    (b2.toNat <<< 8 ||| b3.toNat)) = _
  have low : b2.toNat <<< 8 ||| b3.toNat = b2.toNat * 2 ^ 8 + b3.toNat :=
    shiftLeft_or (by omega)
  have mid : b1.toNat <<< 16 ||| (b2.toNat * 2 ^ 8 + b3.toNat) =
      b1.toNat * 2 ^ 16 + (b2.toNat * 2 ^ 8 + b3.toNat) :=
    shiftLeft_or (by omega)
  rw [low, mid, shiftLeft_or (by omega)]
  simp only [Codec.ofDigits, List.foldl]
  omega

theorem toNat_foldl_shift (bytes : List UInt8) (v : UInt64) :
    (bytes.foldl
      (fun v byte => (v <<< 8) ||| byte.toUInt64 : UInt64 → UInt8 → UInt64)
      v).toNat =
      Codec.ofDigits v.toNat bytes % 2 ^ 64 := by
  induction bytes generalizing v with
  | nil => exact (Nat.mod_eq_of_lt v.toNat_lt).symm
  | cons byte bytes induction =>
      have lt : byte.toNat < 2 ^ 8 := byte.toNat_lt
      have digits : v.toNat <<< 8 % 2 ^ 64 =
          (v.toNat % 2 ^ 56) <<< 8 := by
        rw [Nat.shiftLeft_eq, Nat.shiftLeft_eq]
        omega
      have next : (v <<< 8 ||| byte.toUInt64).toNat =
          (v.toNat * 256 + byte.toNat) % 2 ^ 64 := by
        rw [UInt64.toNat_or, UInt64.toNat_shiftLeft, UInt8.toNat_toUInt64]
        change v.toNat <<< 8 % 2 ^ 64 ||| byte.toNat = _
        rw [digits, shiftLeft_or lt]
        omega
      have unfolded : Codec.ofDigits v.toNat (byte :: bytes) =
          Codec.ofDigits (v.toNat * 256 + byte.toNat) bytes := rfl
      rw [List.foldl_cons, induction, next, unfolded,
        Codec.ofDigits_eq, Codec.ofDigits_eq (v.toNat * 256 + byte.toNat),
        Nat.add_mod, Nat.mod_mul_mod, ← Nat.add_mod]

theorem decodes_u32 : Decodes u32 ByteWriter.u32 fun _ => True := by
  have written (b0 b1 b2 b3 : UInt8) :
      ByteWriter.u32 ((b0.toUInt32 <<< 24) ||| (b1.toUInt32 <<< 16) |||
        (b2.toUInt32 <<< 8) ||| b3.toUInt32) = [b0, b1, b2, b3] := by
    rw [ByteWriter.u32_eq_bigEndian, toNat_u32]
    exact Codec.bigEndian_ofDigits 0 [b0, b1, b2, b3]
  intro input v rest
  rw [true_and]
  constructor
  · intro taken
    unfold u32 at taken
    split at taken
    · cases taken
      rw [written]
      rfl
    · cases taken
  · rintro rfl
    have same := written (v >>> 24).toUInt8 (v >>> 16).toUInt8
      (v >>> 8).toUInt8 v.toUInt8
    have value := (ByteWriter.delimits_u32.injective same :)
    exact congrArg (fun read => Except.ok (read, rest)) value

theorem decodes_u64 : Decodes u64 ByteWriter.u64 fun _ => True := by
  have written (bytes : List UInt8) (length : bytes.length = 8) :
      ByteWriter.u64 (bytes.foldl
        (fun v byte => (v <<< 8) ||| byte.toUInt64 :
          UInt64 → UInt8 → UInt64) 0) = bytes := by
    have small := Codec.ofDigits_lt bytes
    rw [length] at small
    have value : Codec.ofDigits (0 : UInt64).toNat bytes % 2 ^ 64 =
        Codec.ofDigits 0 bytes := Nat.mod_eq_of_lt small
    rw [ByteWriter.u64_eq_bigEndian, toNat_foldl_shift, value, ← length]
    exact Codec.bigEndian_ofDigits 0 bytes
  apply (decodes_take 8).map
  · exact fun bytes length => ⟨written bytes length, trivial⟩
  · intro v _
    exact ⟨ByteWriter.delimits_u64.injective (written _ rfl), rfl⟩

/-- The values an `std::int64_t` takes. -/
def InInt64 (value : Int) : Prop :=
  -2 ^ 63 ≤ value ∧ value < 2 ^ 63

instance (value : Int) : Decidable (InInt64 value) :=
  inferInstanceAs (Decidable (-2 ^ 63 ≤ value ∧ value < 2 ^ 63))

theorem inInt64_zero : InInt64 0 := by
  decide

theorem castToI64_castToU64 {value : Int} (range : InInt64 value) :
    castToI64 (castToU64 value) = value := by
  obtain ⟨low, high⟩ := range
  have cast : ((castToU64 value).toNat : Int) = value % 2 ^ 64 := by
    have small : (value % 2 ^ 64).toNat < 2 ^ 64 := by omega
    unfold castToU64 UInt64.ofInt
    rw [UInt64.toNat_ofNat_of_lt' small]
    omega
  unfold castToI64
  split <;> omega

theorem castToU64_castToI64 (value : UInt64) :
    InInt64 (castToI64 value) ∧ castToU64 (castToI64 value) = value := by
  have small := value.toNat_lt
  have range : InInt64 (castToI64 value) ∧
      castToI64 value % 2 ^ 64 = value.toNat := by
    unfold InInt64 castToI64
    split <;> omega
  refine ⟨range.1, ?_⟩
  unfold castToU64 UInt64.ofInt
  rw [range.2]
  exact UInt64.ofNat_toNat

theorem decodes_i64 : Decodes i64 ByteWriter.i64 InInt64 := by
  apply decodes_u64.map
  · intro value _
    obtain ⟨range, back⟩ := castToU64_castToI64 value
    exact ⟨back, range⟩
  · exact fun value range => ⟨castToI64_castToU64 range, trivial⟩

theorem decodes_id (kind : IdKind) :
    Decodes (id kind) ByteWriter.id fun id => id.value < 2 ^ 64 := by
  apply decodes_u64.map
  · exact fun value _ => ⟨UInt64.ofNat_toNat, value.toNat_lt⟩
  · intro id small
    refine ⟨Identifier.eq_of_value_eq ?_, trivial⟩
    exact UInt64.toNat_ofNat_of_lt' small

theorem decodes_digest : Decodes digest ByteWriter.digest fun _ => True := by
  apply (decodes_take 32).map
  · intro bytes length
    refine ⟨?_, trivial⟩
    apply List.ext_getElem
    · simp [ByteWriter.digest, length]
    · intro i below within
      simp [ByteWriter.digest, List.getD, within]
  · intro value _
    refine ⟨?_, by simp [ByteWriter.digest]⟩
    apply Vector.ext
    intro i below
    simp [ByteWriter.digest, List.getD]

theorem ofBytes_of_length {bytes : List UInt8}
    (bounded : bytes.length < 2 ^ 64) :
    (ByteString.ofBytes bytes).bytes = bytes :=
  List.take_of_length_le (by omega)

theorem decodes_string :
    Decodes string ByteWriter.string
      fun s => s.bytes.length ≤ kDefaultMaxStringLen := by
  have size (s : ByteString) (len : UInt64) :
      UInt64.ofNat s.bytes.length = len ↔ s.bytes.length = len.toNat := by
    rw [← UInt64.toNat_inj, UInt64.toNat_ofNat_of_lt' s.bounded]
  have characters (len : UInt64) : Decodes
      (ByteString.ofBytes <$> take len.toNat : Read ByteString)
      ByteString.bytes fun s => s.bytes.length = len.toNat := by
    apply (decodes_take len.toNat).map
    · intro bytes length
      have same := ofBytes_of_length (length ▸ len.toNat_lt)
      exact ⟨same, by rw [same, length]⟩
    · intro s length
      refine ⟨ByteString.eq_of_bytes_eq ?_, length⟩
      exact ofBytes_of_length s.bounded
  apply Continues.decodes
  · apply Continues.field (fun s => UInt64.ofNat s.bytes.length) decodes_u64
    intro len _
    apply Continues.check fun s : ByteString =>
      s.bytes.length ≤ kDefaultMaxStringLen
    · intro s known
      rw [decide_eq_true_iff, (size s len).mp known.2]
    · intro _
      apply (characters len).continues fun _ => True
      intro s
      rw [size s len]
      simp
  · exact fun _ => rfl
  · intro s
    simp

end ByteReader

end BatchFabric
