import BatchFabric.Io

/-! The reader with its position in a buffer, and decoders as programs of calls
on it. -/

namespace BatchFabric

/-- The bytes of a vector, which holds at most `PTRDIFF_MAX` of them. -/
structure Buffer where
  bytes : List UInt8
  bounded : bytes.length < 2 ^ 63

def Buffer.size (buffer : Buffer) : UInt64 :=
  UInt64.ofNat buffer.bytes.length

/-- `touched` lists the places bytes were read from, and `positions` what the
position has been. -/
structure Cursor (buffer : Buffer) where
  pos : UInt64 := 0
  touched : List Nat := []
  positions : List UInt64 := [0]

namespace Cursor

variable {buffer : Buffer}

def fetch (r : Cursor buffer) (count : UInt64) :
    List UInt8 × Cursor buffer :=
  let places := List.range' r.pos.toNat count.toNat
  (places.map fun i => buffer.bytes.getD i 0, {
    pos := r.pos + count
    touched := r.touched ++ places
    positions := r.positions ++ [r.pos + count] })

/-- A read of so many bytes, whatever they stand for. -/
def take (count : UInt64) (present : List UInt8 → α) (r : Cursor buffer) :
    Option α × Cursor buffer :=
  if r.pos + count > buffer.size then (none, r)
  else ((some (present (r.fetch count).1)), (r.fetch count).2)

def u8 : Cursor buffer → Option UInt8 × Cursor buffer :=
  take 1 fun bytes => bytes.getD 0 0

def u32 : Cursor buffer → Option UInt32 × Cursor buffer :=
  take 4 fun bytes =>
    ((bytes.getD 0 0).toUInt32 <<< 24) |||
      ((bytes.getD 1 0).toUInt32 <<< 16) |||
      ((bytes.getD 2 0).toUInt32 <<< 8) ||| (bytes.getD 3 0).toUInt32

def u64 : Cursor buffer → Option UInt64 × Cursor buffer :=
  take 8 fun bytes =>
    bytes.foldl (fun v byte => (v <<< 8) ||| byte.toUInt64) 0

def string (r : Cursor buffer) : Option ByteString × Cursor buffer :=
  match r.u64 with
  | (none, r) => (none, r)
  | (some len, r) =>
      if len.toNat > kDefaultMaxStringLen || len > buffer.size - r.pos then
        (none, r)
      else (some (.ofBytes (r.fetch len).1), (r.fetch len).2)

def digest : Cursor buffer → Option Digest × Cursor buffer :=
  take 32 fun bytes => Vector.ofFn fun i => bytes.getD i 0

def remaining (r : Cursor buffer) : UInt64 :=
  buffer.size - r.pos

/-! A cursor inside its buffer. -/

/-- The bytes that are not read yet. -/
def unread (r : Cursor buffer) : List UInt8 :=
  buffer.bytes.drop r.pos.toNat

structure Within (r : Cursor buffer) : Prop where
  below : r.pos.toNat ≤ buffer.bytes.length
  touched : r.touched = List.range r.pos.toNat
  positions : ∀ p ∈ r.positions, p.toNat ≤ buffer.bytes.length

theorem within_start : ({} : Cursor buffer).Within where
  below := Nat.zero_le _
  touched := rfl
  positions p listed := by
    rw [List.mem_singleton.mp listed]
    exact Nat.zero_le _

theorem toNat_size (buffer : Buffer) :
    buffer.size.toNat = buffer.bytes.length := by
  have bounded := buffer.bounded
  unfold Buffer.size
  rw [UInt64.toNat_ofNat']
  exact Nat.mod_eq_of_lt (by omega)

namespace Within

variable {r : Cursor buffer}

theorem toNat_remaining (within : r.Within) :
    r.remaining.toNat = r.unread.length := by
  have below := within.below
  unfold remaining unread
  rw [UInt64.toNat_sub_of_le, toNat_size, List.length_drop]
  rw [UInt64.le_iff_toNat_le, toNat_size]
  exact below

theorem toNat_pos_add (within : r.Within) {count : UInt64}
    (small : count.toNat < 2 ^ 63) :
    (r.pos + count).toNat = r.pos.toNat + count.toNat := by
  have below := within.below
  have bounded := buffer.bounded
  rw [UInt64.toNat_add]
  exact Nat.mod_eq_of_lt (by omega)

theorem fetch (within : r.Within) {count : UInt64}
    (room : count.toNat ≤ r.unread.length) :
    (r.fetch count).2.Within ∧
      (r.fetch count).1 = r.unread.take count.toNat ∧
      (r.fetch count).2.unread = r.unread.drop count.toNat := by
  have below := within.below
  have bounded := buffer.bounded
  have fits : r.pos.toNat + count.toNat ≤ buffer.bytes.length := by
    unfold unread at room
    rw [List.length_drop] at room
    omega
  have moved : (r.pos + count).toNat = r.pos.toNat + count.toNat :=
    within.toNat_pos_add (by omega)
  refine ⟨⟨?_, ?_, ?_⟩, ?_, ?_⟩
  · unfold Cursor.fetch
    dsimp only
    rw [moved]
    exact fits
  · unfold Cursor.fetch
    dsimp only
    have joined : List.range' 0 r.pos.toNat ++
        List.range' (0 + r.pos.toNat) count.toNat =
          List.range' 0 (r.pos.toNat + count.toNat) := List.range'_append_1
    rw [Nat.zero_add] at joined
    rw [within.touched, moved, List.range_eq_range', List.range_eq_range',
      joined]
  · intro p listed
    unfold Cursor.fetch at listed
    rcases List.mem_append.mp listed with earlier | last
    · exact within.positions p earlier
    · rw [List.mem_singleton.mp last, moved]
      exact fits
  · unfold Cursor.fetch unread
    apply List.ext_getElem
    · rw [List.length_map, List.length_range', List.length_take,
        List.length_drop]
      omega
    · intro i left right
      rw [List.length_map, List.length_range'] at left
      have inside : r.pos.toNat + i < buffer.bytes.length := by omega
      rw [List.getElem_map, List.getElem_range', List.getElem_take,
        List.getElem_drop, Nat.one_mul, List.getD_eq_getElem?_getD,
        List.getElem?_eq_getElem inside, Option.getD_some]
  · unfold Cursor.fetch unread
    dsimp only
    rw [moved, List.drop_drop]

end Within

/-! What a call means to the bytes that are not read yet. -/

/-- The call leaves the cursor inside the buffer, and takes off the front of
the unread bytes what `read` takes. -/
structure Means (read : ByteReader.Read α)
    (call : Cursor buffer → Option α × Cursor buffer) : Prop where
  within : ∀ {r}, r.Within → (call r).2.Within
  reads : ∀ {r}, r.Within → read r.unread =
    match (call r).1 with
    | none => .error ()
    | some value => .ok (value, (call r).2.unread)

theorem means_take {read : ByteReader.Read α} {count : UInt64}
    {present : List UInt8 → α} (small : count.toNat < 2 ^ 63)
    (same : ∀ input, read input =
      if count.toNat ≤ input.length then
        .ok (present (input.take count.toNat), input.drop count.toNat)
      else .error ()) :
    Means read (take count present : Cursor buffer → _) := by
  have room : ∀ {r : Cursor buffer}, r.Within →
      (¬r.pos + count > buffer.size ↔ count.toNat ≤ r.unread.length) := by
    intro r within
    have below := within.below
    rw [gt_iff_lt, UInt64.lt_iff_toNat_lt, toNat_size,
      within.toNat_pos_add small]
    unfold unread
    rw [List.length_drop]
    omega
  constructor
  · intro r within
    unfold take
    split
    · exact within
    next inside => exact (within.fetch ((room within).mp inside)).1
  · intro r within
    rw [same]
    unfold take
    split
    next enough =>
      obtain ⟨_, bytes, rest⟩ := within.fetch enough
      rw [if_neg ((room within).mpr enough), bytes, rest]
    next short =>
      have outside : r.pos + count > buffer.size := by
        apply Decidable.not_not.mp
        exact fun inside => short ((room within).mp inside)
      rw [if_pos outside]

theorem means_u8 : Means ByteReader.u8 (u8 : Cursor buffer → _) := by
  apply means_take (by decide)
  intro input
  cases input with
  | nil => rfl
  | cons byte rest => rfl

theorem means_u32 : Means ByteReader.u32 (u32 : Cursor buffer → _) := by
  apply means_take (by decide)
  intro input
  match input with
  | [] | [_] | [_, _] | [_, _, _] => rfl
  | b0 :: b1 :: b2 :: b3 :: rest =>
      have enough : (4 : UInt64).toNat ≤
          (b0 :: b1 :: b2 :: b3 :: rest).length := by simp
      rw [if_pos enough]
      rfl

theorem means_mapped (count : UInt64) (small : count.toNat < 2 ^ 63)
    (present : List UInt8 → α) :
    Means (present <$> ByteReader.take count.toNat)
      (take count present : Cursor buffer → _) := by
  apply means_take small
  intro input
  have mapped : (present <$> ByteReader.take count.toNat) input =
      (ByteReader.take count.toNat input >>= fun read =>
        pure (present read.1, read.2)) := rfl
  rw [mapped, ByteReader.take]
  split <;> rfl

theorem means_u64 : Means ByteReader.u64 (u64 : Cursor buffer → _) :=
  means_mapped 8 (by decide) _

theorem means_digest :
    Means ByteReader.digest (digest : Cursor buffer → _) :=
  means_mapped 32 (by decide) _

theorem string_eq (input : List UInt8) :
    ByteReader.string input =
      match ByteReader.u64 input with
      | .error error => .error error
      | .ok (len, rest) =>
          if len.toNat ≤ kDefaultMaxStringLen ∧ len.toNat ≤ rest.length then
            .ok (.ofBytes (rest.take len.toNat), rest.drop len.toNat)
          else .error () := by
  have bound : ByteReader.string input =
      (ByteReader.u64 input >>= fun read =>
        (Decoding.ensure (read.1.toNat ≤ kDefaultMaxStringLen) () :
            ByteReader.Read PUnit) read.2 >>= fun checked =>
          ByteReader.take read.1.toNat checked.2 >>= fun taken =>
            pure (ByteString.ofBytes taken.1, taken.2)) := rfl
  rw [bound]
  cases ByteReader.u64 input with
  | error error => rfl
  | ok read =>
      obtain ⟨len, rest⟩ := read
      dsimp only
      change ((Decoding.ensure (len.toNat ≤ kDefaultMaxStringLen) () :
          ByteReader.Read PUnit) rest >>= fun checked =>
        ByteReader.take len.toNat checked.2 >>= fun taken =>
          pure (ByteString.ofBytes taken.1, taken.2)) = _
      by_cases short : len.toNat ≤ kDefaultMaxStringLen
      · rw [decide_eq_true short]
        change (ByteReader.take len.toNat rest >>= fun taken =>
          pure (ByteString.ofBytes taken.1, taken.2)) = _
        unfold ByteReader.take
        by_cases enough : len.toNat ≤ rest.length
        · rw [if_pos enough, if_pos ⟨short, enough⟩]
          rfl
        · rw [if_neg enough, if_neg fun both => enough both.2]
          rfl
      · rw [decide_eq_false short, if_neg fun both => short both.1]
        rfl

theorem means_string :
    Means ByteReader.string (string : Cursor buffer → _) := by
  have refused : ∀ {r : Cursor buffer} {len : UInt64}, r.Within →
      ((len.toNat > kDefaultMaxStringLen || len > buffer.size - r.pos) = true ↔
        ¬(len.toNat ≤ kDefaultMaxStringLen ∧ len.toNat ≤ r.unread.length)) := by
    intro r len within
    have left := within.toNat_remaining
    unfold remaining at left
    rw [Bool.or_eq_true, decide_eq_true_iff, decide_eq_true_iff,
      gt_iff_lt, gt_iff_lt, UInt64.lt_iff_toNat_lt, left]
    omega
  constructor
  · intro r within
    have moved := means_u64.within within
    unfold string
    split
    next failed =>
      rw [failed] at moved
      exact moved
    next len r' read =>
      rw [read] at moved
      split
      · exact moved
      next allowed =>
        rw [refused moved, Decidable.not_not] at allowed
        exact (moved.fetch allowed.2).1
  · intro r within
    have moved := means_u64.within within
    have reads := means_u64.reads within
    rw [string_eq, reads]
    unfold string
    cases read : r.u64 with
    | mk value r' =>
        rw [read] at moved
        cases value with
        | none => rfl
        | some len =>
            dsimp only
            by_cases allowed : len.toNat ≤ kDefaultMaxStringLen ∧
                len.toNat ≤ r'.unread.length
            · obtain ⟨_, bytes, rest⟩ := moved.fetch allowed.2
              have passed := (not_congr (refused moved)).mpr
                (not_not.mpr allowed)
              rw [if_pos allowed, if_neg passed, bytes, rest]
            · rw [if_neg allowed, if_pos ((refused moved).mpr allowed)]

end Cursor

open Decoding

/-- A decoder as the calls it makes on the reader. -/
inductive Program : {ε α : Type} → Decoder ε UInt8 α → Type 1
  | u8 : Program ByteReader.u8
  | u32 : Program ByteReader.u32
  | u64 : Program ByteReader.u64
  | string : Program ByteReader.string
  | digest : Program ByteReader.digest
  | pure {ε α : Type} (value : α) :
      Program (Pure.pure value : Decoder ε UInt8 α)
  | map {ε α β : Type} {read : Decoder ε UInt8 α} (present : α → β)
      (program : Program read) : Program (present <$> read)
  | bind {ε α β : Type} {read : Decoder ε UInt8 α}
      {next : α → Decoder ε UInt8 β} (first : Program read)
      (rest : ∀ value, Program (next value)) : Program (read >>= next)
  | ensure {ε : Type} (holds : Bool) (error : ε) :
      Program (Decoding.ensure holds error)
  | fromOption {ε α : Type} (value : Option α) (error : ε) :
      Program (Decoding.fromOption value error)
  | orError {ε ε' α : Type} {read : Decoder ε' UInt8 α}
      (program : Program read) (error : ε) :
      Program (Decoding.orError read error)

namespace Program

variable {buffer : Buffer}

/-- A call that says nothing but that it failed. -/
def called (out : Option α × Cursor buffer) :
    Except Unit α × Cursor buffer :=
  match out with
  | (none, r) => (.error (), r)
  | (some value, r) => (.ok value, r)

def run {ε α : Type} {read : Decoder ε UInt8 α} :
    Program read → Cursor buffer → Except ε α × Cursor buffer
  | .u8, r => called r.u8
  | .u32, r => called r.u32
  | .u64, r => called r.u64
  | .string, r => called r.string
  | .digest, r => called r.digest
  | .pure value, r => (.ok value, r)
  | .map present program, r =>
      let out := program.run r
      (out.1.map present, out.2)
  | .bind first rest, r =>
      match first.run r with
      | (.error error, r) => (.error error, r)
      | (.ok value, r) => (rest value).run r
  | .ensure holds error, r => (if holds then .ok ⟨⟩ else .error error, r)
  | .fromOption value error, r =>
      (match value with
        | none => .error error
        | some value => .ok value, r)
  | .orError program error, r =>
      let out := program.run r
      (out.1.mapError fun _ => error, out.2)

theorem called_within {read : ByteReader.Read α}
    {call : Cursor buffer → Option α × Cursor buffer}
    (means : Cursor.Means read call) {r : Cursor buffer} (within : r.Within) :
    (called (call r)).2.Within ∧
      read r.unread = (called (call r)).1.map fun value =>
        (value, (called (call r)).2.unread) := by
  have inside := means.within within
  have reads := means.reads within
  rw [reads]
  cases out : call r with
  | mk value r' =>
      rw [out] at inside
      cases value with
      | none => exact ⟨inside, rfl⟩
      | some value => exact ⟨inside, rfl⟩

/-- A program stays inside the buffer, and finds what its decoder finds in the
bytes not read yet. -/
theorem run_within {ε α : Type} {read : Decoder ε UInt8 α}
    (program : Program read) {r : Cursor buffer} (within : r.Within) :
    (program.run r).2.Within ∧
      read r.unread = (program.run r).1.map fun value =>
        (value, (program.run r).2.unread) := by
  induction program generalizing r with
  | u8 => exact called_within Cursor.means_u8 within
  | u32 => exact called_within Cursor.means_u32 within
  | u64 => exact called_within Cursor.means_u64 within
  | string => exact called_within Cursor.means_string within
  | digest => exact called_within Cursor.means_digest within
  | pure value => exact ⟨within, rfl⟩
  | @map ε α β read present program induction =>
      obtain ⟨inside, reads⟩ := induction within
      have mapped : (present <$> read) r.unread =
          (read r.unread >>= fun read =>
            Pure.pure (present read.1, read.2)) := rfl
      rw [mapped, reads, run]
      refine ⟨inside, ?_⟩
      cases (program.run r).1 with
      | error error => rfl
      | ok value => rfl
  | @bind ε α β read next first rest first' rest' =>
      obtain ⟨inside, reads⟩ := first' within
      have bound : (read >>= next) r.unread =
          (read r.unread >>= fun read => next read.1 read.2) := rfl
      rw [bound, reads, run]
      cases out : first.run r with
      | mk result r' =>
          rw [out] at inside
          cases result with
          | error error => exact ⟨inside, rfl⟩
          | ok value => exact rest' value inside
  | ensure holds error =>
      cases holds with
      | false => exact ⟨within, rfl⟩
      | true => exact ⟨within, rfl⟩
  | fromOption value error =>
      cases value with
      | none => exact ⟨within, rfl⟩
      | some value => exact ⟨within, rfl⟩
  | @orError ε ε' α read program error induction =>
      obtain ⟨inside, reads⟩ := induction within
      have applied : Decoding.orError read error r.unread =
          (read r.unread).mapError fun _ => error := by
        unfold Decoding.orError
        cases read r.unread <;> rfl
      rw [applied, reads, run]
      refine ⟨inside, ?_⟩
      cases (program.run r).1 with
      | error error => rfl
      | ok value => rfl

def id (kind : IdKind) : Program (ByteReader.id kind) :=
  .map _ .u64

def i64 : Program ByteReader.i64 :=
  .map _ .u64

def many {ε α : Type} {read : List α → Decoder ε UInt8 α}
    (each : ∀ before, Program (read before)) :
    (count : Nat) → (before : List α) → Program (readMany read count before)
  | 0, before => .pure before
  | count + 1, before =>
      .bind (each before) fun value => many each count (before ++ [value])

end Program

end BatchFabric
