import BatchFabric.Error

namespace BatchFabric

abbrev Digest := Vector UInt8 32

namespace Sha256

def kSha256K : List UInt32 := [
  0x428a2f98, 0x71374491, 0xb5c0fbcf, 0xe9b5dba5, 0x3956c25b, 0x59f111f1,
  0x923f82a4, 0xab1c5ed5, 0xd807aa98, 0x12835b01, 0x243185be, 0x550c7dc3,
  0x72be5d74, 0x80deb1fe, 0x9bdc06a7, 0xc19bf174, 0xe49b69c1, 0xefbe4786,
  0x0fc19dc6, 0x240ca1cc, 0x2de92c6f, 0x4a7484aa, 0x5cb0a9dc, 0x76f988da,
  0x983e5152, 0xa831c66d, 0xb00327c8, 0xbf597fc7, 0xc6e00bf3, 0xd5a79147,
  0x06ca6351, 0x14292967, 0x27b70a85, 0x2e1b2138, 0x4d2c6dfc, 0x53380d13,
  0x650a7354, 0x766a0abb, 0x81c2c92e, 0x92722c85, 0xa2bfe8a1, 0xa81a664b,
  0xc24b8b70, 0xc76c51a3, 0xd192e819, 0xd6990624, 0xf40e3585, 0x106aa070,
  0x19a4c116, 0x1e376c08, 0x2748774c, 0x34b0bcb5, 0x391c0cb3, 0x4ed8aa4a,
  0x5b9cca4f, 0x682e6ff3, 0x748f82ee, 0x78a5636f, 0x84c87814, 0x8cc70208,
  0x90befffa, 0xa4506ceb, 0xbef9a3f7, 0xc67178f2]

def ror (x n : UInt32) : UInt32 :=
  (x >>> n) ||| (x <<< (32 - n))

/-- The eight chaining words, and the eight working variables of a round. -/
structure Words where
  a : UInt32
  b : UInt32
  c : UInt32
  d : UInt32
  e : UInt32
  f : UInt32
  g : UInt32
  h : UInt32
  deriving DecidableEq

/-- The hasher. `buffer` holds the first `buffered_` bytes of the block. -/
structure State where
  state : Words
  buffer : List UInt8
  totalLen : UInt64
  deriving DecidableEq

def reset : State where
  state := {
    a := 0x6a09e667, b := 0xbb67ae85, c := 0x3c6ef372, d := 0xa54ff53a,
    e := 0x510e527f, f := 0x9b05688c, g := 0x1f83d9ab, h := 0x5be0cd19 }
  buffer := []
  totalLen := 0

/-- The first sixteen schedule words, read big-endian from the block. -/
def blockWords : List UInt8 → List UInt32
  | b0 :: b1 :: b2 :: b3 :: rest =>
      ((b0.toUInt32 <<< 24) ||| (b1.toUInt32 <<< 16) |||
        (b2.toUInt32 <<< 8) ||| b3.toUInt32) :: blockWords rest
  | _ => []

/-- The next schedule word after the words `w`. -/
def nextWord (w : List UInt32) : UInt32 :=
  let i := w.length
  let w15 := w.getD (i - 15) 0
  let w2 := w.getD (i - 2) 0
  let s0 := ror w15 7 ^^^ ror w15 18 ^^^ (w15 >>> 3)
  let s1 := ror w2 17 ^^^ ror w2 19 ^^^ (w2 >>> 10)
  w.getD (i - 16) 0 + s0 + w.getD (i - 7) 0 + s1

def extendSchedule : Nat → List UInt32 → List UInt32
  | 0, w => w
  | count + 1, w => extendSchedule count (w ++ [nextWord w])

def round (v : Words) (constant : UInt32 × UInt32) : Words :=
  let bigS1 := ror v.e 6 ^^^ ror v.e 11 ^^^ ror v.e 25
  let ch := (v.e &&& v.f) ^^^ (~~~v.e &&& v.g)
  let temp1 := v.h + bigS1 + ch + constant.1 + constant.2
  let bigS0 := ror v.a 2 ^^^ ror v.a 13 ^^^ ror v.a 22
  let maj := (v.a &&& v.b) ^^^ (v.a &&& v.c) ^^^ (v.b &&& v.c)
  let temp2 := bigS0 + maj
  { a := temp1 + temp2, b := v.a, c := v.b, d := v.c,
    e := v.d + temp1, f := v.e, g := v.f, h := v.g }

def transform (state : Words) (block : List UInt8) : Words :=
  let w := extendSchedule 48 (blockWords block)
  let v := (kSha256K.zip w).foldl round state
  { a := state.a + v.a, b := state.b + v.b, c := state.c + v.c,
    d := state.d + v.d, e := state.e + v.e, f := state.f + v.f,
    g := state.g + v.g, h := state.h + v.h }

/-- The copying loop of `update`. Every round takes at least one byte while
the buffer is not full, so `fuel` need not exceed the number of bytes. -/
def absorb : Nat → Words → List UInt8 → List UInt8 → Words × List UInt8
  | 0, state, buffer, _ => (state, buffer)
  | _ + 1, state, buffer, [] => (state, buffer)
  | fuel + 1, state, buffer, data =>
      let take := min (64 - buffer.length) data.length
      let filled := buffer ++ data.take take
      if filled.length = 64 then
        absorb fuel (transform state filled) [] (data.drop take)
      else absorb fuel state filled (data.drop take)

def update (hasher : State) (data : List UInt8) : State :=
  let absorbed := absorb data.length hasher.state hasher.buffer data
  { state := absorbed.1
    buffer := absorbed.2
    totalLen := hasher.totalLen + UInt64.ofNat data.length }

/-- The padding loop of `final`. At most 63 zero bytes are missing. -/
def padZeros : Nat → State → State
  | 0, hasher => hasher
  | fuel + 1, hasher =>
      if hasher.buffer.length = 56 then hasher
      else padZeros fuel (update hasher [0])

def lengthBytes (bitlen : UInt64) : List UInt8 :=
  (List.range 8).map fun i =>
    (bitlen >>> UInt64.ofNat (8 * (7 - i))).toUInt8

def wordBytes (word : UInt32) : List UInt8 :=
  [(word >>> 24).toUInt8, (word >>> 16).toUInt8, (word >>> 8).toUInt8,
    word.toUInt8]

def outputBytes (w : Words) : List UInt8 :=
  wordBytes w.a ++ wordBytes w.b ++ wordBytes w.c ++ wordBytes w.d ++
    wordBytes w.e ++ wordBytes w.f ++ wordBytes w.g ++ wordBytes w.h

def final (hasher : State) : Digest :=
  let bitlen := hasher.totalLen * 8
  let padded := padZeros 64 (update hasher [0x80])
  let finished := update padded (lengthBytes bitlen)
  Vector.mk (outputBytes finished.state).toArray rfl

def digest (data : List UInt8) : Digest :=
  final (update reset data)

end Sha256

end BatchFabric
