import BatchFabric.Library.Blocks
import Mathlib.Algebra.Group.Nat.Defs
import Mathlib.Data.Nat.NthRoot.Defs

/-! SHA-256 on strings of bits, as the Secure Hash Standard (FIPS 180-4)
defines it. -/

namespace SecureHash

abbrev Word := BitVec 32

/-! Strings of bits, the most significant first. -/

def bits : Nat → Nat → List Bool
  | 0, _ => []
  | width + 1, value => value.testBit width :: bits width value

def ofBits (high : Nat) (string : List Bool) : Nat :=
  string.foldl (fun value bit => 2 * value + bit.toNat) high

def word (string : List Bool) : Word :=
  BitVec.ofNat 32 (ofBits 0 string)

/-! The functions of section 4.1.2. -/

def ch (x y z : Word) : Word :=
  (x &&& y) ^^^ (~~~x &&& z)

def maj (x y z : Word) : Word :=
  (x &&& y) ^^^ (x &&& z) ^^^ (y &&& z)

def bigSigma0 (x : Word) : Word :=
  x.rotateRight 2 ^^^ x.rotateRight 13 ^^^ x.rotateRight 22

def bigSigma1 (x : Word) : Word :=
  x.rotateRight 6 ^^^ x.rotateRight 11 ^^^ x.rotateRight 25

def smallSigma0 (x : Word) : Word :=
  x.rotateRight 7 ^^^ x.rotateRight 18 ^^^ (x >>> 3)

def smallSigma1 (x : Word) : Word :=
  x.rotateRight 17 ^^^ x.rotateRight 19 ^^^ (x >>> 10)

/-! The constants of sections 4.2.2 and 5.3.3. -/

/-- The first sixty-four primes. -/
def primes : List Nat :=
  (List.range 312).filter fun p =>
    2 ≤ p && (List.range p).all fun d => d < 2 || p % d != 0

/-- The first thirty-two bits of the fractional part of a root. -/
def fraction (degree p : Nat) : Word :=
  BitVec.ofNat 32 (Nat.nthRoot degree (p * 2 ^ (32 * degree)))

def constants : List Word :=
  primes.map (fraction 3)

/-- The hash value, and the working variables of a round. -/
@[ext] structure Variables where
  a : Word
  b : Word
  c : Word
  d : Word
  e : Word
  f : Word
  g : Word
  h : Word
  deriving DecidableEq

def initial : Variables where
  a := fraction 2 2
  b := fraction 2 3
  c := fraction 2 5
  d := fraction 2 7
  e := fraction 2 11
  f := fraction 2 13
  g := fraction 2 17
  h := fraction 2 19

/-! Preprocessing, section 5. -/

/-- The smallest number of zero bits after which, behind the message and a one
bit, 64 bits are missing from a whole number of blocks. -/
def zeros (length : Nat) : Nat :=
  (959 - length % 512) % 512

theorem zeros_spec (length : Nat) :
    (length + 1 + zeros length) % 512 = 448 ∧
      ∀ k, (length + 1 + k) % 512 = 448 → zeros length ≤ k := by
  unfold zeros
  constructor
  · omega
  · intro k fits
    omega

def pad (message : List Bool) : List Bool :=
  message ++ [true] ++ List.replicate (zeros message.length) false ++
    bits 64 message.length

/-- The blocks of a padded message, each of sixteen words. -/
def parse (padded : List Bool) : List (List Word) :=
  (Blocks.chunks 512 (padded.length / 512) padded).map fun block =>
    (Blocks.chunks 32 16 block).map word

/-! Hash computation, section 6.2.2. -/

/-- The message schedule of a block. -/
def schedule (block : List Word) (t : Nat) : Word :=
  if t < 16 then block.getD t 0
  else
    smallSigma1 (schedule block (t - 2)) + schedule block (t - 7) +
      smallSigma0 (schedule block (t - 15)) + schedule block (t - 16)
termination_by t
decreasing_by all_goals omega

def round (k w : Word) (v : Variables) : Variables :=
  let t1 := v.h + bigSigma1 v.e + ch v.e v.f v.g + k + w
  let t2 := bigSigma0 v.a + maj v.a v.b v.c
  { a := t1 + t2, b := v.a, c := v.b, d := v.c,
    e := v.d + t1, f := v.e, g := v.f, h := v.g }

def Variables.add (v v' : Variables) : Variables where
  a := v.a + v'.a
  b := v.b + v'.b
  c := v.c + v'.c
  d := v.d + v'.d
  e := v.e + v'.e
  f := v.f + v'.f
  g := v.g + v'.g
  h := v.h + v'.h

theorem Variables.add_comm (v v' : Variables) : v.add v' = v'.add v := by
  apply Variables.ext <;> exact BitVec.add_comm _ _

def compress (hash : Variables) (block : List Word) : Variables :=
  ((List.range 64).foldl
    (fun v t => round (constants.getD t 0) (schedule block t) v) hash).add hash

def Variables.output (v : Variables) : List Bool :=
  [v.a, v.b, v.c, v.d, v.e, v.f, v.g, v.h].flatMap fun w => bits 32 w.toNat

/-- The message digest of a message of fewer than 2 ^ 64 bits. -/
def digest (message : List Bool) : List Bool :=
  ((parse (pad message)).foldl compress initial).output

/-! Bits of numbers. -/

@[simp] theorem length_bits (width value : Nat) :
    (bits width value).length = width := by
  induction width with
  | zero => rfl
  | succ width induction => rw [bits, List.length_cons, induction]

theorem ofBits_bits (width value high : Nat) :
    ofBits high (bits width value) =
      high * 2 ^ width + value % 2 ^ width := by
  induction width generalizing high with
  | zero => simp [bits, ofBits, Nat.mod_one]
  | succ width induction =>
      have unfolded : ofBits high (bits (width + 1) value) =
          ofBits (2 * high + (value.testBit width).toNat)
            (bits width value) := rfl
      have split : value % 2 ^ (width + 1) =
          value % 2 ^ width + 2 ^ width * (value.testBit width).toNat := by
        rw [Nat.toNat_testBit, Nat.pow_succ, Nat.mod_mul]
      have carried : (2 * high + (value.testBit width).toNat) * 2 ^ width =
          high * 2 ^ (width + 1) +
            2 ^ width * (value.testBit width).toNat := by
        rw [Nat.add_mul, Nat.pow_succ, Nat.mul_comm 2 high, Nat.mul_assoc,
          Nat.mul_comm 2 (2 ^ width),
          Nat.mul_comm (value.testBit width).toNat]
      rw [unfolded, induction, split, carried]
      omega

theorem ofBits_append (high : Nat) (first second : List Bool) :
    ofBits high (first ++ second) = ofBits (ofBits high first) second :=
  List.foldl_append

/-- The bits of a number are those of its high and of its low half. -/
theorem bits_append (high low value : Nat) :
    bits (high + low) value = bits high (value / 2 ^ low) ++ bits low value := by
  induction high with
  | zero => rw [Nat.zero_add, bits, List.nil_append]
  | succ high induction =>
      rw [Nat.add_right_comm, bits, bits, induction, List.cons_append,
        Nat.testBit_div_two_pow]

theorem bits_mod (width value : Nat) :
    bits width (value % 2 ^ width) = bits width value := by
  have below : ∀ smaller, smaller ≤ width →
      bits smaller (value % 2 ^ width) = bits smaller value := by
    intro smaller
    induction smaller with
    | zero => exact fun _ => rfl
    | succ smaller induction =>
        intro within
        have inside : decide (smaller < width) = true := decide_eq_true within
        rw [bits, bits, induction (Nat.le_of_succ_le within),
          Nat.testBit_mod_two_pow, inside, Bool.true_and]
  exact below width (Nat.le_refl width)

end SecureHash
