import BatchFabric.Io
import BatchFabric.Library.SecureHash

/-! The hasher computes SHA-256 however its input is cut. -/

namespace BatchFabric

namespace Sha256

open SecureHash

/-- A string of bytes as a string of bits. -/
def messageBits (bytes : List UInt8) : List Bool :=
  bytes.flatMap fun byte => bits 8 byte.toNat

@[simp] theorem messageBits_append (first second : List UInt8) :
    messageBits (first ++ second) = messageBits first ++ messageBits second :=
  List.flatMap_append

@[simp] theorem length_messageBits (bytes : List UInt8) :
    (messageBits bytes).length = bytes.length * 8 := by
  unfold messageBits
  rw [List.length_flatMap]
  simp

theorem ofBits_messageBits (high : Nat) (bytes : List UInt8) :
    ofBits high (messageBits bytes) = Codec.ofDigits high bytes := by
  induction bytes generalizing high with
  | nil => rfl
  | cons byte bytes induction =>
      have first : messageBits (byte :: bytes) =
          bits 8 byte.toNat ++ messageBits bytes := rfl
      have digits : Codec.ofDigits high (byte :: bytes) =
          Codec.ofDigits (high * 256 + byte.toNat) bytes := rfl
      have power : 2 ^ 8 = 256 := by decide
      have small : byte.toNat < 2 ^ 8 := byte.toNat_lt
      rw [first, ofBits_append, ofBits_bits, induction, digits,
        Nat.mod_eq_of_lt small, power]

/-- The big-endian bytes of a number hold its bits. -/
theorem messageBits_bigEndian (width value : Nat) :
    messageBits (Codec.bigEndian width value) = bits (width * 8) value := by
  induction width with
  | zero => rfl
  | succ width induction =>
      have first : messageBits (Codec.bigEndian (width + 1) value) =
          bits 8 (UInt8.ofNat (value / 256 ^ width)).toNat ++
            messageBits (Codec.bigEndian width value) := rfl
      have power : 256 ^ width = 2 ^ (width * 8) := by
        rw [Nat.mul_comm, Nat.pow_mul]
      rw [first, induction, UInt8.toNat_ofNat', bits_mod, power, Nat.succ_mul,
        Nat.add_comm (width * 8), bits_append]

/-! The words of a block. -/

theorem word_messageBits (b0 b1 b2 b3 : UInt8) :
    word (messageBits [b0, b1, b2, b3]) =
      ((b0.toUInt32 <<< 24) ||| (b1.toUInt32 <<< 16) |||
        (b2.toUInt32 <<< 8) ||| b3.toUInt32).toBitVec := by
  apply BitVec.eq_of_toNat_eq
  unfold word
  rw [BitVec.toNat_ofNat, ofBits_messageBits, UInt32.toNat_toBitVec,
    ByteReader.toNat_u32]
  have power : 256 ^ [b0, b1, b2, b3].length = 2 ^ 32 := by
    show 256 ^ 4 = 2 ^ 32
    decide
  have small := Codec.ofDigits_lt [b0, b1, b2, b3]
  rw [power] at small
  rw [Nat.mod_eq_of_lt small]

theorem blockWords_eq (count : Nat) (block : List UInt8)
    (length : block.length = 4 * count) :
    (blockWords block).map UInt32.toBitVec =
      (Blocks.chunks 32 count (messageBits block)).map word := by
  have cut : Blocks.chunks 32 count (messageBits block) =
      (Blocks.chunks 4 count block).map messageBits :=
    Blocks.chunks_flatMap (fun byte : UInt8 => length_bits 8 byte.toNat) count
      block (Nat.le_of_eq length.symm)
  rw [cut, List.map_map]
  clear cut
  induction count generalizing block with
  | zero =>
      rw [List.eq_nil_of_length_eq_zero length]
      rfl
  | succ count induction =>
      match block with
      | b0 :: b1 :: b2 :: b3 :: rest =>
          have shorter : rest.length = 4 * count := by
            simp only [List.length_cons] at length
            omega
          have later := induction rest shorter
          have unfolded : Blocks.chunks 4 (count + 1)
              (b0 :: b1 :: b2 :: b3 :: rest) =
              [b0, b1, b2, b3] :: Blocks.chunks 4 count rest := rfl
          rw [unfolded, List.map_cons, ← later, blockWords, List.map_cons,
            Function.comp_apply, word_messageBits]
      | [] | [_] | [_, _] | [_, _, _] =>
          simp only [List.length_cons, List.length_nil] at length
          omega

/-! The functions on words. -/

theorem toBitVec_ror (x n : UInt32) (positive : 0 < n.toNat)
    (small : n.toNat < 32) :
    (ror x n).toBitVec = x.toBitVec.rotateRight n.toNat := by
  have right : (n.toBitVec % 32).toNat = n.toNat := by
    rw [BitVec.toNat_umod, UInt32.toNat_toBitVec]
    exact Nat.mod_eq_of_lt small
  have left : ((32 - n).toBitVec % 32).toNat = 32 - n.toNat := by
    have below : n ≤ 32 := UInt32.le_iff_toNat_le.mpr (Nat.le_of_lt small)
    rw [BitVec.toNat_umod, UInt32.toNat_toBitVec,
      UInt32.toNat_sub_of_le _ _ below]
    apply Nat.mod_eq_of_lt
    exact Nat.sub_lt (by decide) positive
  unfold ror
  rw [UInt32.toBitVec_or, UInt32.toBitVec_shiftRight,
    UInt32.toBitVec_shiftLeft, BitVec.ushiftRight_eq', BitVec.shiftLeft_eq',
    right, left, BitVec.rotateRight_eq_rotateRightAux_of_lt small]
  rfl

theorem toBitVec_bigSigma0 (x : UInt32) :
    (ror x 2 ^^^ ror x 13 ^^^ ror x 22).toBitVec = bigSigma0 x.toBitVec := by
  rw [UInt32.toBitVec_xor, UInt32.toBitVec_xor,
    toBitVec_ror x 2 (by decide) (by decide),
    toBitVec_ror x 13 (by decide) (by decide),
    toBitVec_ror x 22 (by decide) (by decide)]
  rfl

theorem toBitVec_bigSigma1 (x : UInt32) :
    (ror x 6 ^^^ ror x 11 ^^^ ror x 25).toBitVec = bigSigma1 x.toBitVec := by
  rw [UInt32.toBitVec_xor, UInt32.toBitVec_xor,
    toBitVec_ror x 6 (by decide) (by decide),
    toBitVec_ror x 11 (by decide) (by decide),
    toBitVec_ror x 25 (by decide) (by decide)]
  rfl

theorem toBitVec_smallSigma0 (x : UInt32) :
    (ror x 7 ^^^ ror x 18 ^^^ (x >>> 3)).toBitVec =
      smallSigma0 x.toBitVec := by
  rw [UInt32.toBitVec_xor, UInt32.toBitVec_xor,
    toBitVec_ror x 7 (by decide) (by decide),
    toBitVec_ror x 18 (by decide) (by decide)]
  rfl

theorem toBitVec_smallSigma1 (x : UInt32) :
    (ror x 17 ^^^ ror x 19 ^^^ (x >>> 10)).toBitVec =
      smallSigma1 x.toBitVec := by
  rw [UInt32.toBitVec_xor, UInt32.toBitVec_xor,
    toBitVec_ror x 17 (by decide) (by decide),
    toBitVec_ror x 19 (by decide) (by decide)]
  rfl

def Words.view (v : Words) : Variables where
  a := v.a.toBitVec
  b := v.b.toBitVec
  c := v.c.toBitVec
  d := v.d.toBitVec
  e := v.e.toBitVec
  f := v.f.toBitVec
  g := v.g.toBitVec
  h := v.h.toBitVec

theorem view_round (v : Words) (constant : UInt32 × UInt32) :
    (round v constant).view =
      SecureHash.round constant.1.toBitVec constant.2.toBitVec v.view := by
  have first : (v.h + (ror v.e 6 ^^^ ror v.e 11 ^^^ ror v.e 25) +
      ((v.e &&& v.f) ^^^ (~~~v.e &&& v.g)) + constant.1 +
        constant.2).toBitVec =
      v.h.toBitVec + bigSigma1 v.e.toBitVec +
        ch v.e.toBitVec v.f.toBitVec v.g.toBitVec + constant.1.toBitVec +
          constant.2.toBitVec := by
    rw [UInt32.toBitVec_add, UInt32.toBitVec_add, UInt32.toBitVec_add,
      UInt32.toBitVec_add, toBitVec_bigSigma1]
    rfl
  have second : ((ror v.a 2 ^^^ ror v.a 13 ^^^ ror v.a 22) +
      ((v.a &&& v.b) ^^^ (v.a &&& v.c) ^^^ (v.b &&& v.c))).toBitVec =
      bigSigma0 v.a.toBitVec +
        maj v.a.toBitVec v.b.toBitVec v.c.toBitVec := by
    rw [UInt32.toBitVec_add, toBitVec_bigSigma0]
    rfl
  refine Variables.ext ?_ rfl rfl rfl ?_ rfl rfl rfl
  · exact UInt32.toBitVec_add.trans (congrArg₂ (· + ·) first second)
  · exact UInt32.toBitVec_add.trans (congrArg (v.d.toBitVec + ·) first)

theorem view_add (v v' : Words) :
    Words.view {
      a := v.a + v'.a, b := v.b + v'.b, c := v.c + v'.c, d := v.d + v'.d,
      e := v.e + v'.e, f := v.f + v'.f, g := v.g + v'.g, h := v.h + v'.h } =
      v.view.add v'.view := by
  apply Variables.ext <;> exact UInt32.toBitVec_add

theorem view_reset : reset.state.view = initial := by
  decide +kernel

theorem kSha256K_eq : kSha256K.map UInt32.toBitVec = constants := by
  decide +kernel

/-! The message schedule. -/

theorem nextWord_eq (w : List UInt32) :
    nextWord w =
      (ror (w.getD (w.length - 2) 0) 17 ^^^ ror (w.getD (w.length - 2) 0) 19 ^^^
          (w.getD (w.length - 2) 0 >>> 10)) + w.getD (w.length - 7) 0 +
        (ror (w.getD (w.length - 15) 0) 7 ^^^
          ror (w.getD (w.length - 15) 0) 18 ^^^
            (w.getD (w.length - 15) 0 >>> 3)) + w.getD (w.length - 16) 0 := by
  simp only [nextWord]
  generalize ror (w.getD (w.length - 2) 0) 17 ^^^
    ror (w.getD (w.length - 2) 0) 19 ^^^ (w.getD (w.length - 2) 0 >>> 10) = s1
  generalize ror (w.getD (w.length - 15) 0) 7 ^^^
    ror (w.getD (w.length - 15) 0) 18 ^^^ (w.getD (w.length - 15) 0 >>> 3) = s0
  rw [UInt32.add_comm _ s1, UInt32.add_comm (w.getD (w.length - 16) 0 + s0),
    UInt32.add_comm (w.getD (w.length - 16) 0), ← UInt32.add_assoc,
    ← UInt32.add_assoc, UInt32.add_assoc s1]

theorem toBitVec_nextWord {block : List Word} {w : List UInt32}
    (sixteen : 16 ≤ w.length)
    (earlier : ∀ t < w.length, (w.getD t 0).toBitVec = schedule block t) :
    (nextWord w).toBitVec = schedule block w.length := by
  have beyond : ¬w.length < 16 := Nat.not_lt.mpr sixteen
  rw [nextWord_eq, UInt32.toBitVec_add, UInt32.toBitVec_add,
    UInt32.toBitVec_add, toBitVec_smallSigma0, toBitVec_smallSigma1,
    earlier (w.length - 2) (by omega), earlier (w.length - 7) (by omega),
    earlier (w.length - 15) (by omega), earlier (w.length - 16) (by omega)]
  conv => rhs; rw [schedule, if_neg beyond]

theorem extendSchedule_eq {block : List Word} (count : Nat)
    {w : List UInt32} (sixteen : 16 ≤ w.length)
    (same : w.map UInt32.toBitVec =
      (List.range w.length).map (schedule block)) :
    (extendSchedule count w).map UInt32.toBitVec =
      (List.range (w.length + count)).map (schedule block) := by
  induction count generalizing w with
  | zero => exact same
  | succ count induction =>
      have earlier : ∀ t < w.length,
          (w.getD t 0).toBitVec = schedule block t := by
        intro t within
        have entry := congrArg (fun values => values[t]?) same
        simp only [List.getElem?_map, List.getElem?_range within,
          List.getElem?_eq_getElem within, Option.map_some,
          Option.some.injEq] at entry
        rw [List.getD_eq_getElem?_getD, List.getElem?_eq_getElem within,
          Option.getD_some]
        exact entry
      have next := toBitVec_nextWord sixteen earlier
      have longer : (w ++ [nextWord w]).length = w.length + 1 :=
        List.length_append
      have extended := induction (w := w ++ [nextWord w])
        (by rw [longer]; omega) (by
          rw [longer, List.range_succ, List.map_append, List.map_append,
            same, List.map_singleton, List.map_singleton, next])
      rw [extendSchedule, extended, longer, Nat.add_right_comm, Nat.add_assoc]

theorem map_schedule {block : List Word} (sixteen : block.length = 16) :
    (List.range 16).map (schedule block) = block := by
  have first : (List.range 16).map (schedule block) =
      (List.range 16).map fun t => block.getD t 0 := by
    apply List.map_congr_left
    intro t listed
    rw [schedule, if_pos (List.mem_range.mp listed)]
  rw [first, ← sixteen]
  exact Decoding.map_range_getD block 0

/-! Compression. -/

/-- The words of a block of the input. -/
def blockOf (block : List UInt8) : List Word :=
  (Blocks.chunks 32 16 (messageBits block)).map word

theorem view_transform (state : Words) {block : List UInt8}
    (full : block.length = 64) :
    (transform state block).view = compress state.view (blockOf block) := by
  have words := blockWords_eq 16 block full
  have sixteen : (blockOf block).length = 16 := by
    unfold blockOf
    rw [List.length_map, Blocks.length_chunks]
  have count : (blockWords block).length = 16 := by
    rw [← List.length_map (f := UInt32.toBitVec), words, List.length_map,
      Blocks.length_chunks]
  have start : (blockWords block).map UInt32.toBitVec =
      (List.range (blockWords block).length).map
        (schedule (blockOf block)) := by
    rw [count, map_schedule sixteen]
    exact words
  have expanded := extendSchedule_eq 48 (Nat.le_of_eq count.symm) start
  rw [count] at expanded
  have constants' : kSha256K.map UInt32.toBitVec =
      (List.range 64).map fun t => constants.getD t 0 := by
    have sixtyFour : constants.length = 64 := by
      rw [← kSha256K_eq, List.length_map]
      rfl
    rw [kSha256K_eq, ← sixtyFour, Decoding.map_range_getD]
  have rounds : ∀ (pairs : List (UInt32 × UInt32)) (v : Words),
      (pairs.foldl round v).view =
        (pairs.map fun pair => (pair.1.toBitVec, pair.2.toBitVec)).foldl
          (fun v pair => SecureHash.round pair.1 pair.2 v) v.view := by
    intro pairs
    induction pairs with
    | nil => exact fun _ => rfl
    | cons pair pairs induction =>
        intro v
        rw [List.foldl_cons, induction, view_round]
        rfl
  have zipped : (kSha256K.zip (extendSchedule 48 (blockWords block))).map
      (fun pair => (pair.1.toBitVec, pair.2.toBitVec)) =
      (List.range 64).map fun t =>
        (constants.getD t 0, schedule (blockOf block) t) := by
    have both : (kSha256K.map UInt32.toBitVec).zip
        ((extendSchedule 48 (blockWords block)).map UInt32.toBitVec) =
        (kSha256K.zip (extendSchedule 48 (blockWords block))).map
          (Prod.map UInt32.toBitVec UInt32.toBitVec) := List.zip_map
    rw [constants', expanded, List.zip_map'] at both
    exact both.symm
  unfold transform
  rw [view_add, Variables.add_comm, rounds, zipped, List.foldl_map]
  rfl

theorem view_foldl_transform (state : Words) {blocks : List (List UInt8)}
    (sized : ∀ block ∈ blocks, block.length = 64) :
    (blocks.foldl transform state).view =
      (blocks.map blockOf).foldl compress state.view := by
  induction blocks generalizing state with
  | nil => rfl
  | cons block blocks induction =>
      have later := induction (transform state block) fun other member =>
        sized other (List.mem_cons_of_mem block member)
      rw [List.foldl_cons, later,
        view_transform state (sized block List.mem_cons_self)]
      rfl

theorem parse_flatten {blocks : List (List UInt8)}
    (sized : ∀ block ∈ blocks, block.length = 64) :
    parse (messageBits blocks.flatten) = blocks.map blockOf := by
  have bitwise : messageBits blocks.flatten =
      (blocks.map messageBits).flatten := by
    induction blocks with
    | nil => rfl
    | cons block blocks induction =>
        rw [List.flatten_cons, messageBits_append, List.map_cons,
          List.flatten_cons, induction fun other member =>
            sized other (List.mem_cons_of_mem block member)]
  have sized' : ∀ block ∈ blocks.map messageBits, block.length = 512 := by
    intro bits member
    obtain ⟨block, listed, rfl⟩ := List.mem_map.mp member
    rw [length_messageBits, sized block listed]
  have count : (messageBits blocks.flatten).length / 512 =
      (blocks.map messageBits).length := by
    rw [bitwise, Blocks.length_flatten_of_sized sized']
    exact Nat.mul_div_cancel_left _ (by decide)
  have cut := Blocks.chunks_flatten sized' []
  rw [List.append_nil] at cut
  unfold parse
  rw [count, bitwise, cut, List.map_map]
  rfl

theorem messageBits_outputBytes (w : Words) :
    messageBits (outputBytes w) = w.view.output := by
  have written : ∀ v : UInt32,
      messageBits (wordBytes v) = bits 32 v.toBitVec.toNat := by
    intro v
    have digits : wordBytes v = Codec.bigEndian 4 v.toNat :=
      ByteWriter.u32_eq_bigEndian v
    rw [digits, messageBits_bigEndian]
    rfl
  unfold outputBytes Variables.output
  simp only [messageBits_append, written, List.flatMap_cons,
    List.flatMap_nil, List.append_nil, List.append_assoc]
  rfl

/-! The stream of the hasher. -/

theorem absorb_absorbed {fuel : Nat} {initial state : Words}
    {input buffer data : List UInt8} (enough : data.length ≤ fuel)
    (absorbed : Blocks.Absorbed 64 transform initial input state buffer) :
    Blocks.Absorbed 64 transform initial (input ++ data)
      (absorb fuel state buffer data).1 (absorb fuel state buffer data).2 := by
  induction fuel generalizing input state buffer data with
  | zero =>
      have nothing := List.eq_nil_of_length_eq_zero (Nat.le_zero.mp enough)
      rw [nothing, List.append_nil, absorb]
      exact absorbed
  | succ fuel induction =>
      match data, enough with
      | [], _ =>
          rw [List.append_nil, absorb]
          exact absorbed
      | byte :: rest, enough =>
          have short := absorbed.short
          simp only [absorb]
          have some' : 0 < (byte :: rest).length := Nat.succ_pos _
          generalize byte :: rest = data at enough some' ⊢
          generalize taken : min (64 - buffer.length) data.length = take
          have fewer : (data.drop take).length ≤ fuel := by
            rw [List.length_drop]
            omega
          have size : (buffer ++ data.take take).length =
              buffer.length + take := by
            rw [List.length_append, List.length_take]
            omega
          have joined : input ++ data =
              input ++ data.take take ++ data.drop take := by
            rw [List.append_assoc, List.take_append_drop]
          rw [joined]
          split
          case isTrue filled => exact induction fewer (absorbed.fill filled)
          case isFalse open' =>
            refine induction fewer (absorbed.keep ?_)
            omega

/-- What a hasher knows that was fed an input since its reset. -/
structure Fed (input : List UInt8) (hasher : State) : Prop where
  absorbed : Blocks.Absorbed 64 transform reset.state input hasher.state
    hasher.buffer
  counted : hasher.totalLen = UInt64.ofNat input.length

/-- The zero bytes that are missing from the padding behind an input. -/
def missing (length : Nat) : Nat :=
  (120 - length % 64) % 64

namespace Fed

variable {input : List UInt8} {hasher : State}

theorem start : Fed [] reset :=
  ⟨Blocks.Absorbed.start (by decide), rfl⟩

theorem update (fed : Fed input hasher) (data : List UInt8) :
    Fed (input ++ data) (Sha256.update hasher data) where
  absorbed := absorb_absorbed (Nat.le_refl _) fed.absorbed
  counted := by
    unfold Sha256.update
    rw [fed.counted, List.length_append, UInt64.ofNat_add]

theorem pieces (fed : Fed input hasher) (pieces : List (List UInt8)) :
    Fed (input ++ pieces.flatten) (pieces.foldl Sha256.update hasher) := by
  induction pieces generalizing input hasher with
  | nil =>
      rw [List.flatten_nil, List.append_nil]
      exact fed
  | cons piece pieces induction =>
      rw [List.flatten_cons, ← List.append_assoc]
      exact induction (fed.update piece)

theorem padZeros (fed : Fed input hasher) (fuel : Nat)
    (enough : missing input.length ≤ fuel) :
    Fed (input ++ List.replicate (missing input.length) 0)
      (Sha256.padZeros fuel hasher) ∧
      (Sha256.padZeros fuel hasher).buffer.length = 56 := by
  have length := fed.absorbed.length_mod
  induction fuel generalizing input hasher with
  | zero =>
      have none' := Nat.le_zero.mp enough
      rw [none', List.replicate_zero, List.append_nil]
      refine ⟨fed, ?_⟩
      rw [Sha256.padZeros, length]
      unfold missing at none'
      omega
  | succ fuel induction =>
      rw [Sha256.padZeros]
      split
      case isTrue reached =>
        have none' : missing input.length = 0 := by
          unfold missing
          omega
        rw [none', List.replicate_zero, List.append_nil]
        exact ⟨fed, reached⟩
      case isFalse open' =>
        have fewer : missing input.length =
            missing (input ++ [(0 : UInt8)]).length + 1 := by
          unfold missing
          rw [List.length_append, List.length_singleton]
          omega
        have next := fed.update [0]
        have later := induction next (by omega) next.absorbed.length_mod
        rw [fewer, List.replicate_succ]
        rw [List.append_assoc] at later
        exact later

theorem finished (fed : Fed input hasher) (whole : input.length % 64 = 0) :
    messageBits (outputBytes hasher.state) =
      ((parse (messageBits input)).foldl compress initial).output := by
  obtain ⟨blocks, sized, flat, state⟩ := fed.absorbed.complete whole
  rw [messageBits_outputBytes, state, flat, parse_flatten sized,
    view_foldl_transform _ sized, view_reset]

end Fed

theorem padZeros_add (fuel extra : Nat) (hasher : State)
    (reached : (padZeros fuel hasher).buffer.length = 56) :
    padZeros (fuel + extra) hasher = padZeros fuel hasher := by
  induction fuel generalizing hasher with
  | zero =>
      cases extra with
      | zero => rfl
      | succ extra =>
          change padZeros (0 + (extra + 1)) hasher = hasher
          rw [padZeros] at reached
          rw [Nat.zero_add, padZeros, if_pos reached]
  | succ fuel induction =>
      rw [Nat.add_right_comm, padZeros, padZeros]
      split
      case isTrue reached => rfl
      case isFalse open' =>
        rw [padZeros, if_neg open'] at reached
        exact induction _ reached

theorem lengthBytes_eq (bitlen : UInt64) :
    lengthBytes bitlen = Codec.bigEndian 8 bitlen.toNat :=
  ByteWriter.u64_eq_bigEndian bitlen

theorem messageBits_zeros (count : Nat) :
    messageBits (List.replicate count 0) =
      List.replicate (count * 8) false := by
  induction count with
  | zero => rfl
  | succ count induction =>
      have first : messageBits (List.replicate (count + 1) 0) =
          List.replicate 8 false ++ messageBits (List.replicate count 0) := rfl
      rw [first, induction, List.replicate_append_replicate, Nat.succ_mul,
        Nat.add_comm 8]

theorem pad_messageBits (message : List UInt8)
    (small : message.length < 2 ^ 61) :
    messageBits (message ++ [0x80] ++
      List.replicate (missing (message ++ [(0x80 : UInt8)]).length) 0 ++
        lengthBytes (UInt64.ofNat message.length * 8)) =
      pad (messageBits message) := by
  have one : messageBits [0x80] = [true] ++ List.replicate 7 false := rfl
  have bitlen : (UInt64.ofNat message.length * 8).toNat =
      message.length * 8 := by
    have counted : (UInt64.ofNat message.length).toNat = message.length := by
      rw [UInt64.toNat_ofNat']
      exact Nat.mod_eq_of_lt (by omega)
    have fits : message.length * 8 < 2 ^ 64 := by omega
    rw [UInt64.toNat_mul, counted]
    exact Nat.mod_eq_of_lt fits
  have gap : zeros (message.length * 8) =
      7 + missing (message.length + 1) * 8 := by
    unfold zeros missing
    omega
  unfold pad
  rw [messageBits_append, messageBits_append, messageBits_append, one,
    List.length_append, List.length_singleton, messageBits_zeros,
    lengthBytes_eq, bitlen, messageBits_bigEndian, length_messageBits, gap,
    ← List.replicate_append_replicate]
  simp only [List.append_assoc]

theorem final_fed {message : List UInt8} {hasher : State}
    (fed : Fed message hasher) (small : message.length < 2 ^ 61) :
    messageBits (final hasher).toList =
      SecureHash.digest (messageBits message) := by
  have padded := ((fed.update [0x80]).padZeros 64 (by
    unfold missing
    omega)).1
  have whole := padded.update (lengthBytes (hasher.totalLen * 8))
  rw [fed.counted] at whole
  have blocks := whole.finished (by
    rw [List.length_append, List.length_append, List.length_append,
      List.length_replicate, lengthBytes_eq, Codec.length_bigEndian,
      List.length_singleton]
    unfold missing
    omega)
  unfold SecureHash.digest
  rw [pad_messageBits message small] at blocks
  rw [← blocks, ← fed.counted]
  rfl

/-- Every way to cut a message into pieces leads to its digest, and the
padding loop ends. -/
theorem digest_of_pieces (pieces : List (List UInt8)) :
    (pieces.flatten.length < 2 ^ 61 →
      messageBits (final (pieces.foldl update reset)).toList =
          SecureHash.digest (messageBits pieces.flatten) ∧
        messageBits (digest pieces.flatten).toList =
          SecureHash.digest (messageBits pieces.flatten)) ∧
      (padZeros 64
        (update (pieces.foldl update reset) [0x80])).buffer.length = 56 ∧
      ∀ fuel, 64 ≤ fuel →
        padZeros fuel (update (pieces.foldl update reset) [0x80]) =
          padZeros 64 (update (pieces.foldl update reset) [0x80]) := by
  have fed := Fed.start.pieces pieces
  rw [List.nil_append] at fed
  have padded := (fed.update [0x80]).padZeros 64 (by
    unfold missing
    omega)
  refine ⟨fun small => ⟨final_fed fed small, ?_⟩, padded.2, ?_⟩
  · exact final_fed (Fed.start.update pieces.flatten) small
  · intro fuel enough
    obtain ⟨extra, rfl⟩ := Nat.exists_eq_add_of_le enough
    exact padZeros_add 64 extra _ padded.2

/-- An empty piece, and a boundary inside a block. -/
theorem digest_of_abc :
    messageBits (final ([[0x61], [], [0x62, 0x63]].foldl update reset)).toList =
      SecureHash.digest (messageBits [0x61, 0x62, 0x63]) :=
  ((digest_of_pieces [[0x61], [], [0x62, 0x63]]).1 (by decide)).1

end Sha256

end BatchFabric
