import BatchFabric.Library.Mixing
import BatchFabric.Numerals
import BatchFabric.Scheduler.Dispatch

namespace BatchFabric

/-! The CPU executor, and what its output tells of a member's work. -/

def fnv1a64 (s : ByteString) : UInt64 :=
  s.bytes.foldl (fun h c => (h ^^^ c.toUInt64) * 1099511628211)
    1469598103934665603

/-- SplitMix64 finalizer. -/
def hashMix64 (x : UInt64) : UInt64 :=
  let x := x + 0x9e3779b97f4a7c15
  let x := (x ^^^ x >>> 30) * 0xbf58476d1ce4e5b9
  let x := (x ^^^ x >>> 27) * 0x94d049bb133111eb
  x ^^^ x >>> 31

structure HashCombine where
  state : UInt64 := 0

namespace HashCombine

def add (hc : HashCombine) (v : UInt64) : HashCombine where
  state := hashMix64 (hc.state ^^^ v)

def addString (hc : HashCombine) (s : ByteString) : HashCombine where
  state := hashMix64 (hc.state ^^^ fnv1a64 s)

def value (hc : HashCombine) : UInt64 :=
  hc.state

end HashCombine

namespace CpuExecutor

/-- The 64-bit result a member's payload and amounts are folded into. -/
def folded (m : MemberWork) : UInt64 :=
  (((({} : HashCombine).addString m.payload).add m.work).add
    m.inputTokens).add m.outputTokens |>.value

def output (m : MemberWork) : ByteString :=
  .ofAscii "work=" ++ .ofNumber m.work.toNat ++ .ofAscii ";tokens=" ++
    .ofNumber (m.inputTokens + m.outputTokens).toNat ++ .ofAscii ";hash=" ++
    .ofNumber (folded m).toNat

def execute (batch : BatchExecution) : Except Error (List MemberResult) :=
  .ok (batch.members.map fun m => {
    request := m.request
    attempt := m.attempt
    output := output m })

end CpuExecutor

def cpuExecutor (cap : ExecutorCapability) : Executor where
  capability := cap
  execute := CpuExecutor.execute

/-! Nothing is lost in a step of the hashes. -/

theorem hashMix64_injective : Function.Injective hashMix64 := by
  have offset := Mixing.add_injective 0x9e3779b97f4a7c15
  have first := Mixing.xorShift_injective 30 (by decide)
  have second := Mixing.mul_injective 0xbf58476d1ce4e5b9 0x96de1b173f119089
    (by decide)
  have third := Mixing.xorShift_injective 27 (by decide)
  have fourth := Mixing.mul_injective 0x94d049bb133111eb 0x319642b2d24d8ec3
    (by decide)
  have last := Mixing.xorShift_injective 31 (by decide)
  exact last.comp (fourth.comp (third.comp (second.comp (first.comp offset))))

theorem add_ne {hc hc' : HashCombine} {v v' : UInt64}
    (different : hc.state ^^^ v ≠ hc'.state ^^^ v') :
    (hc.add v).state ≠ (hc'.add v').state :=
  fun equal => different (hashMix64_injective equal)

theorem state_add_ne {hc hc' : HashCombine} (v : UInt64)
    (different : hc.state ≠ hc'.state) :
    (hc.add v).state ≠ (hc'.add v).state :=
  add_ne fun equal => different (Mixing.xor_injective v equal)

theorem value_add_ne (hc : HashCombine) {v v' : UInt64}
    (different : v ≠ v') : (hc.add v).state ≠ (hc.add v').state := by
  apply add_ne
  rw [UInt64.xor_comm hc.state, UInt64.xor_comm hc.state]
  exact fun equal => different (Mixing.xor_injective hc.state equal)

theorem fnv1a64_factor_injective :
    Function.Injective fun h : UInt64 => h * 1099511628211 :=
  Mixing.mul_injective 1099511628211 0xce965057aff6957b (by decide)

/-- Strings that differ in one byte have different hashes. -/
theorem fnv1a64_ne {s s' : ByteString} {before after : List UInt8}
    {byte byte' : UInt8} (bytes : s.bytes = before ++ byte :: after)
    (bytes' : s'.bytes = before ++ byte' :: after) (different : byte ≠ byte') :
    fnv1a64 s ≠ fnv1a64 s' := by
  have same : ∀ (rest : List UInt8) (h h' : UInt64), h ≠ h' →
      rest.foldl (fun h c => (h ^^^ c.toUInt64) * 1099511628211) h ≠
        rest.foldl (fun h c => (h ^^^ c.toUInt64) * 1099511628211) h' := by
    intro rest
    induction rest with
    | nil => exact fun _ _ apart => apart
    | cons c rest induction =>
        intro h h' apart
        exact induction _ _ fun equal => apart
          (Mixing.xor_injective _ (fnv1a64_factor_injective equal))
  unfold fnv1a64
  rw [bytes, bytes', List.foldl_append, List.foldl_append, List.foldl_cons,
    List.foldl_cons]
  apply same
  intro equal
  have xored := fnv1a64_factor_injective equal
  rw [UInt64.xor_comm _ byte.toUInt64, UInt64.xor_comm _ byte'.toUInt64]
    at xored
  have widened := Mixing.xor_injective _ xored
  apply different
  have numbers := congrArg UInt64.toNat widened
  rw [UInt8.toNat_toUInt64, UInt8.toNat_toUInt64] at numbers
  exact UInt8.toNat_inj.mp numbers

/-! A member told from another. -/

namespace CpuExecutor

/-- One byte of the payload is another, or one of the amounts. -/
inductive DiffersInOne (m : MemberWork) : MemberWork → Prop
  | payload (payload : ByteString) (before after : List UInt8)
      (byte byte' : UInt8) (bytes : m.payload.bytes = before ++ byte :: after)
      (bytes' : payload.bytes = before ++ byte' :: after)
      (different : byte ≠ byte') :
      DiffersInOne m { m with payload := payload }
  | work (work : UInt64) (different : m.work ≠ work) :
      DiffersInOne m { m with work := work }
  | inputTokens (tokens : UInt64) (different : m.inputTokens ≠ tokens) :
      DiffersInOne m { m with inputTokens := tokens }
  | outputTokens (tokens : UInt64) (different : m.outputTokens ≠ tokens) :
      DiffersInOne m { m with outputTokens := tokens }

theorem folded_ne {m m' : MemberWork} (one : DiffersInOne m m') :
    folded m ≠ folded m' := by
  cases one with
  | payload payload before after byte byte' bytes bytes' different =>
      apply state_add_ne
      apply state_add_ne
      apply state_add_ne
      exact add_ne fun equal => fnv1a64_ne bytes bytes' different (by
        have swapped := equal
        rw [UInt64.xor_comm 0, UInt64.xor_comm 0] at swapped
        exact Mixing.xor_injective 0 swapped)
  | work work different =>
      apply state_add_ne
      apply state_add_ne
      exact value_add_ne _ different
  | inputTokens tokens different =>
      apply state_add_ne
      exact value_add_ne _ different
  | outputTokens tokens different => exact value_add_ne _ different

theorem bytes_output (m : MemberWork) :
    ∃ front, (output m).bytes =
      front ++ 61 :: (ByteString.ofNumber (folded m).toNat).bytes := by
  have short := ByteString.length_ofNumber_le m.work.toNat_lt
  have short' := ByteString.length_ofNumber_le
    (m.inputTokens + m.outputTokens).toNat_lt
  have short'' := ByteString.length_ofNumber_le (folded m).toNat_lt
  have lengths : (ByteString.ofAscii "work=").bytes.length = 5 ∧
      (ByteString.ofAscii ";tokens=").bytes.length = 8 ∧
      (ByteString.ofAscii ";hash=").bytes.length = 6 := by decide
  have sign : (ByteString.ofAscii ";hash=").bytes =
      (ByteString.ofAscii ";hash").bytes ++ [61] := by decide
  obtain ⟨ofWork, ofTokens, ofHash⟩ := lengths
  unfold output
  generalize ByteString.ofNumber m.work.toNat = work at short ⊢
  generalize ByteString.ofNumber (m.inputTokens + m.outputTokens).toNat =
    tokens at short' ⊢
  generalize ByteString.ofNumber (folded m).toNat = hash at short'' ⊢
  have first : (ByteString.ofAscii "work=" ++ work).bytes =
      (ByteString.ofAscii "work=").bytes ++ work.bytes :=
    ByteString.bytes_append (by omega)
  have second : (ByteString.ofAscii "work=" ++ work ++
      .ofAscii ";tokens=").bytes =
        (ByteString.ofAscii "work=").bytes ++ work.bytes ++
          (ByteString.ofAscii ";tokens=").bytes := by
    rw [ByteString.bytes_append, first]
    rw [first, List.length_append]
    omega
  have third : (ByteString.ofAscii "work=" ++ work ++ .ofAscii ";tokens=" ++
      tokens).bytes = (ByteString.ofAscii "work=").bytes ++ work.bytes ++
        (ByteString.ofAscii ";tokens=").bytes ++ tokens.bytes := by
    rw [ByteString.bytes_append, second]
    rw [second, List.length_append, List.length_append]
    omega
  have fourth : (ByteString.ofAscii "work=" ++ work ++ .ofAscii ";tokens=" ++
      tokens ++ .ofAscii ";hash=").bytes =
        (ByteString.ofAscii "work=").bytes ++ work.bytes ++
          (ByteString.ofAscii ";tokens=").bytes ++ tokens.bytes ++
          (ByteString.ofAscii ";hash=").bytes := by
    rw [ByteString.bytes_append, third]
    rw [third, List.length_append, List.length_append, List.length_append]
    omega
  refine ⟨(ByteString.ofAscii "work=").bytes ++ work.bytes ++
    (ByteString.ofAscii ";tokens=").bytes ++ tokens.bytes ++
    (ByteString.ofAscii ";hash").bytes, ?_⟩
  rw [ByteString.bytes_append, fourth, sign]
  · simp
  · rw [fourth, List.length_append, List.length_append, List.length_append,
      List.length_append]
    omega

/-- The digits after the last sign of equality are those of the hash. -/
theorem folded_of_output {m m' : MemberWork} (same : output m = output m') :
    folded m = folded m' := by
  obtain ⟨front, bytes⟩ := bytes_output m
  obtain ⟨front', bytes'⟩ := bytes_output m'
  rw [same, bytes'] at bytes
  have last : ∀ (n : UInt64) (front : List UInt8),
      (front ++ 61 :: (ByteString.ofNumber n.toNat).bytes).reverse.takeWhile
        ByteString.isDigit = (ByteString.ofNumber n.toNat).bytes.reverse := by
    intro n front
    have digits := ByteString.digits_ofNumber n.toNat_lt
    rw [List.reverse_append, List.reverse_cons, List.append_assoc,
      List.takeWhile_append_of_pos fun char member =>
        digits char (List.mem_reverse.mp member)]
    simp [ByteString.isDigit]
  have digits := congrArg (fun bytes : List UInt8 =>
    bytes.reverse.takeWhile ByteString.isDigit) bytes
  rw [last, last] at digits
  have equal := ByteString.ofNumber_inj (folded m').toNat_lt
    (folded m).toNat_lt (ByteString.eq_of_bytes_eq
      (List.reverse_injective digits))
  exact (UInt64.toNat_inj.mp equal).symm

/-- The output tells any two members apart that differ in one respect. -/
theorem output_ne {m m' : MemberWork} (one : DiffersInOne m m') :
    output m ≠ output m' :=
  fun same => folded_ne one (folded_of_output same)

/-- The last byte of the payload is another. -/
theorem output_ne_of_payload :
    output { work := 3, payload := { bytes := [1, 2] } } ≠
      output { work := 3, payload := { bytes := [1, 4] } } :=
  output_ne (.payload { bytes := [1, 4] } [1] [] 2 4 rfl rfl (by decide))

end CpuExecutor

end BatchFabric
