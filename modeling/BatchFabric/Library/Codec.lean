import Mathlib.Data.List.Sort
import Mathlib.Tactic.Ring

/-! Byte encodings: big-endian numerals, and encoders whose codes can be cut
off the front of a longer string. -/

namespace Codec

/-- The low `width` base-256 digits of a number, most significant first. -/
def bigEndian : Nat → Nat → List UInt8
  | 0, _ => []
  | width + 1, value =>
      UInt8.ofNat (value / 256 ^ width) :: bigEndian width value

/-- The number a base-256 numeral denotes, continuing from `high`. -/
def ofDigits (high : Nat) (digits : List UInt8) : Nat :=
  digits.foldl (fun value digit => value * 256 + digit.toNat) high

@[simp] theorem length_bigEndian (width value : Nat) :
    (bigEndian width value).length = width := by
  induction width with
  | zero => rfl
  | succ width induction =>
      rw [bigEndian, List.length_cons, induction]

theorem ofDigits_bigEndian (width value high : Nat) :
    ofDigits high (bigEndian width value) =
      high * 256 ^ width + value % 256 ^ width := by
  induction width generalizing high with
  | zero => simp [bigEndian, ofDigits, Nat.mod_one]
  | succ width induction =>
      have digit : (UInt8.ofNat (value / 256 ^ width)).toNat =
          value / 256 ^ width % 256 := UInt8.toNat_ofNat'
      have unfolded : ofDigits high (bigEndian (width + 1) value) =
          ofDigits (high * 256 + value / 256 ^ width % 256)
            (bigEndian width value) := by
        rw [← digit]
        rfl
      have split : value % 256 ^ (width + 1) =
          value % 256 ^ width + 256 ^ width * (value / 256 ^ width % 256) := by
        rw [Nat.pow_succ, Nat.mod_mul]
      have carried : (high * 256 + value / 256 ^ width % 256) * 256 ^ width =
          high * 256 ^ (width + 1) +
            256 ^ width * (value / 256 ^ width % 256) := by
        rw [Nat.add_mul, Nat.mul_assoc, Nat.pow_succ,
          Nat.mul_comm 256 (256 ^ width),
          Nat.mul_comm (value / 256 ^ width % 256)]
      rw [unfolded, induction, split, carried]
      omega

theorem ofDigits_eq (high : Nat) (digits : List UInt8) :
    ofDigits high digits =
      high * 256 ^ digits.length + ofDigits 0 digits := by
  induction digits generalizing high with
  | nil => simp [ofDigits]
  | cons digit digits induction =>
      have head : ofDigits high (digit :: digits) =
          ofDigits (high * 256 + digit.toNat) digits := rfl
      have zero : ofDigits 0 (digit :: digits) =
          ofDigits (0 * 256 + digit.toNat) digits := rfl
      rw [head, zero, induction (high * 256 + digit.toNat),
        induction (0 * 256 + digit.toNat), List.length_cons, Nat.pow_succ]
      ring

theorem ofDigits_lt (digits : List UInt8) :
    ofDigits 0 digits < 256 ^ digits.length := by
  induction digits with
  | nil => simp [ofDigits]
  | cons digit digits induction =>
      have head : ofDigits 0 (digit :: digits) =
          ofDigits (0 * 256 + digit.toNat) digits := rfl
      have small : digit.toNat < 256 := digit.toNat_lt
      have scaled : (digit.toNat + 1) * 256 ^ digits.length ≤
          256 * 256 ^ digits.length := Nat.mul_le_mul_right _ small
      rw [head, ofDigits_eq, Nat.zero_mul, Nat.zero_add, List.length_cons,
        Nat.pow_succ, Nat.mul_comm (256 ^ digits.length) 256]
      rw [Nat.add_mul] at scaled
      omega

theorem bigEndian_ofDigits (high : Nat) (digits : List UInt8) :
    bigEndian digits.length (ofDigits high digits) = digits := by
  induction digits generalizing high with
  | nil => rfl
  | cons digit digits induction =>
      have head : ofDigits high (digit :: digits) =
          ofDigits (high * 256 + digit.toNat) digits := rfl
      have first : ofDigits (high * 256 + digit.toNat) digits /
          256 ^ digits.length = high * 256 + digit.toNat := by
        rw [ofDigits_eq, Nat.add_comm, Nat.add_mul_div_right _ _
          (Nat.pow_pos (by decide)), Nat.div_eq_of_lt (ofDigits_lt digits),
          Nat.zero_add]
      have byte : UInt8.ofNat (high * 256 + digit.toNat) = digit := by
        apply UInt8.toNat_inj.mp
        rw [UInt8.toNat_ofNat']
        have small : digit.toNat < 256 := digit.toNat_lt
        omega
      rw [head, List.length_cons, bigEndian, first, byte, induction]

section SelfDelimiting

variable {α : Type u} {α' : Type v} {β : Type w}

/-- What an encoder writes can be told apart from whatever follows it. -/
def SelfDelimiting (encode : α → List β) : Prop :=
  ∀ left right leftRest rightRest,
    encode left ++ leftRest = encode right ++ rightRest →
      left = right ∧ leftRest = rightRest

theorem SelfDelimiting.injective {encode : α → List β}
    (delimits : SelfDelimiting encode) : Function.Injective encode := by
  intro left right equal
  exact (delimits left right [] [] (by rw [equal])).1

/-- Codes of one length need no delimiter. -/
theorem SelfDelimiting.of_length {encode : α → List β}
    (injective : Function.Injective encode) (width : Nat)
    (length : ∀ value, (encode value).length = width) :
    SelfDelimiting encode := by
  intro left right leftRest rightRest equal
  have sameLength : (encode left).length = (encode right).length := by
    rw [length, length]
  obtain ⟨codes, rests⟩ := List.append_inj equal sameLength
  exact ⟨injective codes, rests⟩

theorem SelfDelimiting.comp {encode : α → List β}
    (delimits : SelfDelimiting encode) {project : α' → α}
    (injective : Function.Injective project) :
    SelfDelimiting (fun value => encode (project value)) := by
  intro left right leftRest rightRest equal
  obtain ⟨projected, rests⟩ :=
    delimits (project left) (project right) leftRest rightRest equal
  exact ⟨injective projected, rests⟩

/-- Two lists of one length, coded element by element, are told apart. -/
theorem SelfDelimiting.flatMap {encode : α → List β}
    (delimits : SelfDelimiting encode) :
    ∀ left right : List α, left.length = right.length →
      ∀ leftRest rightRest : List β,
        left.flatMap encode ++ leftRest = right.flatMap encode ++ rightRest →
          left = right ∧ leftRest = rightRest := by
  intro left
  induction left with
  | nil =>
      intro right sameLength leftRest rightRest equal
      cases right with
      | nil => exact ⟨rfl, equal⟩
      | cons head tail => cases sameLength
  | cons head tail induction =>
      intro right sameLength leftRest rightRest equal
      cases right with
      | nil => cases sameLength
      | cons head' tail' =>
          simp only [List.flatMap_cons, List.append_assoc] at equal
          obtain ⟨heads, tails⟩ := delimits head head' _ _ equal
          obtain ⟨restTails, rests⟩ := induction tail'
            (Nat.succ.inj sameLength) leftRest rightRest tails
          exact ⟨by rw [heads, restTails], rests⟩

/-- No code is the beginning of another. -/
def PrefixFree (encode : α → List β) : Prop :=
  ∀ left right, encode left <+: encode right → left = right

theorem PrefixFree.delimits {encode : α → List β}
    (free : PrefixFree encode) : SelfDelimiting encode := by
  intro left right leftRest rightRest equal
  have same : left = right := by
    rcases List.append_eq_append_iff.mp equal with
      ⟨middle, longer, _⟩ | ⟨middle, longer, _⟩
    · exact free left right ⟨middle, longer.symm⟩
    · exact (free right left ⟨middle, longer.symm⟩).symm
  subst same
  exact ⟨rfl, List.append_cancel_left equal⟩

/-- Symbols of one kind are told apart from a stop of another kind. -/
theorem append_stop_inj {plain : β → Prop} :
    ∀ {left right : List β} {leftStop rightStop : β}
      {leftRest rightRest : List β},
      (∀ symbol ∈ left, plain symbol) → (∀ symbol ∈ right, plain symbol) →
      ¬ plain leftStop → ¬ plain rightStop →
      left ++ leftStop :: leftRest = right ++ rightStop :: rightRest →
        left = right ∧ leftStop :: leftRest = rightStop :: rightRest := by
  intro left
  induction left with
  | nil =>
      intro right leftStop rightStop leftRest rightRest _ plains stops _ equal
      cases right with
      | nil => exact ⟨rfl, equal⟩
      | cons head tail =>
          have same : leftStop = head := (List.cons.inj equal).1
          exact absurd (plains head List.mem_cons_self) (same ▸ stops)
  | cons head tail induction =>
      intro right leftStop rightStop leftRest rightRest plain plains stops
        stops' equal
      cases right with
      | nil =>
          have same : head = rightStop := (List.cons.inj equal).1
          exact absurd (plain head List.mem_cons_self) (same ▸ stops')
      | cons head' tail' =>
          obtain ⟨heads, rest⟩ := List.cons.inj equal
          obtain ⟨tails, rests⟩ := induction
            (fun symbol member => plain symbol (List.mem_cons_of_mem _ member))
            (fun symbol member => plains symbol (List.mem_cons_of_mem _ member))
            stops stops' rest
          exact ⟨by rw [heads, tails], rests⟩

/-- Lists coded element by element are told apart up to a stop that begins no
code. -/
theorem SelfDelimiting.flatMap_stop {encode : α → List β}
    (delimits : SelfDelimiting encode) {stops : β → Prop}
    (begins : ∀ value, ∃ first rest, encode value = first :: rest ∧
      ¬ stops first) :
    ∀ {left right : List α} {leftStop rightStop : β}
      {leftRest rightRest : List β}, stops leftStop → stops rightStop →
      left.flatMap encode ++ leftStop :: leftRest =
          right.flatMap encode ++ rightStop :: rightRest →
        left = right ∧ leftStop :: leftRest = rightStop :: rightRest := by
  intro left
  induction left with
  | nil =>
      intro right leftStop rightStop leftRest rightRest stop _ equal
      cases right with
      | nil => exact ⟨rfl, equal⟩
      | cons head tail =>
          obtain ⟨first, rest, code, starts⟩ := begins head
          rw [List.flatMap_cons, code] at equal
          have same : leftStop = first := (List.cons.inj equal).1
          exact absurd stop (same ▸ starts)
  | cons head tail induction =>
      intro right leftStop rightStop leftRest rightRest stop stop' equal
      cases right with
      | nil =>
          obtain ⟨first, rest, code, starts⟩ := begins head
          rw [List.flatMap_cons, code] at equal
          have same : first = rightStop := (List.cons.inj equal).1
          exact absurd stop' (same ▸ starts)
      | cons head' tail' =>
          simp only [List.flatMap_cons, List.append_assoc] at equal
          obtain ⟨heads, tails⟩ := delimits head head' _ _ equal
          obtain ⟨restTails, rests⟩ := induction stop stop' tails
          exact ⟨by rw [heads, restTails], rests⟩

/-- A word passes over a list of words of its length exactly where they all
equal it. -/
theorem append_flatMap_comm_iff {encode : α → List β} {word : List β} :
    ∀ values : List α, (∀ value ∈ values,
      (encode value).length = word.length) →
      (values.flatMap encode ++ word = word ++ values.flatMap encode ↔
        ∀ value ∈ values, encode value = word) := by
  intro values
  induction values with
  | nil => simp
  | cons head tail induction =>
      intro lengths
      have induction := induction fun value member =>
        lengths value (List.mem_cons_of_mem _ member)
      rw [List.flatMap_cons, List.append_assoc, List.forall_mem_cons]
      constructor
      · intro equal
        obtain ⟨same, rest⟩ := List.append_inj equal
          (lengths head List.mem_cons_self)
        exact ⟨same, induction.mp (by rw [rest, same])⟩
      · rintro ⟨same, rest⟩
        rw [induction.mpr rest, same]

/-- Two codings of a list agree as a whole where they agree on each element,
if they agree on every length. -/
theorem flatMap_append_inj_iff {left right : α → List β}
    {leftRest rightRest : List β} :
    ∀ values : List α, (∀ value ∈ values,
      (left value).length = (right value).length) →
      (values.flatMap left ++ leftRest = values.flatMap right ++ rightRest ↔
        (∀ value ∈ values, left value = right value) ∧
          leftRest = rightRest) := by
  intro values
  induction values with
  | nil => simp
  | cons head tail induction =>
      intro lengths
      have induction := induction fun value member =>
        lengths value (List.mem_cons_of_mem _ member)
      rw [List.flatMap_cons, List.flatMap_cons, List.append_assoc,
        List.append_assoc, List.forall_mem_cons, and_assoc, ← induction]
      constructor
      · exact fun equal =>
          List.append_inj equal (lengths head List.mem_cons_self)
      · rintro ⟨same, rest⟩
        rw [same, rest]

/-- Lists coded element by element are told apart without their lengths, when
no code is empty. -/
theorem flatMap_inj {encode : α → List β} {P : α → Prop}
    (nonempty : ∀ value, encode value ≠ [])
    (delimits : ∀ left right, P left → P right → ∀ leftRest rightRest,
      encode left ++ leftRest = encode right ++ rightRest →
        left = right ∧ leftRest = rightRest)
    {left right : List α} (allLeft : ∀ value ∈ left, P value)
    (allRight : ∀ value ∈ right, P value)
    (equal : left.flatMap encode = right.flatMap encode) : left = right := by
  induction left generalizing right with
  | nil =>
      cases right with
      | nil => rfl
      | cons head tail =>
          rw [List.flatMap_nil, List.flatMap_cons] at equal
          exact absurd (List.append_eq_nil_iff.mp equal.symm).1 (nonempty head)
  | cons head tail induction =>
      cases right with
      | nil =>
          rw [List.flatMap_nil, List.flatMap_cons] at equal
          exact absurd (List.append_eq_nil_iff.mp equal).1 (nonempty head)
      | cons head' tail' =>
          obtain ⟨here, there⟩ := List.forall_mem_cons.mp allLeft
          obtain ⟨here', there'⟩ := List.forall_mem_cons.mp allRight
          rw [List.flatMap_cons, List.flatMap_cons] at equal
          obtain ⟨heads, tails⟩ := delimits head head' here here' _ _ equal
          rw [heads, induction there there' tails]

theorem length_le_length_flatMap {encode : α → List β}
    (nonempty : ∀ value, encode value ≠ []) (values : List α) :
    values.length ≤ (values.flatMap encode).length := by
  induction values with
  | nil => exact Nat.zero_le _
  | cons value values induction =>
      have code := List.length_pos_iff.mpr (nonempty value)
      rw [List.flatMap_cons, List.length_append, List.length_cons]
      omega

end SelfDelimiting

end Codec
