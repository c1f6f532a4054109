import BatchFabric.Library.Codec

/-! Formats of byte strings, described by the numbers they hold. A format can be
walked without building the value it stands for. -/

open Codec

inductive Layout
  | done
  | number (width : Nat) (allowed : Nat → Bool)
  | text (width : Nat)
  | counted (width : Nat) (element : Layout)
  | seq (first second : Layout)

namespace Layout

/-- The fields one after another. -/
def record (fields : List Layout) : Layout :=
  fields.foldr seq done

/-- A number nothing is asked of. -/
def anyNumber (width : Nat) : Layout :=
  number width fun _ => true

/-- Walks the same format a number of times. -/
def times (walk : List UInt8 → Option (List UInt8)) :
    Nat → List UInt8 → Option (List UInt8)
  | 0, input => some input
  | count + 1, input => (walk input).bind (times walk count)

/-- What is left of the input behind the format. Nothing if the input ends too
early or holds a number that is not allowed. -/
def walk : Layout → List UInt8 → Option (List UInt8)
  | done, input => some input
  | number width allowed, input =>
      if width ≤ input.length && allowed (ofDigits 0 (input.take width)) then
        some (input.drop width)
      else none
  | text width, input =>
      let size := ofDigits 0 (input.take width)
      if width + size ≤ input.length then some (input.drop (width + size))
      else none
  | counted width element, input =>
      if width ≤ input.length then
        times element.walk (ofDigits 0 (input.take width)) (input.drop width)
      else none
  | seq first second, input => (first.walk input).bind second.walk

/-- The input is of the format from its first byte to its last. -/
def conforms (layout : Layout) (input : List UInt8) : Bool :=
  layout.walk input == some []

/-- Walking over a code succeeds exactly if the code is good, whatever
follows. -/
def Walks (layout : Layout) (code : List UInt8) (good : Bool) : Prop :=
  ∀ rest, layout.walk (code ++ rest) = if good then some rest else none

theorem Walks.conforms_eq {layout : Layout} {code : List UInt8} {good : Bool}
    (walks : layout.Walks code good) : layout.conforms code = good := by
  have whole := walks []
  rw [List.append_nil] at whole
  unfold conforms
  rw [whole]
  cases good <;> rfl

theorem Walks.congr {layout : Layout} {code code' : List UInt8}
    {good good' : Bool} (walks : layout.Walks code good)
    (sameCode : code = code') (sameGood : good = good') :
    layout.Walks code' good' :=
  sameCode ▸ sameGood ▸ walks

theorem walks_done : done.Walks [] true :=
  fun _ => rfl

section Rules

variable {width : Nat}

theorem ofDigits_take {value : Nat} (small : value < 256 ^ width)
    (rest : List UInt8) :
    ofDigits 0 ((bigEndian width value ++ rest).take width) = value := by
  rw [List.take_left' (length_bigEndian width value), ofDigits_bigEndian,
    Nat.zero_mul, Nat.zero_add, Nat.mod_eq_of_lt small]

theorem walks_number {value : Nat} (small : value < 256 ^ width)
    (allowed : Nat → Bool) :
    (number width allowed).Walks (bigEndian width value) (allowed value) := by
  intro rest
  have long : width ≤ (bigEndian width value ++ rest).length := by
    rw [List.length_append, length_bigEndian]
    exact Nat.le_add_right _ _
  unfold walk
  rw [ofDigits_take small, decide_eq_true long, Bool.true_and,
    List.drop_left' (length_bigEndian width value)]

theorem walks_text {bytes : List UInt8} (small : bytes.length < 256 ^ width) :
    (text width).Walks (bigEndian width bytes.length ++ bytes) true := by
  intro rest
  have length : (bigEndian width bytes.length ++ bytes).length =
      width + bytes.length := by
    rw [List.length_append, length_bigEndian]
  have long : width + bytes.length ≤
      (bigEndian width bytes.length ++ bytes ++ rest).length := by
    rw [List.length_append, length]
    exact Nat.le_add_right _ _
  have size : ofDigits 0 ((bigEndian width bytes.length ++ bytes ++ rest).take
      width) = bytes.length := by
    rw [List.append_assoc, ofDigits_take small]
  unfold walk
  rw [size]
  simp only [long, if_true, List.drop_left' length]

theorem Walks.seq {first second : Layout} {head tail : List UInt8}
    {goodHead goodTail : Bool} (walksHead : first.Walks head goodHead)
    (walksTail : second.Walks tail goodTail) :
    (Layout.seq first second).Walks (head ++ tail) (goodHead && goodTail) := by
  intro rest
  unfold walk
  rw [List.append_assoc, walksHead]
  cases goodHead with
  | false => rfl
  | true => exact walksTail rest

theorem walks_times {α : Type u} {element : Layout} {code : α → List UInt8}
    {good : α → Bool} {values : List α}
    (walks : ∀ value ∈ values, element.Walks (code value) (good value))
    (rest : List UInt8) :
    times element.walk values.length (values.flatMap code ++ rest) =
      if values.all good then some rest else none := by
  induction values with
  | nil => rfl
  | cons value values induction =>
      have later := induction fun value member =>
        walks value (List.mem_cons_of_mem _ member)
      rw [List.length_cons, times, List.flatMap_cons, List.append_assoc,
        walks value List.mem_cons_self, List.all_cons]
      cases good value with
      | false => rfl
      | true => exact later

theorem walks_counted {α : Type u} {element : Layout} {code : α → List UInt8}
    {good : α → Bool} {values : List α}
    (small : values.length < 256 ^ width)
    (walks : ∀ value ∈ values, element.Walks (code value) (good value)) :
    (counted width element).Walks
      (bigEndian width values.length ++ values.flatMap code)
      (values.all good) := by
  intro rest
  have long : width ≤ (bigEndian width values.length ++
      (values.flatMap code ++ rest)).length := by
    rw [List.length_append, length_bigEndian]
    exact Nat.le_add_right _ _
  unfold walk
  rw [List.append_assoc, ofDigits_take small, if_pos long,
    List.drop_left' (length_bigEndian width values.length),
    walks_times walks]

end Rules

end Layout
