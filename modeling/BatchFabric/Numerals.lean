import BatchFabric.Error
import Mathlib.Data.List.TakeWhile
import Mathlib.Data.Nat.Digits.Lemmas

namespace BatchFabric.ByteString

/-! Unsigned numbers written out in decimal and read back. -/

/-- `std::to_string` of an unsigned number. -/
def ofNumber (value : Nat) : ByteString :=
  ofBytes (if value = 0 then [48]
    else (Nat.digits 10 value).reverse.map fun digit => UInt8.ofNat (48 + digit))

def isSpace (char : UInt8) : Bool :=
  char == 32 || (9 ≤ char && char ≤ 13)

def isDigit (char : UInt8) : Bool :=
  48 ≤ char && char ≤ 57

def digitsValue (digits : List UInt8) : Nat :=
  digits.foldl (fun value digit => value * 10 + (digit.toNat - 48)) 0

/-- The sign in front of the digits: whether it negates, and what follows. -/
def splitSign : List UInt8 → Bool × List UInt8
  | [] => (false, [])
  | char :: rest =>
      if char = 45 then (true, rest)
      else if char = 43 then (false, rest)
      else (false, char :: rest)

/-- `std::stoull`; nothing where it throws. -/
def stoull (text : ByteString) : Option Nat :=
  let signed := splitSign (text.bytes.dropWhile isSpace)
  let digits := signed.2.takeWhile isDigit
  let value := digitsValue digits
  if digits.isEmpty then none
  else if value ≥ 2 ^ 64 then none
  else some (if signed.1 then (2 ^ 64 - value) % 2 ^ 64 else value)

theorem stoull_lt {text : ByteString} {value : Nat}
    (read : text.stoull = some value) : value < 2 ^ 64 := by
  unfold stoull at read
  dsimp only at read
  split at read
  · cases read
  · split at read
    · cases read
    · next fits =>
        cases read
        split
        · exact Nat.mod_lt _ (by decide)
        · exact Nat.not_le.mp fits

theorem bytes_ofBytes {bytes : List UInt8} (short : bytes.length < 2 ^ 64) :
    (ofBytes bytes).bytes = bytes :=
  List.take_of_length_le (Nat.le_sub_one_of_lt short)

theorem bytes_append {left right : ByteString}
    (short : left.bytes.length + right.bytes.length < 2 ^ 64) :
    (left ++ right).bytes = left.bytes ++ right.bytes := by
  show (ofBytes (left.bytes ++ right.bytes)).bytes = _
  apply bytes_ofBytes
  rwa [List.length_append]

/-- The character of a decimal digit. -/
def digitChar (digit : Nat) : UInt8 :=
  UInt8.ofNat (48 + digit)

theorem toNat_digitChar {digit : Nat} (decimal : digit < 10) :
    (digitChar digit).toNat = 48 + digit := by
  have fits : 48 + digit < 256 := by omega
  exact UInt8.toNat_ofNat_of_lt' fits

theorem isDigit_digitChar {digit : Nat} (decimal : digit < 10) :
    isDigit (digitChar digit) = true := by
  have value := toNat_digitChar decimal
  simp only [isDigit, Bool.and_eq_true, decide_eq_true_eq,
    UInt8.le_iff_toNat_le, value]
  exact ⟨Nat.le_add_right 48 digit, by change 48 + digit ≤ 57; omega⟩

/-- No digit is a blank or a sign. -/
theorem plain_of_isDigit {char : UInt8} (digit : isDigit char = true) :
    isSpace char = false ∧ char ≠ 45 ∧ char ≠ 43 := by
  simp only [isDigit, Bool.and_eq_true, decide_eq_true_eq,
    UInt8.le_iff_toNat_le] at digit
  have above : 48 ≤ char.toNat := digit.1
  refine ⟨?_, ?_, ?_⟩
  · simp only [isSpace, Bool.or_eq_false_iff, Bool.and_eq_false_iff,
      beq_eq_false_iff_ne, decide_eq_false_iff_not, UInt8.le_iff_toNat_le]
    refine ⟨?_, .inr ?_⟩
    · rintro rfl
      exact absurd above (by decide)
    · intro below
      have bound : char.toNat ≤ 13 := below
      omega
  · rintro rfl
    exact absurd above (by decide)
  · rintro rfl
    exact absurd above (by decide)

theorem digitsValue_digitChars {digits : List Nat}
    (decimal : ∀ digit ∈ digits, digit < 10) :
    digitsValue (digits.reverse.map digitChar) = Nat.ofDigits 10 digits := by
  induction digits with
  | nil => rfl
  | cons digit rest induction =>
      have earlier := induction fun other member =>
        decimal other (List.mem_cons_of_mem digit member)
      have value := toNat_digitChar (decimal digit List.mem_cons_self)
      unfold digitsValue at earlier ⊢
      rw [List.reverse_cons, List.map_append, List.foldl_append, earlier]
      simp only [List.map_cons, List.map_nil, List.foldl_cons, List.foldl_nil,
        value, Nat.ofDigits_cons]
      omega

/-- What is read from digits alone. -/
theorem stoull_of_digits {text : ByteString} (nonempty : text.bytes ≠ [])
    (digits : ∀ char ∈ text.bytes, isDigit char = true)
    (fits : digitsValue text.bytes < 2 ^ 64) :
    text.stoull = some (digitsValue text.bytes) := by
  unfold stoull
  cases chars : text.bytes with
  | nil => exact absurd chars nonempty
  | cons char rest =>
      rw [chars] at digits fits
      obtain ⟨visible, unsigned⟩ :=
        plain_of_isDigit (digits char List.mem_cons_self)
      have started : (char :: rest).dropWhile isSpace = char :: rest := by
        simp [visible]
      have signed : splitSign (char :: rest) = (false, char :: rest) := by
        simp [splitSign, unsigned]
      have all : (char :: rest).takeWhile isDigit = char :: rest :=
        List.takeWhile_eq_self_iff.mpr digits
      rw [started, signed]
      dsimp only
      rw [all, List.isEmpty_cons, if_neg Bool.false_ne_true,
        if_neg (Nat.not_le.mpr fits), if_neg Bool.false_ne_true]

theorem bytes_ofNumber {value : Nat} (positive : value ≠ 0)
    (fits : value < 2 ^ 64) :
    (ofNumber value).bytes = (Nat.digits 10 value).reverse.map digitChar := by
  have length : (Nat.digits 10 value).length ≤ 20 :=
    (Nat.digits_length_le_iff (by decide) value).mpr (fits.trans (by decide))
  unfold ofNumber
  rw [if_neg positive]
  apply bytes_ofBytes
  rw [List.length_map, List.length_reverse]
  exact length.trans_lt (by decide)

theorem length_ofNumber_le {value : Nat} (fits : value < 2 ^ 64) :
    (ofNumber value).bytes.length ≤ 20 := by
  by_cases zero : value = 0
  · subst zero
    decide
  · rw [bytes_ofNumber zero fits, List.length_map, List.length_reverse]
    exact (Nat.digits_length_le_iff (by decide) value).mpr
      (fits.trans (by decide))

theorem digits_ofNumber {value : Nat} (fits : value < 2 ^ 64) :
    ∀ char ∈ (ofNumber value).bytes, isDigit char = true := by
  by_cases zero : value = 0
  · subst zero
    exact List.all_eq_true.mp (by decide)
  · rw [bytes_ofNumber zero fits]
    intro char member
    obtain ⟨digit, listed, rfl⟩ := List.mem_map.mp member
    exact isDigit_digitChar
      (Nat.digits_lt_base (by decide) (List.mem_reverse.mp listed))

theorem stoull_ofNumber {value : Nat} (fits : value < 2 ^ 64) :
    (ofNumber value).stoull = some value := by
  by_cases zero : value = 0
  · subst zero
    decide
  · have decimal : ∀ digit ∈ Nat.digits 10 value, digit < 10 :=
      fun _ member => Nat.digits_lt_base (by decide) member
    have bytes := bytes_ofNumber zero fits
    have read : digitsValue (ofNumber value).bytes = value := by
      rw [bytes, digitsValue_digitChars decimal, Nat.ofDigits_digits]
    rw [stoull_of_digits, read]
    · rw [bytes]
      simpa using Nat.digits_ne_nil_iff_ne_zero.mpr zero
    · exact digits_ofNumber fits
    · rw [read]
      exact fits

theorem ofNumber_inj {left right : Nat} (fitsLeft : left < 2 ^ 64)
    (fitsRight : right < 2 ^ 64) (same : ofNumber left = ofNumber right) :
    left = right := by
  have read := stoull_ofNumber fitsLeft
  rw [same, stoull_ofNumber fitsRight] at read
  exact (Option.some.inj read).symm

end BatchFabric.ByteString
