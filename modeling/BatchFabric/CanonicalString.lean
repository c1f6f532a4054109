import BatchFabric.Identity
import BatchFabric.Numerals

/-! The canonical text of a descriptor, and which descriptors share one. -/

namespace BatchFabric

open Codec

def Phase.toString : Phase → ByteString
  | .prefill => .ofAscii "prefill"
  | .decode => .ofAscii "decode"
  | .undeclared _ _ => .ofAscii "unknown"

def Dtype.toString : Dtype → ByteString
  | .float16 => .ofAscii "float16"
  | .bfloat16 => .ofAscii "bfloat16"
  | .float32 => .ofAscii "float32"
  | .int8 => .ofAscii "int8"
  | .int4 => .ofAscii "int4"
  | .unknown => .ofAscii "unknown"
  | .undeclared _ _ => .ofAscii "unknown"

def Backend.toString : Backend → ByteString
  | .cpu => .ofAscii "cpu"
  | .cuda => .ofAscii "cuda"
  | .rocm => .ofAscii "rocm"
  | .mps => .ofAscii "mps"
  | .trt => .ofAscii "trt"
  | .unknown => .ofAscii "unknown"
  | .undeclared _ _ => .ofAscii "unknown"

def ExecutionMode.toString : ExecutionMode → ByteString
  | .eager => .ofAscii "eager"
  | .graph => .ofAscii "graph"
  | .compiled => .ofAscii "compiled"
  | .unknown => .ofAscii "unknown"
  | .undeclared _ _ => .ofAscii "unknown"

namespace CanonicalString

def literal (text : String) : List UInt8 :=
  (ByteString.ofAscii text).bytes

def number (value : Nat) : List UInt8 :=
  (ByteString.ofNumber value).bytes

/-- A digit as `%x` prints it. -/
def hexDigit (digit : Nat) : UInt8 :=
  UInt8.ofNat (if digit < 10 then 48 + digit else 87 + digit)

/-- The delimiters get a backslash, control characters a numeric escape. -/
def escapeChar (c : UInt8) : List UInt8 :=
  if c ∈ [92, 59, 58, 44, 91, 93] then [92, c]
  else if c < 0x20 then
    [92, 120, hexDigit (c.toNat / 16), hexDigit (c.toNat % 16)]
  else [c]

/-- What `append_escaped` appends. -/
def escaped (v : ByteString) : List UInt8 :=
  v.bytes.flatMap escapeChar

/-- The extensions separated by commas. -/
def joined : List ByteString → List UInt8
  | [] => []
  | first :: rest => escaped first ++ rest.flatMap fun e => 44 :: escaped e

end CanonicalString

open CanonicalString in
/-- The fields in a fixed order, each behind its name. -/
def canonicalString (d : ModelDescriptor) : List UInt8 := [
  literal "model=", escaped d.model,
  literal ";revision=", escaped d.revision,
  literal ";adapter=", escaped d.adapter,
  literal ";tokenizer=", escaped d.tokenizer,
  literal ";phase=", d.phase.toString.bytes,
  literal ";dtype=", d.dtype.toString.bytes,
  literal ";backend=", d.backend.toString.bytes,
  literal ";execution_mode=", d.executionMode.toString.bytes,
  literal ";device=backend", number (ByteEnum.toByte d.device.backend).toNat,
  literal "/cc", number d.device.computeMajor.toNat,
  literal ".", number d.device.computeMinor.toNat,
  literal "/mem", number d.device.minMemoryBytes.toNat,
  literal ";shape=", escaped d.shape,
  literal ";sampling=", escaped d.samplingSemantics,
  literal ";extensions=[", joined d.extensions, literal "]"].flatten

namespace CanonicalString

theorem hexDigit_inj {left right : Nat} (leftHex : left < 16)
    (rightHex : right < 16) (same : hexDigit left = hexDigit right) :
    left = right := by
  have all : ∀ left < 16, ∀ right < 16, hexDigit left = hexDigit right →
      left = right := by
    decide
  exact all left leftHex right rightHex same

/-- A code is the character itself, a backslash with a delimiter, or a
backslash with a number. -/
theorem escapeChar_cases (c : UInt8) :
    (escapeChar c = [c] ∧ c ≠ 92 ∧ c ≠ 59 ∧ c ≠ 44 ∧ c ≠ 93) ∨
      (escapeChar c = [92, c] ∧ c ≠ 120) ∨
      (escapeChar c =
        [92, 120, hexDigit (c.toNat / 16), hexDigit (c.toNat % 16)] ∧
          c.toNat < 32) := by
  unfold escapeChar
  split
  · next special =>
      refine .inr (.inl ⟨rfl, ?_⟩)
      rintro rfl
      exact absurd special (by decide)
  · next ordinary =>
      split
      · next control =>
          exact .inr (.inr ⟨rfl, UInt8.lt_iff_toNat_lt.mp control⟩)
      · simp only [List.mem_cons, List.not_mem_nil, or_false, not_or]
          at ordinary
        exact .inl ⟨rfl, ordinary.1, ordinary.2.1, ordinary.2.2.2.1,
          ordinary.2.2.2.2.2⟩

theorem prefixFree_escapeChar : PrefixFree escapeChar := by
  intro left right begins
  rcases escapeChar_cases left with
      ⟨code, unescaped, _⟩ | ⟨code, notNumber⟩ | ⟨code, small⟩ <;>
    rcases escapeChar_cases right with
      ⟨code', _⟩ | ⟨code', _⟩ | ⟨code', small'⟩ <;>
    rw [code, code'] at begins <;>
    simp only [List.cons_prefix_cons, List.nil_prefix, and_true, true_and,
      List.prefix_nil, reduceCtorEq, and_false] at begins
  · exact begins
  · exact absurd begins unescaped
  · exact absurd begins unescaped
  · exact begins
  · exact absurd begins notNumber
  · obtain ⟨high, low⟩ := begins
    have highs := hexDigit_inj (by omega) (by omega) high
    have lows := hexDigit_inj (by omega) (by omega) low
    apply UInt8.toNat_inj.mp
    omega

/-- What may follow a field or an element of the list. -/
def isStop (c : UInt8) : Prop :=
  c = 59 ∨ c = 44 ∨ c = 93

theorem escapeChar_begins (c : UInt8) :
    ∃ first rest, escapeChar c = first :: rest ∧ ¬ isStop first := by
  unfold isStop
  rcases escapeChar_cases c with
    ⟨plain, _, notSemicolon, notComma, notBracket⟩ | ⟨marked, _⟩ | ⟨coded, _⟩
  · exact ⟨c, [], plain, by simp [*]⟩
  · exact ⟨92, [c], marked, by decide⟩
  · exact ⟨92, _, coded, by decide⟩

theorem escaped_stop {left right : ByteString} {leftStop rightStop : UInt8}
    {leftRest rightRest : List UInt8} (stop : isStop leftStop)
    (stop' : isStop rightStop)
    (same : escaped left ++ leftStop :: leftRest =
      escaped right ++ rightStop :: rightRest) :
    left = right ∧ leftStop :: leftRest = rightStop :: rightRest := by
  obtain ⟨bytes, rests⟩ := prefixFree_escapeChar.delimits.flatMap_stop
    escapeChar_begins stop stop' same
  exact ⟨ByteString.eq_of_bytes_eq bytes, rests⟩

/-- A field of plain characters ends at the name of the next one. -/
theorem field_inj (plain : UInt8 → Prop)
    {left right name leftRest rightRest : List UInt8} {stop : UInt8}
    {rest : List UInt8}
    (named : name = stop :: rest) (stops : ¬ plain stop)
    (leftPlain : ∀ c ∈ left, plain c) (rightPlain : ∀ c ∈ right, plain c)
    (same : left ++ (name ++ leftRest) = right ++ (name ++ rightRest)) :
    left = right ∧ leftRest = rightRest := by
  subst named
  obtain ⟨fields, rests⟩ :=
    append_stop_inj leftPlain rightPlain stops stops same
  exact ⟨fields, (List.append_right_inj (stop :: rest)).mp rests⟩

/-- So does an escaped one. -/
theorem escaped_inj {left right : ByteString}
    {name leftRest rightRest rest : List UInt8} (named : name = 59 :: rest)
    (same : escaped left ++ (name ++ leftRest) =
      escaped right ++ (name ++ rightRest)) :
    left = right ∧ leftRest = rightRest := by
  subst named
  obtain ⟨fields, rests⟩ := escaped_stop (.inl rfl) (.inl rfl) same
  exact ⟨fields, (List.append_right_inj (59 :: rest)).mp rests⟩

theorem number_inj {left right : Nat} (fitsLeft : left < 2 ^ 64)
    (fitsRight : right < 2 ^ 64)
    {name leftRest rightRest : List UInt8} {stop : UInt8} {rest : List UInt8}
    (named : name = stop :: rest) (stops : ByteString.isDigit stop = false)
    (same : number left ++ (name ++ leftRest) =
      number right ++ (name ++ rightRest)) :
    left = right ∧ leftRest = rightRest := by
  obtain ⟨texts, rests⟩ := field_inj (ByteString.isDigit · = true) named
    (by rw [stops]; exact Bool.false_ne_true)
    (ByteString.digits_ofNumber fitsLeft)
    (ByteString.digits_ofNumber fitsRight) same
  exact ⟨ByteString.ofNumber_inj fitsLeft fitsRight
    (ByteString.eq_of_bytes_eq texts), rests⟩

/-- The declared values of an enumeration have different names, and no name
holds the character that ends it. -/
structure Names {α : Type} (name : α → ByteString) (isDeclared : α → Bool)
    (values : List α) : Prop where
  all : ∀ value, isDeclared value = true → value ∈ values
  apart : ∀ left ∈ values, ∀ right ∈ values,
    (name left).bytes = (name right).bytes → left = right
  plain : ∀ value ∈ values, (name value).bytes.all (· != 59) = true

theorem Names.field_inj {α : Type} {name : α → ByteString}
    {isDeclared : α → Bool} {values : List α}
    (names : Names name isDeclared values) {left right : α}
    (leftDeclared : isDeclared left = true)
    (rightDeclared : isDeclared right = true)
    {next leftRest rightRest rest : List UInt8} (named : next = 59 :: rest)
    (same : (name left).bytes ++ (next ++ leftRest) =
      (name right).bytes ++ (next ++ rightRest)) :
    left = right ∧ leftRest = rightRest := by
  have leftListed := names.all left leftDeclared
  have rightListed := names.all right rightDeclared
  obtain ⟨texts, rests⟩ := CanonicalString.field_inj (· != 59) named
    (by decide) (List.all_eq_true.mp (names.plain left leftListed))
    (List.all_eq_true.mp (names.plain right rightListed)) same
  exact ⟨names.apart left leftListed right rightListed texts, rests⟩

theorem phaseNames :
    Names Phase.toString Phase.isDeclared [.prefill, .decode] where
  all value declared := by
    cases value with
    | undeclared raw outside => cases declared
    | _ => decide
  apart := by decide
  plain := by decide

theorem dtypeNames : Names Dtype.toString Dtype.isDeclared
    [.float16, .bfloat16, .float32, .int8, .int4, .unknown] where
  all value declared := by
    cases value with
    | undeclared raw outside => cases declared
    | _ => decide
  apart := by decide
  plain := by decide

theorem backendNames : Names Backend.toString Backend.isDeclared
    [.cpu, .cuda, .rocm, .mps, .trt, .unknown] where
  all value declared := by
    cases value with
    | undeclared raw outside => cases declared
    | _ => decide
  apart := by decide
  plain := by decide

theorem modeNames : Names ExecutionMode.toString ExecutionMode.isDeclared
    [.eager, .graph, .compiled, .unknown] where
  all value declared := by
    cases value with
    | undeclared raw outside => cases declared
    | _ => decide
  apart := by decide
  plain := by decide

/-- Without extensions the list reads as with the empty one alone. -/
def listed : List ByteString → List ByteString
  | [] => [{}]
  | extensions => extensions

theorem listed_eq_iff (left right : List ByteString) :
    listed left = listed right ↔ left = right ∨
      (left = [] ∧ right = [{}]) ∨ (left = [{}] ∧ right = []) := by
  cases left with
  | nil =>
      cases right with
      | nil => simp
      | cons first rest => simp [listed, eq_comm]
  | cons first rest =>
      cases right with
      | nil => simp [listed]
      | cons first' rest' => simp [listed]

theorem joined_listed (extensions : List ByteString) :
    joined (listed extensions) = joined extensions := by
  cases extensions <;> rfl

theorem rest_begins (extensions : List ByteString) :
    ∃ stop rest, (extensions.flatMap fun e => 44 :: escaped e) ++ [93] =
      stop :: rest ∧ isStop stop := by
  cases extensions with
  | nil => exact ⟨93, [], rfl, .inr (.inr rfl)⟩
  | cons first rest => exact ⟨44, _, rfl, .inr (.inl rfl)⟩

theorem element_inj {left right : ByteString}
    {leftRest rightRest : List ByteString}
    (same : escaped left ++
        ((leftRest.flatMap fun e => 44 :: escaped e) ++ [93]) =
      escaped right ++
        ((rightRest.flatMap fun e => 44 :: escaped e) ++ [93])) :
    left = right ∧ (leftRest.flatMap fun e => 44 :: escaped e) ++ [93] =
      (rightRest.flatMap fun e => 44 :: escaped e) ++ [93] := by
  obtain ⟨stop, tail, begins, isStop⟩ := rest_begins leftRest
  obtain ⟨stop', tail', begins', isStop'⟩ := rest_begins rightRest
  rw [begins, begins'] at same ⊢
  exact escaped_stop isStop isStop' same

theorem rest_inj : ∀ {left right : List ByteString},
    (left.flatMap fun e => 44 :: escaped e) ++ [93] =
      (right.flatMap fun e => 44 :: escaped e) ++ [93] → left = right := by
  intro left
  induction left with
  | nil =>
      intro right same
      cases right with
      | nil => rfl
      | cons first rest => exact absurd (List.cons.inj same).1 (by decide)
  | cons first rest induction =>
      intro right same
      cases right with
      | nil => exact absurd (List.cons.inj same).1 (by decide)
      | cons first' rest' =>
          simp only [List.flatMap_cons, List.cons_append, List.append_assoc]
            at same
          obtain ⟨firsts, rests⟩ := element_inj (List.cons.inj same).2
          rw [firsts, induction rests]

theorem joined_inj {left right : List ByteString}
    (same : joined left ++ [93] = joined right ++ [93]) :
    listed left = listed right := by
  have nonempty : ∀ extensions, ∃ first rest,
      listed extensions = first :: rest := by
    intro extensions
    cases extensions with
    | nil => exact ⟨{}, [], rfl⟩
    | cons first rest => exact ⟨first, rest, rfl⟩
  rw [← joined_listed left, ← joined_listed right] at same
  obtain ⟨first, rest, list⟩ := nonempty left
  obtain ⟨first', rest', list'⟩ := nonempty right
  rw [list, list'] at same ⊢
  unfold joined at same
  rw [List.append_assoc, List.append_assoc] at same
  obtain ⟨firsts, rests⟩ := element_inj same
  rw [firsts, rest_inj rests]

end CanonicalString

open CanonicalString in
/-- Among descriptors with declared enumerations the text tells everything but
no extensions from the empty one alone. -/
theorem canonicalString_eq_iff {a b : ModelDescriptor}
    (declaredA : a.isDeclared = true) (declaredB : b.isDeclared = true) :
    canonicalString a = canonicalString b ↔
      { a with extensions := listed a.extensions } =
        { b with extensions := listed b.extensions } := by
  constructor
  · intro same
    unfold ModelDescriptor.isDeclared at declaredA declaredB
    simp only [Bool.and_eq_true] at declaredA declaredB
    obtain ⟨⟨⟨⟨phaseA, dtypeA⟩, backendA⟩, modeA⟩, deviceA⟩ := declaredA
    obtain ⟨⟨⟨⟨phaseB, dtypeB⟩, backendB⟩, modeB⟩, deviceB⟩ := declaredB
    unfold canonicalString at same
    simp only [List.flatten_cons, List.flatten_nil, List.append_nil] at same
    replace same := List.append_cancel_left same
    obtain ⟨model, same⟩ := escaped_inj rfl same
    obtain ⟨revision, same⟩ := escaped_inj rfl same
    obtain ⟨adapter, same⟩ := escaped_inj rfl same
    obtain ⟨tokenizer, same⟩ := escaped_inj rfl same
    obtain ⟨phase, same⟩ := phaseNames.field_inj phaseA phaseB rfl same
    obtain ⟨dtype, same⟩ := dtypeNames.field_inj dtypeA dtypeB rfl same
    obtain ⟨backend, same⟩ := backendNames.field_inj backendA backendB rfl same
    obtain ⟨mode, same⟩ := modeNames.field_inj modeA modeB rfl same
    obtain ⟨device, same⟩ := number_inj (UInt8.toNat_lt _ |>.trans (by decide))
      (UInt8.toNat_lt _ |>.trans (by decide)) rfl (by decide) same
    obtain ⟨major, same⟩ := number_inj (UInt32.toNat_lt _ |>.trans (by decide))
      (UInt32.toNat_lt _ |>.trans (by decide)) rfl (by decide) same
    obtain ⟨minor, same⟩ := number_inj (UInt32.toNat_lt _ |>.trans (by decide))
      (UInt32.toNat_lt _ |>.trans (by decide)) rfl (by decide) same
    obtain ⟨memory, same⟩ := number_inj (UInt64.toNat_lt _) (UInt64.toNat_lt _)
      rfl (by decide) same
    obtain ⟨shape, same⟩ := escaped_inj rfl same
    obtain ⟨sampling, same⟩ := escaped_inj rfl same
    have extensions := joined_inj same
    have deviceBackend : a.device.backend = b.device.backend := by
      have read := congrArg (ByteEnum.ofByte (α := Backend))
        (UInt8.toNat_inj.mp device)
      rwa [ByteEnum.ofByte_toByte, ByteEnum.ofByte_toByte] at read
    replace major := UInt32.toNat_inj.mp major
    replace minor := UInt32.toNat_inj.mp minor
    replace memory := UInt64.toNat_inj.mp memory
    rw [extensions]
    obtain ⟨_, _, _, _, _, _, _, _, ⟨_, _, _, _⟩, _, _, _⟩ := a
    obtain ⟨_, _, _, _, _, _, _, _, ⟨_, _, _, _⟩, _, _, _⟩ := b
    dsimp only at *
    subst model revision adapter tokenizer phase dtype backend mode
      deviceBackend major minor memory shape sampling
    rfl
  · intro same
    have text : ∀ d : ModelDescriptor, canonicalString d =
        canonicalString { d with extensions := listed d.extensions } := by
      intro d
      unfold canonicalString
      rw [joined_listed]
    rw [text a, text b, same]

/-- One has no extensions, the other the empty one alone, and nothing else
tells them apart. -/
def EmptyExtensionApart (a b : ModelDescriptor) : Prop :=
  { a with extensions := [] } = { b with extensions := [] } ∧
    ((a.extensions = [] ∧ b.extensions = [{}]) ∨
      (a.extensions = [{}] ∧ b.extensions = []))

instance (a b : ModelDescriptor) : Decidable (EmptyExtensionApart a b) :=
  inferInstanceAs (Decidable (_ ∧ _))

theorem withExtensions_eq_iff (a b : ModelDescriptor)
    (left right : List ByteString) :
    ({ a with extensions := left } : ModelDescriptor) =
        { b with extensions := right } ↔
      ({ a with extensions := [] } : ModelDescriptor) =
          { b with extensions := [] } ∧ left = right := by
  constructor
  · intro same
    have extensions : left = right := congrArg (·.extensions) same
    have others := congrArg (fun d : ModelDescriptor =>
      { d with extensions := [] }) same
    exact ⟨others, extensions⟩
  · rintro ⟨others, rfl⟩
    have same := congrArg (fun d : ModelDescriptor =>
      { d with extensions := left }) others
    exact same

/-- The text is faithful to any two descriptors that differ otherwise than by
an empty extension in place of none. -/
theorem canonicalString_faithful_iff {a b : ModelDescriptor}
    (declaredA : a.isDeclared = true) (declaredB : b.isDeclared = true) :
    (canonicalString a = canonicalString b ↔ a = b) ↔
      ¬ EmptyExtensionApart a b := by
  have whole : a = b ↔ ({ a with extensions := [] } : ModelDescriptor) =
      { b with extensions := [] } ∧ a.extensions = b.extensions :=
    withExtensions_eq_iff a b a.extensions b.extensions
  rw [canonicalString_eq_iff declaredA declaredB, withExtensions_eq_iff, whole,
    CanonicalString.listed_eq_iff]
  unfold EmptyExtensionApart
  constructor
  · rintro faithful ⟨others, apart⟩
    have same := (faithful.mp ⟨others, .inr apart⟩).2
    rcases apart with ⟨none, empty⟩ | ⟨empty, none⟩
    · rw [none, empty] at same
      cases same
    · rw [none, empty] at same
      cases same
  · intro excluded
    constructor
    · rintro ⟨others, same | apart⟩
      · exact ⟨others, same⟩
      · exact absurd ⟨others, apart⟩ excluded
    · rintro ⟨others, same⟩
      exact ⟨others, .inl same⟩

/-- A model name that imitates the fields after it. -/
theorem canonicalString_faithful_of_imitation :
    canonicalString { model := .ofAscii "m;revision=1" } =
        canonicalString
          { model := .ofAscii "m", revision := .ofAscii "1" } ↔
      ({ model := .ofAscii "m;revision=1" } : ModelDescriptor) =
        { model := .ofAscii "m", revision := .ofAscii "1" } :=
  (canonicalString_faithful_iff (by decide) (by decide)).mpr (by decide)

/-- No extensions and the empty one alone share a text. -/
theorem not_canonicalString_faithful :
    ¬ ∀ a b : ModelDescriptor, a.isDeclared = true → b.isDeclared = true →
      (canonicalString a = canonicalString b ↔ a = b) := by
  intro faithful
  have same : canonicalString {} = canonicalString { extensions := [{}] } := by
    rfl
  have equal := (faithful {} { extensions := [{}] } (by decide)
    (by decide)).mp same
  exact absurd equal (by decide)

end BatchFabric
