import Mathlib.Data.List.Sort

/-! Decoders that take a value off the front of their input. A record is decoded
field by field: what has been read so far is known of the value to come. -/

namespace Decoding

variable {ε : Type u} {β : Type v}

/-- Reads a value and leaves the rest of the input, or fails. -/
abbrev Decoder (ε : Type u) (β : Type v) (α : Type v) :=
  StateT (List β) (Except ε) α

section Combinators

variable {α : Type v}

/-- Goes on only if the condition holds. -/
def ensure (holds : Bool) (error : ε) : Decoder ε β PUnit :=
  if holds then pure ⟨⟩ else throw error

def fromOption (value : Option α) (error : ε) : Decoder ε β α :=
  match value with
  | none => throw error
  | some value => pure value

/-- The decoder under an error of its own. -/
def orError {ε' : Type w} (read : Decoder ε' β α) (error : ε) :
    Decoder ε β α := fun input =>
  match read input with
  | .error _ => .error error
  | .ok out => .ok out

/-- Reads `count` values one after another. Each reading sees the values read
before. -/
def readMany (read : List α → Decoder ε β α) :
    Nat → List α → Decoder ε β (List α)
  | 0, before => pure before
  | count + 1, before => do
      let value ← read before
      readMany read count (before ++ [value])

end Combinators

/-- What is known holds of the values read, and the decoder reads exactly the
codes of the valid ones, whatever follows. -/
def Continues {γ : Type v} (known : γ → Prop) (decoder : Decoder ε β γ)
    (encode : γ → List β) (Valid : γ → Prop) : Prop :=
  ∀ input value rest, decoder input = .ok (value, rest) ↔
    known value ∧ Valid value ∧ input = encode value ++ rest

/-- The decoder reads exactly the codes of the valid values, whatever
follows. -/
def Decodes {γ : Type v} (decoder : Decoder ε β γ) (encode : γ → List β)
    (Valid : γ → Prop) : Prop :=
  ∀ input value rest, decoder input = .ok (value, rest) ↔
    Valid value ∧ input = encode value ++ rest

section Rules

variable {α γ : Type v} {known : γ → Prop} {encode : γ → List β}
  {Valid : γ → Prop}

theorem bind_eq_ok_iff (first : Decoder ε β α) (next : α → Decoder ε β γ)
    (input : List β) (out : γ × List β) :
    (first >>= next) input = .ok out ↔
      ∃ value mid, first input = .ok (value, mid) ∧ next value mid = .ok out := by
  have bound : (first >>= next) input =
      (first input >>= fun read => next read.1 read.2) := rfl
  rw [bound]
  cases first input with
  | error error => simp [bind, Except.bind]
  | ok read =>
      simp only [bind, Except.bind, Except.ok.injEq]
      constructor
      · exact fun taken => ⟨read.1, read.2, rfl, taken⟩
      · rintro ⟨value, mid, same, taken⟩
        rw [same]
        exact taken

theorem Decodes.orError {ε' : Type w} {decoder : Decoder ε' β γ}
    (decodes : Decodes decoder encode Valid) (error : ε) :
    Decodes (orError decoder error) encode Valid := by
  intro input value rest
  rw [← decodes input value rest]
  unfold Decoding.orError
  cases decoder input with
  | error _ => simp
  | ok out => simp

/-- A reading presented as something else comes from some reading. -/
theorem Decodes.map_eq_ok_iff {decoder : Decoder ε β α} {code : α → List β}
    {Field : α → Prop} (decodes : Decodes decoder code Field)
    (present : α → γ) (input : List β) (value : γ) (rest : List β) :
    (present <$> decoder) input = .ok (value, rest) ↔
      ∃ read, Field read ∧ present read = value ∧
        input = code read ++ rest := by
  have mapped : (present <$> decoder) input =
      (decoder input >>= fun read => pure (present read.1, read.2)) := rfl
  rw [mapped]
  constructor
  · intro taken
    cases found : decoder input with
    | error error =>
        rw [found] at taken
        cases taken
    | ok out =>
        rw [found] at taken
        obtain ⟨field, same⟩ := (decodes input out.1 out.2).mp found
        cases taken
        exact ⟨out.1, field, rfl, same⟩
  · rintro ⟨read, field, rfl, same⟩
    rw [(decodes input read rest).mpr ⟨field, same⟩]
    rfl

/-- What is read is presented as a value of another type. -/
theorem Decodes.map {decoder : Decoder ε β α} {code : α → List β}
    {Field : α → Prop} (decodes : Decodes decoder code Field)
    {present : α → γ} {project : γ → α}
    (left : ∀ value, Field value →
      project (present value) = value ∧ Valid (present value))
    (right : ∀ value, Valid value →
      present (project value) = value ∧ Field (project value)) :
    Decodes (present <$> decoder) (fun value => code (project value))
      Valid := by
  intro input value rest
  rw [decodes.map_eq_ok_iff]
  constructor
  · rintro ⟨read, field, rfl, same⟩
    obtain ⟨projected, valid⟩ := left read field
    refine ⟨valid, ?_⟩
    dsimp only
    rw [projected]
    exact same
  · rintro ⟨valid, same⟩
    obtain ⟨presented, field⟩ := right value valid
    exact ⟨project value, field, presented, same⟩

/-- What is known at the start is true of every value read. -/
theorem Continues.decodesKnown (known : γ → Prop) {decoder : Decoder ε β γ}
    {encode' : γ → List β} {Valid' : γ → Prop}
    (continues : Continues known decoder encode Valid)
    (same : ∀ value, encode value = encode' value)
    (valid : ∀ value, known value ∧ Valid value ↔ Valid' value) :
    Decodes decoder encode' Valid' := by
  intro input value rest
  rw [continues input value rest, ← and_assoc, valid, same]

/-- Nothing is known at the start. -/
theorem Continues.decodes {decoder : Decoder ε β γ} {encode' : γ → List β}
    {Valid' : γ → Prop}
    (continues : Continues (fun _ => True) decoder encode Valid)
    (same : ∀ value, encode value = encode' value)
    (valid : ∀ value, Valid value ↔ Valid' value) :
    Decodes decoder encode' Valid' := by
  apply continues.decodesKnown _ same
  intro value
  rw [true_and, valid]

/-- What is known is what the last decoder checks. -/
theorem Decodes.continues {decoder : Decoder ε β γ}
    (decodes : Decodes decoder encode Valid) (Valid' : γ → Prop)
    (valid : ∀ value, Valid value ↔ known value ∧ Valid' value) :
    Continues known decoder encode Valid' := by
  intro input value rest
  rw [decodes input value rest, valid value, and_assoc]

/-- Nothing is left to read once the value is known. -/
theorem Continues.done {value : γ}
    (complete : ∀ other, known other ↔ other = value) :
    Continues (ε := ε) known (pure value) (fun _ => ([] : List β))
      fun _ => True := by
  intro input other rest
  rw [complete other, true_and]
  have read : (pure value : Decoder ε β γ) input = .ok (value, input) := rfl
  rw [read, Except.ok.injEq, Prod.mk.injEq, List.nil_append]
  exact and_congr_left' eq_comm

/-- One field is read. What is accepted of it may rest on what is known. -/
theorem Continues.fieldGiven {first : Decoder ε β α}
    {next : α → Decoder ε β γ} {code : α → List β} {Field : α → Prop}
    (project : γ → α) (Given : γ → Prop) (head : Decodes first code Field)
    (given : ∀ whole, known whole → (Field (project whole) ↔ Given whole))
    (tail : ∀ value, Field value →
      Continues (fun whole => known whole ∧ project whole = value)
        (next value) encode Valid) :
    Continues known (first >>= next)
      (fun whole => code (project whole) ++ encode whole)
      (fun whole => Given whole ∧ Valid whole) := by
  intro input whole rest
  rw [bind_eq_ok_iff]
  constructor
  · rintro ⟨value, mid, read, taken⟩
    obtain ⟨field, rfl⟩ := (head input value mid).mp read
    obtain ⟨⟨knows, rfl⟩, holds, rfl⟩ :=
      (tail value field mid whole rest).mp taken
    exact ⟨knows, ⟨(given whole knows).mp field, holds⟩,
      by rw [List.append_assoc]⟩
  · rintro ⟨knows, ⟨field, holds⟩, rfl⟩
    have field := (given whole knows).mpr field
    refine ⟨project whole, encode whole ++ rest, ?_, ?_⟩
    · exact (head _ _ _).mpr ⟨field, by rw [List.append_assoc]⟩
    · exact (tail _ field _ _ _).mpr ⟨⟨knows, rfl⟩, holds, rfl⟩

theorem Continues.field {first : Decoder ε β α} {next : α → Decoder ε β γ}
    {code : α → List β} {Field : α → Prop} (project : γ → α)
    (head : Decodes first code Field)
    (tail : ∀ value, Field value →
      Continues (fun whole => known whole ∧ project whole = value)
        (next value) encode Valid) :
    Continues known (first >>= next)
      (fun whole => code (project whole) ++ encode whole)
      (fun whole => Field (project whole) ∧ Valid whole) :=
  .fieldGiven project _ head (fun _ _ => Iff.rfl) tail

/-- A check of what has been read. -/
theorem Continues.check {next : PUnit → Decoder ε β γ} {holds : Bool}
    {error : ε} (Checked : γ → Prop)
    (means : ∀ whole, known whole → (holds = true ↔ Checked whole))
    (tail : holds = true → Continues known (next ⟨⟩) encode Valid) :
    Continues known (ensure holds error >>= next) encode
      (fun whole => Checked whole ∧ Valid whole) := by
  intro input whole rest
  rw [bind_eq_ok_iff]
  cases passed : holds with
  | false =>
      constructor
      · rintro ⟨_, _, read, _⟩
        cases read
      · rintro ⟨knows, ⟨checked, _⟩, _⟩
        have := (means whole knows).mpr checked
        rw [passed] at this
        cases this
  | true =>
      have rest' := tail passed input whole rest
      constructor
      · rintro ⟨_, mid, read, taken⟩
        cases read
        obtain ⟨knows, valid, same⟩ := rest'.mp taken
        exact ⟨knows, ⟨(means whole knows).mp passed, valid⟩, same⟩
      · rintro ⟨knows, ⟨_, valid⟩, same⟩
        exact ⟨⟨⟩, input, rfl, rest'.mpr ⟨knows, valid, same⟩⟩

/-- A conversion of what has been read. -/
theorem Continues.convert {next : α → Decoder ε β γ} {converted : Option α}
    {error : ε} (project : γ → α)
    (means : ∀ whole, known whole → converted = some (project whole))
    (tail : ∀ value, converted = some value →
      Continues (fun whole => known whole ∧ project whole = value)
        (next value) encode Valid) :
    Continues known (fromOption converted error >>= next) encode Valid := by
  intro input whole rest
  rw [bind_eq_ok_iff]
  cases result : converted with
  | none =>
      constructor
      · rintro ⟨_, _, read, _⟩
        cases read
      · rintro ⟨knows, _⟩
        have := means whole knows
        rw [result] at this
        cases this
  | some value =>
      have rest' := tail value result input whole rest
      constructor
      · rintro ⟨_, _, read, taken⟩
        cases read
        obtain ⟨⟨knows, _⟩, valid, same⟩ := rest'.mp taken
        exact ⟨knows, valid, same⟩
      · rintro ⟨knows, valid, same⟩
        have projected := means whole knows
        rw [result, Option.some.injEq] at projected
        exact ⟨value, input, rfl,
          rest'.mpr ⟨⟨knows, projected.symm⟩, valid, same⟩⟩

/-- Values are read one after another. `Field` may speak of the values before
the one it judges. -/
theorem decodes_readMany {read : List α → Decoder ε β α}
    {code : α → List β} {Field : List α → α → Prop}
    (element : ∀ before, Decodes (read before) code (Field before))
    (count : Nat) (before : List α) (input : List β) (values : List α)
    (rest : List β) :
    readMany read count before input = .ok (values, rest) ↔
      ∃ added, values = before ++ added ∧ added.length = count ∧
        (∀ first value second, added = first ++ value :: second →
          Field (before ++ first) value) ∧
        input = added.flatMap code ++ rest := by
  induction count generalizing before input with
  | zero =>
      have read : (pure before : Decoder ε β (List α)) input =
          .ok (before, input) := rfl
      unfold readMany
      rw [read, Except.ok.injEq, Prod.mk.injEq]
      constructor
      · rintro ⟨rfl, rfl⟩
        refine ⟨[], (List.append_nil _).symm, rfl, ?_, rfl⟩
        intro first value second split
        exact absurd split (by simp)
      · rintro ⟨added, rfl, none, _, rfl⟩
        rw [List.eq_nil_of_length_eq_zero none]
        exact ⟨(List.append_nil _).symm, rfl⟩
  | succ count induction =>
      unfold readMany
      rw [bind_eq_ok_iff]
      constructor
      · rintro ⟨value, mid, read, taken⟩
        obtain ⟨field, rfl⟩ := (element before input value mid).mp read
        obtain ⟨added, rfl, length, fields, rfl⟩ :=
          (induction (before ++ [value]) mid).mp taken
        refine ⟨value :: added, by simp, by simp [length], ?_, by simp⟩
        intro first other second split
        cases first with
        | nil =>
            obtain ⟨rfl, _⟩ := List.cons.inj split
            rw [List.append_nil]
            exact field
        | cons head first =>
            obtain ⟨rfl, after⟩ := List.cons.inj split
            have later := fields first other second after
            rwa [List.append_assoc] at later
      · rintro ⟨added, rfl, length, fields, rfl⟩
        cases added with
        | nil => cases length
        | cons value added =>
            refine ⟨value, added.flatMap code ++ rest, ?_, ?_⟩
            · apply (element before _ _ _).mpr
              refine ⟨?_, by simp⟩
              have first := fields [] value added rfl
              rwa [List.append_nil] at first
            · apply (induction (before ++ [value]) _).mpr
              refine ⟨added, by simp, Nat.succ.inj length, ?_, rfl⟩
              intro first other second split
              have later := fields (value :: first) other second (by
                rw [split]
                rfl)
              rwa [List.append_assoc]

/-- As many values as a count says, each judged by itself. -/
theorem Decodes.many {read : Decoder ε β α} {code : α → List β}
    {Field : α → Prop} (element : Decodes read code Field) (count : Nat) :
    Decodes (readMany (fun _ => read) count []) (fun values => values.flatMap code)
      (fun values => values.length = count ∧ ∀ value ∈ values, Field value) := by
  intro input values rest
  have each : ∀ before : List α,
      Decodes ((fun _ : List α => read) before) code
        ((fun _ : List α => Field) before) :=
    fun _ => element
  rw [decodes_readMany each]
  constructor
  · rintro ⟨added, rfl, length, fields, rfl⟩
    refine ⟨⟨length, ?_⟩, rfl⟩
    intro value member
    obtain ⟨first, second, split⟩ := List.append_of_mem member
    exact fields first value second split
  · rintro ⟨⟨length, fields⟩, rfl⟩
    refine ⟨values, rfl, length, ?_, rfl⟩
    intro first value second split
    exact fields value (by simp [split])

/-- As many values as a count says, each judged with those before it. -/
theorem Decodes.manyAfter {read : List α → Decoder ε β α}
    {code : α → List β} {Field : List α → α → Prop}
    (element : ∀ before, Decodes (read before) code (Field before))
    (count : Nat) :
    Decodes (readMany read count []) (fun values => values.flatMap code)
      (fun values => values.length = count ∧
        ∀ first value second, values = first ++ value :: second →
          Field first value) := by
  intro input values rest
  rw [decodes_readMany element]
  constructor
  · rintro ⟨added, rfl, length, fields, rfl⟩
    exact ⟨⟨length, fields⟩, rfl⟩
  · rintro ⟨⟨length, fields⟩, rfl⟩
    exact ⟨values, rfl, length, fields, rfl⟩

/-- A table read entry by entry. -/
theorem map_range_getD (values : List α) (default : α) :
    (List.range values.length).map (fun t => values.getD t default) =
      values := by
  apply List.ext_getElem
  · simp
  · intro t left right
    rw [List.getElem_map, List.getElem_range, List.getD_eq_getElem?_getD,
      List.getElem?_eq_getElem right, Option.getD_some]

/-- Where two codes of valid values begin one input, they are codes of one
value. -/
theorem Decodes.delimits {decoder : Decoder ε β γ}
    (decodes : Decodes decoder encode Valid) {left right : γ}
    {leftRest rightRest : List β} (validLeft : Valid left)
    (validRight : Valid right)
    (same : encode left ++ leftRest = encode right ++ rightRest) :
    left = right ∧ leftRest = rightRest := by
  have readLeft := (decodes _ left leftRest).mpr ⟨validLeft, rfl⟩
  have readRight := (decodes _ right rightRest).mpr ⟨validRight, same⟩
  rw [readLeft, Except.ok.injEq, Prod.mk.injEq] at readRight
  exact readRight

end Rules

end Decoding
