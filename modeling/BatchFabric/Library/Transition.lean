import Mathlib.Data.List.Sort

/-! Deterministic transition systems driven by a list of inputs. The same
notions serve a system taking inputs one after another and a loop over a list
inside one of its steps. -/

namespace Transition

variable {σ : Type u} {ι : Type v}

/-- The state after consuming the inputs from left to right. -/
def run (step : σ → ι → σ) (state : σ) (inputs : List ι) : σ :=
  inputs.foldl step state

@[simp] theorem run_nil (step : σ → ι → σ) (state : σ) :
    run step state [] = state := rfl

@[simp] theorem run_cons (step : σ → ι → σ) (state : σ) (input : ι)
    (rest : List ι) :
    run step state (input :: rest) = run step (step state input) rest := rfl

theorem run_append (step : σ → ι → σ) (state : σ) (first second : List ι) :
    run step state (first ++ second) =
      run step (run step state first) second :=
  List.foldl_append

/-- `guard` holds of every input in the state in which it is consumed. -/
def Along (step : σ → ι → σ) (guard : σ → ι → Prop) : σ → List ι → Prop
  | _, [] => True
  | state, input :: rest =>
      guard state input ∧ Along step guard (step state input) rest

instance decidableAlong (step : σ → ι → σ) (guard : σ → ι → Prop)
    [∀ state input, Decidable (guard state input)] :
    (state : σ) → (inputs : List ι) → Decidable (Along step guard state inputs)
  | _, [] => inferInstanceAs (Decidable True)
  | state, input :: rest =>
      have := decidableAlong step guard (step state input) rest
      inferInstanceAs (Decidable
        (guard state input ∧ Along step guard (step state input) rest))

theorem along_of_forall (step : σ → ι → σ) {guard : σ → ι → Prop}
    (all : ∀ state input, guard state input) (state : σ) (inputs : List ι) :
    Along step guard state inputs := by
  induction inputs generalizing state with
  | nil => trivial
  | cons input rest induction =>
      exact ⟨all state input, induction (step state input)⟩

/-- The rule of guarded runs: what every guarded step keeps, a guarded run
keeps. -/
theorem Along.invariant {step : σ → ι → σ} {guard : σ → ι → Prop}
    {state : σ} {inputs : List ι} (guarded : Along step guard state inputs)
    (Invariant : σ → Prop)
    (kept : ∀ current input, input ∈ inputs → Invariant current →
      guard current input → Invariant (step current input))
    (initially : Invariant state) : Invariant (run step state inputs) := by
  induction inputs generalizing state with
  | nil => exact initially
  | cons input rest induction =>
      rw [run_cons]
      apply induction guarded.2
      · intro current next member
        exact kept current next (List.mem_cons_of_mem input member)
      · exact kept state input List.mem_cons_self initially guarded.1

theorem along_append (step : σ → ι → σ) (guard : σ → ι → Prop) (state : σ)
    (first second : List ι) :
    Along step guard state (first ++ second) ↔
      Along step guard state first ∧
        Along step guard (run step state first) second := by
  induction first generalizing state with
  | nil => exact ⟨fun along => ⟨trivial, along⟩, fun both => both.2⟩
  | cons input rest induction =>
      rw [List.cons_append, run_cons]
      constructor
      · rintro ⟨guarded, along⟩
        obtain ⟨before, after⟩ := (induction (step state input)).mp along
        exact ⟨⟨guarded, before⟩, after⟩
      · rintro ⟨⟨guarded, before⟩, after⟩
        exact ⟨guarded, (induction (step state input)).mpr ⟨before, after⟩⟩

/-- A relation that composes relates any two states of a run, the earlier to
the later, when it relates the states of every step. -/
theorem along_related_iff {Related : σ → σ → Prop}
    (refl : ∀ state, Related state state)
    (trans : ∀ {first second third}, Related first second →
      Related second third → Related first third)
    (step : σ → ι → σ) (state : σ) (inputs : List ι) :
    (∀ first second third, inputs = first ++ second ++ third →
      Related (run step state first) (run step state (first ++ second))) ↔
      Along step (fun current input => Related current (step current input))
        state inputs := by
  constructor
  · intro related
    induction inputs generalizing state with
    | nil => trivial
    | cons input rest induction =>
        refine ⟨related [] [input] rest rfl, ?_⟩
        apply induction
        rintro first second third rfl
        exact related (input :: first) second third rfl
  · rintro along first second third rfl
    have middle := ((along_append step _ state first second).mp
      ((along_append step _ state (first ++ second) third).mp along).1).2
    clear along
    rw [run_append]
    generalize run step state first = current at middle
    induction second generalizing current with
    | nil => exact refl current
    | cons input rest induction =>
        exact trans middle.1 (induction _ middle.2)

/-- Guards that agree wherever the invariant holds agree along a run. -/
theorem along_congr (Invariant : σ → Prop) {step : σ → ι → σ}
    {guard other : σ → ι → Prop}
    (kept : ∀ current input, Invariant current →
      Invariant (step current input))
    (agree : ∀ current input, Invariant current →
      (guard current input ↔ other current input))
    {state : σ} (initially : Invariant state) (inputs : List ι) :
    Along step guard state inputs ↔ Along step other state inputs := by
  induction inputs generalizing state with
  | nil => exact Iff.rfl
  | cons input rest induction =>
      exact and_congr (agree state input initially)
        (induction (kept state input initially))

/-- The rule of unguarded runs. -/
theorem run_invariant (Invariant : σ → Prop) {step : σ → ι → σ} {state : σ}
    {inputs : List ι}
    (kept : ∀ current input, input ∈ inputs → Invariant current →
      Invariant (step current input))
    (initially : Invariant state) : Invariant (run step state inputs) := by
  have unguarded : Along step (fun _ _ => True) state inputs :=
    along_of_forall step (fun _ _ => trivial) state inputs
  exact unguarded.invariant Invariant
    (fun current input member held _ => kept current input member held)
    initially

/-- The rule of two runs over the same inputs. -/
theorem run_related {σ' : Type w} {Related : σ → σ' → Prop}
    {step : σ → ι → σ} {step' : σ' → ι → σ'}
    (kept : ∀ current current' input, Related current current' →
      Related (step current input) (step' current' input))
    {state : σ} {state' : σ'} (initially : Related state state')
    (inputs : List ι) :
    Related (run step state inputs) (run step' state' inputs) := by
  induction inputs generalizing state state' with
  | nil => exact initially
  | cons input rest induction => exact induction (kept _ _ input initially)

/-- What one input establishes and no step undoes holds at the end of a run
that takes the input. -/
theorem run_establishes (Invariant Goal : σ → Prop) {step : σ → ι → σ}
    {state : σ} {inputs : List ι} {input : ι}
    (kept : ∀ current next, next ∈ inputs → Invariant current →
      Invariant (step current next))
    (stays : ∀ current next, Invariant current → Goal current →
      Goal (step current next))
    (establishes : ∀ current, Invariant current → Goal (step current input))
    (taken : input ∈ inputs) (initially : Invariant state) :
    Goal (run step state inputs) := by
  obtain ⟨before, after, rfl⟩ := List.append_of_mem taken
  rw [run_append, run_cons]
  have reached : Invariant (run step state before) :=
    run_invariant Invariant
      (fun current next member =>
        kept current next (List.mem_append_left _ member)) initially
  have settled : Invariant (run step (step (run step state before) input)
      after) ∧ Goal (run step (step (run step state before) input) after) := by
    apply run_invariant (fun current => Invariant current ∧ Goal current)
    · intro current next member held
      have listed : next ∈ before ++ input :: after :=
        List.mem_append_right before (List.mem_cons_of_mem input member)
      exact ⟨kept current next listed held.1, stays current next held.1 held.2⟩
    · exact ⟨kept _ input taken reached, establishes _ reached⟩
  exact settled.2

/-! What a run puts out. -/

section Outputs

variable {β : Type w}

/-- Everything `emit` puts out along a run, in order. -/
def outputs (step : σ → ι → σ) (emit : σ → ι → List β) : σ → List ι → List β
  | _, [] => []
  | state, input :: rest =>
      emit state input ++ outputs step emit (step state input) rest

/-- The rule of guarded runs for invariants that speak of all that has been put
out so far. -/
theorem Along.outputs_invariant {step : σ → ι → σ} {guard : σ → ι → Prop}
    {emit : σ → ι → List β} {state : σ} {inputs : List ι}
    (guarded : Along step guard state inputs)
    (Invariant : List β → σ → Prop)
    (kept : ∀ before current input, Invariant before current →
      guard current input →
      Invariant (before ++ emit current input) (step current input))
    {before : List β} (initially : Invariant before state) :
    Invariant (before ++ outputs step emit state inputs)
      (run step state inputs) := by
  induction inputs generalizing before state with
  | nil => simpa [outputs] using initially
  | cons input rest induction =>
      have next := kept before state input initially guarded.1
      have rest' := induction guarded.2 next
      rw [List.append_assoc] at rest'
      exact rest'

/-- The rule of relations between a state, what is put out from there on, and
the state reached, that compose. -/
theorem outputs_related (Related : σ → List β → σ → Prop) {step : σ → ι → σ}
    {emit : σ → ι → List β} (refl : ∀ state, Related state [] state)
    (trans : ∀ {first second third outs outs'}, Related first outs second →
      Related second outs' third → Related first (outs ++ outs') third)
    (each : ∀ state input, Related state (emit state input) (step state input))
    (state : σ) (inputs : List ι) :
    Related state (outputs step emit state inputs) (run step state inputs) := by
  induction inputs generalizing state with
  | nil => exact refl state
  | cons input rest induction =>
      exact trans (each state input) (induction (step state input))

/-- The step that also keeps what has been put out so far. -/
def recorded (step : σ → ι → σ) (emit : σ → ι → List β)
    (history : List β × σ) (input : ι) : List β × σ :=
  (history.1 ++ emit history.2 input, step history.2 input)

theorem run_recorded (step : σ → ι → σ) (emit : σ → ι → List β)
    (before : List β) (state : σ) (inputs : List ι) :
    run (recorded step emit) (before, state) inputs =
      (before ++ outputs step emit state inputs, run step state inputs) := by
  induction inputs generalizing before state with
  | nil => simp [outputs]
  | cons input rest induction =>
      rw [run_cons]
      unfold recorded at induction ⊢
      rw [induction, List.append_assoc]
      rfl

end Outputs

/-- The states some list of inputs leads to. -/
def Reachable (step : σ → ι → σ) (initial state : σ) : Prop :=
  ∃ inputs : List ι, run step initial inputs = state

theorem Reachable.invariant {step : σ → ι → σ} {initial state : σ}
    (reachable : Reachable step initial state) (Invariant : σ → Prop)
    (kept : ∀ current input, Invariant current →
      Invariant (step current input))
    (initially : Invariant initial) : Invariant state := by
  obtain ⟨inputs, rfl⟩ := reachable
  exact run_invariant Invariant
    (fun current input _ => kept current input) initially

theorem Reachable.step {step : σ → ι → σ} {initial state : σ}
    (reachable : Reachable step initial state) (input : ι) :
    Reachable step initial (step state input) := by
  obtain ⟨inputs, rfl⟩ := reachable
  exact ⟨inputs ++ [input], run_append step initial inputs [input]⟩

/-! Systems whose steps are not determined by their inputs. -/

/-- A run of such a system. The guard holds of every input in the state in
which it is consumed. -/
inductive Steps (stepsTo : σ → ι → σ → Prop) (guard : σ → ι → Prop) :
    σ → List ι → σ → Prop
  | nil (state : σ) : Steps stepsTo guard state [] state
  | cons {state next last : σ} {input : ι} {rest : List ι}
      (guarded : guard state input) (taken : stepsTo state input next)
      (later : Steps stepsTo guard next rest last) :
      Steps stepsTo guard state (input :: rest) last

section Steps

variable {stepsTo : σ → ι → σ → Prop} {guard : σ → ι → Prop} {step : σ → ι → σ}

/-- Where the guard leaves no choice, the run is that of a step function. -/
theorem Steps.determined {state last : σ} {inputs : List ι}
    (steps : Steps stepsTo guard state inputs last)
    (functional : ∀ state input next, guard state input →
      stepsTo state input next → next = step state input) :
    last = run step state inputs ∧ Along step guard state inputs := by
  induction steps with
  | nil state => exact ⟨rfl, trivial⟩
  | cons guarded taken _ induction =>
      rw [functional _ _ _ guarded taken] at induction
      exact ⟨induction.1, guarded, induction.2⟩

theorem Steps.append {first middle last : σ} {inputs inputs' : List ι}
    (steps : Steps stepsTo guard first inputs middle)
    (later : Steps stepsTo guard middle inputs' last) :
    Steps stepsTo guard first (inputs ++ inputs') last := by
  induction steps with
  | nil _ => exact later
  | cons guarded taken _ induction =>
      exact .cons guarded taken (induction later)

/-- A run of a step function is one run of a system that may step so. -/
theorem steps_run (possible : ∀ state input, stepsTo state input
      (step state input)) {state : σ} {inputs : List ι}
    (guarded : Along step guard state inputs) :
    Steps stepsTo guard state inputs (run step state inputs) := by
  induction inputs generalizing state with
  | nil => exact .nil state
  | cons input rest induction =>
      exact .cons guarded.1 (possible state input) (induction guarded.2)

end Steps

end Transition
