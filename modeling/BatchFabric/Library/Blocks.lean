import Mathlib.Data.List.Basic

/-! Sequences taken block by block, at once or as they arrive. -/

namespace Blocks

variable {α : Type u} {σ : Type v}

/-- The first `count` blocks. -/
def chunks (size : Nat) : Nat → List α → List (List α)
  | 0, _ => []
  | count + 1, input =>
      input.take size :: chunks size count (input.drop size)

theorem length_chunks (size count : Nat) (input : List α) :
    (chunks size count input).length = count := by
  induction count generalizing input with
  | zero => rfl
  | succ count induction =>
      rw [chunks, List.length_cons, induction]

theorem chunks_flatten {size : Nat} {full : List (List α)}
    (sized : ∀ block ∈ full, block.length = size) (rest : List α) :
    chunks size full.length (full.flatten ++ rest) = full := by
  induction full with
  | nil => rfl
  | cons block full induction =>
      have length := sized block List.mem_cons_self
      have later := induction fun other member =>
        sized other (List.mem_cons_of_mem block member)
      rw [List.flatten_cons, List.append_assoc, List.length_cons, chunks,
        ← length, List.take_left, List.drop_left, length, later]

theorem length_flatten_of_sized {size : Nat} {full : List (List α)}
    (sized : ∀ block ∈ full, block.length = size) :
    full.flatten.length = size * full.length := by
  induction full with
  | nil => rfl
  | cons block full induction =>
      have later := induction fun other member =>
        sized other (List.mem_cons_of_mem block member)
      rw [List.flatten_cons, List.length_append, later,
        sized block List.mem_cons_self, List.length_cons, Nat.mul_succ,
        Nat.add_comm]

theorem chunks_flatMap {β : Type w} {size width : Nat} {encode : α → List β}
    (wide : ∀ a, (encode a).length = width) (count : Nat) (input : List α)
    (enough : size * count ≤ input.length) :
    chunks (size * width) count (input.flatMap encode) =
      (chunks size count input).map fun block => block.flatMap encode := by
  have measured : ∀ first : List α,
      (first.flatMap encode).length = first.length * width := by
    intro first
    rw [List.length_flatMap]
    simp [wide]
  induction count generalizing input with
  | zero => rfl
  | succ count induction =>
      have first : (input.take size).length = size := by
        rw [List.length_take]
        apply Nat.min_eq_left
        exact Nat.le_trans (Nat.le_mul_of_pos_right size count.succ_pos) enough
      have later : size * count ≤ (input.drop size).length := by
        rw [List.length_drop]
        rw [Nat.mul_succ] at enough
        omega
      have cut : input.flatMap encode =
          (input.take size).flatMap encode ++
            (input.drop size).flatMap encode := by
        rw [← List.flatMap_append, List.take_append_drop]
      have width' : ((input.take size).flatMap encode).length =
          size * width := by
        rw [measured, first]
      rw [chunks, chunks, List.map_cons, ← induction (input.drop size) later,
        cut, ← width', List.take_left, List.drop_left]

/-- The state of a consumer that has taken all full blocks of its input, and
keeps the rest. -/
structure Absorbed (size : Nat) (compress : σ → List α → σ) (initial : σ)
    (input : List α) (state : σ) (pending : List α) : Prop where
  short : pending.length < size
  taken : ∃ full : List (List α), (∀ block ∈ full, block.length = size) ∧
    input = full.flatten ++ pending ∧ state = full.foldl compress initial

namespace Absorbed

variable {size : Nat} {compress : σ → List α → σ} {initial state : σ}
  {input pending : List α}

theorem start (positive : 0 < size) :
    Absorbed size compress initial [] initial [] :=
  ⟨positive, [], by simp, rfl, rfl⟩

/-- The input does not fill the block. -/
theorem keep (absorbed : Absorbed size compress initial input state pending)
    {more : List α} (short : (pending ++ more).length < size) :
    Absorbed size compress initial (input ++ more) state
      (pending ++ more) := by
  obtain ⟨full, sized, rfl, rfl⟩ := absorbed.taken
  exact ⟨short, full, sized, by rw [List.append_assoc], rfl⟩

/-- The input fills the block exactly. -/
theorem fill (absorbed : Absorbed size compress initial input state pending)
    {more : List α} (filled : (pending ++ more).length = size) :
    Absorbed size compress initial (input ++ more)
      (compress state (pending ++ more)) [] := by
  obtain ⟨full, sized, rfl, rfl⟩ := absorbed.taken
  refine ⟨Nat.lt_of_le_of_lt (Nat.zero_le _) absorbed.short,
    full ++ [pending ++ more], ?_, ?_, ?_⟩
  · intro block member
    rcases List.mem_append.mp member with earlier | last
    · exact sized block earlier
    · rw [List.mem_singleton.mp last]
      exact filled
  · simp
  · rw [List.foldl_append]
    rfl

theorem length_mod
    (absorbed : Absorbed size compress initial input state pending) :
    pending.length = input.length % size := by
  obtain ⟨full, sized, rfl, _⟩ := absorbed.taken
  rw [List.length_append, length_flatten_of_sized sized,
    Nat.mul_add_mod_self_left, Nat.mod_eq_of_lt absorbed.short]

/-- Input of whole blocks has been taken completely. -/
theorem complete
    (absorbed : Absorbed size compress initial input state pending)
    (whole : input.length % size = 0) :
    ∃ full : List (List α), (∀ block ∈ full, block.length = size) ∧
      input = full.flatten ∧ state = full.foldl compress initial := by
  have nothing : pending = [] := by
    apply List.eq_nil_of_length_eq_zero
    rw [absorbed.length_mod, whole]
  obtain ⟨full, sized, rfl, rfl⟩ := absorbed.taken
  rw [nothing, List.append_nil]
  exact ⟨full, sized, rfl, rfl⟩

end Absorbed

end Blocks
