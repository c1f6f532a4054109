import BatchFabric.Library.OrderedMap
import Mathlib.Logic.Equiv.Defs

/-! Maps that hold corresponding values under keys of different names. -/

namespace OrderedMap

variable {κ : Type u} {ν : Type v} [Ord κ] [Std.TransOrd κ] [Std.LawfulEqOrd κ]

/-- The values under a key and under its other name are related, or neither
has one. -/
def Corresponds (rename : κ → κ) (R : ν → ν → Prop)
    (map map' : Std.ExtTreeMap κ ν compare) : Prop :=
  ∀ key, Option.Rel R map[key]? map'[rename key]?

section Corresponds

variable {rename : κ → κ} {R : ν → ν → Prop}
  {map map' : Std.ExtTreeMap κ ν compare}

omit [Std.LawfulEqOrd κ] in
theorem Corresponds.found (corresponds : Corresponds rename R map map')
    {key : κ} {value : ν} (at_key : map[key]? = some value) :
    ∃ value', map'[rename key]? = some value' ∧ R value value' := by
  have related := corresponds key
  rw [at_key] at related
  generalize map'[rename key]? = found at related
  cases related with
  | some related => exact ⟨_, rfl, related⟩

omit [Std.LawfulEqOrd κ] in
theorem Corresponds.missing (corresponds : Corresponds rename R map map')
    {key : κ} (at_key : map[key]? = none) : map'[rename key]? = none := by
  have related := corresponds key
  rw [at_key] at related
  generalize map'[rename key]? = found at related
  cases related with
  | none => rfl

variable [DecidableEq κ]

theorem Corresponds.insert (corresponds : Corresponds rename R map map')
    (injective : Function.Injective rename) (key : κ) {value value' : ν}
    (related : R value value') :
    Corresponds rename R (map.insert key value)
      (map'.insert (rename key) value') := by
  intro other
  rw [getElem?_insert, getElem?_insert]
  by_cases same : key = other
  · subst same
    rw [if_pos rfl, if_pos rfl]
    exact .some related
  · rw [if_neg same, if_neg fun equal => same (injective equal)]
    exact corresponds other

/-- An insertion under a key that keeps its name. -/
theorem Corresponds.insert_same (corresponds : Corresponds rename R map map')
    (injective : Function.Injective rename) {key : κ}
    (kept : rename key = key) {value value' : ν} (related : R value value') :
    Corresponds rename R (map.insert key value) (map'.insert key value') := by
  have inserted := corresponds.insert injective key related
  rw [kept] at inserted
  exact inserted

theorem Corresponds.modify (corresponds : Corresponds rename R map map')
    (injective : Function.Injective rename) (key : κ) {change change' : ν → ν}
    (related : ∀ value value', map[key]? = some value → R value value' →
      R (change value) (change' value')) :
    Corresponds rename R (map.modify key change)
      (map'.modify (rename key) change') := by
  intro other
  rw [getElem?_modify, getElem?_modify]
  by_cases same : key = other
  · subst same
    rw [if_pos rfl, if_pos rfl]
    cases found : map[key]? with
    | none =>
        rw [corresponds.missing found]
        exact .none
    | some value =>
        obtain ⟨value', found', before⟩ := corresponds.found found
        rw [found']
        exact .some (related value value' found before)
  · rw [if_neg same, if_neg fun equal => same (injective equal)]
    exact corresponds other

end Corresponds

/-! Maps with the same keys whose values are the images of one another. -/

section Image

variable {map map' : Std.ExtTreeMap κ ν compare} {image : ν → ν}

theorem toList_of_image
    (same : ∀ key : κ, map'[key]? = (map[key]?).map image) :
    map'.toList = map.toList.map fun entry => (entry.1, image entry.2) := by
  have mapped : map' = map.map fun _ value => image value := by
    apply Std.ExtTreeMap.ext_getElem?
    intro key
    rw [same, Std.ExtTreeMap.getElem?_map]
  rw [mapped, Std.ExtTreeMap.toList_map]

variable [DecidableEq κ]

theorem insert_image (same : ∀ key : κ, map'[key]? = (map[key]?).map image)
    (key : κ) (value : ν) (other : κ) :
    (map'.insert key (image value))[other]? =
      ((map.insert key value)[other]?).map image := by
  rw [getElem?_insert, getElem?_insert]
  split
  · rfl
  · exact same other

theorem erase_image (same : ∀ key : κ, map'[key]? = (map[key]?).map image)
    (key other : κ) :
    (map'.erase key)[other]? = ((map.erase key)[other]?).map image := by
  rw [getElem?_erase, getElem?_erase]
  split
  · rfl
  · exact same other

/-- Grouping the images of the items, by a key that an item shares with its
image. -/
theorem groupBy_image {α : Type w} {keyOf keyOf' : α → κ} {image : α → α}
    (items : List α) (shared : ∀ item ∈ items, keyOf' (image item) = keyOf item)
    (key : κ) :
    (groupBy keyOf' (items.map image))[key]? =
      ((groupBy keyOf items)[key]?).map (List.map image) := by
  have selected : (items.map image).filter (fun item => keyOf' item = key) =
      (items.filter fun item => keyOf item = key).map image := by
    rw [List.filter_map]
    congr 1
    apply List.filter_congr
    intro item member
    simp [shared item member]
  rw [getElem?_groupBy, getElem?_groupBy, selected]
  by_cases empty : items.filter (fun item => keyOf item = key) = []
  · simp [empty]
  · have nonempty : (items.filter fun item => keyOf item = key).map image ≠ [] :=
      fun none => empty (List.map_eq_nil_iff.mp none)
    rw [if_neg empty, if_neg nonempty]
    rfl

end Image

/-! Updates that may be made in either order. -/

section Commuting

variable [DecidableEq κ]

theorem modify_comm (map : Std.ExtTreeMap κ ν compare) (first second : κ)
    {change change' : ν → ν}
    (commute : ∀ value, change (change' value) = change' (change value)) :
    (map.modify first change).modify second change' =
      (map.modify second change').modify first change := by
  apply Std.ExtTreeMap.ext_getElem?
  intro key
  rw [getElem?_modify, getElem?_modify, getElem?_modify, getElem?_modify]
  by_cases at_first : first = key
  · by_cases at_second : second = key
    · rw [if_pos at_first, if_pos at_second, if_pos at_second, if_pos at_first,
        Option.map_map, Option.map_map]
      congr 1
      funext value
      exact (commute value).symm
    · rw [if_neg at_second, if_neg at_second]
  · rw [if_neg at_first, if_neg at_first]

theorem modifyAll_perm (map : Std.ExtTreeMap κ ν compare) {keys keys' : List κ}
    (permuted : keys'.Perm keys) (change : ν → ν) :
    modifyAll map keys' change = modifyAll map keys change := by
  unfold modifyAll
  apply permuted.foldl_eq'
  intro first _ second _ current
  exact modify_comm current first second fun _ => rfl

end Commuting

/-! Maps whose values look the same. -/

section Views

variable {μ : Type w} {view : ν → μ} {map map' : Std.ExtTreeMap κ ν compare}
  {change change' : ν → ν}
  (alike : ∀ value value', view value' = view value →
    view (change' value') = view (change value))

include alike

theorem view_modify
    (same : ∀ key : κ, (map'[key]?).map view = (map[key]?).map view)
    (key other : κ) :
    ((map'.modify key change')[other]?).map view =
      ((map.modify key change)[other]?).map view := by
  classical
  rw [getElem?_modify, getElem?_modify]
  split
  · have viewed := same other
    cases found : map[other]? with
    | none =>
        rw [found, Option.map_none, Option.map_eq_none_iff] at viewed
        rw [viewed]
        rfl
    | some value =>
        rw [found] at viewed
        obtain ⟨value', found', equal⟩ := Option.map_eq_some_iff.mp viewed
        rw [found']
        exact congrArg some (alike value value' equal)
  · exact same other

theorem view_modifyAll
    (same : ∀ key : κ, (map'[key]?).map view = (map[key]?).map view)
    (keys : List κ) (other : κ) :
    ((modifyAll map' keys change')[other]?).map view =
      ((modifyAll map keys change)[other]?).map view := by
  induction keys generalizing map map' with
  | nil => exact same other
  | cons key keys induction =>
      exact induction fun other => view_modify alike same key other

end Views

end OrderedMap
