import Mathlib.Data.List.Dedup
import Mathlib.Data.List.Induction
import Mathlib.Data.List.Sort

/-! Lookups in ordered maps whose comparison decides equality. The standard
library states them with `compare`; here they speak of equal keys. -/

namespace OrderedMap

variable {κ : Type u} {ν : Type v} [Ord κ] [Std.TransOrd κ] [Std.LawfulEqOrd κ]

section Update

variable [DecidableEq κ]

theorem getElem?_insert (map : Std.ExtTreeMap κ ν compare) (key other : κ)
    (value : ν) :
    (map.insert key value)[other]? =
      if key = other then some value else map[other]? := by
  rw [Std.ExtTreeMap.getElem?_insert]
  simp only [Std.compare_eq_iff_eq]

theorem getElem?_erase (map : Std.ExtTreeMap κ ν compare) (key other : κ) :
    (map.erase key)[other]? =
      if key = other then none else map[other]? := by
  rw [Std.ExtTreeMap.getElem?_erase]
  simp only [Std.compare_eq_iff_eq]

theorem getElem?_modify (map : Std.ExtTreeMap κ ν compare) (key other : κ)
    (change : ν → ν) :
    (map.modify key change)[other]? =
      if key = other then map[other]?.map change else map[other]? := by
  rw [Std.ExtTreeMap.getElem?_modify]
  by_cases same : key = other
  · subst same
    simp only [Std.compare_eq_iff_eq, if_true]
  · simp only [Std.compare_eq_iff_eq, same, if_false]

end Update

theorem mem_toList_iff (map : Std.ExtTreeMap κ ν compare) (key : κ) (value : ν) :
    (key, value) ∈ map.toList ↔ map[key]? = some value :=
  Std.ExtTreeMap.mem_toList_iff_getElem?_eq_some

theorem getElem?_modify_self {map : Std.ExtTreeMap κ ν compare} {key : κ}
    {value : ν} (found : map[key]? = some value) (change : ν → ν) :
    (map.modify key change)[key]? = some (change value) := by
  rw [Std.ExtTreeMap.getElem?_modify, if_pos Std.ReflCmp.compare_self, found]
  rfl

theorem getElem?_modify_cases {map : Std.ExtTreeMap κ ν compare}
    {key other : κ} {change : ν → ν} {value : ν}
    (found : (map.modify key change)[other]? = some value) :
    ∃ before, map[other]? = some before ∧
      ((key = other ∧ value = change before) ∨
        (key ≠ other ∧ value = before)) := by
  rw [Std.ExtTreeMap.getElem?_modify] at found
  split at found
  · next same =>
      have equal : key = other := Std.LawfulEqOrd.eq_of_compare same
      subst equal
      obtain ⟨before, at_key, changed⟩ := Option.map_eq_some_iff.mp found
      exact ⟨before, at_key, .inl ⟨rfl, changed.symm⟩⟩
  · next different =>
      exact ⟨value, found, .inr
        ⟨fun equal => different (Std.compare_eq_iff_eq.mpr equal), rfl⟩⟩

/-- A change that keeps `view` shows nowhere through it. -/
theorem map_getElem?_modify {μ : Type w} {view : ν → μ} {change : ν → ν}
    (kept : ∀ value, view (change value) = view value)
    (map : Std.ExtTreeMap κ ν compare) (key other : κ) :
    (map.modify key change)[other]?.map view = map[other]?.map view := by
  rw [Std.ExtTreeMap.getElem?_modify]
  split
  · next same =>
      have equal : key = other := Std.LawfulEqOrd.eq_of_compare same
      subst equal
      cases map[key]? with
      | none => rfl
      | some value => exact congrArg some (kept value)
  · rfl

/-- The same where `view` may miss, and the change is known to keep it only
on the entry it meets. -/
theorem bind_getElem?_modify {μ : Type w} {view : ν → Option μ}
    {change : ν → ν} {map : Std.ExtTreeMap κ ν compare} {key : κ}
    (kept : ∀ value, map[key]? = some value →
      view (change value) = view value) (other : κ) :
    (map.modify key change)[other]?.bind view = map[other]?.bind view := by
  rw [Std.ExtTreeMap.getElem?_modify]
  split
  · next same =>
      have equal : key = other := Std.LawfulEqOrd.eq_of_compare same
      subst equal
      cases found : map[key]? with
      | none => rfl
      | some value => exact kept value found
  · rfl

/-! Properties of every entry. -/

/-- Every entry of the map satisfies `P`. -/
def Everywhere (map : Std.ExtTreeMap κ ν compare) (P : κ → ν → Prop) : Prop :=
  ∀ key value, map[key]? = some value → P key value

instance decidableEverywhere (map : Std.ExtTreeMap κ ν compare)
    (P : κ → ν → Prop) [∀ key value, Decidable (P key value)] :
    Decidable (Everywhere map P) :=
  decidable_of_iff (∀ entry ∈ map.toList, P entry.1 entry.2) <| by
    constructor
    · intro all key value found
      exact all (key, value) ((mem_toList_iff map key value).mpr found)
    · intro all entry member
      exact all entry.1 entry.2
        ((mem_toList_iff map entry.1 entry.2).mp member)

section Everywhere

variable {map : Std.ExtTreeMap κ ν compare} {P Q : κ → ν → Prop}

omit [Std.LawfulEqOrd κ] in
theorem Everywhere.imp (all : Everywhere map P)
    (implies : ∀ key value, map[key]? = some value → P key value →
      Q key value) : Everywhere map Q :=
  fun key value found => implies key value found (all key value found)

omit [Std.LawfulEqOrd κ] in
theorem everywhere_empty :
    Everywhere (∅ : Std.ExtTreeMap κ ν compare) P := by
  intro key value found
  simp at found

variable [DecidableEq κ]

theorem Everywhere.insert (all : Everywhere map P) {key : κ} {value : ν}
    (new : P key value) : Everywhere (map.insert key value) P := by
  intro other found at_other
  rw [getElem?_insert] at at_other
  split at at_other
  · next same =>
      subst same
      cases at_other
      exact new
  · exact all other found at_other

theorem Everywhere.erase (all : Everywhere map P) (key : κ) :
    Everywhere (map.erase key) P := by
  intro other found at_other
  rw [getElem?_erase] at at_other
  split at at_other
  · cases at_other
  · exact all other found at_other

theorem Everywhere.modify (all : Everywhere map P) {key : κ} {change : ν → ν}
    (changed : ∀ value, map[key]? = some value → P key value →
      P key (change value)) : Everywhere (map.modify key change) P := by
  intro other found at_other
  rw [getElem?_modify] at at_other
  split at at_other
  · next same =>
      subst same
      obtain ⟨value, before, rfl⟩ := Option.map_eq_some_iff.mp at_other
      exact changed value before (all key value before)
  · exact all other found at_other

end Everywhere

/-! Maps whose entries evolve. -/

/-- Every entry is still there, under a value related to the one it had. -/
def Evolves (R : ν → ν → Prop) (map map' : Std.ExtTreeMap κ ν compare) :
    Prop :=
  Everywhere map fun key value =>
    ∃ value', map'[key]? = some value' ∧ R value value'

section Evolves

variable {R : ν → ν → Prop} {map map' map'' : Std.ExtTreeMap κ ν compare}

omit [Std.LawfulEqOrd κ] in
theorem Evolves.refl (reflexive : ∀ value, R value value)
    (map : Std.ExtTreeMap κ ν compare) : Evolves R map map :=
  fun _ value found => ⟨value, found, reflexive value⟩

omit [Std.LawfulEqOrd κ] in
theorem Evolves.trans
    (transitive : ∀ {first second third}, R first second → R second third →
      R first third)
    (earlier : Evolves R map map') (later : Evolves R map' map'') :
    Evolves R map map'' := by
  intro key value found
  obtain ⟨value', found', first⟩ := earlier key value found
  obtain ⟨value'', found'', second⟩ := later key value' found'
  exact ⟨value'', found'', transitive first second⟩

omit [Std.LawfulEqOrd κ] in
/-- A relation that holds where a view is unchanged. -/
theorem Evolves.of_view {μ : Type w} {view : ν → μ}
    (same : ∀ key : κ, (map'[key]?).map view = (map[key]?).map view)
    (related : ∀ value value', view value' = view value → R value value') :
    Evolves R map map' := by
  intro key value found
  have viewed := same key
  rw [found] at viewed
  obtain ⟨value', found', equal⟩ := Option.map_eq_some_iff.mp viewed
  exact ⟨value', found', related value value' equal⟩

variable [DecidableEq κ] (reflexive : ∀ value, R value value)

include reflexive

theorem Evolves.insert (map : Std.ExtTreeMap κ ν compare) {key : κ}
    {value' : ν}
    (related : ∀ value, map[key]? = some value → R value value') :
    Evolves R map (map.insert key value') := by
  intro other value found
  rw [getElem?_insert]
  split
  · next same =>
      subst same
      exact ⟨value', rfl, related value found⟩
  · exact ⟨value, found, reflexive value⟩

theorem Evolves.insert_absent {key : κ} (absent : map[key]? = none)
    (value' : ν) : Evolves R map (map.insert key value') := by
  apply Evolves.insert reflexive map
  intro value found
  rw [absent] at found
  cases found

theorem Evolves.modify (map : Std.ExtTreeMap κ ν compare) {key : κ}
    {change : ν → ν}
    (related : ∀ value, map[key]? = some value → R value (change value)) :
    Evolves R map (map.modify key change) := by
  intro other value found
  rw [getElem?_modify]
  split
  · next same =>
      subst same
      rw [found]
      exact ⟨change value, rfl, related value found⟩
  · exact ⟨value, found, reflexive value⟩

end Evolves

/-! Updating the entries of a list of keys, one after another. -/

section ModifyAll

variable [DecidableEq κ]

def modifyAll (map : Std.ExtTreeMap κ ν compare) (keys : List κ)
    (change : ν → ν) : Std.ExtTreeMap κ ν compare :=
  keys.foldl (fun current key => current.modify key change) map

omit [DecidableEq κ] in
theorem map_getElem?_modifyAll {μ : Type w} {view : ν → μ} {change : ν → ν}
    (kept : ∀ value, view (change value) = view value)
    (map : Std.ExtTreeMap κ ν compare) (keys : List κ) (other : κ) :
    (modifyAll map keys change)[other]?.map view = map[other]?.map view := by
  induction keys generalizing map with
  | nil => rfl
  | cons key keys induction =>
      have stepped : modifyAll map (key :: keys) change =
          modifyAll (map.modify key change) keys change := rfl
      rw [stepped, induction, map_getElem?_modify kept]

theorem Everywhere.modifyAll {map : Std.ExtTreeMap κ ν compare}
    {P : κ → ν → Prop} (all : Everywhere map P) {keys : List κ}
    {change : ν → ν}
    (changed : ∀ key value, P key value → P key (change value)) :
    Everywhere (modifyAll map keys change) P := by
  induction keys generalizing map with
  | nil => exact all
  | cons key keys induction =>
      exact induction (all.modify fun value _ => changed key value)

/-- A change that does nothing the second time reaches every listed entry
once, however often it is listed. -/
theorem getElem?_modifyAll (map : Std.ExtTreeMap κ ν compare) (keys : List κ)
    {change : ν → ν} (settles : ∀ value, change (change value) = change value)
    (other : κ) :
    (modifyAll map keys change)[other]? =
      if other ∈ keys then map[other]?.map change else map[other]? := by
  induction keys generalizing map with
  | nil => simp [modifyAll]
  | cons key keys induction =>
      have stepped : (modifyAll map (key :: keys) change)[other]? =
          (modifyAll (map.modify key change) keys change)[other]? := rfl
      have twice : ∀ found : Option ν,
          (found.map change).map change = found.map change := by
        intro found
        cases found with
        | none => rfl
        | some value => exact congrArg some (settles value)
      rw [stepped, induction, getElem?_modify]
      by_cases same : key = other
      · subst same
        by_cases listed : key ∈ keys <;> simp [listed, twice]
      · have different : other ≠ key := fun equal => same equal.symm
        simp [same, different]

theorem getElem?_modifyAll_cases {map : Std.ExtTreeMap κ ν compare}
    {keys : List κ} {change : ν → ν}
    (settles : ∀ value, change (change value) = change value) {other : κ}
    {value : ν} (found : (modifyAll map keys change)[other]? = some value) :
    ∃ before, map[other]? = some before ∧
      ((other ∈ keys ∧ value = change before) ∨
        (other ∉ keys ∧ value = before)) := by
  rw [getElem?_modifyAll map keys settles] at found
  split at found
  · next listed =>
      obtain ⟨before, at_other, changed⟩ := Option.map_eq_some_iff.mp found
      exact ⟨before, at_other, .inl ⟨listed, changed.symm⟩⟩
  · next unlisted => exact ⟨value, found, .inr ⟨unlisted, rfl⟩⟩

end ModifyAll

/-! Filling a map from a list of entries. -/

section InsertAll

variable [DecidableEq κ]

def insertAll (map : Std.ExtTreeMap κ ν compare) (entries : List (κ × ν)) :
    Std.ExtTreeMap κ ν compare :=
  entries.foldl (fun current entry => current.insert entry.1 entry.2) map

/-- When the entries of one key agree, every listed entry is found, and no
other key is touched. -/
theorem getElem?_insertAll {entries : List (κ × ν)}
    (agree : ∀ first ∈ entries, ∀ second ∈ entries,
      first.1 = second.1 → first.2 = second.2)
    (map : Std.ExtTreeMap κ ν compare) (key : κ) (value : ν) :
    (insertAll map entries)[key]? = some value ↔
      (key, value) ∈ entries ∨
        (key ∉ entries.map Prod.fst ∧ map[key]? = some value) := by
  induction entries generalizing map with
  | nil => simp [insertAll]
  | cons entry entries induction =>
      have stepped : insertAll map (entry :: entries) =
          insertAll (map.insert entry.1 entry.2) entries := rfl
      have later := induction fun first member second member' =>
        agree first (List.mem_cons_of_mem entry member) second
          (List.mem_cons_of_mem entry member')
      rw [stepped, later, getElem?_insert]
      by_cases same : entry.1 = key
      · subst same
        by_cases again : entry.1 ∈ entries.map Prod.fst
        · obtain ⟨other, member, keyed⟩ := List.mem_map.mp again
          have equal : other.2 = entry.2 := agree other
            (List.mem_cons_of_mem entry member) entry List.mem_cons_self keyed
          have listed : entry ∈ entries := by
            rwa [Prod.ext keyed equal] at member
          constructor
          · rintro (found | ⟨absent, _⟩)
            · exact .inl (List.mem_cons_of_mem entry found)
            · exact absurd again absent
          · rintro (found | ⟨absent, _⟩)
            · rcases List.mem_cons.mp found with first | found
              · rw [first]
                exact .inl listed
              · exact .inl found
            · exact absurd List.mem_cons_self absent
        · have absent : (entry.1, value) ∉ entries := fun member =>
            again (List.mem_map.mpr ⟨_, member, rfl⟩)
          simp [absent, again, Prod.ext_iff, eq_comm]
      · have different : (key, value) ≠ entry := fun equal =>
          same (by rw [← equal])
        have other : key ≠ entry.1 := fun equal => same equal.symm
        simp [same, different, other]

/-- The same from the empty map. -/
theorem getElem?_insertAll_empty {entries : List (κ × ν)}
    (agree : ∀ first ∈ entries, ∀ second ∈ entries,
      first.1 = second.1 → first.2 = second.2) (key : κ) (value : ν) :
    (insertAll ∅ entries)[key]? = some value ↔ (key, value) ∈ entries := by
  rw [getElem?_insertAll agree]
  simp

theorem insertAll_toList (map : Std.ExtTreeMap κ ν compare) :
    insertAll ∅ map.toList = map := by
  apply Std.ExtTreeMap.ext_getElem?
  intro key
  apply Option.ext
  intro value
  rw [getElem?_insertAll_empty, mem_toList_iff]
  rintro ⟨key, first⟩ member ⟨_, second⟩ member' rfl
  rw [mem_toList_iff] at member member'
  exact Option.some.inj (member.symm.trans member')

/-- Where the values rise along the list, a key keeps its greatest. -/
theorem getElem?_insertAll_ascending (rank : ν → Nat)
    {entries : List (κ × ν)}
    (ascending : entries.Pairwise fun earlier later =>
      rank earlier.2 < rank later.2) (key : κ) (value : ν) :
    (insertAll ∅ entries)[key]? = some value ↔
      (key, value) ∈ entries ∧
        ∀ other, (key, other) ∈ entries → rank other ≤ rank value := by
  induction entries using List.reverseRecOn with
  | nil => simp [insertAll]
  | append_singleton before last induction =>
      obtain ⟨earlier, _, below⟩ := List.pairwise_append.mp ascending
      have below : ∀ entry ∈ before, rank entry.2 < rank last.2 :=
        fun entry member => below entry member last List.mem_cons_self
      have stepped : insertAll ∅ (before ++ [last]) =
          (insertAll ∅ before).insert last.1 last.2 :=
        List.foldl_append
      rw [stepped, getElem?_insert]
      split
      · next same =>
          subst same
          constructor
          · rintro ⟨⟩
            refine ⟨List.mem_append_right _ List.mem_cons_self, ?_⟩
            intro other member
            rcases List.mem_append.mp member with listed | final
            · exact Nat.le_of_lt (below _ listed)
            · rw [List.mem_singleton] at final
              rw [← final]
          · rintro ⟨member, greatest⟩
            rcases List.mem_append.mp member with listed | final
            · have above := greatest last.2
                (List.mem_append_right _ List.mem_cons_self)
              exact absurd (below _ listed) (Nat.not_lt.mpr above)
            · rw [List.mem_singleton] at final
              rw [← final]
      · next different =>
          have elsewhere : ∀ other, (key, other) ∈ before ++ [last] ↔
              (key, other) ∈ before := by
            intro other
            rw [List.mem_append, List.mem_singleton, or_iff_left]
            rintro rfl
            exact different rfl
          simp only [elsewhere]
          exact induction earlier

omit [DecidableEq κ] in
theorem mem_records_iff {μ : Type w} (map : Std.ExtTreeMap κ ν compare)
    (view : ν → μ) (record : μ) :
    (record ∈ map.toList.map fun entry => view entry.2) ↔
      ∃ (key : κ) (value : ν), map[key]? = some value ∧
        view value = record := by
  rw [List.mem_map]
  constructor
  · rintro ⟨⟨key, value⟩, member, same⟩
    exact ⟨key, value, (mem_toList_iff map key value).mp member, same⟩
  · rintro ⟨key, value, found, same⟩
    exact ⟨(key, value), (mem_toList_iff map key value).mpr found, same⟩

/-- Records listed without their keys are found again under them when they
carry them. -/
theorem getElem?_insertAll_records {μ : Type w} {view : ν → μ} {keyOf : μ → κ}
    {map : Std.ExtTreeMap κ ν compare}
    (keyed : Everywhere map fun key value => keyOf (view value) = key)
    (key : κ) :
    (insertAll ∅ ((map.toList.map fun entry => view entry.2).map
      fun record => (keyOf record, record)))[key]? = (map[key]?).map view := by
  have listed : ∀ key record, (key, record) ∈
      (map.toList.map fun entry => view entry.2).map
        (fun record => (keyOf record, record)) ↔
      ∃ value, map[key]? = some value ∧ view value = record := by
    intro key record
    simp only [List.map_map, List.mem_map, Function.comp_apply, Prod.mk.injEq]
    constructor
    · rintro ⟨⟨other, value⟩, member, rfl, rfl⟩
      have found := (mem_toList_iff map other value).mp member
      rw [keyed other value found]
      exact ⟨value, found, rfl⟩
    · rintro ⟨value, found, rfl⟩
      exact ⟨(key, value), (mem_toList_iff map key value).mpr found,
        keyed key value found, rfl⟩
  apply Option.ext
  intro record
  rw [getElem?_insertAll_empty, listed, Option.map_eq_some_iff]
  rintro ⟨key, first⟩ member ⟨_, second⟩ member' rfl
  obtain ⟨value, found, rfl⟩ := (listed key first).mp member
  obtain ⟨value', found', rfl⟩ := (listed key second).mp member'
  rw [found] at found'
  cases found'
  rfl

/-- A loop that fills a table, seen through a view. Some of its inputs may set
no entry. -/
theorem view_foldl_eq_insertAll {σ : Type w} {ι : Type x} {μ : Type y}
    {step : σ → ι → σ} {table : σ → Std.ExtTreeMap κ ν compare} {view : ν → μ}
    {entry : ι → Option (κ × μ)}
    (sets : ∀ state input set, entry input = some set → ∀ key : κ,
      ((table (step state input))[key]?).map view =
        if set.1 = key then some set.2 else ((table state)[key]?).map view)
    (skips : ∀ state input, entry input = none → ∀ key : κ,
      ((table (step state input))[key]?).map view =
        ((table state)[key]?).map view)
    {state : σ} (inputs : List ι) {map : Std.ExtTreeMap κ μ compare}
    (initially : ∀ key : κ, ((table state)[key]?).map view = map[key]?)
    (key : κ) :
    ((table (inputs.foldl step state))[key]?).map view =
      (insertAll map (inputs.filterMap entry))[key]? := by
  induction inputs generalizing state map with
  | nil => exact initially key
  | cons input rest induction =>
      rw [List.foldl_cons]
      cases enters : entry input with
      | none =>
          rw [List.filterMap_cons_none enters]
          apply induction
          intro key
          rw [skips state input enters, initially]
      | some set =>
          rw [List.filterMap_cons_some enters]
          have inserted : ∀ key : κ,
              ((table (step state input))[key]?).map view =
                (map.insert set.1 set.2)[key]? := by
            intro key
            rw [sets state input set enters, initially, getElem?_insert]
          exact induction inserted

end InsertAll

/-! Grouping a list by a key. -/

section GroupBy

variable [DecidableEq κ] {α : Type w}

def groupBy (keyOf : α → κ) (items : List α) :
    Std.ExtTreeMap κ (List α) compare :=
  items.foldl (fun groups item =>
    groups.insert (keyOf item) ((groups[keyOf item]?).getD [] ++ [item])) ∅

/-- Each group holds the items of its key in their order, and no group is
empty. -/
theorem getElem?_groupBy (keyOf : α → κ) (items : List α) (key : κ) :
    (groupBy keyOf items)[key]? =
      if items.filter (fun item => keyOf item = key) = [] then none
      else some (items.filter (fun item => keyOf item = key)) := by
  induction items using List.reverseRecOn with
  | nil => simp [groupBy]
  | append_singleton items item induction =>
      have stepped : groupBy keyOf (items ++ [item]) =
          (groupBy keyOf items).insert (keyOf item)
            (((groupBy keyOf items)[keyOf item]?).getD [] ++ [item]) := by
        unfold groupBy
        rw [List.foldl_append]
        rfl
      rw [stepped, getElem?_insert, List.filter_append]
      by_cases same : keyOf item = key
      · subst same
        rw [induction]
        by_cases none : items.filter (fun other => keyOf other = keyOf item) = []
        · simp [none]
        · simp [none]
      · simp [same, induction]

theorem mem_of_getElem?_groupBy {keyOf : α → κ} {items group : List α}
    {key : κ} (found : (groupBy keyOf items)[key]? = some group) :
    group ≠ [] ∧ ∀ item ∈ group, item ∈ items ∧ keyOf item = key := by
  rw [getElem?_groupBy] at found
  split at found
  · cases found
  · next nonempty =>
      cases found
      refine ⟨nonempty, ?_⟩
      intro item member
      simpa using List.mem_filter.mp member

end GroupBy

/-! Counting entries by their value. -/

section Count

variable {p : ν → Bool} {map map' : Std.ExtTreeMap κ ν compare}

def count (p : ν → Bool) (map : Std.ExtTreeMap κ ν compare) : Nat :=
  map.toList.countP fun entry => p entry.2

theorem count_eq_countP_keys :
    count p map = map.keys.countP fun key => (map[key]?).any p := by
  unfold count
  rw [← Std.ExtTreeMap.map_fst_toList_eq_keys, List.countP_map]
  apply List.countP_congr
  rintro ⟨key, value⟩ listed
  simp [(mem_toList_iff map key value).mp listed]

/-- The keys need not be those of the map, as long as they include them. -/
theorem count_eq_countP {keys : List κ} (once : keys.Nodup)
    (within : ∀ key value, map[key]? = some value → key ∈ keys) :
    count p map = keys.countP fun key => (map[key]?).any p := by
  rw [count_eq_countP_keys, List.countP_eq_length_filter,
    List.countP_eq_length_filter]
  apply List.Perm.length_eq
  rw [List.perm_ext_iff_of_nodup (Std.ExtTreeMap.nodup_keys.filter _)
    (once.filter _)]
  intro key
  rw [List.mem_filter, List.mem_filter]
  apply and_congr_left
  intro counted
  obtain ⟨value, found, _⟩ := (Option.any_eq_true _ _).mp counted
  refine iff_of_true ?_ (within key value found)
  rw [Std.ExtTreeMap.mem_keys, Std.ExtTreeMap.mem_iff_isSome_getElem?, found]
  rfl

variable [DecidableEq κ]

/-- Some list holds the keys of two maps. -/
theorem exists_common_keys (map map' : Std.ExtTreeMap κ ν compare) :
    ∃ keys : List κ, keys.Nodup ∧
      (∀ key value, map[key]? = some value → key ∈ keys) ∧
      ∀ key value, map'[key]? = some value → key ∈ keys := by
  have listed : ∀ (current : Std.ExtTreeMap κ ν compare) key value,
      current[key]? = some value → key ∈ current.keys := by
    intro current key value found
    rw [Std.ExtTreeMap.mem_keys, Std.ExtTreeMap.mem_iff_isSome_getElem?,
      found]
    rfl
  refine ⟨(map.keys ++ map'.keys).dedup, List.nodup_dedup _, ?_, ?_⟩
  · intro key value found
    exact List.mem_dedup.mpr
      (List.mem_append_left _ (listed map key value found))
  · intro key value found
    exact List.mem_dedup.mpr
      (List.mem_append_right _ (listed map' key value found))

theorem count_congr
    (same : ∀ key : κ, (map'[key]?).any p = (map[key]?).any p) :
    count p map' = count p map := by
  obtain ⟨keys, once, within, within'⟩ := exists_common_keys map map'
  rw [count_eq_countP once within', count_eq_countP once within]
  apply List.countP_congr
  intro key _
  rw [same]

/-- Only the entry written counts anew. -/
theorem count_of_change (key : κ)
    (elsewhere : ∀ other, key ≠ other →
      (map'[other]?).any p = (map[other]?).any p) :
    count p map' + ((map[key]?).any p).toNat =
      count p map + ((map'[key]?).any p).toNat := by
  obtain ⟨keys, once, within, within'⟩ := exists_common_keys map map'
  have apart : ∀ current : Std.ExtTreeMap κ ν compare,
      (∀ other value, current[other]? = some value → other ∈ keys) →
      count p current = ((current[key]?).any p).toNat +
        (keys.filter (· ≠ key)).countP fun other =>
          (current[other]?).any p := by
    intro current within
    have once' : (key :: keys.filter (· ≠ key)).Nodup := by
      rw [List.nodup_cons]
      exact ⟨by simp, once.filter _⟩
    rw [count_eq_countP once', List.countP_cons, Nat.add_comm]
    · congr 1
      cases (current[key]?).any p <;> rfl
    · intro other value found
      by_cases here : key = other
      · exact List.mem_cons.mpr (.inl here.symm)
      · apply List.mem_cons_of_mem
        exact List.mem_filter.mpr
          ⟨within other value found, decide_eq_true (Ne.symm here)⟩
  have rest : ((keys.filter (· ≠ key)).countP fun other =>
      (map'[other]?).any p) =
      (keys.filter (· ≠ key)).countP fun other => (map[other]?).any p := by
    apply List.countP_congr
    intro other member
    have different : other ≠ key :=
      of_decide_eq_true (List.mem_filter.mp member).2
    rw [elsewhere other different.symm]
  rw [apart map' within', apart map within, rest]
  omega

theorem count_insert (map : Std.ExtTreeMap κ ν compare) (key : κ)
    (value : ν) :
    count p (map.insert key value) + ((map[key]?).any p).toNat =
      count p map + (p value).toNat := by
  have changed : count p (map.insert key value) + ((map[key]?).any p).toNat =
      count p map + (((map.insert key value)[key]?).any p).toNat := by
    apply count_of_change
    intro other different
    rw [getElem?_insert, if_neg different]
  rw [getElem?_insert, if_pos rfl] at changed
  exact changed

theorem count_modify {key : κ} {value : ν} (found : map[key]? = some value)
    (change : ν → ν) :
    count p (map.modify key change) + (p value).toNat =
      count p map + (p (change value)).toNat := by
  have changed : count p (map.modify key change) + ((map[key]?).any p).toNat =
      count p map + (((map.modify key change)[key]?).any p).toNat := by
    apply count_of_change
    intro other different
    rw [getElem?_modify, if_neg different]
  rw [getElem?_modify_self found, found] at changed
  exact changed

/-- A change that shows in no value counted leaves the count. -/
theorem count_modifyAll {change : ν → ν}
    (kept : ∀ value, p (change value) = p value)
    (map : Std.ExtTreeMap κ ν compare) (keys : List κ) :
    count p (modifyAll map keys change) = count p map := by
  have any_eq : ∀ found : Option ν, found.any p = (found.map p).getD false := by
    intro found
    cases found <;> rfl
  apply count_congr
  intro key
  rw [any_eq, any_eq, map_getElem?_modifyAll kept]

end Count

end OrderedMap
