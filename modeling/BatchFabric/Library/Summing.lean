import BatchFabric.Library.OrderedMap
import Mathlib.Algebra.BigOperators.Group.List.Basic
import Mathlib.Algebra.GroupWithZero.Nat

namespace OrderedMap

/-! Amounts summed over the values of a map. -/

section Total

variable {κ : Type u} {ν : Type v} [Ord κ] [Std.TransOrd κ]
  [Std.LawfulEqOrd κ] (amount : ν → Nat)
  {map map' : Std.ExtTreeMap κ ν compare}

def total (map : Std.ExtTreeMap κ ν compare) : Nat :=
  (map.toList.map fun entry => amount entry.2).sum

/-- The amount at a key, nothing where there is no value. -/
def amountAt (map : Std.ExtTreeMap κ ν compare) (key : κ) : Nat :=
  ((map[key]?).map amount).getD 0

theorem total_eq_sum_keys :
    total amount map = (map.keys.map (amountAt amount map)).sum := by
  unfold total
  rw [← Std.ExtTreeMap.map_fst_toList_eq_keys, List.map_map]
  congr 1
  apply List.map_congr_left
  rintro ⟨key, value⟩ listed
  simp [amountAt, (mem_toList_iff map key value).mp listed]

theorem total_empty :
    total amount (∅ : Std.ExtTreeMap κ ν compare) = 0 := by
  rw [total_eq_sum_keys]
  rfl

variable [DecidableEq κ]

/-- The keys need not be those of the map, as long as they include them. -/
theorem total_eq_sum {keys : List κ} (once : keys.Nodup)
    (within : ∀ key value, map[key]? = some value → key ∈ keys) :
    total amount map = (keys.map (amountAt amount map)).sum := by
  rw [total_eq_sum_keys]
  have listed : (keys.filter (· ∈ map.keys)).Perm map.keys := by
    rw [List.perm_ext_iff_of_nodup (once.filter _) Std.ExtTreeMap.nodup_keys]
    intro key
    rw [List.mem_filter, decide_eq_true_iff]
    refine ⟨And.right, fun member => ⟨?_, member⟩⟩
    rw [Std.ExtTreeMap.mem_keys, Std.ExtTreeMap.mem_iff_isSome_getElem?]
      at member
    obtain ⟨value, found⟩ := Option.isSome_iff_exists.mp member
    exact within key value found
  rw [← (listed.map _).sum_eq]
  clear once within listed
  induction keys with
  | nil => rfl
  | cons key keys induction =>
      rw [List.map_cons, List.sum_cons, List.filter_cons]
      by_cases member : key ∈ map.keys
      · rw [if_pos (decide_eq_true member), List.map_cons, List.sum_cons,
          induction]
      · have absent : map[key]? = none := by
          rw [Std.ExtTreeMap.mem_keys] at member
          exact Std.ExtTreeMap.getElem?_eq_none member
        have nothing : amountAt amount map key = 0 := by
          unfold amountAt
          rw [absent]
          rfl
        rw [if_neg (by simp [member]), induction, nothing, Nat.zero_add]

/-- Only the entry written makes a difference. -/
theorem total_of_change (key : κ)
    (elsewhere : ∀ other, key ≠ other → map'[other]? = map[other]?) :
    total amount map' + amountAt amount map key =
      total amount map + amountAt amount map' key := by
  obtain ⟨keys, once, within, within'⟩ := exists_common_keys map map'
  have apart : ∀ current : Std.ExtTreeMap κ ν compare,
      (∀ other value, current[other]? = some value → other ∈ keys) →
      total amount current = amountAt amount current key +
        ((keys.filter (· ≠ key)).map (amountAt amount current)).sum := by
    intro current within
    have once' : (key :: keys.filter (· ≠ key)).Nodup := by
      rw [List.nodup_cons]
      exact ⟨by simp, once.filter _⟩
    rw [total_eq_sum amount once', List.map_cons, List.sum_cons]
    intro other value found
    by_cases here : key = other
    · exact List.mem_cons.mpr (.inl here.symm)
    · apply List.mem_cons_of_mem
      exact List.mem_filter.mpr
        ⟨within other value found, decide_eq_true (Ne.symm here)⟩
  have rest : (keys.filter (· ≠ key)).map (amountAt amount map') =
      (keys.filter (· ≠ key)).map (amountAt amount map) := by
    apply List.map_congr_left
    intro other member
    have different : other ≠ key :=
      of_decide_eq_true (List.mem_filter.mp member).2
    unfold amountAt
    rw [elsewhere other different.symm]
  rw [apart map' within', apart map within, rest]
  omega

theorem total_insert (map : Std.ExtTreeMap κ ν compare) (key : κ)
    (value : ν) :
    total amount (map.insert key value) + amountAt amount map key =
      total amount map + amount value := by
  have changed := total_of_change amount key fun other different => by
    show (map.insert key value)[other]? = map[other]?
    rw [getElem?_insert, if_neg different]
  have written : amountAt amount (map.insert key value) key =
      amount value := by
    unfold amountAt
    rw [getElem?_insert, if_pos rfl]
    rfl
  rw [changed, written]

theorem total_modify (map : Std.ExtTreeMap κ ν compare) (key : κ)
    (change : ν → ν) :
    total amount (map.modify key change) + amountAt amount map key =
      total amount map + amountAt (fun value => amount (change value)) map
        key := by
  have changed := total_of_change amount key fun other different => by
    show (map.modify key change)[other]? = map[other]?
    rw [getElem?_modify, if_neg different]
  have written : amountAt amount (map.modify key change) key =
      amountAt (fun value => amount (change value)) map key := by
    unfold amountAt
    rw [getElem?_modify, if_pos rfl, Option.map_map]
    rfl
  rw [changed, written]

theorem amountAt_le_total (map : Std.ExtTreeMap κ ν compare) (key : κ) :
    amountAt amount map key ≤ total amount map := by
  have changed := total_of_change amount key fun other different => by
    show (map.erase key)[other]? = map[other]?
    rw [getElem?_erase, if_neg different]
  have erased : amountAt amount (map.erase key) key = 0 := by
    unfold amountAt
    rw [getElem?_erase, if_pos rfl]
    rfl
  omega

/-- A change that shows in no amount leaves the sum. -/
theorem total_modify_same {change : ν → ν}
    (kept : ∀ value, amount (change value) = amount value)
    (map : Std.ExtTreeMap κ ν compare) (key : κ) :
    total amount (map.modify key change) = total amount map := by
  have changed := total_modify amount map key change
  rw [funext kept] at changed
  exact Nat.add_right_cancel changed

end Total

end OrderedMap
