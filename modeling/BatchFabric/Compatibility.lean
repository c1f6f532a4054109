import BatchFabric.Formation

namespace BatchFabric

/-- Waiting requests by compatibility key. Only lookups and `enumerate` read
it, so the hash table is an ordered map here. -/
abbrev CompatibilityIndex := Map CompatibilityKey (List RequestId)

namespace CompatibilityIndex

/-- The requests queued under a key, none when it has no bucket. -/
def bucketOf (index : CompatibilityIndex) (key : CompatibilityKey) :
    List RequestId :=
  (index[key]?).getD []

def add (index : CompatibilityIndex) (key : CompatibilityKey)
    (id : RequestId) : CompatibilityIndex :=
  index.insert key (bucketOf index key ++ [id])

def remove (index : CompatibilityIndex) (key : CompatibilityKey)
    (id : RequestId) : CompatibilityIndex :=
  match index[key]? with
  | none => index
  | some vec =>
      if (vec.erase id).isEmpty then index.erase key
      else index.insert key (vec.erase id)

/-- The buckets in the order the hash table hands them out. Any order of the
keys is possible: it is the one `order` lists them in. -/
def enumerate (index : CompatibilityIndex) (order : List CompatibilityKey) :
    List (CompatibilityKey × List RequestId) :=
  index.toList.insertionSort fun left right =>
    order.idxOf left.1 ≤ order.idxOf right.1

@[simp] theorem bucketOf_add (index : CompatibilityIndex)
    (key other : CompatibilityKey) (id : RequestId) :
    bucketOf (add index key id) other =
      if key = other then bucketOf index other ++ [id]
      else bucketOf index other := by
  unfold add
  rw [bucketOf, OrderedMap.getElem?_insert]
  by_cases same : key = other
  · subst same
    simp
  · simp [same, bucketOf]

@[simp] theorem bucketOf_remove (index : CompatibilityIndex)
    (key other : CompatibilityKey) (id : RequestId) :
    bucketOf (remove index key id) other =
      if key = other then (bucketOf index other).erase id
      else bucketOf index other := by
  unfold remove
  cases found : index[key]? with
  | none =>
      by_cases same : key = other
      · subst same
        simp [bucketOf, found]
      · simp [same]
  | some vec =>
      dsimp only
      by_cases emptied : (vec.erase id).isEmpty = true
      · rw [if_pos emptied, bucketOf, OrderedMap.getElem?_erase]
        by_cases same : key = other
        · subst same
          simpa [bucketOf, found] using emptied
        · simp [same, bucketOf]
      · rw [if_neg emptied, bucketOf, OrderedMap.getElem?_insert]
        by_cases same : key = other
        · subst same
          simp [bucketOf, found]
        · simp [same, bucketOf]

/-- A queue without one of its requests, if any other is left. -/
def dropped (id : RequestId) (vec : List RequestId) :
    Option (List RequestId) :=
  if (vec.erase id).isEmpty then none else some (vec.erase id)

theorem getElem?_remove (index : CompatibilityIndex)
    (key other : CompatibilityKey) (id : RequestId) :
    (remove index key id)[other]? =
      if key = other then (index[other]?).bind (dropped id)
      else index[other]? := by
  unfold remove dropped
  cases found : index[key]? with
  | none =>
      by_cases same : key = other
      · subst same
        rw [if_pos rfl, found]
        rfl
      · rw [if_neg same]
  | some vec =>
      dsimp only
      by_cases same : key = other
      · subst same
        rw [if_pos rfl, found, Option.bind_some]
        split
        · rw [OrderedMap.getElem?_erase, if_pos rfl]
        · rw [OrderedMap.getElem?_insert, if_pos rfl]
      · rw [if_neg same]
        split
        · rw [OrderedMap.getElem?_erase, if_neg same]
        · rw [OrderedMap.getElem?_insert, if_neg same]

theorem dropped_dropped (vec : List RequestId) (first second : RequestId) :
    (dropped first vec).bind (dropped second) =
      if ((vec.erase first).erase second).isEmpty then none
      else some ((vec.erase first).erase second) := by
  unfold dropped
  by_cases emptied : vec.erase first = []
  · simp [emptied]
  · simp [emptied]

theorem dropped_comm (vec : List RequestId) (first second : RequestId) :
    (dropped first vec).bind (dropped second) =
      (dropped second vec).bind (dropped first) := by
  rw [dropped_dropped, dropped_dropped, List.erase_comm]

/-- Requests may leave the index in either order. -/
theorem remove_comm (index : CompatibilityIndex)
    (key other : CompatibilityKey) (first second : RequestId) :
    remove (remove index key first) other second =
      remove (remove index other second) key first := by
  apply Std.ExtTreeMap.ext_getElem?
  intro at_key
  rw [getElem?_remove, getElem?_remove, getElem?_remove, getElem?_remove]
  by_cases at_first : key = at_key
  · by_cases at_second : other = at_key
    · rw [if_pos at_first, if_pos at_second, if_pos at_second, if_pos at_first,
        Option.bind_assoc, Option.bind_assoc]
      congr 1
      funext vec
      exact dropped_comm vec first second
    · rw [if_neg at_second, if_neg at_second]
  · rw [if_neg at_first, if_neg at_first]

theorem mem_enumerate_iff (index : CompatibilityIndex)
    (order : List CompatibilityKey) (key : CompatibilityKey)
    (bucket : List RequestId) :
    (key, bucket) ∈ enumerate index order ↔ index[key]? = some bucket := by
  unfold enumerate
  rw [(List.perm_insertionSort _ _).mem_iff]
  exact OrderedMap.mem_toList_iff index key bucket

end CompatibilityIndex

end BatchFabric
