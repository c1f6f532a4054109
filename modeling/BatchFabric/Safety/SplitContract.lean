import BatchFabric.Budget
import BatchFabric.Safety.BatchRule
import BatchFabric.Safety.TickPasses
import BatchFabric.Scheduler.KnownKeys

namespace BatchFabric.Impl

open OrderedMap

/-! What a split owes its callers, and that it owes it still. -/

/-- A batch in the former state of `b` that holds a part of its members. -/
structure Holds (bid : BatchId) (b : BatchRec) (part : List RequestId)
    (s' : Impl) (half : BatchId) (c : BatchRec) : Prop where
  found : s'.batches[half]? = some c
  state : c.state = b.state
  members : c.members = part
  key : c.key = b.key
  parent : half = bid ∨ bid ∈ c.parents
  named : ∀ m ∈ part, ∃ r, s'.requests[m]? = some r ∧ r.batch = half

/-- The batch `b`, as it was, has been split into two. -/
structure SplitContract (policy : BatchPolicy) (bid : BatchId) (b : BatchRec)
    (s' : Impl) (first second : BatchId) : Prop where
  different : first ≠ second
  halves : ∃ f c, Holds bid b (firstHalf b) s' first f ∧
    Holds bid b (secondHalf b) s' second c ∧
    ∀ d : Dimension,
      (d.used f.accum + d.used c.accum) % d.modulus = d.used b.accum
  superseded : b.state = .sealed →
    (s'.batches[bid]?).map (fun b' => (b'.state, b'.members)) =
        some (.superseded, b.members) ∧
      first ∈ s'.sealedOrder ∧ second ∈ s'.sealedOrder
  considered : b.state = .forming →
    ∀ (order : List CompatibilityKey) (now : TimePoint),
      first ∈ s'.considered policy order now ∧
        second ∈ s'.considered policy order now

/-- Batches keep their keys. -/
theorem keyRule :
    BatchRule (fun b b' => b'.key = b.key) (fun _ => True) True where
  refl _ := rfl
  trans earlier later := later.trans earlier
  join _ _ _ _ := rfl
  retime _ _ _ := rfl
  leave _ _ _ _ := rfl
  record _ _ same := by
    have keys := congrArg BatchRec.key same
    exact keys
  close _ _ _ _ := rfl
  halve _ _ _ _ _ := rfl
  replace _ _ _ _ _ := rfl
  absorb _ _ _ _ _ := rfl
  supersede _ _ _ := rfl
  dispatch _ _ _ _ _ := rfl
  start _ _ := rfl
  complete _ _ _ := rfl
  stop _ _ := rfl

/-- A tick goes through one batch of every key. -/
theorem considered_once {policy : BatchPolicy} {s : Impl}
    (wellFormed : WellFormed s) {first second : BatchId} {f c : BatchRec}
    (foundF : s.batches[first]? = some f)
    (foundC : s.batches[second]? = some c) (keys : f.key = c.key)
    {order : List CompatibilityKey} {now : TimePoint}
    (goesFirst : first ∈ s.considered policy order now)
    (goesSecond : second ∈ s.considered policy order now) :
    first = second := by
  have ticks := keyRule.ticks (WellFormed.tickInvariant policy)
    (fun _ _ _ _ _ _ _ => trivial) (fun _ => trivial) now s
  have started : WellFormed s ∧
      Evolves (fun b b' => b'.key = b.key) s.batches s.batches :=
    ⟨wellFormed, .refl keyRule.refl s.batches⟩
  have formed := ticks.formPass (ticks.expireLocked started order) order
  unfold considered formedState at goesFirst goesSecond
  generalize (s.expireLocked policy order now).formPass policy order now = t
    at formed goesFirst goesSecond
  obtain ⟨wellFormed', kept⟩ := formed
  have registered : ∀ bid ∈ t.formingByKey.toList.map (·.2), ∀ b,
      s.batches[bid]? = some b → t.formingByKey[b.key]? = some bid := by
    intro bid listed b found
    obtain ⟨⟨key, _⟩, entry, rfl⟩ := List.mem_map.mp listed
    have at_key := (mem_toList_iff _ key _).mp entry
    obtain ⟨b', found', same⟩ := kept _ b found
    rw [← same, wellFormed'.registered_key at_key found']
    exact at_key
  have one := registered first goesFirst f foundF
  rw [keys, registered second goesSecond c foundC] at one
  exact (Option.some.inj one).symm

/-- A sealed batch that is split loses half of its own member list. -/
theorem members_of_splitSealed {s : Impl} (wellFormed : WellFormed s)
    {bid : BatchId} {b : BatchRec} (found : s.batches[bid]? = some b) :
    ((s.splitSealed bid b).batches[bid]?).map (·.members) =
      some (firstHalf b) := by
  have known := (wellFormed.batch bid b found).2.2
  have elsewhere : ∀ n, s.nextBatch ≤ n → ({ value := n } : BatchId) ≠ bid := by
    rintro n fresh rfl
    exact absurd known (Nat.not_lt.mpr fresh)
  unfold splitSealed
  dsimp only
  rw [getElem?_insert, if_neg (elsewhere _ (Nat.le_succ _)), getElem?_insert,
    if_neg (elsewhere _ (Nat.le_refl _)), getElem?_insert, if_pos rfl]
  rfl

/-- No split of two or more members keeps what it owes. The list of a sealed
batch is cut, and of the halves of a forming batch one is registered. -/
theorem not_splitContract {policy : BatchPolicy} {s : Impl}
    (reachable : Reachable policy s) {bid : BatchId} {b : BatchRec}
    (found : s.batches[bid]? = some b)
    (opened : b.state = .forming ∨ b.state = .sealed)
    (many : 2 ≤ b.members.length) (first second : BatchId) :
    ¬ SplitContract policy bid b (s.split bid).2 first second := by
  intro contract
  have wellFormed := wellFormed_of_reachable reachable
  have half : b.members.length / 2 < b.members.length :=
    Nat.div_lt_self (Nat.lt_of_lt_of_le Nat.two_pos many) (Nat.le_refl 2)
  have splits : splittable b = true := by
    have some' : b.members.length / 2 ≠ 0 := by
      omega
    rcases opened with forming | isSealed
    · simp [splittable, forming, isBatchTerminal, some']
    · simp [splittable, isSealed, isBatchTerminal, some']
  rcases opened with forming | isSealed
  · obtain ⟨f, c, holdsF, holdsC, _⟩ := contract.halves
    have goes := contract.considered forming [] 0
    exact contract.different (considered_once (wellFormed.doSplit bid)
      holdsF.found holdsC.found (holdsF.key.trans holdsC.key.symm) goes.1
      goes.2)
  · have taken : (s.split bid).2 = s.splitSealed bid b := by
      unfold split doSplit
      simp [found, splits, isSealed]
    have kept := congrArg (Option.map Prod.snd)
      (contract.superseded isSealed).1
    rw [taken, Option.map_map] at kept
    have cut := members_of_splitSealed wellFormed found
    have same := Option.some.inj (cut.symm.trans kept)
    have lengths := congrArg List.length same
    unfold firstHalf at lengths
    rw [List.length_take] at lengths
    dsimp only at lengths
    omega

/-- Two requests of one key, sealed in one batch. -/
def sealedTogether : List Op :=
  [.submit minimalRequest 0, .submit minimalRequest 0, .tick [] 1]

theorem not_splitContract_of_sealed :
    ∃ (s : Impl) (b : BatchRec), s.batches[({ value := 1 } : BatchId)]? =
      some b ∧ b.state = .sealed ∧ b.members.length = 2 ∧
        ∀ first second, ¬ SplitContract {} { value := 1 } b
          (s.split { value := 1 }).2 first second := by
  have view : ((BatchFabric.run {} sealedTogether).batches[
      ({ value := 1 } : BatchId)]?).map (fun b =>
        (b.state, b.members.length)) = some (.sealed, 2) := by
    rw [run_eq_runKnown .minimal]
    decide +kernel
  obtain ⟨b, found, seen⟩ := Option.map_eq_some_iff.mp view
  have isSealed : b.state = .sealed := congrArg Prod.fst seen
  have two : b.members.length = 2 := congrArg Prod.snd seen
  exact ⟨_, b, found, isSealed, two, not_splitContract
    (reachable_run {} sealedTogether) found (.inr isSealed)
    (Nat.le_of_eq two.symm)⟩

/-- A sealed batch of two is split. Its own list is left with one of them. -/
theorem not_split_keeps_list :
    ¬ ∀ (policy : BatchPolicy) (s : Impl) (bid : BatchId) (b : BatchRec),
      Reachable policy s → s.batches[bid]? = some b →
      b.state = .forming ∨ b.state = .sealed → 2 ≤ b.members.length →
      ∃ first second,
        SplitContract policy bid b (s.split bid).2 first second := by
  intro keeps
  have view : ((BatchFabric.run {} sealedTogether).batches[
      ({ value := 1 } : BatchId)]?).map (fun b =>
        (b.state, b.members.length)) = some (.sealed, 2) := by
    rw [run_eq_runKnown .minimal]
    decide +kernel
  have cut : ((((BatchFabric.run {} sealedTogether).split
      { value := 1 }).2.batches[({ value := 1 } : BatchId)]?).map
        fun b => b.members.length) = some 1 := by
    rw [run_eq_runKnown .minimal]
    decide +kernel
  obtain ⟨b, found, seen⟩ := Option.map_eq_some_iff.mp view
  have isSealed : b.state = .sealed := congrArg Prod.fst seen
  have two : b.members.length = 2 := congrArg Prod.snd seen
  obtain ⟨first, second, contract⟩ := keeps {} _ _ b
    (reachable_run {} sealedTogether) found (.inr isSealed)
    (Nat.le_of_eq two.symm)
  have kept := congrArg (Option.map fun seen => seen.2.length)
    (contract.superseded isSealed).1
  rw [Option.map_map] at kept
  have same := Option.some.inj (cut.symm.trans kept)
  dsimp only at same
  omega

end BatchFabric.Impl
