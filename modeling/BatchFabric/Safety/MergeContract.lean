import BatchFabric.Budget
import BatchFabric.Safety.Reachable
import BatchFabric.Scheduler.KnownKeys

namespace BatchFabric

open OrderedMap

/-! What a merge that succeeds owes its callers. -/

namespace Impl

/-- The batches `a` and `b`, as they were, might be merged, and the state has
all members of `b` in the batch that was `a`. -/
structure MergeContract (policy : BatchPolicy) (aid bid : BatchId)
    (a b : BatchRec) (s' : Impl) : Prop where
  distinct : aid ≠ bid
  key : a.key = b.key
  phase : a.phase = b.phase
  state : a.state = b.state
  stage : a.state = .sealed ∨ a.state = .forming
  epoch : policy.merge.requireSameEpoch = true → a.epoch = b.epoch
  budget : ∀ d : Dimension, d.limit policy.constraints.budget ≠ 0 →
    d.used a.accum + d.used b.accum ≤ d.limit policy.constraints.budget
  target : ∃ a', s'.batches[aid]? = some a' ∧
    a'.members = a.members ++ b.members ∧ a'.members.Nodup ∧
    a'.state = a.state ∧ bid ∈ a'.parents
  moved : ∀ m ∈ b.members, ∃ r, s'.requests[m]? = some r ∧ r.batch = aid
  superseded : (s'.batches[bid]?).map (·.state) = some .superseded
  unordered : bid ∉ s'.sealedOrder
  unregistered : ∀ key : CompatibilityKey, s'.formingByKey[key]? ≠ some bid

/-- Two batches of the required epochs that share no member, and whose totals
can be added up. -/
structure CleanMerge (policy : BatchPolicy) (aid bid : BatchId)
    (a b : BatchRec) : Prop where
  distinct : aid ≠ bid
  epoch : policy.merge.requireSameEpoch = true → a.epoch = b.epoch
  once : (a.members ++ b.members).Nodup
  exact : ∀ d : Dimension, d.limit policy.constraints.budget ≠ 0 →
    d.used a.accum + d.used b.accum < d.modulus

theorem merge_cases {policy : BatchPolicy} {s : Impl} {aid bid target : BatchId}
    {a b : BatchRec} (first : s.batches[aid]? = some a)
    (second : s.batches[bid]? = some b)
    (merged : (s.merge policy aid bid).1 = .ok target) :
    canMerge policy a b = true ∧
      (s.merge policy aid bid).2 = s.mergeInto aid bid a b := by
  unfold merge doMerge at merged ⊢
  cases possible : canMerge policy a b with
  | true => exact ⟨rfl, by simp [first, second, possible]⟩
  | false => simp [first, second, possible] at merged

/-- The totals of two batches that may be merged stay within the budget, where
they can be added up. -/
theorem budget_of_canMerge {policy : BatchPolicy} {a b : BatchRec}
    (possible : canMerge policy a b = true) {d : Dimension}
    (limited : d.limit policy.constraints.budget ≠ 0)
    (exact : d.used a.accum + d.used b.accum < d.modulus) :
    d.used a.accum + d.used b.accum ≤ d.limit policy.constraints.budget := by
  obtain ⟨sum, used, allowed⟩ := allowsAdd_of_canMerge possible
  have checked := (allowsAdd_iff _ _ _).mp allowed d limited
  have zero : d.used ({} : BatchAccum) = 0 := by
    cases d <;> rfl
  rw [zero, Nat.zero_add, used, Nat.mod_eq_of_lt exact,
    Nat.mod_eq_of_lt (Nat.lt_of_lt_of_le exact d.modulus_le)] at checked
  exact checked

section Effects

variable {s : Impl} {aid bid : BatchId} {a b : BatchRec}

theorem target_of_mergeInto (distinct : aid ≠ bid) :
    ∃ a', (s.mergeInto aid bid a b).batches[aid]? = some a' ∧
      a'.members = a.members ++ b.members ∧ a'.state = a.state ∧
      bid ∈ a'.parents := by
  unfold mergeInto
  dsimp only
  rw [getElem?_modify, if_neg distinct.symm, getElem?_insert, if_pos rfl]
  refine ⟨_, rfl, rfl, rfl, ?_⟩
  exact List.mem_append_right _ (List.mem_singleton_self bid)

theorem superseded_of_mergeInto (distinct : aid ≠ bid)
    (second : s.batches[bid]? = some b) :
    ((s.mergeInto aid bid a b).batches[bid]?).map (·.state) =
      some .superseded := by
  unfold mergeInto
  dsimp only
  rw [getElem?_modify, if_pos rfl, getElem?_insert, if_neg distinct, second]
  rfl

theorem moved_of_mergeInto (wellFormed : WellFormed s)
    (second : s.batches[bid]? = some b) {m : RequestId}
    (member : m ∈ b.members) :
    ∃ r, (s.mergeInto aid bid a b).requests[m]? = some r ∧ r.batch = aid := by
  obtain ⟨r, found⟩ := wellFormed.found_member second member
  unfold mergeInto
  dsimp only
  have settles : ∀ r : RequestRec,
      (r.setBatch aid).setBatch aid = r.setBatch aid := fun _ => rfl
  rw [getElem?_modifyAll s.requests b.members settles m, if_pos member, found]
  exact ⟨_, rfl, rfl⟩

theorem unregistered_of_mergeInto (wellFormed : WellFormed s)
    (distinct : aid ≠ bid) (second : s.batches[bid]? = some b)
    (key : CompatibilityKey) :
    (s.mergeInto aid bid a b).formingByKey[key]? ≠ some bid := by
  have own : s.formingByKey[key]? = some bid → b.key = key :=
    fun at_key => wellFormed.registered_key at_key second
  unfold mergeInto
  dsimp only
  split
  · rw [getElem?_insert]
    split
    · intro same
      exact distinct (Option.some.inj same)
    · next other => exact fun at_key => other (own at_key)
  · next elsewhere =>
      intro at_key
      rw [← own at_key] at at_key
      exact elsewhere at_key

end Effects

/-- Of two batches that a merge accepts, the contract holds exactly when they
are two batches of the required epochs without a member in common, and their
totals do not wrap. -/
theorem mergeContract_iff {policy : BatchPolicy} {s : Impl}
    (reachable : Reachable policy s) {aid bid target : BatchId}
    {a b : BatchRec} (first : s.batches[aid]? = some a)
    (second : s.batches[bid]? = some b)
    (merged : (s.merge policy aid bid).1 = .ok target) :
    MergeContract policy aid bid a b (s.merge policy aid bid).2 ↔
      CleanMerge policy aid bid a b := by
  have wellFormed := wellFormed_of_reachable reachable
  obtain ⟨possible, effect⟩ := merge_cases first second merged
  obtain ⟨key, phase, state, stage⟩ := canMerge_cases possible
  rw [effect]
  constructor
  · intro contract
    obtain ⟨a', found, members, once, _⟩ := contract.target
    refine ⟨contract.distinct, contract.epoch, ?_, ?_⟩
    · rw [← members]
      exact once
    · intro d limited
      exact Nat.lt_of_le_of_lt (contract.budget d limited) (d.limit_lt _)
  · intro clean
    obtain ⟨a', found, members, state', parent⟩ :=
      target_of_mergeInto (s := s) (a := a) (b := b) clean.distinct
    exact {
      distinct := clean.distinct
      key := key
      phase := phase
      state := state
      stage := stage
      epoch := clean.epoch
      budget := fun d limited =>
        budget_of_canMerge possible limited (clean.exact d limited)
      target := by
        refine ⟨a', found, members, ?_, state', parent⟩
        rw [members]
        exact clean.once
      moved := fun _ member => moved_of_mergeInto wellFormed second member
      superseded := superseded_of_mergeInto clean.distinct second
      unordered := by
        unfold mergeInto
        simp
      unregistered :=
        unregistered_of_mergeInto wellFormed clean.distinct second }

/-- Two requests of one key, each sealed in a batch of its own by a tick that
may not merge. -/
def sealedApart (between : List Op) : List Op :=
  [.submit minimalRequest 0, .tick [] 1] ++ between ++
    [.submit minimalRequest 2, .tick [] 3]

theorem mergeContract_of_same_epoch :
    ∃ (policy : BatchPolicy) (s : Impl) (a b : BatchRec),
      (s.merge policy { value := 1 } { value := 2 }).1 =
        .ok { value := 1 } ∧
      MergeContract policy { value := 1 } { value := 2 } a b
        (s.merge policy { value := 1 } { value := 2 }).2 := by
  let policy : BatchPolicy := { merge.maxMergesPerCycle := 0 }
  let s := BatchFabric.run policy (sealedApart [])
  have views : (s.batches[({ value := 1 } : BatchId)]?).map
        (fun b => (b.epoch, b.members)) =
          some ({ value := 1 }, [{ value := 1 }]) ∧
      (s.batches[({ value := 2 } : BatchId)]?).map
        (fun b => (b.epoch, b.members)) =
          some ({ value := 1 }, [{ value := 2 }]) ∧
      (s.merge policy { value := 1 } { value := 2 }).1.toOption =
        some { value := 1 } := by
    show (BatchFabric.run policy (sealedApart [])).batches[_]?.map _ = _ ∧
      (BatchFabric.run policy (sealedApart [])).batches[_]?.map _ = _ ∧
      ((BatchFabric.run policy (sealedApart [])).merge policy _ _).1.toOption =
        _
    rw [run_eq_runKnown .minimal]
    decide +kernel
  obtain ⟨view, view', merged⟩ := views
  obtain ⟨a, first, epochs⟩ := Option.map_eq_some_iff.mp view
  obtain ⟨b, second, epochs'⟩ := Option.map_eq_some_iff.mp view'
  have merged := ok_of_toOption merged
  refine ⟨policy, s, a, b, merged, ?_⟩
  apply (mergeContract_iff (reachable_run policy (sealedApart [])) first second
    merged).mpr
  have members : a.members = [{ value := 1 }] := congrArg Prod.snd epochs
  have members' : b.members = [{ value := 2 }] := congrArg Prod.snd epochs'
  have epoch : a.epoch = { value := 1 } := congrArg Prod.fst epochs
  have epoch' : b.epoch = { value := 1 } := congrArg Prod.fst epochs'
  exact {
    distinct := by decide
    epoch := fun _ => epoch.trans epoch'.symm
    once := by
      rw [members, members']
      decide
    exact := fun d limited => absurd (by cases d <;> rfl) limited }

/-- The epoch is rolled between the two batches. The policy asks for batches of
one epoch, and they are merged. -/
theorem not_mergeContract_of_rolled :
    ¬ ∀ (policy : BatchPolicy) (s : Impl) (aid bid target : BatchId)
      (a b : BatchRec), Reachable policy s →
      s.batches[aid]? = some a → s.batches[bid]? = some b →
      (s.merge policy aid bid).1 = .ok target →
      MergeContract policy aid bid a b (s.merge policy aid bid).2 := by
  intro contract
  let policy : BatchPolicy := { merge.maxMergesPerCycle := 0 }
  let s := BatchFabric.run policy (sealedApart [.rollEpoch])
  have views : (s.batches[({ value := 1 } : BatchId)]?).map (·.epoch) =
        some { value := 1 } ∧
      (s.batches[({ value := 2 } : BatchId)]?).map (·.epoch) =
        some { value := 2 } ∧
      (s.merge policy { value := 1 } { value := 2 }).1.toOption =
        some { value := 1 } := by
    show (BatchFabric.run policy (sealedApart [.rollEpoch])).batches[_]?.map _ =
        _ ∧
      (BatchFabric.run policy (sealedApart [.rollEpoch])).batches[_]?.map _ =
        _ ∧
      ((BatchFabric.run policy (sealedApart [.rollEpoch])).merge policy _
        _).1.toOption = _
    rw [run_eq_runKnown .minimal]
    decide +kernel
  obtain ⟨view, view', merged⟩ := views
  obtain ⟨a, first, epoch⟩ := Option.map_eq_some_iff.mp view
  obtain ⟨b, second, epoch'⟩ := Option.map_eq_some_iff.mp view'
  have merged := ok_of_toOption merged
  have same := (contract policy s _ _ _ a b (reachable_run policy _) first
    second merged).epoch rfl
  rw [epoch, epoch'] at same
  exact absurd same (by decide)

end Impl

end BatchFabric
