import BatchFabric.Safety.ClosedMembership
import BatchFabric.Safety.TickPasses

namespace BatchFabric.Impl

open OrderedMap

/-! Two states that differ in their counters only, under every operation. One
counter is read where merges are made, and is followed separately. -/

/-- The states differ in their counters only, and have counted so many merges
each. -/
structure Agree (first second : UInt64) (s s' : Impl) : Prop where
  same : ∃ stats, s' = { s with stats := stats }
  first : s.stats.batchesMerged = first
  second : s'.stats.batchesMerged = second

namespace Agree

variable {first second : UInt64} {s s' : Impl}

theorem submit (agree : Agree first second s s') (policy : BatchPolicy)
    (metadata : RequestMetadata) (now : TimePoint) :
    Agree first second (s.doSubmit policy metadata now).2
      (s'.doSubmit policy metadata now).2 := by
  obtain ⟨⟨stats, rfl⟩, counted, counted'⟩ := agree
  unfold doSubmit
  dsimp only
  split
  · exact ⟨⟨_, rfl⟩, counted, counted'⟩
  · split
    · exact ⟨⟨_, rfl⟩, counted, counted'⟩
    · split
      · exact ⟨⟨_, rfl⟩, counted, counted'⟩
      · split
        · exact ⟨⟨_, rfl⟩, counted, counted'⟩
        · exact ⟨⟨_, rfl⟩, counted, counted'⟩

theorem cancel (agree : Agree first second s s') (policy : BatchPolicy)
    (id : RequestId) (now : TimePoint) :
    Agree first second (s.doCancel policy id now).2
      (s'.doCancel policy id now).2 := by
  obtain ⟨⟨stats, rfl⟩, counted, counted'⟩ := agree
  unfold doCancel
  dsimp only
  split
  · exact ⟨⟨_, rfl⟩, counted, counted'⟩
  · split
    · exact ⟨⟨_, rfl⟩, counted, counted'⟩
    · split
      · exact ⟨⟨_, rfl⟩, counted, counted'⟩
      · split
        · exact ⟨⟨_, rfl⟩, counted, counted'⟩
        · split
          · exact ⟨⟨_, rfl⟩, counted, counted'⟩
          · exact ⟨⟨_, rfl⟩, counted, counted'⟩
          · exact ⟨⟨_, rfl⟩, counted, counted'⟩
          · exact ⟨⟨_, rfl⟩, counted, counted'⟩
          · exact ⟨⟨_, rfl⟩, counted, counted'⟩

theorem expireWaiting (agree : Agree first second s s') (now : TimePoint)
    (id : RequestId) :
    Agree first second (expireWaiting now s id)
      (Impl.expireWaiting now s' id) := by
  obtain ⟨⟨stats, rfl⟩, counted, counted'⟩ := agree
  unfold Impl.expireWaiting
  dsimp only
  split
  · exact ⟨⟨_, rfl⟩, counted, counted'⟩
  · unfold completeRequestTerminal
    dsimp only
    split
    · exact ⟨⟨_, rfl⟩, counted, counted'⟩
    · split
      · exact ⟨⟨_, rfl⟩, counted, counted'⟩
      · exact ⟨⟨_, rfl⟩, counted, counted'⟩

/-- A loop over the same inputs. -/
theorem run {step : Impl → ι → Impl} (agree : Agree first second s s')
    (steps : ∀ {s s' : Impl} (input : ι), Agree first second s s' →
      Agree first second (step s input) (step s' input))
    (inputs : List ι) :
    Agree first second (Transition.run step s inputs)
      (Transition.run step s' inputs) :=
  Transition.run_related (fun _ _ input held => steps input held) agree inputs

theorem expireLocked (agree : Agree first second s s') (policy : BatchPolicy)
    (order : List CompatibilityKey) (now : TimePoint) :
    Agree first second (s.expireLocked policy order now)
      (s'.expireLocked policy order now) := by
  have waiting : s'.expiredWaiting order now = s.expiredWaiting order now := by
    obtain ⟨⟨stats, rfl⟩, _, _⟩ := agree
    rfl
  unfold Impl.expireLocked
  dsimp only
  rw [waiting]
  have expired := agree.run (fun id held => held.expireWaiting now id)
    (s.expiredWaiting order now)
  generalize Transition.run (Impl.expireWaiting now) s
    (s.expiredWaiting order now) = current at expired ⊢
  generalize Transition.run (Impl.expireWaiting now) s'
    (s.expiredWaiting order now) = current' at expired ⊢
  have forming : current'.expiredInForming now =
      current.expiredInForming now := by
    obtain ⟨⟨stats, rfl⟩, _, _⟩ := expired
    rfl
  rw [forming]
  apply expired.run
  intro s s' id held
  have requests : s'.requests = s.requests := by
    obtain ⟨⟨stats, rfl⟩, _, _⟩ := held
    rfl
  unfold cancelExpired
  rw [requests]
  split
  · exact held
  · exact held.cancel policy id now

/-! Filling. -/

theorem place (agree : Agree first second s s') (bid : BatchId)
    (key : CompatibilityKey) (pick : RequestId) :
    Agree first second (s.place bid key pick) (s'.place bid key pick) := by
  obtain ⟨⟨stats, rfl⟩, counted, counted'⟩ := agree
  unfold Impl.place addMemberToBatch
  dsimp only
  split
  · exact ⟨⟨_, rfl⟩, counted, counted'⟩
  · exact ⟨⟨_, rfl⟩, counted, counted'⟩

theorem fillLoop (policy : BatchPolicy) (bid : BatchId)
    (key : CompatibilityKey) (now : TimePoint) (fuel : Nat) {s s' : Impl}
    (agree : Agree first second s s') (cands : List RequestId) :
    Agree first second (Impl.fillLoop policy bid key now fuel s cands)
      (Impl.fillLoop policy bid key now fuel s' cands) := by
  induction fuel generalizing s s' cands with
  | zero => exact agree
  | succ fuel induction =>
      have picks : s'.fillPick policy bid cands now =
          s.fillPick policy bid cands now := by
        obtain ⟨⟨stats, rfl⟩, _, _⟩ := agree
        rfl
      unfold Impl.fillLoop
      rw [picks]
      split
      · exact agree
      · next pick _ => exact induction (agree.place bid key pick) _

theorem fillForming (agree : Agree first second s s') (policy : BatchPolicy)
    (bid : BatchId) (key : CompatibilityKey) (now : TimePoint) :
    Agree first second (s.fillForming policy bid key now)
      (s'.fillForming policy bid key now) := by
  have tables : s'.batches = s.batches ∧ s'.waitingIndex = s.waitingIndex := by
    obtain ⟨⟨stats, rfl⟩, _, _⟩ := agree
    exact ⟨rfl, rfl⟩
  unfold Impl.fillForming
  rw [tables.1, tables.2]
  split
  · exact fillLoop policy bid key now _ agree _
  · exact agree

theorem openForming (agree : Agree first second s s')
    (key : CompatibilityKey) (now : TimePoint) :
    Agree first second (s.openForming key now) (s'.openForming key now) := by
  obtain ⟨⟨stats, rfl⟩, counted, counted'⟩ := agree
  exact ⟨⟨_, rfl⟩, counted, counted'⟩

theorem setAllowedWait (agree : Agree first second s s')
    (policy : BatchPolicy) (bid : BatchId) (now : TimePoint) :
    Agree first second (s.setAllowedWait policy bid now)
      (s'.setAllowedWait policy bid now) := by
  obtain ⟨⟨stats, rfl⟩, counted, counted'⟩ := agree
  exact ⟨⟨_, rfl⟩, counted, counted'⟩

theorem setFormed (agree : Agree first second s s') (bid : BatchId)
    (now : TimePoint) :
    Agree first second (s.setFormed bid now) (s'.setFormed bid now) := by
  obtain ⟨⟨stats, rfl⟩, counted, counted'⟩ := agree
  exact ⟨⟨_, rfl⟩, counted, counted'⟩

theorem formMissing (agree : Agree first second s s') (policy : BatchPolicy)
    (now : TimePoint) (key : CompatibilityKey) :
    Agree first second (Impl.formMissing policy now s key)
      (Impl.formMissing policy now s' key) := by
  have fields : s'.formingByKey = s.formingByKey ∧
      s'.nextBatch = s.nextBatch := by
    obtain ⟨⟨stats, rfl⟩, _, _⟩ := agree
    exact ⟨rfl, rfl⟩
  unfold Impl.formMissing
  rw [fields.1]
  split
  · exact agree
  · unfold makeForming
    rw [fields.2]
    exact (((agree.openForming key now).fillForming policy _ key
      now).setAllowedWait policy _ now).setFormed _ now

theorem formPass (agree : Agree first second s s') (policy : BatchPolicy)
    (order : List CompatibilityKey) (now : TimePoint) :
    Agree first second (s.formPass policy order now)
      (s'.formPass policy order now) := by
  have index : s'.waitingIndex = s.waitingIndex := by
    obtain ⟨⟨stats, rfl⟩, _, _⟩ := agree
    rfl
  unfold Impl.formPass
  rw [index]
  exact agree.run (fun key held => held.formMissing policy now key) _

theorem refill (agree : Agree first second s s') (policy : BatchPolicy)
    (now : TimePoint) (bid : BatchId) :
    Agree first second (s.refill policy now bid) (s'.refill policy now bid) := by
  have batches : s'.batches = s.batches := by
    obtain ⟨⟨stats, rfl⟩, _, _⟩ := agree
    rfl
  unfold Impl.refill
  rw [batches]
  split
  · exact agree
  · exact (agree.fillForming policy bid _ now).setAllowedWait policy bid now

theorem decidePass (policy : BatchPolicy) (now : TimePoint)
    (bids : List BatchId) {s s' : Impl} (agree : Agree first second s s') :
    Agree first second (Impl.decidePass policy now s bids).1
        (Impl.decidePass policy now s' bids).1 ∧
      (Impl.decidePass policy now s' bids).2 =
        (Impl.decidePass policy now s bids).2 := by
  induction bids generalizing s s' with
  | nil => exact ⟨agree, rfl⟩
  | cons bid rest induction =>
      have filled := agree.refill policy now bid
      have decides : (s'.refill policy now bid).decidesToSeal policy bid now =
          (s.refill policy now bid).decidesToSeal policy bid now := by
        obtain ⟨⟨stats, same⟩, _, _⟩ := filled
        rw [same]
        rfl
      have later := induction filled
      refine ⟨later.1, ?_⟩
      unfold Impl.decidePass
      dsimp only
      rw [decides, later.2]

theorem sealing (agree : Agree first second s s') (bid : BatchId)
    (reason : SealReason) (now : TimePoint) :
    Agree first second (s.doSeal bid reason now).2
      (s'.doSeal bid reason now).2 := by
  obtain ⟨⟨stats, rfl⟩, counted, counted'⟩ := agree
  unfold doSeal
  dsimp only
  split
  · exact ⟨⟨_, rfl⟩, counted, counted'⟩
  · split
    · exact ⟨⟨_, rfl⟩, counted, counted'⟩
    · exact ⟨⟨_, rfl⟩, counted, counted'⟩

theorem sealDecided (agree : Agree first second s s') (now : TimePoint)
    (bid : BatchId) :
    Agree first second (Impl.sealDecided now s bid)
      (Impl.sealDecided now s' bid) := by
  have reads : s'.batches = s.batches ∧
      s'.sealedReasonFor bid = s.sealedReasonFor bid := by
    obtain ⟨⟨stats, rfl⟩, _, _⟩ := agree
    exact ⟨rfl, rfl⟩
  unfold Impl.sealDecided
  rw [reads.1, reads.2]
  split
  · exact agree
  · exact agree.sealing bid _ now

theorem sealPass (agree : Agree first second s s') (policy : BatchPolicy)
    (now : TimePoint) :
    Agree first second (s.sealPass policy now) (s'.sealPass policy now) := by
  have registry : s'.formingByKey = s.formingByKey := by
    obtain ⟨⟨stats, rfl⟩, _, _⟩ := agree
    rfl
  obtain ⟨decided, listed⟩ := decidePass policy now
    (s.formingByKey.toList.map (·.2)) agree
  unfold Impl.sealPass
  dsimp only
  rw [registry, listed]
  exact decided.run (fun bid held => held.sealDecided now bid) _

/-! Splitting and merging. -/

theorem split (agree : Agree first second s s') (bid : BatchId) :
    Agree first second (s.doSplit bid).2 (s'.doSplit bid).2 := by
  obtain ⟨⟨stats, rfl⟩, counted, counted'⟩ := agree
  unfold doSplit
  dsimp only
  split
  · exact ⟨⟨_, rfl⟩, counted, counted'⟩
  · split
    · exact ⟨⟨_, rfl⟩, counted, counted'⟩
    · split
      · exact ⟨⟨_, rfl⟩, counted, counted'⟩
      · exact ⟨⟨_, rfl⟩, counted, counted'⟩

theorem sizePass (agree : Agree first second s s') :
    Agree first second s.sizePass s'.sizePass := by
  have order : s'.sealedOrder = s.sealedOrder := by
    obtain ⟨⟨stats, rfl⟩, _, _⟩ := agree
    rfl
  unfold Impl.sizePass
  rw [order]
  apply agree.run
  intro s s' i held
  have oversized : s'.oversizedAt i = s.oversizedAt i := by
    obtain ⟨⟨stats, rfl⟩, _, _⟩ := held
    rfl
  unfold splitOversized
  rw [oversized]
  split
  · exact held
  · exact held.split _

end Agree

/-- The states differ in their counters only. -/
def SameButStats (s s' : Impl) : Prop :=
  ∃ stats, s' = { s with stats := stats }

namespace SameButStats

variable {s s' s'' : Impl}

theorem refl (s : Impl) : SameButStats s s :=
  ⟨s.stats, rfl⟩

theorem symm (same : SameButStats s s') : SameButStats s' s := by
  obtain ⟨stats, rfl⟩ := same
  exact ⟨s.stats, rfl⟩

theorem trans (same : SameButStats s s') (again : SameButStats s' s'') :
    SameButStats s s'' := by
  obtain ⟨stats, rfl⟩ := same
  obtain ⟨stats', rfl⟩ := again
  exact ⟨stats', rfl⟩

theorem agree (same : SameButStats s s') :
    Agree s.stats.batchesMerged s'.stats.batchesMerged s s' :=
  ⟨same, rfl, rfl⟩

theorem batches (same : SameButStats s s') : s'.batches = s.batches := by
  obtain ⟨stats, rfl⟩ := same
  rfl

theorem sealedOrder (same : SameButStats s s') :
    s'.sealedOrder = s.sealedOrder := by
  obtain ⟨stats, rfl⟩ := same
  rfl

end SameButStats

/-! The merges of a tick, as many as there is room for. -/

/-- How many merges a tick may make before the counter stops it. -/
def mergeRoom (policy : BatchPolicy) (stats : BatchStats) : Nat :=
  policy.merge.maxMergesPerCycle.toNat - stats.batchesMerged.toNat

/-- The merges that a pass without a limit makes. -/
def mergesDue (policy : BatchPolicy) : Impl → List (BatchId × BatchId) → Nat
  | _, [] => 0
  | s, pair :: rest =>
      if s.mergeable policy pair then
        mergesDue policy (s.doMerge policy pair.1 pair.2).2 rest + 1
      else mergesDue policy s rest

/-- The pass that stops after so many merges. -/
def mergeUpTo (policy : BatchPolicy) :
    Nat → Impl → List (BatchId × BatchId) → Impl
  | 0, s, _ => s
  | _, s, [] => s
  | room + 1, s, pair :: rest =>
      if s.mergeable policy pair then
        mergeUpTo policy room (s.doMerge policy pair.1 pair.2).2 rest
      else mergeUpTo policy (room + 1) s rest

section Merges

variable {policy : BatchPolicy} {s : Impl} {pair : BatchId × BatchId}

theorem mergeRoom_eq_zero (stats : BatchStats) :
    mergeRoom policy stats = 0 ↔
      ¬ stats.batchesMerged < policy.merge.maxMergesPerCycle.toUInt64 := by
  unfold mergeRoom
  rw [UInt64.lt_iff_toNat_lt, UInt32.toNat_toUInt64]
  omega

/-- A merge takes up room for one. -/
theorem mergeRoom_succ {stats : BatchStats} {room : Nat}
    (left : mergeRoom policy stats = room + 1) :
    mergeRoom policy { stats with
      batchesMerged := stats.batchesMerged + 1 } = room := by
  have small := policy.merge.maxMergesPerCycle.toNat_lt
  unfold mergeRoom at left ⊢
  dsimp only
  have next : (stats.batchesMerged + 1).toNat =
      stats.batchesMerged.toNat + 1 := by
    rw [UInt64.toNat_add]
    apply Nat.mod_eq_of_lt
    show stats.batchesMerged.toNat + 1 < 2 ^ 64
    omega
  rw [next]
  omega

theorem run_mergeNeighbours_of_full
    (full : mergeRoom policy s.stats = 0) (pairs : List (BatchId × BatchId)) :
    Transition.run (mergeNeighbours policy) s pairs = s := by
  induction pairs with
  | nil => rfl
  | cons pair rest induction =>
      rw [Transition.run_cons, mergeNeighbours,
        if_neg ((mergeRoom_eq_zero s.stats).mp full)]
      exact induction

/-- The pass of the code is the one that stops when there is no more room. -/
theorem run_mergeNeighbours (s : Impl) (pairs : List (BatchId × BatchId)) :
    Transition.run (mergeNeighbours policy) s pairs =
      mergeUpTo policy (mergeRoom policy s.stats) s pairs := by
  generalize left : mergeRoom policy s.stats = room
  induction pairs generalizing s room with
  | nil => cases room <;> rfl
  | cons pair rest induction =>
      cases room with
      | zero =>
          rw [run_mergeNeighbours_of_full left]
          rfl
      | succ room =>
          have open' : s.stats.batchesMerged <
              policy.merge.maxMergesPerCycle.toUInt64 := by
            by_contra closed
            rw [(mergeRoom_eq_zero s.stats).mpr closed] at left
            cases left
          rw [Transition.run_cons, mergeNeighbours, if_pos open', mergeUpTo]
          cases possible : s.mergeable policy pair with
          | true =>
              obtain ⟨a, b, _, _, _, merged⟩ := doMerge_of_mergeable possible
              rw [if_pos rfl]
              apply induction
              rw [merged]
              exact mergeRoom_succ left
          | false =>
              rw [doMerge_of_not_mergeable possible]
              exact induction s (room + 1) left

theorem mergeUpTo_zero (s : Impl) (pairs : List (BatchId × BatchId)) :
    mergeUpTo policy 0 s pairs = s := by
  cases pairs <;> rfl

/-- Room for more than the merges due makes no difference. -/
theorem mergeUpTo_min (room : Nat) (s : Impl)
    (pairs : List (BatchId × BatchId)) :
    mergeUpTo policy (min room (mergesDue policy s pairs)) s pairs =
      mergeUpTo policy room s pairs := by
  induction pairs generalizing room s with
  | nil =>
      cases room with
      | zero => rfl
      | succ room => exact mergeUpTo_zero s []
  | cons pair rest induction =>
      cases room with
      | zero => rw [Nat.zero_min]
      | succ room =>
          rw [mergesDue]
          cases possible : s.mergeable policy pair with
          | true =>
              rw [if_pos rfl, Nat.add_min_add_right, mergeUpTo, mergeUpTo,
                possible, if_pos rfl, if_pos rfl]
              exact induction room _
          | false =>
              have rest' := induction (room + 1) s
              rw [if_neg nofun]
              rw [mergeUpTo, possible, if_neg nofun, ← rest']
              cases min (room + 1) (mergesDue policy s rest) with
              | zero => rw [mergeUpTo_zero, mergeUpTo_zero]
              | succ fewer => rw [mergeUpTo, possible, if_neg nofun]

theorem mergeUpTo_alike {s s' : Impl} (same : SameButStats s s') (room : Nat)
    (pairs : List (BatchId × BatchId)) :
    SameButStats (mergeUpTo policy room s pairs)
      (mergeUpTo policy room s' pairs) := by
  induction pairs generalizing room s s' with
  | nil => cases room <;> exact same
  | cons pair rest induction =>
      cases room with
      | zero => exact same
      | succ room =>
          have possible : s'.mergeable policy pair =
              s.mergeable policy pair := by
            obtain ⟨stats, rfl⟩ := same
            rfl
          rw [mergeUpTo, mergeUpTo, possible]
          split
          · apply induction
            obtain ⟨stats, rfl⟩ := same
            unfold doMerge
            dsimp only
            split
            · split
              · exact ⟨_, rfl⟩
              · exact ⟨_, rfl⟩
            · exact ⟨_, rfl⟩
          · exact induction same (room + 1)

end Merges

/-! Every merge leaves its trace in the parents of a batch. -/

section Traces

variable {policy : BatchPolicy} {s : Impl}

theorem mergeUpTo_evolves (wellFormed : WellFormed s) (room : Nat)
    (pairs : List (BatchId × BatchId)) :
    WellFormed (mergeUpTo policy room s pairs) ∧
      Evolves (Closing True) s.batches
        (mergeUpTo policy room s pairs).batches := by
  have rule := closing True
  induction pairs generalizing room s with
  | nil => cases room <;> exact ⟨wellFormed, .refl rule.refl s.batches⟩
  | cons pair rest induction =>
      cases room with
      | zero => exact ⟨wellFormed, .refl rule.refl s.batches⟩
      | succ room =>
          rw [mergeUpTo]
          split
          · next possible =>
              obtain ⟨a, b, first, second, merges, merged⟩ :=
                doMerge_of_mergeable possible
              obtain ⟨keyed, _, states, opened⟩ := canMerge_cases merges
              rw [merged]
              have later := induction
                (wellFormed.mergeInto first second keyed) room
              exact ⟨later.1, rule.chain
                (rule.mergeInto trivial first second states opened) later.2⟩
          · exact induction wellFormed (room + 1)

/-- The batch merged into has another parent. -/
theorem mergeInto_parents {aid : BatchId} {a : BatchRec}
    (first : s.batches[aid]? = some a) (bid : BatchId) (b : BatchRec) :
    ∃ a', (s.mergeInto aid bid a b).batches[aid]? = some a' ∧
      a.parents.length < a'.parents.length := by
  have longer : a.parents.length <
      (a.parents ++ b.parents ++ [bid]).length := by
    simp
  unfold Impl.mergeInto
  dsimp only
  rw [getElem?_modify]
  split
  · next same =>
      subst same
      rw [getElem?_insert, if_pos rfl]
      exact ⟨_, rfl, longer⟩
  · rw [getElem?_insert, if_pos rfl]
    exact ⟨_, rfl, longer⟩

/-- A pass that makes more merges leaves some batch with more parents. -/
theorem mergeUpTo_differs (wellFormed : WellFormed s) {fewer more : Nat}
    {pairs : List (BatchId × BatchId)} (less : fewer < more)
    (due : more ≤ mergesDue policy s pairs) :
    ∃ (aid : BatchId) (a a' : BatchRec),
      (mergeUpTo policy fewer s pairs).batches[aid]? = some a ∧
      (mergeUpTo policy more s pairs).batches[aid]? = some a' ∧
      a.parents.length < a'.parents.length := by
  induction pairs generalizing fewer more s with
  | nil =>
      have none : more = 0 := Nat.le_zero.mp due
      omega
  | cons pair rest induction =>
      obtain ⟨more, rfl⟩ : ∃ n, more = n + 1 := ⟨more - 1, by omega⟩
      rw [mergesDue] at due
      cases possible : s.mergeable policy pair with
      | true =>
          obtain ⟨a, b, first, second, merges, merged⟩ :=
            doMerge_of_mergeable possible
          have formed : WellFormed (s.mergeInto pair.1 pair.2 a b) :=
            wellFormed.mergeInto first second (canMerge_cases merges).1
          rw [possible, if_pos rfl, merged] at due
          rw [mergeUpTo, possible, if_pos rfl, merged]
          cases fewer with
          | zero =>
              obtain ⟨a₁, after, longer⟩ :=
                mergeInto_parents first pair.2 b
              obtain ⟨a', found, kept⟩ :=
                (mergeUpTo_evolves formed more rest).2 pair.1 a₁ after
              rw [mergeUpTo_zero]
              exact ⟨pair.1, a, a', first, found,
                Nat.lt_of_lt_of_le longer kept.parents.length_le⟩
          | succ fewer =>
              rw [mergeUpTo, possible, if_pos rfl, merged]
              exact induction formed (by omega) (by omega)
      | false =>
          rw [possible, if_neg nofun] at due
          rw [mergeUpTo, possible, if_neg nofun]
          have rest' := induction wellFormed less due
          cases fewer with
          | zero =>
              rw [mergeUpTo_zero] at rest' ⊢
              exact rest'
          | succ fewer =>
              rw [mergeUpTo, possible, if_neg nofun]
              exact rest'

theorem sizePass_differs {s s' : Impl} (wellFormed : WellFormed s)
    (wellFormed' : WellFormed s') {aid : BatchId} {a a' : BatchRec}
    (found : s.batches[aid]? = some a) (found' : s'.batches[aid]? = some a')
    (longer : a.parents.length < a'.parents.length) :
    s.sizePass.batches ≠ s'.sizePass.batches := by
  intro same
  obtain ⟨b, at_aid, kept⟩ := sizePass_evolves wellFormed aid a found
  obtain ⟨b', at_aid', kept'⟩ := sizePass_evolves wellFormed' aid a' found'
  rw [same, at_aid'] at at_aid
  cases at_aid
  have equal : a'.parents = a.parents :=
    (kept'.unmerged id).symm.trans (kept.unmerged id)
  rw [equal] at longer
  exact Nat.lt_irrefl _ longer

end Traces

/-! The tick as a whole. -/

section Ticks

variable (policy : BatchPolicy) (s : Impl) (order : List CompatibilityKey)
  (now : TimePoint)

/-- The state in which a tick begins to merge. -/
def beforeMerging : Impl :=
  ((s.expireLocked policy order now).formPass policy order now).sealPass
    policy now

/-- The merges a tick makes when there is room for all. -/
def mergesDueIn : Nat :=
  if policy.merge.enabled then
    mergesDue policy (s.beforeMerging policy order now)
      (s.beforeMerging policy order now).mergePairs
  else 0

/-- A tick that makes at most so many merges. -/
def tickUpTo (room : Nat) : Impl :=
  (if policy.merge.enabled then
    mergeUpTo policy room (s.beforeMerging policy order now)
      (s.beforeMerging policy order now).mergePairs
  else s.beforeMerging policy order now).sizePass

end Ticks

section Ticks

variable {policy : BatchPolicy} {s : Impl} {order : List CompatibilityKey}
  {now : TimePoint}

theorem Agree.beforeMerging {first second : UInt64} {s s' : Impl}
    (agree : Agree first second s s') :
    Agree first second (s.beforeMerging policy order now)
      (s'.beforeMerging policy order now) :=
  ((agree.expireLocked policy order now).formPass policy order now).sealPass
    policy now

theorem mergePass_alike (policy : BatchPolicy) {s s' : Impl}
    (same : SameButStats s s') :
    SameButStats (s'.mergePass policy)
      (if policy.merge.enabled then
        mergeUpTo policy (mergeRoom policy s'.stats) s s.mergePairs
      else s) := by
  have pairs : s'.mergePairs = s.mergePairs := by
    obtain ⟨stats, rfl⟩ := same
    rfl
  unfold mergePass
  split
  · rw [run_mergeNeighbours, pairs]
    exact mergeUpTo_alike same.symm _ _
  · exact same.symm

/-- A tick, from the state or from one with other counters, is the tick that
stops at the room its counter leaves. -/
theorem doTick_alike (policy : BatchPolicy) (order : List CompatibilityKey)
    (now : TimePoint) {s s' : Impl} (same : SameButStats s s') :
    SameButStats (s'.doTick policy order now)
      (s.tickUpTo policy order now (mergeRoom policy s'.stats)) := by
  have agree : Agree s.stats.batchesMerged s'.stats.batchesMerged
      (s.beforeMerging policy order now)
      (s'.beforeMerging policy order now) := same.agree.beforeMerging
  have room : mergeRoom policy (s'.beforeMerging policy order now).stats =
      mergeRoom policy s'.stats := by
    unfold mergeRoom
    rw [agree.second]
  have merged := mergePass_alike policy agree.same
  rw [room] at merged
  exact merged.agree.sizePass.same

theorem tickUpTo_min (room : Nat) :
    s.tickUpTo policy order now
        (min room (s.mergesDueIn policy order now)) =
      s.tickUpTo policy order now room := by
  unfold tickUpTo mergesDueIn
  split
  · rw [mergeUpTo_min]
  · rfl

/-- Ticks that make different numbers of merges end differently. -/
theorem tickUpTo_differs (wellFormed : WellFormed s) {fewer more : Nat}
    (less : fewer < more) (due : more ≤ s.mergesDueIn policy order now) :
    (s.tickUpTo policy order now fewer).batches ≠
      (s.tickUpTo policy order now more).batches := by
  have rule := WellFormed.tickRule policy now
  have before : WellFormed (s.beforeMerging policy order now) :=
    rule.sealPass (rule.formPass (rule.expireLocked wellFormed order) order)
  unfold mergesDueIn at due
  unfold tickUpTo
  split at due
  · next enabled =>
      rw [if_pos enabled, if_pos enabled]
      obtain ⟨aid, a, a', found, found', longer⟩ :=
        mergeUpTo_differs before less due
      exact sizePass_differs (mergeUpTo_evolves before fewer _).1
        (mergeUpTo_evolves before more _).1 found found' longer
  · omega

end Ticks

/-! The other operations. -/

namespace SameButStats

variable {s s' : Impl}

theorem applyMemberOutcome (same : SameButStats s s') (policy : BatchPolicy)
    (now : TimePoint) (mc : MemberCompletion) :
    SameButStats (s.applyMemberOutcome policy now mc)
      (s'.applyMemberOutcome policy now mc) := by
  obtain ⟨stats, rfl⟩ := same
  unfold Impl.applyMemberOutcome
  dsimp only
  split
  · exact ⟨_, rfl⟩
  · split
    · exact ⟨_, rfl⟩
    · split
      · exact ⟨_, rfl⟩
      · unfold applyRetryable
        dsimp only
        split
        · exact ⟨_, rfl⟩
        · exact ⟨_, rfl⟩
      · exact ⟨_, rfl⟩
      · exact ⟨_, rfl⟩
      · exact ⟨_, rfl⟩
      · exact ⟨_, rfl⟩
      · exact ⟨_, rfl⟩
      · exact ⟨_, rfl⟩

theorem completeMember (same : SameButStats s s') (policy : BatchPolicy)
    (now : TimePoint) (mc : MemberCompletion) :
    SameButStats (s.completeMember policy now mc)
      (s'.completeMember policy now mc) := by
  have applied := same.applyMemberOutcome policy now mc
  obtain ⟨stats, rfl⟩ := same
  unfold Impl.completeMember
  dsimp only
  split
  · exact ⟨_, rfl⟩
  · split
    · exact ⟨_, rfl⟩
    · split
      · exact ⟨_, rfl⟩
      · split
        · exact ⟨_, rfl⟩
        · exact applied

theorem failMember (same : SameButStats s s') (policy : BatchPolicy)
    (now : TimePoint) (err : Error) (m : RequestId) :
    SameButStats (s.failMember policy now err m)
      (s'.failMember policy now err m) := by
  have requests : s'.requests = s.requests := by
    obtain ⟨stats, rfl⟩ := same
    rfl
  unfold Impl.failMember
  rw [requests]
  split
  · exact same
  · exact same.applyMemberOutcome policy now _

theorem finishBatch (same : SameButStats s s') (bid : BatchId)
    (worker : WorkerId) (now : TimePoint) :
    SameButStats (s.finishBatch bid worker now)
      (s'.finishBatch bid worker now) := by
  obtain ⟨stats, rfl⟩ := same
  unfold Impl.finishBatch
  dsimp only
  split
  · exact ⟨_, rfl⟩
  · next b _ =>
      have ended : allTerminal { s with stats := stats } b =
          s.allTerminal b := rfl
      rw [ended]
      split
      · exact ⟨_, rfl⟩
      · exact ⟨_, rfl⟩

theorem complete (same : SameButStats s s') (policy : BatchPolicy)
    (comp : BatchCompletion) (now : TimePoint) :
    SameButStats (s.doComplete policy comp now).2
      (s'.doComplete policy comp now).2 := by
  have completed : SameButStats
      (Transition.run (Impl.completeMember policy now) s comp.members)
      (Transition.run (Impl.completeMember policy now) s' comp.members) :=
    Transition.run_related
      (fun _ _ mc held => held.completeMember policy now mc) same comp.members
  have finished := completed.finishBatch comp.batch comp.worker now
  obtain ⟨stats, rfl⟩ := same
  have current : workerCurrent { s with stats := stats } comp.worker
      comp.boot = s.workerCurrent comp.worker comp.boot := rfl
  unfold doComplete
  rw [current]
  dsimp only
  split
  · exact ⟨_, rfl⟩
  · split
    · exact ⟨_, rfl⟩
    · split
      · exact ⟨_, rfl⟩
      · split
        · exact ⟨_, rfl⟩
        · split
          · exact ⟨_, rfl⟩
          · exact finished

theorem startedRun (same : SameButStats s s') (bid : BatchId) (b : BatchRec)
    (worker : WorkerId) (now : TimePoint) :
    SameButStats (s.startedRun bid b worker now)
      (s'.startedRun bid b worker now) := by
  obtain ⟨stats, rfl⟩ := same
  exact ⟨stats, rfl⟩

theorem dispatchAndRun (same : SameButStats s s') (policy : BatchPolicy)
    (bid : BatchId) (executor : Executor) (now : TimePoint) :
    SameButStats (s.doDispatchAndRun policy bid executor now).2
      (s'.doDispatchAndRun policy bid executor now).2 := by
  by_cases sealed' : ∃ b, s.batches[bid]? = some b ∧ b.state = .sealed
  · obtain ⟨b, found, isSealed⟩ := sealed'
    have found' : s'.batches[bid]? = some b := by
      rw [same.batches]
      exact found
    have handed : s'.runExecution bid b executor.capability.worker now =
        s.runExecution bid b executor.capability.worker now := by
      obtain ⟨stats, rfl⟩ := same
      rfl
    have boots : s'.bootOf executor.capability.worker =
        s.bootOf executor.capability.worker := by
      obtain ⟨stats, rfl⟩ := same
      rfl
    have started := same.startedRun bid b executor.capability.worker now
    rw [doDispatchAndRun_of_sealed found isSealed,
      doDispatchAndRun_of_sealed found' isSealed, handed, boots]
    split
    · exact Transition.run_related
        (fun _ _ m held => held.failMember policy now _ m) started b.members
    · exact started.complete policy _ now
  · have idle : ∀ b, s.batches[bid]? = some b → b.state ≠ .sealed :=
      fun b found state => sealed' ⟨b, found, state⟩
    rw [doDispatchAndRun_of_not_sealed idle,
      doDispatchAndRun_of_not_sealed (by rwa [same.batches])]
    exact same

theorem prepareDispatch (same : SameButStats s s') (bid : BatchId)
    (worker : WorkerId) (boot : WorkerBootId) (now : TimePoint) :
    SameButStats (s.prepareDispatch bid worker boot now).2
      (s'.prepareDispatch bid worker boot now).2 := by
  obtain ⟨stats, rfl⟩ := same
  have current : workerCurrent { s with stats := stats } worker boot =
      s.workerCurrent worker boot := rfl
  unfold Impl.prepareDispatch
  rw [current]
  dsimp only
  split
  · exact ⟨_, rfl⟩
  · split
    · exact ⟨_, rfl⟩
    · split
      · exact ⟨_, rfl⟩
      · exact ⟨_, rfl⟩

theorem sealBatch (same : SameButStats s s') (bid : BatchId)
    (reason : SealReason) (now : TimePoint) :
    SameButStats (s.sealBatch bid reason now).2
      (s'.sealBatch bid reason now).2 := by
  have closed := (same.agree.sealing bid reason now).same
  unfold Impl.sealBatch
  rw [same.batches]
  split
  · exact same
  · split
    · exact same
    · exact closed

theorem merge (same : SameButStats s s') (policy : BatchPolicy)
    (a b : BatchId) :
    SameButStats (s.doMerge policy a b).2 (s'.doMerge policy a b).2 := by
  obtain ⟨stats, rfl⟩ := same
  unfold doMerge
  dsimp only
  split
  · split
    · exact ⟨_, rfl⟩
    · exact ⟨_, rfl⟩
  · exact ⟨_, rfl⟩

end SameButStats

theorem Agree.retryQueued {first second : UInt64} {s s' : Impl}
    (agree : Agree first second s s') (policy : BatchPolicy) (id : RequestId)
    (now : TimePoint) :
    (s'.retryQueued policy id now).1 = (s.retryQueued policy id now).1 ∧
      Agree first second (s.retryQueued policy id now).2
        (s'.retryQueued policy id now).2 := by
  obtain ⟨⟨stats, rfl⟩, counted, counted'⟩ := agree
  have number : ∀ r, attemptNumber { s with stats := stats } r =
      s.attemptNumber r := fun _ => rfl
  unfold Impl.retryQueued
  simp only [number]
  split
  · exact ⟨rfl, ⟨_, rfl⟩, counted, counted'⟩
  · split
    · exact ⟨rfl, ⟨_, rfl⟩, counted, counted'⟩
    · split
      · exact ⟨rfl, ⟨_, rfl⟩, counted, counted'⟩
      · exact ⟨rfl, ⟨_, rfl⟩, counted, counted'⟩

/-! The operations that merge on their own account are those that tick. -/

/-- The merges that an operation's tick makes when there is room for all. -/
def mergesDueBy (policy : BatchPolicy) (s : Impl) : Op → Nat
  | .tick order now => s.mergesDueIn policy order now
  | .retry request order now =>
      match s.retryQueued policy request now with
      | (.error _, _) => 0
      | (.ok _, queued) => queued.mergesDueIn policy order now
  | _ => 0

theorem mergesDueBy_retry_of_error {policy : BatchPolicy} {s queued : Impl}
    {request : RequestId} {now : TimePoint} {err : Error}
    (order : List CompatibilityKey)
    (refused : s.retryQueued policy request now = (.error err, queued)) :
    s.mergesDueBy policy (.retry request order now) = 0 := by
  unfold mergesDueBy
  dsimp only
  rw [refused]

theorem mergesDueBy_retry_of_ok {policy : BatchPolicy} {s queued : Impl}
    {request : RequestId} {now : TimePoint} {attempt : AttemptId}
    (order : List CompatibilityKey)
    (accepted : s.retryQueued policy request now = (.ok attempt, queued)) :
    s.mergesDueBy policy (.retry request order now) =
      queued.mergesDueIn policy order now := by
  unfold mergesDueBy
  dsimp only
  rw [accepted]

/-- The counter leaves the tick as much room for merges in one state as in the
other, or in both for all that are due. -/
def SameRoom (policy : BatchPolicy) (s : Impl) (stats : BatchStats)
    (op : Op) : Prop :=
  min (mergeRoom policy s.stats) (s.mergesDueBy policy op) =
    min (mergeRoom policy stats) (s.mergesDueBy policy op)

theorem doTick_same_of_room {policy : BatchPolicy} {s s' : Impl}
    {order : List CompatibilityKey} {now : TimePoint}
    (same : SameButStats s s')
    (room : min (mergeRoom policy s.stats) (s.mergesDueIn policy order now) =
      min (mergeRoom policy s'.stats) (s.mergesDueIn policy order now)) :
    SameButStats (s.doTick policy order now) (s'.doTick policy order now) := by
  have first := doTick_alike policy order now (SameButStats.refl s)
  have second := doTick_alike policy order now same
  rw [← tickUpTo_min, room, tickUpTo_min] at first
  exact first.trans second.symm

theorem room_of_doTick_same {policy : BatchPolicy} {s s' : Impl}
    (wellFormed : WellFormed s) {order : List CompatibilityKey}
    {now : TimePoint} (same : SameButStats s s')
    (ticked : SameButStats (s.doTick policy order now)
      (s'.doTick policy order now)) :
    min (mergeRoom policy s.stats) (s.mergesDueIn policy order now) =
      min (mergeRoom policy s'.stats) (s.mergesDueIn policy order now) := by
  have first := doTick_alike policy order now (SameButStats.refl s)
  have second := doTick_alike policy order now same
  have equal := ((first.symm.trans ticked).trans second).batches
  rw [← tickUpTo_min, ← tickUpTo_min (mergeRoom policy s.stats)] at equal
  rcases Nat.lt_trichotomy
    (min (mergeRoom policy s.stats) (s.mergesDueIn policy order now))
    (min (mergeRoom policy s'.stats) (s.mergesDueIn policy order now)) with
    less | same | more
  · exact absurd equal.symm
      (tickUpTo_differs wellFormed less (Nat.min_le_right _ _))
  · exact same
  · exact absurd equal
      (tickUpTo_differs wellFormed more (Nat.min_le_right _ _))

theorem step_same_of_room {policy : BatchPolicy} {s : Impl}
    {stats : BatchStats} {op : Op} (room : SameRoom policy s stats op) :
    SameButStats (step policy s op)
      (step policy { s with stats := stats } op) := by
  have same : SameButStats s { s with stats := stats } := ⟨stats, rfl⟩
  cases op with
  | submit metadata now => exact (same.agree.submit policy metadata now).same
  | cancel request now => exact (same.agree.cancel policy request now).same
  | complete completion now => exact same.complete policy completion now
  | sealBatch batch reason now => exact same.sealBatch batch reason now
  | split batch => exact (same.agree.split batch).same
  | merge a b => exact same.merge policy a b
  | retry request order now =>
      obtain ⟨answers, queued⟩ := same.agree.retryQueued policy request now
      unfold BatchFabric.step
      dsimp only
      rw [doRetry_eq, doRetry_eq]
      cases outcome : s.retryQueued policy request now with
      | mk answer queued₁ =>
        cases outcome' : ({ s with stats := stats } : Impl).retryQueued policy
          request now with
        | mk answer' queued₂ =>
          rw [outcome, outcome'] at answers queued
          cases answers
          cases answer with
          | error err => exact queued.same
          | ok attempt =>
              unfold SameRoom at room
              rw [mergesDueBy_retry_of_ok order outcome] at room
              apply doTick_same_of_room queued.same
              unfold mergeRoom at room ⊢
              rw [queued.first, queued.second]
              exact room
  | tick order now => exact doTick_same_of_room same room
  | expire order now => exact (same.agree.expireLocked policy order now).same
  | dispatchAndRun batch executor now =>
      exact same.dispatchAndRun policy batch executor now
  | prepareDispatch batch worker boot now =>
      exact same.prepareDispatch batch worker boot now
  | registerWorker worker boot cap => exact ⟨stats, rfl⟩
  | rollEpoch => exact ⟨stats, rfl⟩

theorem room_of_step_same {policy : BatchPolicy} {s : Impl}
    (wellFormed : WellFormed s) {stats : BatchStats} {op : Op}
    (stepped : SameButStats (step policy s op)
      (step policy { s with stats := stats } op)) :
    SameRoom policy s stats op := by
  have same : SameButStats s { s with stats := stats } := ⟨stats, rfl⟩
  have idle : s.mergesDueBy policy op = 0 → SameRoom policy s stats op := by
    intro none
    unfold SameRoom
    rw [none, Nat.min_zero, Nat.min_zero]
  cases op with
  | retry request order now =>
      obtain ⟨answers, queued⟩ := same.agree.retryQueued policy request now
      have formed := wellFormed.retryQueued policy request now
      unfold BatchFabric.step at stepped
      dsimp only at stepped
      rw [doRetry_eq, doRetry_eq] at stepped
      cases outcome : s.retryQueued policy request now with
      | mk answer queued₁ =>
        cases outcome' : ({ s with stats := stats } : Impl).retryQueued policy
          request now with
        | mk answer' queued₂ =>
          rw [outcome, outcome'] at answers queued stepped
          rw [outcome] at formed
          cases answers
          cases answer with
          | error err => exact idle (mergesDueBy_retry_of_error order outcome)
          | ok attempt =>
              have room := room_of_doTick_same formed queued.same stepped
              unfold SameRoom
              rw [mergesDueBy_retry_of_ok order outcome]
              unfold mergeRoom at room ⊢
              rw [queued.first, queued.second] at room
              exact room
  | tick order now => exact room_of_doTick_same wellFormed same stepped
  | _ => exact idle rfl

/-- An operation on two states that differ in their counters leaves states that
differ in their counters, if the counter of merges leaves its tick the same
room in both. In a well-formed state only then. -/
theorem statistics_observational_iff (policy : BatchPolicy) (s : Impl)
    (stats : BatchStats) (op : Op) :
    (SameRoom policy s stats op →
      SameButStats (step policy s op)
        (step policy { s with stats := stats } op)) ∧
    (WellFormed s →
      SameButStats (step policy s op)
        (step policy { s with stats := stats } op) →
      SameRoom policy s stats op) :=
  ⟨step_same_of_room,
    fun wellFormed stepped => room_of_step_same wellFormed stepped⟩

/-- A batch is sealed and another request of its key waits. The tick merges the
two batches when nothing has been merged yet, and leaves them apart when eight
merges have been counted. -/
theorem statistics_not_observational :
    ¬ ∀ (policy : BatchPolicy) (s : Impl) (stats : BatchStats) (op : Op),
      SameButStats (step policy s op)
        (step policy { s with stats := stats } op) := by
  intro observational
  obtain ⟨s, ran⟩ : ∃ s, s = BatchFabric.run {} [
      .submit minimalRequest 0, .tick [] 1, .submit minimalRequest 2] :=
    ⟨_, rfl⟩
  have merged : (step {} s (.tick [] 3)).sealedOrder = [{ value := 1 }] := by
    rw [ran, step_eq_stepKnown .minimal, run_eq_runKnown .minimal]
    decide +kernel
  have apart : (step {} { s with stats := { batchesMerged := 8 } }
      (.tick [] 3)).sealedOrder = [{ value := 1 }, { value := 2 }] := by
    rw [ran, step_eq_stepKnown .minimal, run_eq_runKnown .minimal]
    decide +kernel
  have same := (observational {} s { batchesMerged := 8 }
    (.tick [] 3)).sealedOrder
  rw [merged, apart] at same
  exact absurd same (by decide)

end BatchFabric.Impl
