import BatchFabric.Safety.Membership
import BatchFabric.Safety.Totals
import BatchFabric.Scheduler.KnownKeys

namespace BatchFabric.Impl

open OrderedMap

/-! The loop over the order of sealed batches at the end of a tick. It removes
entries and appends others while it goes on. -/

/-- The loop with its bound read anew at every turn. -/
def sizeLoop : Nat → Nat → Impl → Option Impl
  | 0, i, s => if i < s.sealedOrder.length then none else some s
  | fuel + 1, i, s =>
      if i < s.sealedOrder.length then sizeLoop fuel (i + 1) (splitOversized s i)
      else some s

/-- A sealed batch with more members than the limit. -/
structure TooLarge (s : Impl) (limit : UInt32) (bid : BatchId)
    (b : BatchRec) : Prop where
  found : s.batches[bid]? = some b
  isSealed : b.state = .sealed
  exceeds : limit.toNat < b.members.length

/-- One split of each batch that is too large is enough, and the loop comes to
it: the batch is still to come and no other such batch right before it, its
count has not wrapped below the limit, and no half of it is too large. -/
structure SplitsSuffice (s : Impl) (limit : UInt32)
    (pending : List BatchId) : Prop where
  listed : ∀ bid b, s.TooLarge limit bid b → bid ∈ pending
  counted : ∀ bid b, s.TooLarge limit bid b → limit < b.accum.count
  halves : ∀ bid b, s.TooLarge limit bid b →
    b.members.length ≤ 2 * limit.toNat
  apart : ∀ pair ∈ neighbours pending, ∀ a b,
    s.TooLarge limit pair.1 a → ¬ s.TooLarge limit pair.2 b

/-! Neighbours in a list that loses its head and grows at its end. -/

theorem mem_neighbours_cons {first : BatchId} {rest : List BatchId}
    {pair : BatchId × BatchId} (member : pair ∈ neighbours rest) :
    pair ∈ neighbours (first :: rest) := by
  cases rest with
  | nil => cases member
  | cons second rest => exact List.mem_cons_of_mem _ member

theorem mem_neighbours_concat {v : List BatchId} {last : BatchId}
    {pair : BatchId × BatchId} (member : pair ∈ neighbours v) :
    pair ∈ neighbours (v ++ [last]) := by
  induction v with
  | nil => cases member
  | cons first rest induction =>
      cases rest with
      | nil => cases member
      | cons second rest =>
          rcases List.mem_cons.mp member with rfl | later
          · exact List.mem_cons_self
          · exact List.mem_cons_of_mem _ (induction later)

theorem neighbours_concat_cases {v : List BatchId} {last : BatchId}
    {pair : BatchId × BatchId} (member : pair ∈ neighbours (v ++ [last])) :
    pair ∈ neighbours v ∨ pair.2 = last := by
  induction v with
  | nil => cases member
  | cons first rest induction =>
      cases rest with
      | nil =>
          rcases List.mem_cons.mp member with rfl | later
          · exact .inr rfl
          · cases later
      | cons second rest =>
          rcases List.mem_cons.mp member with rfl | later
          · exact .inl List.mem_cons_self
          · rcases induction later with inside | atEnd
            · exact .inl (List.mem_cons_of_mem _ inside)
            · exact .inr atEnd

/-! One turn of the loop. -/

section Turn

variable {s : Impl} {limit : UInt32}

theorem oversizedAt_eq_some {i : Nat} {bid : BatchId}
    (wellFormed : WellFormed s) (oversized : s.oversizedAt i = some bid) :
    s.sealedOrder[i]? = some bid ∧ s.maxWorkerBatchSize ≠ 0 ∧
      ∃ b, s.batches[bid]? = some b ∧ b.state = .sealed ∧
        s.maxWorkerBatchSize < b.accum.count := by
  unfold oversizedAt at oversized
  cases listed : s.sealedOrder[i]? with
  | none => simp [listed] at oversized
  | some other =>
      simp only [listed] at oversized
      cases found : s.batches[other]? with
      | none => simp [found] at oversized
      | some b =>
          simp only [found] at oversized
          split at oversized
          · next large =>
              have named : b.id = bid := Option.some.inj oversized
              have sameId := (wellFormed.batch other b found).1
              rw [← named, sameId]
              simp only [Bool.and_eq_true, decide_eq_true_eq, bne_iff_ne]
                at large
              exact ⟨rfl, large.1.2, b, found, large.1.1, large.2⟩
          · cases oversized

theorem not_tooLarge_of_oversizedAt {i : Nat} {bid : BatchId} {b : BatchRec}
    (wellFormed : WellFormed s) (small : s.oversizedAt i = none)
    (listed : s.sealedOrder[i]? = some bid) (limited : limit ≠ 0)
    (bound : s.maxWorkerBatchSize = limit) (large : s.TooLarge limit bid b) :
    ¬ limit < b.accum.count := by
  intro counted
  have named := (wellFormed.batch bid b large.found).1
  simp [oversizedAt, listed, large.found, large.isSealed, bound, limited,
    counted] at small

theorem splitChild_splitSealed (s : Impl) (bid : BatchId) (b : BatchRec) :
    ∃ child, (s.splitSealed bid b).batches[
        ({ value := s.nextBatch } : BatchId)]? = some child ∧
      child.state = b.state ∧ child.members = secondHalf b := by
  have different : ({ value := s.nextBatch + 1 } : BatchId) ≠
      { value := s.nextBatch } := by
    intro same
    exact absurd (congrArg (fun bid : BatchId => bid.value) same)
      (Nat.succ_ne_self _)
  unfold splitSealed
  dsimp only
  rw [getElem?_insert, if_neg different, getElem?_insert, if_pos rfl]
  exact ⟨_, rfl, rfl, rfl⟩

theorem tooLarge_splitSealed_cases {bid other : BatchId} {b record : BatchRec}
    (large : (s.splitSealed bid b).TooLarge limit other record) :
    (other ≠ bid ∧ s.TooLarge limit other record) ∨
      limit.toNat < (secondHalf b).length := by
  have first : (firstHalf b).length ≤ (secondHalf b).length := by
    unfold firstHalf secondHalf
    rw [List.length_take, List.length_drop]
    omega
  obtain ⟨_, members, _⟩ | ⟨_, members, _⟩ | ⟨_, superseded⟩ |
    ⟨different, found⟩ := found_splitSealed large.found
  · have exceeds := large.exceeds
    rw [members] at exceeds
    exact .inr (Nat.lt_of_lt_of_le exceeds first)
  · have exceeds := large.exceeds
    rw [members] at exceeds
    exact .inr exceeds
  · rw [large.isSealed] at superseded
    cases superseded
  · exact .inl ⟨different, found, large.isSealed, large.exceeds⟩

theorem TooLarge.splitSealed (wellFormed : WellFormed s) {bid other : BatchId}
    {b record : BatchRec} (large : s.TooLarge limit other record)
    (different : bid ≠ other) :
    (s.splitSealed bid b).TooLarge limit other record where
  found := getElem?_splitSealed_of_old wellFormed different large.found
  isSealed := large.isSealed
  exceeds := large.exceeds

/-- A batch that is not split leaves the loop as it is. -/
theorem splitsSuffice_idle_iff {i : Nat} {head : BatchId}
    {rest : List BatchId} (wellFormed : WellFormed s) (limited : limit ≠ 0)
    (bound : s.maxWorkerBatchSize = limit)
    (pending : s.sealedOrder.drop i = head :: rest)
    (small : s.oversizedAt i = none) :
    SplitsSuffice s limit (head :: rest) ↔ SplitsSuffice s limit rest := by
  have listed : s.sealedOrder[i]? = some head := by
    rw [← List.head?_drop, pending]
    rfl
  constructor
  · intro suffices'
    have notHead : ∀ b, ¬ s.TooLarge limit head b := fun b large =>
      not_tooLarge_of_oversizedAt wellFormed small listed limited bound large
        (suffices'.counted head b large)
    constructor
    · intro bid b large
      rcases List.mem_cons.mp (suffices'.listed bid b large) with rfl | later
      · exact absurd large (notHead b)
      · exact later
    · exact suffices'.counted
    · exact suffices'.halves
    · intro pair member
      exact suffices'.apart pair (mem_neighbours_cons member)
  · intro suffices'
    have notHead : ∀ b, ¬ s.TooLarge limit head b := fun b large =>
      not_tooLarge_of_oversizedAt wellFormed small listed limited bound large
        (suffices'.counted head b large)
    constructor
    · intro bid b large
      exact List.mem_cons_of_mem head (suffices'.listed bid b large)
    · exact suffices'.counted
    · exact suffices'.halves
    · intro pair member a b large
      cases rest with
      | nil => cases member
      | cons second rest =>
          rcases List.mem_cons.mp member with rfl | later
          · exact absurd large (notHead a)
          · exact suffices'.apart pair later a b large

/-- The order after a split at a position of the loop. -/
theorem drop_splitSealed (wellFormed : WellFormed s) {i : Nat}
    {head : BatchId} {rest : List BatchId}
    (pending : s.sealedOrder.drop i = head :: rest) (b : BatchRec) :
    (s.splitSealed head b).sealedOrder.drop (i + 1) =
      (rest ++ [({ value := s.nextBatch + 1 } : BatchId)]).tail := by
  have order : s.sealedOrder = s.sealedOrder.take i ++ head :: rest := by
    rw [← pending, List.take_append_drop]
  have once := wellFormed.orderedOnce
  have within : i ≤ s.sealedOrder.length := by
    have length := congrArg List.length pending
    rw [List.length_drop, List.length_cons] at length
    omega
  have taken : (s.sealedOrder.take i).length = i := by
    rw [List.length_take, Nat.min_eq_left within]
  have absent : head ∉ s.sealedOrder.take i := by
    rw [order] at once
    intro member
    exact (List.nodup_append.mp once).2.2 head member head List.mem_cons_self
      rfl
  show (s.sealedOrder.erase head ++ [_]).drop (i + 1) = _
  rw [order, List.erase_append_right _ absent, List.erase_cons_head,
    List.append_assoc, ← List.drop_drop, List.drop_left' taken,
    List.drop_one]

/-- The batch is not one of those that a split creates. -/
theorem TooLarge.old (wellFormed : WellFormed s) {bid : BatchId}
    {b : BatchRec} (large : s.TooLarge limit bid b) {n : Nat}
    (fresh : s.nextBatch ≤ n) : bid ≠ { value := n } := by
  rintro rfl
  exact absurd (wellFormed.batch _ b large.found).2.2 (Nat.not_lt.mpr fresh)

/-- A split takes care of its batch if neither half is too large, and the
batch after it, which the loop skips, is not. -/
theorem splitsSuffice_split_iff {i : Nat} {head : BatchId}
    {rest : List BatchId} {b : BatchRec} (wellFormed : WellFormed s)
    (pending : s.sealedOrder.drop i = head :: rest)
    (large : s.TooLarge limit head b) (counted : limit < b.accum.count) :
    SplitsSuffice s limit (head :: rest) ↔
      SplitsSuffice (s.splitSealed head b) limit
        (rest ++ [({ value := s.nextBatch + 1 } : BatchId)]).tail := by
  have once : (head :: rest).Nodup := by
    rw [← pending]
    exact wellFormed.orderedOnce.sublist (List.drop_sublist i s.sealedOrder)
  have second : (secondHalf b).length =
      b.members.length - b.members.length / 2 := List.length_drop
  constructor
  · intro whole
    have length := whole.halves head b large
    have small : ¬ limit.toNat < (secondHalf b).length := by omega
    have before : ∀ bid record,
        (s.splitSealed head b).TooLarge limit bid record →
        bid ≠ head ∧ s.TooLarge limit bid record := fun bid record large' =>
      (tooLarge_splitSealed_cases large').resolve_right small
    constructor
    · intro bid record large'
      obtain ⟨different, large'⟩ := before bid record large'
      have later := (List.mem_cons.mp
        (whole.listed bid record large')).resolve_left different
      cases rest with
      | nil => cases later
      | cons next rest =>
          rcases List.mem_cons.mp later with rfl | later
          · exact absurd large' (whole.apart (head, bid) List.mem_cons_self b
              record large)
          · exact List.mem_append_left _ later
    · exact fun bid record large' =>
        whole.counted bid record (before bid record large').2
    · exact fun bid record large' =>
        whole.halves bid record (before bid record large').2
    · intro pair member a c first after
      cases rest with
      | nil => cases member
      | cons next rest =>
          rcases neighbours_concat_cases member with inside | atEnd
          · exact whole.apart pair
              (mem_neighbours_cons (mem_neighbours_cons inside)) a c
              (before _ a first).2 (before _ c after).2
          · exact (before _ c after).2.old wellFormed (Nat.le_succ _) atEnd
  · intro split
    have small : (secondHalf b).length ≤ limit.toNat := by
      by_contra exceeds
      obtain ⟨child, found, state, members⟩ := splitChild_splitSealed s head b
      have listed := split.listed _ child {
        found := found
        isSealed := state.trans large.isSealed
        exceeds := by rw [members]; exact Nat.lt_of_not_le exceeds }
      rcases List.mem_append.mp (List.mem_of_mem_tail listed) with old | first
      · have ordered : ({ value := s.nextBatch } : BatchId) ∈
            s.sealedOrder := by
          apply List.mem_of_mem_drop (i := i)
          rw [pending]
          exact List.mem_cons_of_mem head old
        obtain ⟨record, at_child, _⟩ := wellFormed.ordered _ ordered
        exact absurd (wellFormed.batch _ record at_child).2.2
          (Nat.lt_irrefl _)
      · exact absurd (congrArg (fun bid : BatchId => bid.value)
          (List.mem_singleton.mp first)) (Nat.succ_ne_self _).symm
    have after : ∀ bid record, s.TooLarge limit bid record → bid ≠ head →
        bid ∈ rest.tail := by
      intro bid record large' different
      have listed := split.listed bid record
        (large'.splitSealed wellFormed (Ne.symm different))
      cases rest with
      | nil => cases listed
      | cons next rest =>
          rcases List.mem_append.mp listed with later | first
          · exact later
          · exact absurd (List.mem_singleton.mp first)
              (large'.old wellFormed (Nat.le_succ _))
    have same : ∀ record, s.TooLarge limit head record → record = b := by
      intro record large'
      exact Option.some.inj (large'.found.symm.trans large.found)
    constructor
    · intro bid record large'
      by_cases here : bid = head
      · exact List.mem_cons.mpr (.inl here)
      · exact List.mem_cons_of_mem head
          (List.mem_of_mem_tail (after bid record large' here))
    · intro bid record large'
      by_cases here : bid = head
      · subst here
        rw [same record large']
        exact counted
      · exact split.counted bid record
          (large'.splitSealed wellFormed (Ne.symm here))
    · intro bid record large'
      by_cases here : bid = head
      · subst here
        rw [same record large']
        omega
      · exact split.halves bid record
          (large'.splitSealed wellFormed (Ne.symm here))
    · intro pair member a c first second'
      have distinct := ne_of_mem_neighbours once member
      cases rest with
      | nil => cases member
      | cons next rest =>
          have once' := List.nodup_cons.mp (List.nodup_cons.mp once).2
          have notNext : ∀ record, ¬ s.TooLarge limit next record := by
            intro record large'
            apply once'.1
            apply after next record large'
            rintro rfl
            exact (List.nodup_cons.mp once).1 List.mem_cons_self
          rcases List.mem_cons.mp member with rfl | later
          · exact notNext c second'
          · cases rest with
            | nil => cases later
            | cons third rest =>
                rcases List.mem_cons.mp later with rfl | later
                · exact notNext a first
                · have members := ne_of_mem_neighbours once'.2 later
                  have away : ∀ bid ∈ third :: rest, head ≠ bid := by
                    rintro bid listed rfl
                    exact (List.nodup_cons.mp once).1
                      (List.mem_cons_of_mem next listed)
                  exact split.apart pair (mem_neighbours_concat later) a c
                    (first.splitSealed wellFormed (away _ members.2.1))
                    (second'.splitSealed wellFormed (away _ members.2.2))

end Turn

/-! The whole loop. -/

section Loop

variable {s : Impl}

theorem splitOversized_split {i : Nat} {bid : BatchId}
    (wellFormed : WellFormed s) (oversized : s.oversizedAt i = some bid) :
    ∃ b, s.batches[bid]? = some b ∧ b.state = .sealed ∧
      s.maxWorkerBatchSize < b.accum.count ∧
      (splitOversized s i = s.splitSealed bid b ∨
        (splitOversized s i = s ∧ splittable b = false)) := by
  obtain ⟨_, _, b, found, isSealed, counted⟩ :=
    oversizedAt_eq_some wellFormed oversized
  refine ⟨b, found, isSealed, counted, ?_⟩
  unfold splitOversized doSplit
  rw [oversized]
  dsimp only
  rw [found]
  dsimp only
  cases possible : splittable b with
  | false => exact .inr ⟨rfl, rfl⟩
  | true => exact .inl (by simp [isSealed])

theorem length_splitOversized (wellFormed : WellFormed s) (i : Nat) :
    (splitOversized s i).sealedOrder.length = s.sealedOrder.length := by
  obtain unchanged | ⟨bid, b, _, _, _, oversized, taken⟩ :=
    splitOversized_cases wellFormed i
  · rw [unchanged]
  · obtain ⟨listed, _⟩ := oversizedAt_eq_some wellFormed oversized
    have member := List.mem_of_getElem? listed
    rw [taken]
    show (s.sealedOrder.erase bid ++ [_]).length = _
    rw [List.length_append, List.length_erase_of_mem member,
      List.length_singleton]
    exact Nat.sub_add_cancel (List.length_pos_of_mem member)

theorem wellFormed_splitOversized (wellFormed : WellFormed s) (i : Nat) :
    WellFormed (splitOversized s i) := by
  obtain unchanged | ⟨bid, b, found, _, _, _, taken⟩ :=
    splitOversized_cases wellFormed i
  · rw [unchanged]
    exact wellFormed
  · rw [taken]
    exact wellFormed.splitSealed found

/-- The loop ends when it has made as many turns as there are entries, no
matter how many more it is allowed. -/
theorem sizeLoop_eq (wellFormed : WellFormed s) {i turns : Nat}
    (length : s.sealedOrder.length = i + turns) {fuel : Nat}
    (enough : turns ≤ fuel) :
    sizeLoop fuel i s =
      some (Transition.run splitOversized s (List.range' i turns)) := by
  induction turns generalizing s i fuel with
  | zero =>
      have done : ¬ i < s.sealedOrder.length := by omega
      cases fuel with
      | zero => simp [sizeLoop, done]
      | succ fuel => simp [sizeLoop, done]
  | succ turns induction =>
      obtain ⟨fuel, rfl⟩ := Nat.exists_eq_succ_of_ne_zero
        (Nat.ne_of_gt (Nat.lt_of_lt_of_le (Nat.succ_pos turns) enough))
      have going : i < s.sealedOrder.length := by omega
      have length' : (splitOversized s i).sealedOrder.length =
          i + 1 + turns := by
        rw [length_splitOversized wellFormed i]
        omega
      rw [sizeLoop, if_pos going, List.range'_succ, Transition.run_cons]
      exact induction (wellFormed_splitOversized wellFormed i) length'
        (Nat.le_of_succ_le_succ enough)

theorem sizeLoop_eq_sizePass (wellFormed : WellFormed s) {fuel : Nat}
    (enough : s.sealedOrder.length ≤ fuel) :
    sizeLoop fuel 0 s = some s.sizePass := by
  unfold sizePass
  rw [List.range_eq_range']
  exact sizeLoop_eq wellFormed (Nat.zero_add _).symm enough

theorem maxWorkerBatchSize_splitOversized (s : Impl) (i : Nat) :
    (splitOversized s i).maxWorkerBatchSize = s.maxWorkerBatchSize := by
  unfold splitOversized
  split
  · rfl
  · next bid _ =>
      obtain unchanged | ⟨b, _, _, ⟨_, taken⟩ | ⟨_, taken⟩⟩ :=
        doSplit_cases s bid
      · rw [unchanged]
      · rw [taken]
        rfl
      · rw [taken]
        rfl

theorem totalled_splitOversized (wellFormed : WellFormed s)
    (totalled : s.Totalled) (i : Nat) : (splitOversized s i).Totalled := by
  obtain unchanged | ⟨bid, b, found, _, possible, _, taken⟩ :=
    splitOversized_cases wellFormed i
  · rw [unchanged]
    exact totalled
  · rw [taken]
    exact (totalsRule {}).splitSealed totalled found possible

/-- What is left to do after a turn suffices exactly if it did before. -/
theorem splitsSuffice_turn_iff {limit : UInt32} (wellFormed : WellFormed s)
    (totalled : s.Totalled) (limited : limit ≠ 0)
    (bound : s.maxWorkerBatchSize = limit) {i : Nat}
    (going : i < s.sealedOrder.length) :
    SplitsSuffice s limit (s.sealedOrder.drop i) ↔
      SplitsSuffice (splitOversized s i) limit
        ((splitOversized s i).sealedOrder.drop (i + 1)) := by
  have pending := List.drop_eq_getElem_cons going
  cases oversized : s.oversizedAt i with
  | none =>
      have unchanged : splitOversized s i = s := by
        unfold splitOversized
        rw [oversized]
      rw [unchanged, pending]
      exact splitsSuffice_idle_iff wellFormed limited bound pending oversized
  | some bid =>
      have listed := (oversizedAt_eq_some wellFormed oversized).1
      rw [List.getElem?_eq_getElem going] at listed
      rw [Option.some.inj listed] at pending
      obtain ⟨b, found, isSealed, counted, outcome⟩ :=
        splitOversized_split wellFormed oversized
      rw [bound] at counted
      have count : b.accum.count.toNat ≤ b.members.length := by
        rw [totalled bid b found]
        exact count_accumOf_le b.members
      have large : s.TooLarge limit bid b :=
        ⟨found, isSealed, Nat.lt_of_lt_of_le
          (UInt32.lt_iff_toNat_lt.mp counted) count⟩
      rcases outcome with taken | ⟨_, alone⟩
      · rw [taken, drop_splitSealed wellFormed pending, pending]
        exact splitsSuffice_split_iff wellFormed pending large counted
      · have positive : limit.toNat ≠ 0 := by
          intro zero
          exact limited (UInt32.toNat_inj.mp zero)
        have exceeds := large.exceeds
        have half : b.members.length / 2 ≠ 0 := by omega
        simp [splittable, isSealed, isBatchTerminal, half] at alone

theorem splitsSuffice_run_iff {limit : UInt32} (wellFormed : WellFormed s)
    (totalled : s.Totalled) (limited : limit ≠ 0)
    (bound : s.maxWorkerBatchSize = limit) {i turns : Nat}
    (length : s.sealedOrder.length = i + turns) :
    SplitsSuffice s limit (s.sealedOrder.drop i) ↔
      SplitsSuffice
        (Transition.run splitOversized s (List.range' i turns)) limit [] := by
  induction turns generalizing s i with
  | zero =>
      have past : s.sealedOrder.drop i = [] :=
        List.drop_eq_nil_of_le (Nat.le_of_eq length)
      rw [past]
      rfl
  | succ turns induction =>
      have going : i < s.sealedOrder.length := by omega
      rw [splitsSuffice_turn_iff wellFormed totalled limited bound going,
        List.range'_succ, Transition.run_cons]
      apply induction (wellFormed_splitOversized wellFormed i)
        (totalled_splitOversized wellFormed totalled i)
        ((maxWorkerBatchSize_splitOversized s i).trans bound)
      rw [length_splitOversized wellFormed i]
      omega

/-- When nothing is to come, no batch may be too large. -/
theorem splitsSuffice_nil_iff {limit : UInt32} :
    SplitsSuffice s limit [] ↔
      Everywhere s.batches fun _ b =>
        b.state = .sealed → b.members.length ≤ limit.toNat := by
  constructor
  · intro suffices' bid b found isSealed
    by_contra exceeds
    exact absurd (suffices'.listed bid b
      ⟨found, isSealed, Nat.lt_of_not_le exceeds⟩) List.not_mem_nil
  · intro within
    have none : ∀ bid b, ¬ s.TooLarge limit bid b := fun bid b large =>
      Nat.not_le.mpr large.exceeds (within bid b large.found large.isSealed)
    exact ⟨fun bid b large => absurd large (none bid b),
      fun bid b large => absurd large (none bid b),
      fun bid b large => absurd large (none bid b),
      fun _ _ a _ large => absurd large (none _ a)⟩

theorem maxWorkerBatchSize_sizePass (s : Impl) :
    s.sizePass.maxWorkerBatchSize = s.maxWorkerBatchSize :=
  Transition.run_invariant (fun current : Impl =>
      current.maxWorkerBatchSize = s.maxWorkerBatchSize)
    (fun current i _ same =>
      (maxWorkerBatchSize_splitOversized current i).trans same) rfl

theorem sizePass_within_iff (wellFormed : WellFormed s)
    (totalled : s.Totalled) (limited : s.maxWorkerBatchSize ≠ 0) :
    SplitsSuffice s s.maxWorkerBatchSize s.sealedOrder ↔
      Everywhere s.sizePass.batches fun _ b => b.state = .sealed →
        b.members.length ≤ s.sizePass.maxWorkerBatchSize.toNat := by
  rw [maxWorkerBatchSize_sizePass, ← splitsSuffice_nil_iff]
  unfold sizePass
  rw [List.range_eq_range']
  exact splitsSuffice_run_iff wellFormed totalled limited rfl
    (Nat.zero_add _).symm

end Loop

/-- The loop at the end of a tick ends, with the state the tick leaves, and
every sealed batch is then of a size that all workers take. -/
structure SplitsToSize (policy : BatchPolicy) (s : Impl)
    (order : List CompatibilityKey) (now : TimePoint) : Prop where
  terminates : ∃ turns, ∀ fuel ≥ turns,
    sizeLoop fuel 0 (s.tickUntilSizePass policy order now) =
      some (s.tick policy order now).2
  bounded : (s.tick policy order now).2.maxWorkerBatchSize ≠ 0 →
    Everywhere (s.tick policy order now).2.batches fun _ b =>
      b.state = .sealed → b.members.length ≤
        (s.tick policy order now).2.maxWorkerBatchSize.toNat

theorem splitsToSize_iff {policy : BatchPolicy} {s : Impl}
    (reachable : Reachable policy s) (order : List CompatibilityKey)
    (now : TimePoint) :
    SplitsToSize policy s order now ↔
      ∀ entry, entry = s.tickUntilSizePass policy order now →
        entry.maxWorkerBatchSize ≠ 0 →
          SplitsSuffice entry entry.maxWorkerBatchSize entry.sealedOrder := by
  have ticked := (totalsRule policy).tickUntilSizePass
    (wellFormed_of_reachable reachable) (totalled_of_reachable reachable)
    order now (allowsMergePass_always policy _)
  have ends : (s.tick policy order now).2 =
      (s.tickUntilSizePass policy order now).sizePass := rfl
  rw [forall_eq]
  constructor
  · rintro ⟨_, bounded⟩ limited
    rw [ends] at bounded
    generalize s.tickUntilSizePass policy order now = entry
      at ticked bounded limited ⊢
    apply (sizePass_within_iff ticked.1 ticked.2 limited).mpr
    apply bounded
    rw [maxWorkerBatchSize_sizePass]
    exact limited
  · intro enough
    constructor
    · rw [ends]
      exact ⟨_, fun fuel turns => sizeLoop_eq_sizePass ticked.1 turns⟩
    · rw [ends]
      generalize s.tickUntilSizePass policy order now = entry
        at ticked enough ⊢
      intro limited
      rw [maxWorkerBatchSize_sizePass] at limited
      exact (sizePass_within_iff ticked.1 ticked.2 limited).mp (enough limited)

/-- A worker takes one request at a time, and a batch of two is halved. -/
theorem splitsToSize_of_two :
    ∃ s : Impl, (s.tickUntilSizePass {} [] 1).maxWorkerBatchSize = 1 ∧
      ¬ SplitsSuffice (s.tickUntilSizePass {} [] 1) 1 [] ∧
      SplitsToSize {} s [] 1 := by
  obtain ⟨s, ran⟩ : ∃ s, s = BatchFabric.run {}
      [.registerWorker { value := 1 } .null { maxBatchSize := 1 },
        .submit minimalRequest 0, .submit minimalRequest 0] := ⟨_, rfl⟩
  have reachable : Reachable {} s := ran ▸ reachable_run {} _
  have views : ∃ entry, entry = s.tickUntilSizePass {} [] 1 ∧
      entry.maxWorkerBatchSize = 1 ∧
      entry.sealedOrder = [{ value := 1 }] ∧
      (Everywhere entry.batches fun bid b => bid = { value := 1 } ∧
        b.state = .sealed ∧ b.members.length = 2 ∧ b.accum.count = 2) ∧
      (entry.batches[({ value := 1 } : BatchId)]?).isSome = true := by
    refine ⟨_, rfl, ?_⟩
    rw [ran, run_eq_runKnown .minimal]
    decide +kernel
  obtain ⟨entry, reached, bound, order, batches, present⟩ := views
  refine ⟨s, ?_⟩
  rw [← reached]
  refine ⟨bound, ?_, (splitsToSize_iff reachable [] 1).mpr ?_⟩
  · intro suffices'
    obtain ⟨b, found⟩ := Option.isSome_iff_exists.mp present
    obtain ⟨_, isSealed, length, _⟩ := batches _ b found
    exact absurd (suffices'.listed _ b ⟨found, isSealed, by
      rw [length]
      decide⟩) List.not_mem_nil
  · intro current again _
    rw [again.trans reached.symm, bound, order]
    constructor
    · intro bid b large
      rw [(batches bid b large.found).1]
      exact List.mem_singleton_self _
    · intro bid b large
      rw [(batches bid b large.found).2.2.2]
      decide
    · intro bid b large
      rw [(batches bid b large.found).2.2.1]
      decide
    · exact nofun

/-- A batch of three leaves a second half of two, which is not put into the
order. -/
theorem not_splitsToSize_of_three :
    ¬ ∀ (policy : BatchPolicy) (s : Impl) (order : List CompatibilityKey)
      (now : TimePoint), Reachable policy s →
      SplitsToSize policy s order now := by
  intro splits
  obtain ⟨s, ran⟩ : ∃ s, s = BatchFabric.run {}
      [.registerWorker { value := 1 } .null { maxBatchSize := 1 },
        .submit minimalRequest 0, .submit minimalRequest 0,
        .submit minimalRequest 0] := ⟨_, rfl⟩
  have reachable : Reachable {} s := ran ▸ reachable_run {} _
  have views : (s.tick {} [] 1).2.maxWorkerBatchSize = 1 ∧
      ((s.tick {} [] 1).2.batches[({ value := 2 } : BatchId)]?).any
        (fun b => b.state == .sealed && b.members.length == 2) = true := by
    rw [ran, run_eq_runKnown .minimal]
    decide +kernel
  have bounded := (splits {} s [] 1 reachable).bounded
  generalize (s.tick {} [] 1).2 = ticked at views bounded
  obtain ⟨bound, view⟩ := views
  obtain ⟨b, found, seen⟩ := (Option.any_eq_true _ _).mp view
  obtain ⟨state, length⟩ := Bool.and_eq_true_iff.mp seen
  rw [bound] at bounded
  have within := bounded (by decide) _ b found (eq_of_beq state)
  rw [eq_of_beq length] at within
  exact absurd within (by decide)

end BatchFabric.Impl
