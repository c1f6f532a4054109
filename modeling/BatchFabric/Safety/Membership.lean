import BatchFabric.Safety.Reachable

namespace BatchFabric.Impl

open OrderedMap

/-! Which batches list a request, and that at most one does. -/

section Found

variable {s : Impl} {bid x : BatchId} {b found' : BatchRec}

/-- The batches found after a sealed batch is split. -/
theorem found_splitSealed
    (found : (s.splitSealed bid b).batches[x]? = some found') :
    (x = { value := s.nextBatch + 1 } ∧ found'.members = firstHalf b ∧
        found'.state = .sealed) ∨
      (x = { value := s.nextBatch } ∧ found'.members = secondHalf b ∧
        found'.state = b.state) ∨
      (x = bid ∧ found'.state = .superseded) ∨
      (x ≠ bid ∧ s.batches[x]? = some found') := by
  unfold splitSealed at found
  dsimp only at found
  rw [getElem?_insert] at found
  split at found
  · next same =>
      cases found
      exact .inl ⟨same.symm, rfl, rfl⟩
  · rw [getElem?_insert] at found
    split at found
    · next same =>
        cases found
        exact .inr (.inl ⟨same.symm, rfl, rfl⟩)
    · rw [getElem?_insert] at found
      split at found
      · next same =>
          cases found
          exact .inr (.inr (.inl ⟨same.symm, rfl⟩))
      · next different =>
          exact .inr (.inr (.inr ⟨Ne.symm different, found⟩))

/-- The two batches that a sealed one becomes. -/
theorem halves_splitSealed (s : Impl) (bid : BatchId) (b : BatchRec) :
    (∃ first, (s.splitSealed bid b).batches[
        ({ value := s.nextBatch + 1 } : BatchId)]? = some first ∧
      first.state = .sealed ∧ first.members = firstHalf b) ∧
    ∃ second, (s.splitSealed bid b).batches[
        ({ value := s.nextBatch } : BatchId)]? = some second ∧
      second.state = b.state ∧ second.members = secondHalf b := by
  unfold splitSealed
  dsimp only
  constructor
  · rw [getElem?_insert, if_pos rfl]
    exact ⟨_, rfl, rfl, rfl⟩
  · rw [getElem?_insert, if_neg (by simp), getElem?_insert, if_pos rfl]
    exact ⟨_, rfl, rfl, rfl⟩

theorem getElem?_splitSealed_of_old (wellFormed : WellFormed s)
    {other : BatchId} {record : BatchRec} (different : bid ≠ other)
    (found : s.batches[other]? = some record) :
    (s.splitSealed bid b).batches[other]? = some record := by
  have known := (wellFormed.batch other record found).2.2
  have old : ∀ n, s.nextBatch ≤ n → ({ value := n } : BatchId) ≠ other := by
    rintro n fresh rfl
    exact absurd known (Nat.not_lt.mpr fresh)
  unfold splitSealed
  dsimp only
  rw [getElem?_insert, if_neg (old _ (Nat.le_succ _)), getElem?_insert,
    if_neg (old _ (Nat.le_refl _)), getElem?_insert, if_neg different]
  exact found

theorem found_splitOpen
    (found : (s.splitOpen bid b).batches[x]? = some found') :
    (x = { value := s.nextBatch } ∧ found'.members = secondHalf b ∧
        found'.state = b.state) ∨
      (x = bid ∧ found'.members = firstHalf b ∧ found'.state = b.state) ∨
      (x ≠ bid ∧ s.batches[x]? = some found') := by
  unfold splitOpen at found
  dsimp only at found
  rw [getElem?_insert] at found
  split at found
  · next same =>
      cases found
      exact .inl ⟨same.symm, rfl, rfl⟩
  · rw [getElem?_insert] at found
    split at found
    · next same =>
        cases found
        exact .inr (.inl ⟨same.symm, rfl, rfl⟩)
    · next different =>
        exact .inr (.inr ⟨Ne.symm different, found⟩)

theorem found_mergeInto {aid : BatchId} {a : BatchRec}
    (found : (s.mergeInto aid bid a b).batches[x]? = some found') :
    (x = bid ∧ found'.state = .superseded) ∨
      (x = aid ∧ aid ≠ bid ∧ found'.members = a.members ++ b.members ∧
        found'.state = a.state) ∨
      (x ≠ aid ∧ x ≠ bid ∧ s.batches[x]? = some found') := by
  unfold mergeInto at found
  dsimp only at found
  obtain ⟨before, at_x, ⟨same, changed⟩ | ⟨different, unchanged⟩⟩ :=
    getElem?_modify_cases found
  · rw [changed]
    exact .inl ⟨same.symm, rfl⟩
  · subst unchanged
    rw [getElem?_insert] at at_x
    split at at_x
    · next same =>
        subst same
        cases at_x
        exact .inr (.inl ⟨rfl, Ne.symm different, rfl, rfl⟩)
    · next other =>
        exact .inr (.inr ⟨Ne.symm other, Ne.symm different, at_x⟩)

theorem found_place {key : CompatibilityKey} {pick : RequestId}
    {r : RequestRec} (request : s.requests[pick]? = some r)
    (found : (s.place bid key pick).batches[x]? = some found') :
    (x = bid ∧ ∃ before, s.batches[bid]? = some before ∧
        found'.members = before.members ++ [pick] ∧
        found'.state = before.state) ∨
      (x ≠ bid ∧ s.batches[x]? = some found') := by
  rw [place_eq request] at found
  obtain ⟨before, at_x, ⟨rfl, rfl⟩ | ⟨different, rfl⟩⟩ :=
    getElem?_modify_cases found
  · exact .inl ⟨rfl, before, at_x, rfl, rfl⟩
  · exact .inr ⟨Ne.symm different, at_x⟩

theorem found_openForming {key : CompatibilityKey} {now : TimePoint}
    (found : (s.openForming key now).batches[x]? = some found') :
    (x = { value := s.nextBatch } ∧ found' = s.newForming key now) ∨
      s.batches[x]? = some found' := by
  unfold openForming at found
  dsimp only at found
  rw [getElem?_insert] at found
  split at found
  · next same =>
      cases found
      exact .inl ⟨same.symm, rfl⟩
  · exact .inr found

end Found

theorem shrunkFrom_doCancel (policy : BatchPolicy) (s : Impl)
    (id : RequestId) (now : TimePoint) :
    Everywhere (s.doCancel policy id now).2.batches (ShrunkFrom s) := by
  obtain unchanged | ⟨r, _, _, ⟨_, outside⟩ |
      ⟨_, b, _, ⟨_, forming⟩ | ⟨_, later⟩⟩⟩ := doCancel_cases policy s id now
  · rw [unchanged]
    exact everywhere_shrunkFrom s
  · rw [outside]
    exact everywhere_shrunkFrom s
  · rw [forming]
    exact (InPlace.cancelForming policy s id r now).shrinking
  · rw [later]
    exact (InPlace.cancelAfterSeal s id r now).shrinking

theorem batches_expireWaiting (now : TimePoint) (s : Impl) (id : RequestId) :
    (expireWaiting now s id).batches = s.batches := by
  obtain unchanged | ⟨r, _, ⟨_, removed⟩ | ⟨_, stats, expired⟩⟩ :=
    expireWaiting_cases now s id
  · rw [unchanged]
  · rw [removed]
  · rw [expired]

theorem batches_doSubmit (policy : BatchPolicy) (s : Impl)
    (metadata : RequestMetadata) (now : TimePoint) :
    (s.doSubmit policy metadata now).2.batches = s.batches := by
  obtain ⟨stats, unrecorded⟩ | ⟨_, ⟨_, _, _, _, taken⟩ | ⟨_, _, taken⟩⟩ :=
    doSubmit_cases policy s metadata now
  · rw [unrecorded]
  · rw [taken]
    rfl
  · rw [taken]
    rfl

/-- The batch lists the request and has come no further than `last`. -/
def Lists (s : Impl) (last : Nat) (bid : BatchId) (m : RequestId) : Prop :=
  ∃ b, s.batches[bid]? = some b ∧ b.state.stage ≤ last ∧ m ∈ b.members

/-- Among the batches up to a stage, no member occurs twice. -/
structure ListedOnce (last : Nat) (s : Impl) : Prop where
  once : Everywhere s.batches fun _ b =>
    b.state.stage ≤ last → b.members.Nodup
  apart : ∀ m bid bid', s.Lists last bid m → s.Lists last bid' m → bid = bid'

def Unlisted (s : Impl) (last : Nat) (m : RequestId) : Prop :=
  Everywhere s.batches fun _ b => b.state.stage ≤ last → m ∉ b.members

instance (s : Impl) (last : Nat) (m : RequestId) :
    Decidable (s.Unlisted last m) :=
  inferInstanceAs (Decidable (Everywhere _ _))

theorem unlisted_iff {s : Impl} {last : Nat} {m : RequestId} :
    s.Unlisted last m ↔ ∀ bid, ¬ s.Lists last bid m := by
  constructor
  · rintro unlisted bid ⟨b, found, reached, member⟩
    exact unlisted bid b found reached member
  · intro unlisted bid b found reached member
    exact unlisted bid ⟨b, found, reached, member⟩

theorem ListedOnce.fresh (last : Nat) : ListedOnce last fresh where
  once := everywhere_empty
  apart := by
    rintro m bid bid' ⟨b, found, _⟩
    exact absurd found (by simp [Impl.fresh])

theorem Lists.of_shrunk {s s' : Impl}
    (shrinks : Everywhere s'.batches (ShrunkFrom s)) {last : Nat}
    {bid : BatchId} {m : RequestId} (lists : s'.Lists last bid m) :
    s.Lists last bid m := by
  obtain ⟨b', found', reached, member⟩ := lists
  obtain ⟨b, found, sublist, advanced⟩ := shrinks bid b' found'
  exact ⟨b, found, Nat.le_trans advanced reached, sublist.subset member⟩

theorem Unlisted.of_lists {s s' : Impl} {last : Nat} {m : RequestId}
    (unlisted : s.Unlisted last m)
    (lists : ∀ bid, s'.Lists last bid m → ∃ bid', s.Lists last bid' m) :
    s'.Unlisted last m := by
  rw [unlisted_iff] at unlisted ⊢
  intro bid listed
  obtain ⟨bid', before⟩ := lists bid listed
  exact unlisted bid' before

namespace ListedOnce

variable {last : Nat} {s s' : Impl}

theorem shrink (listed : ListedOnce last s)
    (shrinks : Everywhere s'.batches (ShrunkFrom s)) :
    ListedOnce last s' where
  once := by
    intro bid b' found' reached
    obtain ⟨b, found, sublist, advanced⟩ := shrinks bid b' found'
    exact (listed.once bid b found (Nat.le_trans advanced reached)).sublist
      sublist
  apart m bid bid' left right :=
    listed.apart m bid bid' (left.of_shrunk shrinks) (right.of_shrunk shrinks)

theorem of_batches (listed : ListedOnce last s)
    (same : s'.batches = s.batches) : ListedOnce last s' := by
  apply listed.shrink
  rw [same]
  exact everywhere_shrunkFrom s

theorem lists_openForming {key : CompatibilityKey} {now : TimePoint}
    {bid : BatchId} {m : RequestId}
    (lists : (s.openForming key now).Lists last bid m) :
    s.Lists last bid m := by
  obtain ⟨b, found, reached, member⟩ := lists
  rcases found_openForming found with ⟨_, rfl⟩ | before
  · cases member
  · exact ⟨b, before, reached, member⟩

theorem openForming (listed : ListedOnce last s) (key : CompatibilityKey)
    (now : TimePoint) : ListedOnce last (s.openForming key now) where
  once := by
    intro bid b found
    rcases found_openForming found with ⟨_, rfl⟩ | before
    · exact fun _ => List.nodup_nil
    · exact listed.once bid b before
  apart m bid bid' left right :=
    listed.apart m bid bid' (lists_openForming left) (lists_openForming right)

theorem lists_place {bid x : BatchId} {key : CompatibilityKey}
    {pick m : RequestId} {r : RequestRec}
    (request : s.requests[pick]? = some r)
    (lists : (s.place bid key pick).Lists last x m) :
    (x = bid ∧ m = pick) ∨ s.Lists last x m := by
  obtain ⟨b', found', reached, member⟩ := lists
  rcases found_place request found' with
    ⟨rfl, b, found, members, state⟩ | ⟨_, before⟩
  · rw [members] at member
    rcases List.mem_append.mp member with old | new
    · exact .inr ⟨b, found, state ▸ reached, old⟩
    · exact .inl ⟨rfl, List.mem_singleton.mp new⟩
  · exact .inr ⟨b', before, reached, member⟩

theorem place (listed : ListedOnce last s) {bid : BatchId}
    {key : CompatibilityKey} {pick : RequestId} {r : RequestRec}
    (request : s.requests[pick]? = some r)
    (unlisted : s.Unlisted last pick) :
    ListedOnce last (s.place bid key pick) where
  once := by
    intro x b' found' reached
    rcases found_place request found' with
      ⟨rfl, b, found, members, state⟩ | ⟨_, before⟩
    · rw [state] at reached
      rw [members, List.nodup_append]
      refine ⟨listed.once x b found reached, List.nodup_singleton pick, ?_⟩
      intro m member other new same
      rw [List.mem_singleton.mp new] at same
      subst same
      exact unlisted x b found reached member
    · exact listed.once x b' before reached
  apart := by
    intro m x y left right
    rw [unlisted_iff] at unlisted
    rcases lists_place request left with ⟨rfl, rfl⟩ | before
    · rcases lists_place request right with ⟨rfl, _⟩ | after
      · rfl
      · exact absurd after (unlisted y)
    · rcases lists_place request right with ⟨_, rfl⟩ | after
      · exact absurd before (unlisted x)
      · exact listed.apart m x y before after

/-- A batch gives its members to two others, half each. -/
theorem halves (listed : ListedOnce last s) {bid : BatchId} {b : BatchRec}
    (found : s.batches[bid]? = some b) (reached : b.state.stage ≤ last)
    (keeper child : BatchId)
    (batches : ∀ x b', s'.batches[x]? = some b' → b'.state.stage ≤ last →
      (x = keeper ∧ b'.members = firstHalf b) ∨
        (x = child ∧ b'.members = secondHalf b) ∨
        (x ≠ bid ∧ s.batches[x]? = some b')) : ListedOnce last s' := by
  have nodup := listed.once bid b found reached
  have disjoint : List.Disjoint (firstHalf b) (secondHalf b) :=
    List.disjoint_take_drop nodup (Nat.le_refl _)
  have inherits : ∀ x m, s'.Lists last x m →
      (x = keeper ∧ m ∈ firstHalf b) ∨ (x = child ∧ m ∈ secondHalf b) ∨
        (m ∉ b.members ∧ s.Lists last x m) := by
    rintro x m ⟨b', found', reached', member⟩
    rcases batches x b' found' reached' with
      ⟨same, members⟩ | ⟨same, members⟩ | ⟨different, before⟩
    · exact .inl ⟨same, members ▸ member⟩
    · exact .inr (.inl ⟨same, members ▸ member⟩)
    · have lists : s.Lists last x m := ⟨b', before, reached', member⟩
      refine .inr (.inr ⟨?_, lists⟩)
      intro shared
      exact different (listed.apart m x bid lists
        ⟨b, found, reached, shared⟩)
  constructor
  · intro x b' found' reached'
    rcases batches x b' found' reached' with
      ⟨_, members⟩ | ⟨_, members⟩ | ⟨_, before⟩
    · rw [members]
      exact nodup.sublist (List.take_sublist _ _)
    · rw [members]
      exact nodup.sublist (List.drop_sublist _ _)
    · exact listed.once x b' before reached'
  · intro m x y left right
    rcases inherits x m left with ⟨rfl, first⟩ | ⟨rfl, second⟩ | ⟨out, before⟩
    · rcases inherits y m right with ⟨rfl, _⟩ | ⟨_, second⟩ | ⟨out, _⟩
      · rfl
      · exact absurd second (disjoint first)
      · exact absurd (mem_halves (.inl first)) out
    · rcases inherits y m right with ⟨_, first⟩ | ⟨rfl, _⟩ | ⟨out, _⟩
      · exact absurd second (disjoint first)
      · rfl
      · exact absurd (mem_halves (.inr second)) out
    · rcases inherits y m right with ⟨_, first⟩ | ⟨_, second⟩ | ⟨_, after⟩
      · exact absurd (mem_halves (.inl first)) out
      · exact absurd (mem_halves (.inr second)) out
      · exact listed.apart m x y before after

theorem not_reached_of_superseded (unended : last < 5) {b : BatchRec}
    (state : b.state = .superseded) : ¬ b.state.stage ≤ last := by
  rw [state]
  exact Nat.not_le.mpr unended

theorem splitSealed (listed : ListedOnce last s) (unended : last < 5)
    {bid : BatchId} {b : BatchRec} (found : s.batches[bid]? = some b)
    (reached : b.state.stage ≤ last) :
    ListedOnce last (s.splitSealed bid b) := by
  apply listed.halves found reached { value := s.nextBatch + 1 }
    { value := s.nextBatch }
  intro x b' found' reached'
  rcases found_splitSealed found' with ⟨same, members, _⟩ |
    ⟨same, members, _⟩ | ⟨_, state⟩ | before
  · exact .inl ⟨same, members⟩
  · exact .inr (.inl ⟨same, members⟩)
  · exact absurd reached' (not_reached_of_superseded unended state)
  · exact .inr (.inr before)

theorem splitOpen (listed : ListedOnce last s) {bid : BatchId} {b : BatchRec}
    (found : s.batches[bid]? = some b) (reached : b.state.stage ≤ last) :
    ListedOnce last (s.splitOpen bid b) := by
  apply listed.halves found reached bid { value := s.nextBatch }
  intro x b' found' _
  rcases found_splitOpen found' with
    ⟨same, members, _⟩ | ⟨same, members, _⟩ | before
  · exact .inr (.inl ⟨same, members⟩)
  · exact .inl ⟨same, members⟩
  · exact .inr (.inr before)

/-- A batch beyond the stage may be split as it likes. -/
theorem splitOpen_late (listed : ListedOnce last s) {bid : BatchId}
    {b : BatchRec} (late : last < b.state.stage) :
    ListedOnce last (s.splitOpen bid b) := by
  have before : ∀ (x : BatchId) (b' : BatchRec),
      (s.splitOpen bid b).batches[x]? = some b' →
      b'.state.stage ≤ last → s.batches[x]? = some b' := by
    intro x b' found' reached
    rcases found_splitOpen found' with
      ⟨_, _, state⟩ | ⟨_, _, state⟩ | ⟨_, unchanged⟩
    · exact absurd (state ▸ reached) (Nat.not_le.mpr late)
    · exact absurd (state ▸ reached) (Nat.not_le.mpr late)
    · exact unchanged
  constructor
  · intro x b' found' reached
    exact listed.once x b' (before x b' found' reached) reached
  · rintro m x y ⟨b₁, found₁, reached₁, member₁⟩ ⟨b₂, found₂, reached₂, member₂⟩
    exact listed.apart m x y
      ⟨b₁, before x b₁ found₁ reached₁, reached₁, member₁⟩
      ⟨b₂, before y b₂ found₂ reached₂, reached₂, member₂⟩

theorem lists_splitOpen {bid x : BatchId} {b : BatchRec} {m : RequestId}
    (found : s.batches[bid]? = some b)
    (lists : (s.splitOpen bid b).Lists last x m) : ∃ y, s.Lists last y m := by
  obtain ⟨b', found', reached, member⟩ := lists
  rcases found_splitOpen found' with
    ⟨_, members, state⟩ | ⟨_, members, state⟩ | ⟨_, before⟩
  · exact ⟨bid, b, found, state ▸ reached, mem_halves (.inr (members ▸ member))⟩
  · exact ⟨bid, b, found, state ▸ reached, mem_halves (.inl (members ▸ member))⟩
  · exact ⟨x, b', before, reached, member⟩

theorem lists_splitSealed (unended : last < 5) {bid x : BatchId}
    {b : BatchRec} {m : RequestId} (found : s.batches[bid]? = some b)
    (isSealed : b.state = .sealed)
    (lists : (s.splitSealed bid b).Lists last x m) :
    ∃ y, s.Lists last y m := by
  obtain ⟨b', found', reached, member⟩ := lists
  rcases found_splitSealed found' with ⟨_, members, state⟩ |
    ⟨_, members, state⟩ | ⟨_, state⟩ | ⟨_, before⟩
  · rw [state, ← isSealed] at reached
    rw [members] at member
    exact ⟨bid, b, found, reached, mem_halves (.inl member)⟩
  · rw [state] at reached
    rw [members] at member
    exact ⟨bid, b, found, reached, mem_halves (.inr member)⟩
  · exact absurd reached (not_reached_of_superseded unended state)
  · exact ⟨x, b', before, reached, member⟩

theorem lists_mergeInto (unended : last < 5) {aid bid x : BatchId}
    {a b : BatchRec} {m : RequestId} (foundA : s.batches[aid]? = some a)
    (foundB : s.batches[bid]? = some b) (states : a.state = b.state)
    (lists : (s.mergeInto aid bid a b).Lists last x m) :
    (x = aid ∧ (s.Lists last aid m ∨ s.Lists last bid m)) ∨
      (x ≠ aid ∧ x ≠ bid ∧ s.Lists last x m) := by
  obtain ⟨b', found', reached, member⟩ := lists
  rcases found_mergeInto found' with
    ⟨_, state⟩ | ⟨same, _, members, state⟩ | ⟨otherA, otherB, before⟩
  · exact absurd reached (not_reached_of_superseded unended state)
  · rw [state] at reached
    rw [members] at member
    rcases List.mem_append.mp member with ofA | ofB
    · exact .inl ⟨same, .inl ⟨a, foundA, reached, ofA⟩⟩
    · exact .inl ⟨same, .inr ⟨b, foundB, states ▸ reached, ofB⟩⟩
  · exact .inr ⟨otherA, otherB, b', before, reached, member⟩

theorem mergeInto (listed : ListedOnce last s) (unended : last < 5)
    {aid bid : BatchId} {a b : BatchRec}
    (foundA : s.batches[aid]? = some a) (foundB : s.batches[bid]? = some b)
    (states : a.state = b.state) :
    ListedOnce last (s.mergeInto aid bid a b) := by
  constructor
  · intro x b' found' reached
    rcases found_mergeInto found' with
      ⟨_, state⟩ | ⟨_, different, members, state⟩ | ⟨_, _, before⟩
    · exact absurd reached (not_reached_of_superseded unended state)
    · rw [state] at reached
      rw [members, List.nodup_append]
      refine ⟨listed.once aid a foundA reached,
        listed.once bid b foundB (states ▸ reached), ?_⟩
      intro m ofA m' ofB same
      subst same
      exact different (listed.apart m aid bid ⟨a, foundA, reached, ofA⟩
        ⟨b, foundB, states ▸ reached, ofB⟩)
    · exact listed.once x b' before reached
  · intro m x y left right
    rcases lists_mergeInto unended foundA foundB states left with
      ⟨rfl, ofX⟩ | ⟨otherA, otherB, ofX⟩
    · rcases lists_mergeInto unended foundA foundB states right with
        ⟨rfl, _⟩ | ⟨otherA, otherB, ofY⟩
      · rfl
      · rcases ofX with lists | lists
        · exact absurd (listed.apart m y x ofY lists) otherA
        · exact absurd (listed.apart m y bid ofY lists) otherB
    · rcases lists_mergeInto unended foundA foundB states right with
        ⟨rfl, lists | lists⟩ | ⟨_, _, ofY⟩
      · exact absurd (listed.apart m x y ofX lists) otherA
      · exact absurd (listed.apart m x bid ofX lists) otherB
      · exact listed.apart m x y ofX ofY

theorem doCancel (listed : ListedOnce last s) (policy : BatchPolicy)
    (id : RequestId) (now : TimePoint) :
    ListedOnce last (s.doCancel policy id now).2 :=
  listed.shrink (shrunkFrom_doCancel policy s id now)

theorem recordRule (policy : BatchPolicy) (now : TimePoint) :
    RecordRule policy now (fun _ _ _ => true) (ListedOnce last) where
  count _ _ listed := listed.shrink (everywhere_shrunkFrom _)
  conclude s r _ mc state fairness stats listed _ _ :=
    listed.shrink (InPlace.conclude s r mc state now fairness stats).shrinking
  requeue s r _ mc state fairness stats listed _ _ _ _ _ :=
    listed.shrink (InPlace.conclude s r mc state now fairness stats).shrinking
  dispatch _ _ _ worker boot listed found isSealed :=
    listed.shrink
      (InPlace.markDispatched found isSealed worker boot now).shrinking
  running _ _ _ listed found dispatched :=
    listed.shrink (InPlace.markRunning found dispatched).shrinking
  finish _ _ _ worker listed found inFlight :=
    listed.shrink (InPlace.finishBatch found inFlight worker now).shrinking

end ListedOnce

end BatchFabric.Impl
