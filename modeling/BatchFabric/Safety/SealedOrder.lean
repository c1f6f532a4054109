import BatchFabric.Safety.Membership

namespace BatchFabric

open OrderedMap

/-! Which sealed batches the order of sealed batches lists. -/

namespace Impl

def SealedListed (s : Impl) : Prop :=
  Everywhere s.batches fun bid b => b.state = .sealed → bid ∈ s.sealedOrder

instance (s : Impl) : Decidable s.SealedListed :=
  inferInstanceAs (Decidable (Everywhere _ _))

namespace SealedListed

variable {s s' : Impl}

theorem fresh : SealedListed fresh :=
  everywhere_empty

/-- Updates after which no other batches are sealed. -/
theorem of_sealed (listed : s.SealedListed)
    (order : ∀ bid ∈ s.sealedOrder, (∃ b, s'.batches[bid]? = some b ∧
      b.state = .sealed) → bid ∈ s'.sealedOrder)
    (before : ∀ (bid : BatchId) (b' : BatchRec), s'.batches[bid]? = some b' →
      b'.state = .sealed → ∃ b, s.batches[bid]? = some b ∧
        b.state = .sealed) : s'.SealedListed := by
  intro bid b' found' isSealed'
  obtain ⟨b, found, isSealed⟩ := before bid b' found' isSealed'
  exact order bid (listed bid b found isSealed) ⟨b', found', isSealed'⟩

theorem of_states (listed : s.SealedListed)
    (order : s'.sealedOrder = s.sealedOrder)
    (states : ∀ bid : BatchId, (s'.batches[bid]?).map (·.state) =
      (s.batches[bid]?).map (·.state)) : s'.SealedListed := by
  apply listed.of_sealed
  · intro bid member _
    rw [order]
    exact member
  · intro bid b' found' isSealed'
    have same := states bid
    rw [found'] at same
    obtain ⟨b, found, state⟩ := Option.map_eq_some_iff.mp same.symm
    exact ⟨b, found, state.trans isSealed'⟩

/-- A change of one batch that does not seal it. -/
theorem modify (listed : s.SealedListed) (bid : BatchId)
    {change : BatchRec → BatchRec}
    (unsealing : ∀ b, (change b).state = .sealed → b.state = .sealed)
    (batches : s'.batches = s.batches.modify bid change)
    (order : s'.sealedOrder = s.sealedOrder) : s'.SealedListed := by
  apply listed.of_sealed
  · intro other member _
    rw [order]
    exact member
  · intro other b' found' isSealed'
    rw [batches] at found'
    obtain ⟨b, found, ⟨_, changed⟩ | ⟨_, unchanged⟩⟩ :=
      getElem?_modify_cases found'
    · rw [changed] at isSealed'
      exact ⟨b, found, unsealing b isSealed'⟩
    · subst unchanged
      exact ⟨b', found, isSealed'⟩

theorem doCancel (listed : s.SealedListed) (policy : BatchPolicy)
    (id : RequestId) (now : TimePoint) :
    (s.doCancel policy id now).2.SealedListed := by
  obtain unchanged | ⟨r, _, _, ⟨_, outside⟩ |
      ⟨_, b, _, ⟨_, forming⟩ | ⟨_, later⟩⟩⟩ := doCancel_cases policy s id now
  · rw [unchanged]
    exact listed
  · rw [outside]
    exact listed
  · rw [forming]
    exact listed.modify r.batch (fun _ isSealed => by exact isSealed) rfl rfl
  · rw [later]
    exact listed.modify r.batch (fun _ isSealed => by exact isSealed) rfl rfl

theorem expireWaiting (listed : s.SealedListed) (now : TimePoint)
    (id : RequestId) : (expireWaiting now s id).SealedListed := by
  obtain unchanged | ⟨r, _, ⟨_, removed⟩ | ⟨_, stats, ended⟩⟩ :=
    expireWaiting_cases now s id
  · rw [unchanged]
    exact listed
  · rw [removed]
    exact listed
  · rw [ended]
    exact listed

theorem openForming (listed : s.SealedListed) (key : CompatibilityKey)
    (now : TimePoint) : (s.openForming key now).SealedListed := by
  apply listed.of_sealed
  · exact fun _ member _ => member
  · intro bid b' found' isSealed'
    obtain ⟨_, rfl⟩ | found := found_openForming found'
    · cases isSealed'
    · exact ⟨b', found, isSealed'⟩

theorem sealForming (listed : s.SealedListed) (bid : BatchId) (b : BatchRec)
    (reason : SealReason) (now : TimePoint) :
    (s.sealForming bid b reason now).SealedListed := by
  intro other b' found' isSealed'
  obtain ⟨before, found, ⟨same, _⟩ | ⟨_, unchanged⟩⟩ :=
    getElem?_modify_cases found'
  · subst same
    exact List.mem_append_right s.sealedOrder (List.mem_singleton.mpr rfl)
  · subst unchanged
    exact List.mem_append_left _ (listed other b' found isSealed')

/-- The first batch of a merge is sealed if it was, the second no more. -/
theorem mergeInto (listed : s.SealedListed) {aid bid : BatchId}
    {a b : BatchRec} (first : s.batches[aid]? = some a) :
    (s.mergeInto aid bid a b).SealedListed := by
  apply listed.of_sealed
  · rintro other member ⟨b', found', isSealed'⟩
    refine List.mem_filter.mpr ⟨member, decide_eq_true ?_⟩
    rintro rfl
    rcases found_mergeInto found' with
      ⟨_, state⟩ | ⟨same, different, _, _⟩ | ⟨_, different, _⟩
    · rw [isSealed'] at state
      cases state
    · exact different same.symm
    · exact different rfl
  · intro other b' found' isSealed'
    rcases found_mergeInto found' with
      ⟨_, state⟩ | ⟨same, _, _, state⟩ | ⟨_, _, found⟩
    · rw [isSealed'] at state
      cases state
    · subst same
      exact ⟨a, first, state.symm.trans isSealed'⟩
    · exact ⟨b', found, isSealed'⟩

theorem splitOpen (listed : s.SealedListed) {bid : BatchId} {b : BatchRec}
    (unsealed : b.state ≠ .sealed) : (s.splitOpen bid b).SealedListed := by
  apply listed.of_sealed
  · exact fun _ member _ => member
  · intro other b' found' isSealed'
    rcases found_splitOpen found' with
      ⟨_, _, state⟩ | ⟨_, _, state⟩ | ⟨_, found⟩
    · exact absurd (state.symm.trans isSealed') unsealed
    · exact absurd (state.symm.trans isSealed') unsealed
    · exact ⟨b', found, isSealed'⟩

theorem tickRule (policy : BatchPolicy) (now : TimePoint) :
    TickRule policy now fun s => WellFormed s ∧ s.SealedListed where
  wellFormed _ held := held.1
  expire _ id held :=
    ⟨held.1.expireWaiting now id, held.2.expireWaiting now id⟩
  cancel _ id held :=
    ⟨held.1.doCancel policy id now, held.2.doCancel policy id now⟩
  openForming _ key held _ :=
    ⟨held.1.openForming key now, held.2.openForming key now⟩
  place s bid key pick b r held placing := by
    refine ⟨(WellFormed.tickRule policy now).place s bid key pick b r held.1
      placing, ?_⟩
    rw [place_eq placing.request]
    exact held.2.modify bid (fun _ => by exact id) rfl rfl
  retime s bid change held retimes := by
    refine ⟨held.1.retime bid retimes, held.2.modify bid ?_ rfl rfl⟩
    intro b isSealed
    obtain ⟨allowed, formed, changed⟩ := retimes b
    rw [changed] at isSealed
    exact isSealed
  close _ bid b reason held found forming :=
    ⟨held.1.sealForming found forming reason now,
      held.2.sealForming bid b reason now⟩
  merge _ _ _ _ _ held merging :=
    ⟨held.1.mergeInto merging.first merging.second merging.keyed,
      held.2.mergeInto merging.first⟩

theorem recordRule (policy : BatchPolicy) (now : TimePoint) :
    RecordRule policy now (fun _ _ _ => true) SealedListed where
  count _ _ listed := listed
  conclude s r _ mc state fairness stats listed _ _ :=
    listed.of_states rfl
      ((OutcomeFrame.conclude s r mc state now fairness stats).view (·.state)
        fun _ => rfl)
  requeue s r _ mc state fairness stats listed _ _ _ _ _ :=
    listed.of_states rfl
      ((OutcomeFrame.conclude s r mc state now fairness stats).view (·.state)
        fun _ => rfl)
  dispatch _ bid _ _ _ listed _ _ :=
    listed.modify bid (fun _ => by exact nofun) rfl rfl
  running _ bid _ listed _ _ :=
    listed.modify bid (fun _ => by exact nofun) rfl rfl
  finish s bid _ worker listed _ _ := by
    obtain unchanged | ⟨_, stats, workers, _, ⟨_, ended⟩ | ⟨_, ended⟩⟩ :=
      finishBatch_cases s bid worker now
    · rw [unchanged]
      exact listed
    · rw [ended]
      exact listed.modify bid (fun _ => by exact nofun) rfl rfl
    · rw [ended]
      exact listed.modify bid (fun _ => by exact nofun) rfl rfl

end SealedListed

/-- No batch is larger than every worker takes. -/
def splitsNone (s : Impl) : Bool :=
  (List.range s.sealedOrder.length).all fun i => (s.oversizedAt i).isNone

theorem sizePass_of_none {s : Impl} (none : s.splitsNone = true) :
    s.sizePass = s := by
  apply Transition.run_invariant (fun current => current = s)
  · rintro current i member rfl
    have absent := Option.isNone_iff_eq_none.mp
      (List.all_eq_true.mp none i member)
    unfold splitOversized
    rw [absent]
  · rfl

theorem SealedListed.doTick {policy : BatchPolicy} {s : Impl}
    (listed : s.SealedListed) (wellFormed : WellFormed s)
    {order : List CompatibilityKey} {now : TimePoint}
    (none : (s.tickUntilSizePass policy order now).splitsNone = true) :
    (s.doTick policy order now).SealedListed := by
  unfold Impl.doTick
  rw [sizePass_of_none none]
  exact ((tickRule policy now).untilSizePass ⟨wellFormed, listed⟩ order).2

/-- No sealed batch is split, neither by hand nor by a tick. -/
def keepsSealed (policy : BatchPolicy) (s : Impl) : Op → Bool
  | .split batch =>
      match s.batches[batch]? with
      | none => true
      | some b => !splittable b || b.state != .sealed
  | .retry request order now =>
      match s.retryQueued policy request now with
      | (.error _, _) => true
      | (.ok _, queued) => (queued.tickUntilSizePass policy order now).splitsNone
  | .tick order now => (s.tickUntilSizePass policy order now).splitsNone
  | _ => true

theorem SealedListed.step {policy : BatchPolicy} {s : Impl}
    (wellFormed : WellFormed s) (listed : s.SealedListed) {op : Op}
    (guarded : keepsSealed policy s op = true) :
    (BatchFabric.step policy s op).SealedListed := by
  cases op with
  | submit metadata now =>
      show (s.doSubmit policy metadata now).2.SealedListed
      obtain ⟨stats, taken⟩ | ⟨_, ⟨_, _, _, _, taken⟩ | ⟨_, _, taken⟩⟩ :=
        doSubmit_cases policy s metadata now
      · rw [taken]
        exact listed
      · rw [taken]
        exact listed
      · rw [taken]
        exact listed
  | cancel request now => exact listed.doCancel policy request now
  | complete completion now =>
      exact (recordRule policy now).reports.doComplete listed
        (allowsReport_always policy s completion now)
  | sealBatch batch reason now =>
      show (s.sealBatch batch reason now).2.SealedListed
      obtain unchanged | ⟨b, _, _, closed⟩ :=
        sealBatch_cases s batch reason now
      · rw [unchanged]
        exact listed
      · rw [closed]
        exact listed.sealForming batch b reason now
  | split batch =>
      show (s.doSplit batch).2.SealedListed
      obtain unchanged | ⟨b, found, possible, ⟨isSealed, _⟩ |
          ⟨unsealed, taken⟩⟩ := doSplit_cases s batch
      · rw [unchanged]
        exact listed
      · simp [keepsSealed, found, possible, isSealed] at guarded
      · rw [taken]
        exact listed.splitOpen unsealed
  | merge a b =>
      show (s.doMerge policy a b).2.SealedListed
      obtain unchanged | ⟨first, second, foundA, _, _, merged⟩ :=
        doMerge_cases policy s a b
      · rw [unchanged]
        exact listed
      · rw [merged]
        exact listed.mergeInto foundA
  | retry request order now =>
      show (s.doRetry policy request order now).2.SealedListed
      have queued : (s.retryQueued policy request now).2.SealedListed := by
        obtain ⟨err, refused⟩ | ⟨r, _, _, _, requeued⟩ :=
          retryQueued_cases policy s request now
        · rw [refused]
          exact listed
        · rw [requeued]
          exact listed
      have formed := wellFormed.retryQueued policy request now
      unfold keepsSealed at guarded
      rw [doRetry_eq]
      split
      · exact queued
      · next taken =>
          dsimp only at guarded
          rw [taken] at queued formed guarded
          exact queued.doTick formed guarded
  | tick order now => exact listed.doTick wellFormed guarded
  | expire order now =>
      exact ((tickRule policy now).expireLocked ⟨wellFormed, listed⟩ order).2
  | dispatchAndRun batch executor now =>
      exact (recordRule policy now).reports.doDispatchAndRun listed
        (allowsRun_always policy s batch executor now)
  | prepareDispatch batch worker boot now =>
      exact (recordRule policy now).reports.prepareDispatch listed batch worker
        boot
  | registerWorker worker boot cap => exact listed
  | rollEpoch => exact listed

end Impl

end BatchFabric
