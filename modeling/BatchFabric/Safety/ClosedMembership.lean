import BatchFabric.Safety.BatchRule
import BatchFabric.Safety.Membership
import BatchFabric.Scheduler.KnownKeys

namespace BatchFabric.Impl

open OrderedMap

/-! Filling trusts the registry of forming batches. What it may name are batches
in some states: only forming ones, as long as none that is reported in part is
split, and never a sealed one. -/

/-- A condition on states that the registry may keep: forming meets it, sealed
does not, and what meets it in flight does afterwards. -/
structure Registrable (P : BatchState → Prop) : Prop where
  forming : P .forming
  unsealed : ¬ P .sealed
  running : P .dispatched → P .running
  completed : P .dispatched ∨ P .running → P .completed
  stopped : P .dispatched ∨ P .running → P .partiallyCompleted

theorem registrable_forming : Registrable (· = .forming) where
  forming := rfl
  unsealed := nofun
  running := nofun
  completed := by
    rintro (state | state)
    · cases state
    · cases state
  stopped := by
    rintro (state | state)
    · cases state
    · cases state

theorem registrable_unsealed : Registrable (· ≠ .sealed) where
  forming := nofun
  unsealed state := state rfl
  running _ := nofun
  completed _ := nofun
  stopped _ := nofun

def RegisteredAs (P : BatchState → Prop) (s : Impl) : Prop :=
  Everywhere s.formingByKey fun _ bid =>
    ∃ b, s.batches[bid]? = some b ∧ P b.state

/-- A batch that meets the condition does so afterwards. -/
def StaysAs (P : BatchState → Prop) (b b' : BatchRec) : Prop :=
  P b.state → P b'.state

theorem StaysAs.of_state {P : BatchState → Prop} {b b' : BatchRec}
    (same : b'.state = b.state) : StaysAs P b b' := by
  intro meets
  rw [same]
  exact meets

namespace RegisteredAs

variable {P : BatchState → Prop} {s s' : Impl}

theorem fresh : RegisteredAs P fresh :=
  everywhere_empty

theorem evolve (registered : s.RegisteredAs P)
    (evolved : Evolves (StaysAs P) s.batches s'.batches)
    (registry : s'.formingByKey = s.formingByKey) :
    s'.RegisteredAs P := by
  intro key bid at_key
  rw [registry] at at_key
  obtain ⟨b, found, meets⟩ := registered key bid at_key
  obtain ⟨b', found', stays⟩ := evolved bid b found
  exact ⟨b', found', stays meets⟩

/-- Changes of a batch that leave its state. -/
theorem modify (registered : s.RegisteredAs P) (bid : BatchId)
    {change : BatchRec → BatchRec} (still : ∀ b, (change b).state = b.state)
    (batches : s'.batches = s.batches.modify bid change)
    (registry : s'.formingByKey = s.formingByKey) :
    s'.RegisteredAs P := by
  apply registered.evolve _ registry
  rw [batches]
  exact Evolves.modify (fun _ => id) s.batches fun b _ => .of_state (still b)

/-- Changes of a known batch that keep it to the condition. -/
theorem modify_found (registered : s.RegisteredAs P) {bid : BatchId}
    {b : BatchRec} (found : s.batches[bid]? = some b)
    {change : BatchRec → BatchRec} (stays : StaysAs P b (change b))
    (batches : s'.batches = s.batches.modify bid change)
    (registry : s'.formingByKey = s.formingByKey) :
    s'.RegisteredAs P := by
  apply registered.evolve _ registry
  rw [batches]
  apply Evolves.modify fun _ => id
  intro before at_bid
  rw [found] at at_bid
  cases at_bid
  exact stays

theorem openForming (registrable : Registrable P)
    (registered : s.RegisteredAs P) (wellFormed : WellFormed s)
    (key : CompatibilityKey) (now : TimePoint) :
    (s.openForming key now).RegisteredAs P := by
  have evolved : Evolves (StaysAs P) s.batches
      (s.openForming key now).batches :=
    Evolves.insert_absent (fun _ => id)
      (wellFormed.no_batch (Nat.le_refl s.nextBatch)) _
  apply Everywhere.insert
  · intro other bid at_other
    obtain ⟨b, found, meets⟩ := registered other bid at_other
    obtain ⟨b', found', stays⟩ := evolved bid b found
    exact ⟨b', found', stays meets⟩
  · refine ⟨s.newForming key now, ?_, registrable.forming⟩
    unfold Impl.openForming
    dsimp only
    rw [getElem?_insert, if_pos rfl]

theorem sealForming (registered : s.RegisteredAs P)
    (wellFormed : WellFormed s) {bid : BatchId} {b : BatchRec}
    (found : s.batches[bid]? = some b) (reason : SealReason)
    (now : TimePoint) :
    (s.sealForming bid b reason now).RegisteredAs P := by
  intro key other at_key
  have erased : (s.formingByKey.erase b.key)[key]? = some other := at_key
  rw [getElem?_erase] at erased
  split at erased
  · cases erased
  · next different =>
      obtain ⟨record, at_other, meets⟩ := registered key other erased
      have apart : bid ≠ other := by
        rintro rfl
        rw [found] at at_other
        cases at_other
        exact different (wellFormed.registered_key erased found)
      refine ⟨record, ?_, meets⟩
      unfold Impl.sealForming
      dsimp only
      rw [getElem?_modify, if_neg apart]
      exact at_other

/-- The batch that is split keeps its state, and is registered. -/
theorem splitOpen (registered : s.RegisteredAs P)
    (wellFormed : WellFormed s) {bid : BatchId} {b : BatchRec}
    (found : s.batches[bid]? = some b) (meets : P b.state) :
    (s.splitOpen bid b).RegisteredAs P := by
  let child : BatchId := { value := s.nextBatch }
  have unknown : s.batches[child]? = none :=
    wellFormed.no_batch (Nat.le_refl s.nextBatch)
  have different : child ≠ bid := by
    intro same
    rw [← same, unknown] at found
    cases found
  have kept : ∀ (other : BatchId) (record : BatchRec),
      s.batches[other]? = some record → P record.state →
      ∃ b', (s.splitOpen bid b).batches[other]? = some b' ∧ P b'.state := by
    intro other record at_other isMet
    unfold Impl.splitOpen
    dsimp only
    rw [getElem?_insert, getElem?_insert]
    split
    · next same =>
        rw [← same, unknown] at at_other
        cases at_other
    · split
      · exact ⟨_, rfl, meets⟩
      · exact ⟨record, at_other, isMet⟩
  apply Everywhere.insert
  · intro key other at_key
    obtain ⟨record, at_other, isMet⟩ := registered key other at_key
    exact kept other record at_other isMet
  · exact kept bid b found meets

theorem splitSealed (registrable : Registrable P)
    (registered : s.RegisteredAs P) (wellFormed : WellFormed s)
    {bid : BatchId} {b : BatchRec} (found : s.batches[bid]? = some b)
    (isSealed : b.state = .sealed) : (s.splitSealed bid b).RegisteredAs P := by
  intro key other at_key
  obtain ⟨record, at_other, meets⟩ := registered key other at_key
  have apart : bid ≠ other := by
    rintro rfl
    rw [found] at at_other
    cases at_other
    rw [isSealed] at meets
    exact registrable.unsealed meets
  exact ⟨record, getElem?_splitSealed_of_old wellFormed apart at_other, meets⟩

theorem mergeInto (registered : s.RegisteredAs P)
    (wellFormed : WellFormed s) {aid bid : BatchId} {a b : BatchRec}
    (first : s.batches[aid]? = some a) (second : s.batches[bid]? = some b)
    (states : a.state = b.state)
    (itself : aid = bid → P a.state → P .superseded) :
    (s.mergeInto aid bid a b).RegisteredAs P := by
  have others : ∀ (other : BatchId) (record : BatchRec),
      s.batches[other]? = some record → P record.state →
      (bid = other → P .superseded) →
      ∃ b', (s.mergeInto aid bid a b).batches[other]? = some b' ∧
        P b'.state := by
    intro other record at_other meets merged
    have target : ∃ b', (s.batches.insert aid (mergeTarget (modifyAll
        s.requests b.members (RequestRec.setBatch aid)) bid a b))[other]? =
          some b' ∧ P b'.state := by
      rw [getElem?_insert]
      split
      · next same =>
          subst same
          rw [first] at at_other
          cases at_other
          exact ⟨_, rfl, meets⟩
      · exact ⟨record, at_other, meets⟩
    obtain ⟨b', found', meets'⟩ := target
    unfold Impl.mergeInto
    dsimp only
    rw [getElem?_modify]
    split
    · next same =>
        rw [found']
        exact ⟨_, rfl, merged same⟩
    · exact ⟨b', found', meets'⟩
  have registry : (s.mergeInto aid bid a b).formingByKey =
      if s.formingByKey[b.key]? = some bid then
        s.formingByKey.insert b.key aid
      else s.formingByKey := rfl
  intro key other at_key
  rw [registry] at at_key
  split at at_key
  · next listed =>
      obtain ⟨record, at_bid, meets⟩ := registered b.key bid listed
      rw [second] at at_bid
      cases at_bid
      rw [← states] at meets
      rw [getElem?_insert] at at_key
      split at at_key
      · cases at_key
        exact others aid a first meets fun same => itself same.symm meets
      · next apart =>
          obtain ⟨record, at_other, isMet⟩ := registered key other at_key
          apply others other record at_other isMet
          rintro rfl
          exact absurd (wellFormed.registered_key at_key second) apart
  · next unlisted =>
      obtain ⟨record, at_other, isMet⟩ := registered key other at_key
      apply others other record at_other isMet
      rintro rfl
      rw [wellFormed.registered_key at_key second] at unlisted
      exact absurd at_key unlisted

theorem doCancel (registered : s.RegisteredAs P) (policy : BatchPolicy)
    (id : RequestId) (now : TimePoint) :
    (s.doCancel policy id now).2.RegisteredAs P := by
  obtain unchanged | ⟨r, _, _, ⟨_, outside⟩ |
      ⟨_, b, _, ⟨_, forming⟩ | ⟨_, later⟩⟩⟩ := doCancel_cases policy s id now
  · rw [unchanged]
    exact registered
  · rw [outside]
    exact registered
  · rw [forming]
    exact registered.modify r.batch (fun _ => by rfl) rfl rfl
  · rw [later]
    exact registered.modify r.batch (fun _ => by rfl) rfl rfl

theorem expireWaiting (registered : s.RegisteredAs P) (now : TimePoint)
    (id : RequestId) : (expireWaiting now s id).RegisteredAs P := by
  obtain unchanged | ⟨r, _, ⟨_, removed⟩ | ⟨_, stats, ended⟩⟩ :=
    expireWaiting_cases now s id
  · rw [unchanged]
    exact registered
  · rw [removed]
    exact registered
  · rw [ended]
    exact registered

theorem tickInvariant (registrable : Registrable P) (policy : BatchPolicy) :
    TickInvariant policy fun s => WellFormed s ∧ s.RegisteredAs P where
  ticks now := {
    wellFormed := fun _ held => held.1
    expire := fun _ id held =>
      ⟨held.1.expireWaiting now id, held.2.expireWaiting now id⟩
    cancel := fun _ id held =>
      ⟨held.1.doCancel policy id now, held.2.doCancel policy id now⟩
    openForming := fun _ key held _ =>
      ⟨held.1.openForming key now,
        held.2.openForming registrable held.1 key now⟩
    place := by
      intro s bid key pick b r held placing
      refine ⟨(WellFormed.tickRule policy now).place s bid key pick b r held.1
        placing, ?_⟩
      rw [place_eq placing.request]
      exact held.2.modify bid (fun _ => by rfl) rfl rfl
    retime := by
      intro s bid change held retimes
      refine ⟨held.1.retime bid retimes, held.2.modify bid ?_ rfl rfl⟩
      intro b
      obtain ⟨allowed, formed, changed⟩ := retimes b
      rw [changed]
    close := fun _ _ _ reason held found forming =>
      ⟨held.1.sealForming found forming reason now,
        held.2.sealForming held.1 found reason now⟩
    merge := fun _ _ _ _ _ held merging =>
      ⟨held.1.mergeInto merging.first merging.second merging.keyed,
        held.2.mergeInto held.1 merging.first merging.second
          (merging.firstSealed.trans merging.secondSealed.symm)
          (fun same => absurd same merging.different)⟩ }
  split _ _ _ held found isSealed _ :=
    ⟨held.1.splitSealed found,
      held.2.splitSealed registrable held.1 found isSealed⟩
  requeue _ id _ _ held found :=
    ⟨held.1.requeue (held.1.keyed_of_found found) id _, held.2⟩

theorem reports (registrable : Registrable P) (policy : BatchPolicy)
    (now : TimePoint) :
    ReportRule policy now (fun _ _ _ => true) (RegisteredAs P) where
  count _ _ registered := registered
  outcome s mc registered _ := by
    have frame := OutcomeFrame.applyMemberOutcome policy now s mc
    exact registered.evolve (Evolves.of_view frame.listings
      fun _ _ same => .of_state (BatchRec.state_of_listing same))
      frame.registry
  dispatch _ _ b _ _ registered found isSealed :=
    registered.modify_found found (fun meets =>
      absurd (isSealed ▸ meets) registrable.unsealed) rfl rfl
  running _ _ b registered found dispatched :=
    registered.modify_found found
      (fun meets => registrable.running (dispatched ▸ meets)) rfl rfl
  finish s bid b worker registered found inFlight := by
    have flying : P b.state → P .dispatched ∨ P .running := by
      intro meets
      rcases inFlight with state | state
      · exact .inl (state ▸ meets)
      · exact .inr (state ▸ meets)
    obtain unchanged | ⟨_, stats, workers, _, ⟨_, ended⟩ | ⟨_, ended⟩⟩ :=
      finishBatch_cases s bid worker now
    · rw [unchanged]
      exact registered
    · rw [ended]
      exact registered.modify_found found
        (fun meets => registrable.completed (flying meets)) rfl rfl
    · rw [ended]
      exact registered.modify_found found
        (fun meets => registrable.stopped (flying meets)) rfl rfl

end RegisteredAs

/-- The states in which a batch may be split. -/
theorem state_of_splittable {b : BatchRec} (possible : splittable b = true) :
    b.state = .forming ∨ b.state = .sealed ∨
      b.state = .partiallyCompleted := by
  unfold splittable at possible
  cases state : b.state with
  | forming => exact .inl rfl
  | sealed => exact .inr (.inl rfl)
  | partiallyCompleted => exact .inr (.inr rfl)
  | _ => simp [state, isBatchTerminal] at possible

/-- What the operations keep: splits of batches reported in part and merges of
a batch with itself are left to the condition. -/
theorem RegisteredAs.step {P : BatchState → Prop} {policy : BatchPolicy}
    {s : Impl} (registrable : Registrable P) (wellFormed : WellFormed s)
    (registered : s.RegisteredAs P) {op : Op}
    (splits : ∀ bid b, op = .split bid → s.batches[bid]? = some b →
      splittable b = true → b.state = .partiallyCompleted → P b.state)
    (merges : mergesItself policy s op = true → P .superseded) :
    (step policy s op).RegisteredAs P := by
  have ticks := fun now =>
    (RegisteredAs.tickInvariant registrable policy).ticks now
  have reports := RegisteredAs.reports registrable policy
  cases op with
  | submit metadata now =>
      show (s.doSubmit policy metadata now).2.RegisteredAs P
      obtain ⟨stats, taken⟩ | ⟨_, ⟨_, _, _, _, taken⟩ | ⟨_, _, taken⟩⟩ :=
        doSubmit_cases policy s metadata now
      · rw [taken]
        exact registered
      · rw [taken]
        exact registered
      · rw [taken]
        exact registered
  | cancel request now => exact registered.doCancel policy request now
  | complete completion now =>
      exact (reports now).doComplete registered
        (allowsReport_always policy s completion now)
  | sealBatch batch reason now =>
      show (s.sealBatch batch reason now).2.RegisteredAs P
      obtain unchanged | ⟨b, found, _, closed⟩ :=
        sealBatch_cases s batch reason now
      · rw [unchanged]
        exact registered
      · rw [closed]
        exact registered.sealForming wellFormed found reason now
  | split batch =>
      show (s.doSplit batch).2.RegisteredAs P
      obtain unchanged | ⟨b, found, possible, ⟨isSealed, taken⟩ |
          ⟨unsealed, taken⟩⟩ := doSplit_cases s batch
      · rw [unchanged]
        exact registered
      · rw [taken]
        exact registered.splitSealed registrable wellFormed found isSealed
      · rw [taken]
        apply registered.splitOpen wellFormed found
        rcases state_of_splittable possible with forming | isSealed | partly
        · rw [forming]
          exact registrable.forming
        · exact absurd isSealed unsealed
        · exact splits batch b rfl found possible partly
  | merge a b =>
      show (s.doMerge policy a b).2.RegisteredAs P
      obtain unchanged | ⟨first, second, foundA, foundB, possible, merged⟩ :=
        doMerge_cases policy s a b
      · rw [unchanged]
        exact registered
      · rw [merged]
        obtain ⟨_, _, states, _⟩ := canMerge_cases possible
        apply registered.mergeInto wellFormed foundA foundB states
        rintro rfl _
        rw [foundA] at foundB
        cases foundB
        apply merges
        simp [mergesItself, foundA, possible]
  | retry request order now =>
      have queued : WellFormed (s.retryQueued policy request now).2 ∧
          (s.retryQueued policy request now).2.RegisteredAs P := by
        refine ⟨wellFormed.retryQueued policy request now, ?_⟩
        obtain ⟨err, refused⟩ | ⟨r, _, _, _, requeued⟩ :=
          retryQueued_cases policy s request now
        · rw [refused]
          exact registered
        · rw [requeued]
          exact registered
      exact (kept_doRetry (fun s => WellFormed s ∧ s.RegisteredAs P) queued
        fun _ held => (ticks now).doTick
          (RegisteredAs.tickInvariant registrable policy).split held order).2
  | tick order now =>
      exact ((ticks now).doTick
        (RegisteredAs.tickInvariant registrable policy).split
          ⟨wellFormed, registered⟩ order).2
  | expire order now =>
      exact ((ticks now).expireLocked ⟨wellFormed, registered⟩ order).2
  | dispatchAndRun batch executor now =>
      exact (reports now).doDispatchAndRun registered
        (allowsRun_always policy s batch executor now)
  | prepareDispatch batch worker boot now =>
      exact (reports now).prepareDispatch registered batch worker boot
  | registerWorker worker boot cap => exact registered
  | rollEpoch => exact registered

/-- No sealed batch is ever registered. -/
theorem registeredUnsealed_of_reachable {policy : BatchPolicy} {s : Impl}
    (reachable : Reachable policy s) : s.RegisteredAs (· ≠ .sealed) := by
  have held : WellFormed s ∧ s.RegisteredAs (· ≠ .sealed) := by
    apply Transition.Reachable.invariant reachable (fun s =>
      WellFormed s ∧ s.RegisteredAs (· ≠ .sealed))
    · intro current op held
      refine ⟨held.1.step op, held.2.step registrable_unsealed held.1 ?_ ?_⟩
      · intro bid b _ _ _ partly
        rw [partly]
        exact nofun
      · exact fun _ => nofun
    · exact ⟨WellFormed.fresh, RegisteredAs.fresh⟩
  exact held.2

/-- No batch that was reported in part is split, and none is merged with
itself. -/
def keepsClosed (policy : BatchPolicy) (s : Impl) : Op → Bool
  | .split batch =>
      match s.batches[batch]? with
      | none => true
      | some b => !splittable b || b.state != .partiallyCompleted
  | op => !mergesItself policy s op

abbrev RegisteredForming (s : Impl) : Prop :=
  s.RegisteredAs (· = .forming)

theorem RegisteredForming.step {policy : BatchPolicy} {s : Impl}
    (wellFormed : WellFormed s) (registered : s.RegisteredForming) {op : Op}
    (guarded : keepsClosed policy s op = true) :
    (step policy s op).RegisteredForming := by
  apply RegisteredAs.step registrable_forming wellFormed registered
  · rintro bid b rfl found possible partly
    simp [keepsClosed, found, possible, partly] at guarded
  · intro itself
    cases op with
    | split batch => cases itself
    | _ => simp [keepsClosed, itself] at guarded

/-! What may become of a record. Every merge into a batch leaves its trace in
the list of parents. -/

structure Closing (merges : Prop) (b b' : BatchRec) : Prop where
  parents : b.parents <+: b'.parents
  unmerged : ¬ merges → b'.parents = b.parents
  closed : b.state ≠ .forming → b'.state ≠ .forming
  members : b.state ≠ .forming → b'.parents = b.parents →
    b'.members ⊆ b.members

namespace Closing

variable {merges : Prop} {b b' first second third : BatchRec}

/-- Updates that add neither parents nor members. -/
theorem of_members (parents : b'.parents = b.parents)
    (members : b'.members ⊆ b.members)
    (closed : b.state ≠ .forming → b'.state ≠ .forming) :
    Closing merges b b' :=
  ⟨⟨[], (List.append_nil _).trans parents.symm⟩, fun _ => parents, closed,
    fun _ _ => members⟩

theorem trans (earlier : Closing merges first second)
    (later : Closing merges second third) : Closing merges first third where
  parents := earlier.parents.trans later.parents
  unmerged not' := (later.unmerged not').trans (earlier.unmerged not')
  closed notForming := later.closed (earlier.closed notForming)
  members notForming same := by
    have last : third.parents <+: second.parents := by
      rw [same]
      exact earlier.parents
    have middle : third.parents = second.parents :=
      last.eq_of_length (Nat.le_antisymm last.length_le
        later.parents.length_le)
    have inner : second.parents = first.parents := middle.symm.trans same
    exact List.Subset.trans (later.members (earlier.closed notForming) middle)
      (earlier.members notForming inner)

end Closing

theorem closing (merges : Prop) :
    BatchRule (Closing merges) (fun b => b.state = .forming) merges where
  refl _ := .of_members rfl (List.Subset.refl _) id
  trans := Closing.trans
  join _ _ _ forming :=
    ⟨List.prefix_refl _, fun _ => rfl, fun closed => absurd forming closed,
      fun closed => absurd forming closed⟩
  retime _ _ _ := .of_members rfl (List.Subset.refl _) id
  leave _ _ _ _ := .of_members rfl (List.filter_subset_self _) id
  record b b' same := by
    have parents : b'.listing.parents = b.listing.parents := by rw [same]
    refine .of_members parents ?_ ?_
    · rw [BatchRec.members_of_listing same]
      exact List.Subset.refl _
    · rw [BatchRec.state_of_listing same]
      exact id
  close _ _ _ _ := .of_members rfl (List.Subset.refl _) fun _ => nofun
  halve _ _ _ _ _ := .of_members rfl (List.take_subset _ _) id
  replace _ _ _ _ _ := .of_members rfl (List.take_subset _ _) fun _ => nofun
  absorb a b _ bid merging := by
    have parents : a.parents ++ b.parents ++ [bid] ≠ a.parents := by
      intro same
      have lengths := congrArg List.length same
      simp at lengths
    exact ⟨⟨b.parents ++ [bid], (List.append_assoc _ _ _).symm⟩,
      fun not' => absurd merging not', id,
      fun _ same => absurd same parents⟩
  supersede _ _ _ := .of_members rfl (List.Subset.refl _) fun _ => nofun
  dispatch _ _ _ _ _ := .of_members rfl (List.Subset.refl _) fun _ => nofun
  start _ _ := .of_members rfl (List.Subset.refl _) fun _ => nofun
  complete _ _ _ := .of_members rfl (List.Subset.refl _) fun _ => nofun
  stop _ _ := .of_members rfl (List.Subset.refl _) fun _ => nofun

theorem closing_step {policy : BatchPolicy} {s : Impl}
    (wellFormed : WellFormed s) (registered : s.RegisteredForming) (op : Op) :
    Evolves (Closing (mayMerge policy op = true)) s.batches
      (step policy s op).batches := by
  apply (closing (mayMerge policy op = true)).step
    (RegisteredAs.tickInvariant registrable_forming policy)
  · intro s key bid b held at_key found
    obtain ⟨b', found', forming⟩ := held.2 key bid at_key
    rw [found] at found'
    cases found'
    exact forming
  · exact ⟨wellFormed, registered⟩
  · exact id

/-- The pass over oversized batches leaves the parents of every batch, and
gives none members. -/
theorem sizePass_evolves {s : Impl} (wellFormed : WellFormed s) :
    Evolves (Closing False) s.batches s.sizePass.batches := by
  have rule := closing False
  have both : WellFormed s.sizePass ∧
      Evolves (Closing False) s.batches s.sizePass.batches := by
    unfold Impl.sizePass
    apply Transition.run_invariant (fun s' => WellFormed s' ∧
      Evolves (Closing False) s.batches s'.batches)
    · intro current i _ held
      rcases splitOversized_cases held.1 i with
        unchanged | ⟨bid, b, found, isSealed, _, _, taken⟩
      · rw [unchanged]
        exact held
      · rw [taken]
        exact ⟨held.1.splitSealed found,
          rule.chain held.2 (rule.splitSealed held.1 found isSealed)⟩
    · exact ⟨wellFormed, .refl rule.refl s.batches⟩
  exact both.2

end BatchFabric.Impl
