import BatchFabric.Safety.Membership
import BatchFabric.Safety.Submissions
import BatchFabric.Safety.TickPasses

namespace BatchFabric

open OrderedMap

/-! The clock of a forming batch. It starts when the batch is opened, at the
earliest submission among those that join it then, and is not set again. -/

namespace Impl

/-- Every forming batch is the one registered under its key. -/
def Registered (s : Impl) : Prop :=
  Everywhere s.batches fun bid b =>
    b.state = .forming → s.formingByKey[b.key]? = some bid

/-- No member was submitted before the clock of the batch started. -/
def StartsInTime (s : Impl) (b : BatchRec) : Prop :=
  ∀ m ∈ b.members, ∀ r : RequestRec, s.requests[m]? = some r →
    b.formedNs ≤ r.submitted

def Clocked (s : Impl) : Prop :=
  Everywhere s.batches fun _ b => b.state = .forming → s.StartsInTime b

/-- What forms now has formed before, under the same clock, is registered if it
was then, and has gained no member. -/
def FormedBefore (s s' : Impl) (bid : BatchId) (b' : BatchRec) : Prop :=
  b'.state = .forming → ∃ b, s.batches[bid]? = some b ∧
    b.state = .forming ∧ b'.key = b.key ∧ b'.formedNs = b.formedNs ∧
    b'.members ⊆ b.members ∧
    (s.formingByKey[b.key]? = some bid → s'.formingByKey[b.key]? = some bid)

/-- No batch starts to form, and none that is forming gains a member. -/
structure Narrows (s s' : Impl) : Prop where
  forming : Everywhere s'.batches (FormedBefore s s')
  requests : Evolves SameSubmission s.requests s'.requests

theorem StartsInTime.narrow {s s' : Impl} {b b' : BatchRec}
    (starts : s.StartsInTime b)
    (known : ∀ m ∈ b.members, ∃ r, s.requests[m]? = some r)
    (requests : Evolves SameSubmission s.requests s'.requests)
    (clock : b'.formedNs = b.formedNs) (members : b'.members ⊆ b.members) :
    s'.StartsInTime b' := by
  intro m member r' found'
  obtain ⟨r, found⟩ := known m (members member)
  obtain ⟨r'', found'', _, time⟩ := requests m r found
  rw [found'] at found''
  cases found''
  rw [clock, time]
  exact starts m (members member) r found

namespace Narrows

variable {s s' s'' : Impl}

/-- Where batches that are forming have formed as they are. -/
theorem of_unchanged (requests : Evolves SameSubmission s.requests s'.requests)
    (forming : ∀ (bid : BatchId) (b : BatchRec), s'.batches[bid]? = some b →
      b.state = .forming → s.batches[bid]? = some b ∧
        (s.formingByKey[b.key]? = some bid →
          s'.formingByKey[b.key]? = some bid)) : Narrows s s' where
  forming := by
    intro bid b found' isForming
    obtain ⟨found, registered⟩ := forming bid b found' isForming
    exact ⟨b, found, isForming, rfl, rfl, fun _ member => member, registered⟩
  requests := requests

theorem of_batches (requests : Evolves SameSubmission s.requests s'.requests)
    (batches : s'.batches = s.batches)
    (registry : s'.formingByKey = s.formingByKey) : Narrows s s' := by
  apply of_unchanged requests
  intro bid b found _
  rw [batches] at found
  rw [registry]
  exact ⟨found, id⟩

theorem refl (s : Impl) : Narrows s s :=
  of_batches (.refl SameSubmission.refl s.requests) rfl rfl

theorem trans (first : Narrows s s') (second : Narrows s' s'') :
    Narrows s s'' where
  forming := by
    intro bid b'' found'' forming''
    obtain ⟨b', found', forming', key', clock', members', registered'⟩ :=
      second.forming bid b'' found'' forming''
    obtain ⟨b, found, forming, key, clock, members, registered⟩ :=
      first.forming bid b' found' forming'
    refine ⟨b, found, forming, key'.trans key, clock'.trans clock,
      fun _ member => members (members' member), ?_⟩
    intro at_key
    rw [key] at registered'
    exact registered' (registered at_key)
  requests := Evolves.trans SameSubmission.trans first.requests
    second.requests

/-- Updates in place that leave the clocks. -/
theorem inPlace (kept : InPlace s s')
    (clocks : ∀ bid : BatchId, (s'.batches[bid]?).map (·.formedNs) =
      (s.batches[bid]?).map (·.formedNs)) : Narrows s s' where
  forming := by
    intro bid b' found' forming'
    obtain ⟨b, found, sublist, advanced⟩ := kept.shrinking bid b' found'
    have fixed := kept.batches bid
    have clock := clocks bid
    rw [found, found'] at fixed clock
    have key : b'.key = b.key :=
      congrArg (fun fixed => fixed.2.1) (Option.some.inj fixed)
    rw [forming'] at advanced
    refine ⟨b, found, BatchState.forming_of_stage advanced, key,
      Option.some.inj clock, fun _ member => sublist.subset member, ?_⟩
    rw [kept.registered]
    exact id
  requests := SameFixed.evolves kept.requests

theorem starts (narrows : Narrows s s') (wellFormed : WellFormed s)
    {bid : BatchId} {b' : BatchRec} (found' : s'.batches[bid]? = some b')
    (forming' : b'.state = .forming) (clocked : Clocked s) :
    s'.StartsInTime b' := by
  obtain ⟨b, found, forming, _, clock, members, _⟩ :=
    narrows.forming bid b' found' forming'
  exact (clocked bid b found forming).narrow
    (fun _ member => wellFormed.found_member found member) narrows.requests
    clock members

theorem clocked (narrows : Narrows s s') (wellFormed : WellFormed s)
    (clocked : Clocked s) : Clocked s' :=
  fun _ _ found' forming' => narrows.starts wellFormed found' forming' clocked

theorem registered (narrows : Narrows s s') (registered : Registered s) :
    Registered s' := by
  intro bid b' found' forming'
  obtain ⟨b, found, forming, key, _, _, kept⟩ :=
    narrows.forming bid b' found' forming'
  rw [key]
  exact kept (registered bid b found forming)

theorem doSubmit (policy : BatchPolicy) (wellFormed : WellFormed s)
    (metadata : RequestMetadata) (now : TimePoint) :
    Narrows s (s.doSubmit policy metadata now).2 := by
  have requests : Evolves SameSubmission s.requests
      (s.doSubmit policy metadata now).2.requests :=
    evolves_doSubmit wellFormed metadata now
  obtain ⟨stats, taken⟩ | ⟨_, ⟨_, _, _, _, taken⟩ | ⟨_, _, taken⟩⟩ :=
    doSubmit_cases policy s metadata now
  · rw [taken] at requests ⊢
    exact of_batches requests rfl rfl
  · rw [taken] at requests ⊢
    exact of_batches requests rfl rfl
  · rw [taken] at requests ⊢
    exact of_batches requests rfl rfl

theorem doCancel (policy : BatchPolicy) (s : Impl) (id : RequestId)
    (now : TimePoint) : Narrows s (s.doCancel policy id now).2 := by
  obtain unchanged | ⟨r, _, _, ⟨_, outside⟩ |
      ⟨_, b, _, ⟨_, forming⟩ | ⟨_, later⟩⟩⟩ := doCancel_cases policy s id now
  · rw [unchanged]
    exact refl s
  · rw [outside]
    exact inPlace (.cancelOutside s id r now) fun _ => rfl
  · rw [forming]
    exact inPlace (.cancelForming policy s id r now)
      (map_getElem?_modify (fun _ => by rfl) s.batches r.batch)
  · rw [later]
    exact inPlace (.cancelAfterSeal s id r now)
      (map_getElem?_modify (fun _ => by rfl) s.batches r.batch)

theorem expireWaiting (now : TimePoint) (s : Impl) (id : RequestId) :
    Narrows s (expireWaiting now s id) := by
  have requests := SameFixed.expireWaiting s now id
  obtain unchanged | ⟨r, _, ⟨_, removed⟩ | ⟨_, stats, ended⟩⟩ :=
    expireWaiting_cases now s id
  · rw [unchanged]
    exact refl s
  · rw [removed] at requests ⊢
    exact of_batches requests.evolves rfl rfl
  · rw [ended] at requests ⊢
    exact of_batches requests.evolves rfl rfl

theorem expireLocked (policy : BatchPolicy) (s : Impl)
    (order : List CompatibilityKey) (now : TimePoint) :
    Narrows s (s.expireLocked policy order now) :=
  kept_expireLocked (Narrows s)
    (fun current id narrows => narrows.trans (expireWaiting now current id))
    (fun current id narrows => narrows.trans (doCancel policy current id now))
    (refl s) order

theorem retryQueued (policy : BatchPolicy) (s : Impl) (id : RequestId)
    (now : TimePoint) : Narrows s (s.retryQueued policy id now).2 := by
  have requests := SameFixed.retryQueued policy s now id
  obtain ⟨err, refused⟩ | ⟨r, _, _, _, queued⟩ :=
    retryQueued_cases policy s id now
  · rw [refused]
    exact refl s
  · rw [queued] at requests ⊢
    exact of_batches requests.evolves rfl rfl

/-- Of two batches of one key only one is registered. -/
theorem sealForming {bid : BatchId} {b : BatchRec}
    (at_key : s.formingByKey[b.key]? = some bid) (reason : SealReason)
    (now : TimePoint) : Narrows s (s.sealForming bid b reason now) := by
  apply of_unchanged (SameFixed.sealForming s now bid b reason).evolves
  intro other b' found' forming'
  obtain ⟨before, found, ⟨_, changed⟩ | ⟨different, unchanged⟩⟩ :=
    getElem?_modify_cases found'
  · rw [changed] at forming'
    cases forming'
  · subst unchanged
    refine ⟨found, ?_⟩
    intro registered
    have apart : b.key ≠ b'.key := by
      intro same
      rw [← same, at_key] at registered
      exact different (Option.some.inj registered)
    unfold Impl.sealForming
    dsimp only
    rw [getElem?_erase, if_neg apart]
    exact registered

theorem splitSealed {bid : BatchId} {b : BatchRec}
    (isSealed : b.state = .sealed) : Narrows s (s.splitSealed bid b) := by
  have requests : SameFixed s.requests (s.splitSealed bid b).requests :=
    fixed_splitRequests s bid { value := s.nextBatch } b
  apply of_unchanged requests.evolves
  intro other b' found' forming'
  rcases found_splitSealed found' with
    ⟨_, _, state⟩ | ⟨_, _, state⟩ | ⟨_, state⟩ | ⟨_, found⟩
  · rw [forming'] at state
    cases state
  · rw [forming', isSealed] at state
    cases state
  · rw [forming'] at state
    cases state
  · exact ⟨found, id⟩

/-- A batch past forming takes the place of one that is, too. -/
theorem splitOpen {bid : BatchId} {b : BatchRec} (closed : b.state ≠ .forming)
    (vacant : ∀ other, s.formingByKey[b.key]? = some other →
      ∀ c : BatchRec, s.batches[other]? = some c → c.state ≠ .forming) :
    Narrows s (s.splitOpen bid b) := by
  have requests : SameFixed s.requests (s.splitOpen bid b).requests :=
    fixed_splitRequests s bid { value := s.nextBatch } b
  apply of_unchanged requests.evolves
  intro other b' found' forming'
  rcases found_splitOpen found' with
    ⟨_, _, state⟩ | ⟨_, _, state⟩ | ⟨_, found⟩
  · exact absurd (state.symm.trans forming') closed
  · exact absurd (state.symm.trans forming') closed
  · refine ⟨found, ?_⟩
    intro registered
    have apart : b.key ≠ b'.key := by
      intro same
      rw [← same] at registered
      exact vacant other registered b' found forming'
    unfold Impl.splitOpen
    dsimp only
    rw [getElem?_insert, if_neg apart]
    exact registered

/-- A merge of two batches that are past forming, or of one with itself. -/
theorem mergeInto {aid bid : BatchId} {a b : BatchRec}
    (states : a.state = b.state)
    (same : b.state = .forming → aid = bid) :
    Narrows s (s.mergeInto aid bid a b) := by
  apply of_unchanged (SameFixed.mergeInto s aid bid a b).evolves
  intro other b' found' forming'
  rcases found_mergeInto found' with
    ⟨_, state⟩ | ⟨_, different, _, state⟩ | ⟨_, different, found⟩
  · rw [forming'] at state
    cases state
  · exact absurd (same (states.symm.trans (state.symm.trans forming')))
      different
  · refine ⟨found, ?_⟩
    intro registered
    unfold Impl.mergeInto
    dsimp only
    split
    · next listed =>
        have apart : b.key ≠ b'.key := by
          intro equal
          rw [← equal, listed] at registered
          exact different (Option.some.inj registered).symm
        rw [getElem?_insert, if_neg apart]
        exact registered
    · exact registered

theorem recordRule (policy : BatchPolicy) (now : TimePoint) (s : Impl) :
    RecordRule policy now (fun _ _ _ => true) (Narrows s) where
  count _ _ narrows :=
    narrows.trans (of_batches (.refl SameSubmission.refl _) rfl rfl)
  conclude s' r _ mc state fairness stats narrows _ _ :=
    narrows.trans (inPlace (.conclude s' r mc state now fairness stats)
      ((OutcomeFrame.conclude s' r mc state now fairness stats).view
        (·.formedNs) fun _ => rfl))
  requeue s' r _ mc state fairness stats narrows _ _ _ _ _ :=
    (narrows.trans (inPlace (.conclude s' r mc state now fairness stats)
      ((OutcomeFrame.conclude s' r mc state now fairness stats).view
        (·.formedNs) fun _ => rfl))).trans
      (of_batches (SameFixed.requeue _ mc.request r _).evolves rfl rfl)
  dispatch s' bid _ worker boot narrows found isSealed :=
    narrows.trans (inPlace (.markDispatched found isSealed worker boot now)
      (map_getElem?_modify (fun _ => by rfl) s'.batches bid))
  running s' bid _ narrows found dispatched :=
    narrows.trans (inPlace (.markRunning found dispatched)
      (map_getElem?_modify (fun _ => by rfl) s'.batches bid))
  finish s' bid _ worker narrows found inFlight := by
    apply narrows.trans
    apply inPlace (.finishBatch found inFlight worker now)
    obtain unchanged | ⟨_, stats, workers, _, ⟨_, ended⟩ | ⟨_, ended⟩⟩ :=
      finishBatch_cases s' bid worker now
    · rw [unchanged]
      exact fun _ => rfl
    · rw [ended]
      exact map_getElem?_modify (fun _ => by rfl) s'.batches bid
    · rw [ended]
      exact map_getElem?_modify (fun _ => by rfl) s'.batches bid

end Narrows

/-! Opening and filling. -/

namespace Registered

variable {s : Impl}

theorem fresh : Registered fresh :=
  everywhere_empty

theorem openForming (registered : Registered s) {key : CompatibilityKey}
    (unregistered : s.formingByKey[key]? = none) (now : TimePoint) :
    Registered (s.openForming key now) := by
  intro bid b found forming
  unfold Impl.openForming
  dsimp only
  obtain ⟨rfl, rfl⟩ | before := found_openForming found
  · exact Std.ExtTreeMap.getElem?_insert_self
  · have at_key := registered bid b before forming
    have apart : key ≠ b.key := by
      rintro rfl
      rw [unregistered] at at_key
      cases at_key
    rw [getElem?_insert, if_neg apart]
    exact at_key

theorem modify (registered : Registered s) (bid : BatchId)
    {change : BatchRec → BatchRec}
    (same : ∀ b, (change b).state = b.state ∧ (change b).key = b.key) :
    Registered { s with batches := s.batches.modify bid change } := by
  intro other b' found' forming'
  obtain ⟨b, found, ⟨_, changed⟩ | ⟨_, unchanged⟩⟩ :=
    getElem?_modify_cases found'
  · rw [changed] at forming' ⊢
    rw [(same b).1] at forming'
    rw [(same b).2]
    exact registered other b found forming'
  · subst unchanged
    exact registered other b' found forming'

theorem tickRule (policy : BatchPolicy) (now : TimePoint) :
    TickRule policy now fun s => WellFormed s ∧ Registered s where
  wellFormed _ held := held.1
  expire s id held := ⟨held.1.expireWaiting now id,
    (Narrows.expireWaiting now s id).registered held.2⟩
  cancel s id held := ⟨held.1.doCancel policy id now,
    (Narrows.doCancel policy s id now).registered held.2⟩
  openForming _ key held unregistered :=
    ⟨held.1.openForming key now, held.2.openForming unregistered now⟩
  place s bid key pick b r held placing := by
    refine ⟨(WellFormed.tickRule policy now).place s bid key pick b r held.1
      placing, ?_⟩
    rw [place_eq placing.request]
    exact held.2.modify bid fun _ => ⟨rfl, rfl⟩
  retime s bid change held retimes := by
    refine ⟨held.1.retime bid retimes, held.2.modify bid ?_⟩
    intro b
    obtain ⟨allowed, formed, changed⟩ := retimes b
    rw [changed]
    exact ⟨rfl, rfl⟩
  close s bid b reason held found forming :=
    ⟨held.1.sealForming found forming reason now,
      (Narrows.sealForming (held.2 bid b found forming) reason
        now).registered held.2⟩
  merge s aid bid a b held merging :=
    ⟨held.1.mergeInto merging.first merging.second merging.keyed,
      (Narrows.mergeInto
        (merging.firstSealed.trans merging.secondSealed.symm)
        (by rw [merging.secondSealed]; exact nofun)).registered held.2⟩

theorem doTick (registered : Registered s) (wellFormed : WellFormed s)
    (policy : BatchPolicy) (order : List CompatibilityKey) (now : TimePoint) :
    Registered (s.doTick policy order now) :=
  ((tickRule policy now).doTick
    (fun _ _ _ held found isSealed _ => ⟨held.1.splitSealed found,
      (Narrows.splitSealed isSealed).registered held.2⟩)
    ⟨wellFormed, registered⟩ order).2

end Registered

/-- The clock of an opened batch is set no later than any of its members was
submitted. -/
theorem startsInTime_setFormed {s : Impl} {bid : BatchId} {b b' : BatchRec}
    {now : TimePoint}
    (changed : b' = { b with
      formedNs := b.members.foldl (fun earliest m =>
        match s.requests[m]? with
        | none => earliest
        | some r => if r.submitted < earliest then r.submitted else earliest)
        now }) : (s.setFormed bid now).StartsInTime b' := by
  subst changed
  intro m member r found
  have found : s.requests[m]? = some r := found
  apply Transition.run_establishes (fun _ : TimePoint => True)
    (fun earliest => earliest ≤ r.submitted) _ _ _ member trivial
  · exact fun _ _ _ _ => trivial
  · intro earliest next _ before
    split
    · exact before
    · split
      · next later => exact Int.le_trans (Int.le_of_lt later) before
      · exact before
  · intro earliest _
    rw [found]
    dsimp only
    split
    · exact Int.le_refl _
    · next sooner => exact Int.not_lt.mp sooner

theorem clocked_makeForming {s : Impl} (wellFormed : WellFormed s)
    (clocked : Clocked s) (policy : BatchPolicy) (key : CompatibilityKey)
    (now : TimePoint) : Clocked (s.makeForming policy key now) := by
  let bid : BatchId := { value := s.nextBatch }
  let filled : Impl := ((s.openForming key now).fillForming policy bid key
    now).setAllowedWait policy bid now
  have frame : FillFrame bid (s.openForming key now) filled :=
    (FillFrame.fillForming policy _ bid key now).trans
      (FillFrame.setAllowedWait policy _ bid now)
  have requests : SameFixed s.requests filled.requests := frame.requests
  show Clocked (filled.setFormed bid now)
  intro other b' found' forming'
  obtain ⟨b, found, ⟨_, changed⟩ | ⟨different, unchanged⟩⟩ :=
    getElem?_modify_cases found'
  · exact startsInTime_setFormed changed
  · subst unchanged
    rw [frame.elsewhere other different] at found
    obtain ⟨same, _⟩ | before := found_openForming found
    · exact absurd same.symm different
    · exact (clocked other b' before forming').narrow
        (fun _ member => wellFormed.found_member before member)
        requests.evolves rfl fun _ member => member

/-- A tick begins to fill batches whose clocks are right. -/
theorem clocked_formedState {policy : BatchPolicy} {s : Impl}
    (wellFormed : WellFormed s) (clocked : Clocked s)
    (order : List CompatibilityKey) (now : TimePoint) :
    Clocked (s.formedState policy order now) := by
  have rule := WellFormed.tickRule policy now
  have expired : WellFormed (s.expireLocked policy order now) :=
    rule.expireLocked wellFormed order
  have kept : ∀ (current : Impl) (key : CompatibilityKey),
      WellFormed current ∧ Clocked current →
        WellFormed (formMissing policy now current key) ∧
          Clocked (formMissing policy now current key) := by
    rintro current key ⟨formed, clocks⟩
    refine ⟨rule.formMissing formed key, ?_⟩
    unfold formMissing
    split
    · exact clocks
    · exact clocked_makeForming formed clocks policy key now
  have both : WellFormed (s.formedState policy order now) ∧ _ :=
    Transition.run_invariant (fun current => WellFormed current ∧
        Clocked current)
      (fun current key _ => kept current key)
      ⟨expired, (Narrows.expireLocked policy s order now).clocked wellFormed
        clocked⟩
  exact both.2

end Impl

end BatchFabric
