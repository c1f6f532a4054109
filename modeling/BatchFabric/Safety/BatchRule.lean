import BatchFabric.Safety.Reachable

namespace BatchFabric.Impl

open OrderedMap

/-! The rule of batch records: a relation that every single update of a batch
keeps relates the records before and after any operation. -/

/-- The operations that merge batches on their own account. -/
def mayMerge (policy : BatchPolicy) : Op → Bool
  | .merge _ _ | .retry _ _ _ | .tick _ _ => policy.merge.enabled
  | _ => false

/-- What the updates of a record that exists do to it. `joins` says which
batches may be filled, and `merges` whether batches are merged at all. -/
structure BatchRule (R : BatchRec → BatchRec → Prop)
    (joins : BatchRec → Prop) (merges : Prop) : Prop where
  refl : ∀ b, R b b
  trans : ∀ {first second third}, R first second → R second third →
    R first third
  join : ∀ b id metadata, joins b → R b (b.addMember id metadata)
  retime : ∀ (b : BatchRec) allowed formed,
    R b { b with allowedWaitNs := allowed, formedNs := formed }
  leave : ∀ (b : BatchRec) requests id, b.state = .forming →
    R b (recomputeAccum requests
      { b with members := b.members.filter (· ≠ id) })
  record : ∀ b b' : BatchRec, b'.listing = b.listing → R b b'
  close : ∀ (b : BatchRec) reason now, b.state = .forming →
    R b { b with state := .sealed, sealReason := reason, sealedNs := now }
  halve : ∀ b requests child, splittable b = true → b.state ≠ .sealed →
    R b (splitParent requests child b)
  replace : ∀ b requests child first, b.state = .sealed →
    R b { splitParent requests child b with
      state := .superseded
      children := (splitParent requests child b).children ++ [first] }
  absorb : ∀ a b requests bid, merges →
    R a (mergeTarget requests bid a b)
  supersede : ∀ b : BatchRec, merges →
    b.state = .sealed ∨ b.state = .forming →
    R b { b with state := .superseded }
  dispatch : ∀ (b : BatchRec) worker boot now, b.state = .sealed →
    R b { b with
      state := .dispatched, dispatchedNs := now, worker := worker,
      boot := boot }
  start : ∀ b : BatchRec, b.state = .dispatched →
    R b { b with state := .running }
  complete : ∀ (b : BatchRec) now, b.state = .dispatched ∨ b.state = .running →
    R b { b with state := .completed, completedNs := now }
  stop : ∀ b : BatchRec, b.state = .dispatched ∨ b.state = .running →
    R b { b with state := .partiallyCompleted }

/-- What every operation keeps that a tick, a split of it and a retry keep. -/
structure TickInvariant (policy : BatchPolicy) (Inv : Impl → Prop) : Prop where
  ticks : ∀ now, TickRule policy now Inv
  split : ∀ s bid b, Inv s → s.batches[bid]? = some b → b.state = .sealed →
    splittable b = true → Inv (s.splitSealed bid b)
  requeue : ∀ s id r number, Inv s → s.requests[id]? = some r →
    Inv (s.requeue id r number)

theorem WellFormed.tickInvariant (policy : BatchPolicy) :
    TickInvariant policy WellFormed where
  ticks := WellFormed.tickRule policy
  split _ _ _ wellFormed found _ _ := wellFormed.splitSealed found
  requeue _ id _ _ wellFormed found :=
    wellFormed.requeue (wellFormed.keyed_of_found found) id _

namespace BatchRule

variable {R : BatchRec → BatchRec → Prop} {joins : BatchRec → Prop}
  {merges : Prop} (rule : BatchRule R joins merges) {s : Impl}

include rule

theorem chain {first second third : Map BatchId BatchRec}
    (earlier : Evolves R first second) (later : Evolves R second third) :
    Evolves R first third :=
  Evolves.trans rule.trans earlier later

/-- A change of one batch whose record is known. -/
theorem modify {bid : BatchId} {b : BatchRec} {change : BatchRec → BatchRec}
    (found : s.batches[bid]? = some b) (related : R b (change b)) :
    Evolves R s.batches (s.batches.modify bid change) := by
  apply Evolves.modify rule.refl
  intro before at_bid
  rw [found] at at_bid
  cases at_bid
  exact related

/-- A batch whose record is known gets a new one. -/
theorem insert {bid : BatchId} {b b' : BatchRec}
    (found : s.batches[bid]? = some b) (related : R b b') :
    Evolves R s.batches (s.batches.insert bid b') := by
  apply Evolves.insert rule.refl
  intro before at_bid
  rw [found] at at_bid
  cases at_bid
  exact related

theorem outcomes {s' : Impl} (frame : OutcomeFrame s s') :
    Evolves R s.batches s'.batches :=
  Evolves.of_view frame.listings rule.record

theorem cancelForming (policy : BatchPolicy) (id : RequestId) {r : RequestRec}
    {b : BatchRec} (found : s.batches[r.batch]? = some b)
    (forming : b.state = .forming) (now : TimePoint) :
    Evolves R s.batches (s.cancelForming policy id r now).batches :=
  rule.modify found
    (rule.trans (rule.leave b s.requests id forming) (rule.retime _ _ _))

theorem cancelAfterSeal (id : RequestId) (r : RequestRec) (now : TimePoint) :
    Evolves R s.batches (s.cancelAfterSeal id r now).batches :=
  Evolves.modify rule.refl s.batches fun b _ => rule.record b _ rfl

theorem doCancel (policy : BatchPolicy) (id : RequestId) (now : TimePoint) :
    Evolves R s.batches (s.doCancel policy id now).2.batches := by
  obtain unchanged | ⟨r, _, _, ⟨_, outside⟩ |
      ⟨_, b, found, ⟨forming, left⟩ | ⟨_, later⟩⟩⟩ :=
    doCancel_cases policy s id now
  · rw [unchanged]
    exact .refl rule.refl s.batches
  · rw [outside]
    exact .refl rule.refl s.batches
  · rw [left]
    exact rule.cancelForming policy id found forming now
  · rw [later]
    exact rule.cancelAfterSeal id r now

theorem expireWaiting (now : TimePoint) (id : RequestId) :
    Evolves R s.batches (expireWaiting now s id).batches := by
  obtain unchanged | ⟨r, _, ⟨_, removed⟩ | ⟨_, stats, ended⟩⟩ :=
    expireWaiting_cases now s id
  · rw [unchanged]
    exact .refl rule.refl s.batches
  · rw [removed]
    exact .refl rule.refl s.batches
  · rw [ended]
    exact .refl rule.refl s.batches

theorem openForming (wellFormed : WellFormed s) (key : CompatibilityKey)
    (now : TimePoint) :
    Evolves R s.batches (s.openForming key now).batches :=
  Evolves.insert_absent rule.refl
    (wellFormed.no_batch (Nat.le_refl s.nextBatch)) _

theorem place {bid : BatchId} {b : BatchRec} {pick : RequestId}
    {r : RequestRec} (found : s.batches[bid]? = some b) (joining : joins b)
    (request : s.requests[pick]? = some r) (key : CompatibilityKey) :
    Evolves R s.batches (s.place bid key pick).batches := by
  rw [place_eq request]
  exact rule.modify found (rule.join b pick r.metadata joining)

theorem retimed (bid : BatchId) {change : BatchRec → BatchRec}
    (retimes : Retimes change) :
    Evolves R s.batches (s.batches.modify bid change) := by
  apply Evolves.modify rule.refl
  intro b _
  obtain ⟨allowed, formed, changed⟩ := retimes b
  rw [changed]
  exact rule.retime b allowed formed

theorem sealForming {bid : BatchId} {b : BatchRec}
    (found : s.batches[bid]? = some b) (forming : b.state = .forming)
    (reason : SealReason) (now : TimePoint) :
    Evolves R s.batches (s.sealForming bid b reason now).batches :=
  rule.modify found (rule.close b reason now forming)

theorem splitOpen (wellFormed : WellFormed s) {bid : BatchId} {b : BatchRec}
    (found : s.batches[bid]? = some b) (possible : splittable b = true)
    (unsealed : b.state ≠ .sealed) :
    Evolves R s.batches (s.splitOpen bid b).batches := by
  let child : BatchId := { value := s.nextBatch }
  have unknown : s.batches[child]? = none :=
    wellFormed.no_batch (Nat.le_refl s.nextBatch)
  apply rule.chain
    (rule.insert found (rule.halve b (s.splitRequests bid child b) child
      possible unsealed))
  apply Evolves.insert_absent rule.refl
  rw [getElem?_insert]
  split
  · next same =>
      rw [same, unknown] at found
      cases found
  · exact unknown

theorem splitSealed (wellFormed : WellFormed s) {bid : BatchId} {b : BatchRec}
    (found : s.batches[bid]? = some b) (isSealed : b.state = .sealed) :
    Evolves R s.batches (s.splitSealed bid b).batches := by
  let child : BatchId := { value := s.nextBatch }
  let firstid : BatchId := { value := s.nextBatch + 1 }
  have unknown : s.batches[child]? = none :=
    wellFormed.no_batch (Nat.le_refl s.nextBatch)
  have unknown' : s.batches[firstid]? = none :=
    wellFormed.no_batch (Nat.le_succ s.nextBatch)
  have different : child ≠ firstid := by
    intro same
    have numbers : s.nextBatch = s.nextBatch + 1 :=
      congrArg (fun bid : BatchId => bid.value) same
    omega
  have old : ∀ other, s.batches[other]? = none → bid ≠ other := by
    rintro other absent rfl
    rw [absent] at found
    cases found
  apply rule.chain
    (rule.insert found (rule.replace b (s.splitRequests bid child b) child
      firstid isSealed))
  unfold Impl.splitSealed
  refine rule.chain (Evolves.insert_absent rule.refl ?_ _)
    (Evolves.insert_absent rule.refl ?_ _)
  · rw [getElem?_insert, if_neg (old child unknown)]
    exact unknown
  · rw [getElem?_insert, if_neg different, getElem?_insert,
      if_neg (old firstid unknown')]
    exact unknown'

theorem mergeInto (merging : merges) {aid bid : BatchId} {a b : BatchRec}
    (first : s.batches[aid]? = some a) (second : s.batches[bid]? = some b)
    (states : a.state = b.state)
    (opened : a.state = .sealed ∨ a.state = .forming) :
    Evolves R s.batches (s.mergeInto aid bid a b).batches := by
  apply rule.chain
    (rule.insert first (rule.absorb a b
      (modifyAll s.requests b.members (RequestRec.setBatch aid)) bid merging))
  apply Evolves.modify rule.refl
  intro before at_bid
  apply rule.supersede before merging
  rw [getElem?_insert] at at_bid
  split at at_bid
  · cases at_bid
    exact opened
  · rw [second] at at_bid
    cases at_bid
    exact states ▸ opened

theorem markDispatched {bid : BatchId} {b : BatchRec}
    (found : s.batches[bid]? = some b) (isSealed : b.state = .sealed)
    (worker : WorkerId) (boot : WorkerBootId) (now : TimePoint) :
    Evolves R s.batches (s.markDispatched bid b worker boot now).batches :=
  rule.modify found (rule.dispatch b worker boot now isSealed)

theorem markRunning {bid : BatchId} {b : BatchRec}
    (found : s.batches[bid]? = some b) (dispatched : b.state = .dispatched) :
    Evolves R s.batches (s.markRunning bid b).batches :=
  rule.modify found (rule.start b dispatched)

theorem finishBatch {bid : BatchId} {b : BatchRec}
    (found : s.batches[bid]? = some b)
    (inFlight : b.state = .dispatched ∨ b.state = .running)
    (worker : WorkerId) (now : TimePoint) :
    Evolves R s.batches (s.finishBatch bid worker now).batches := by
  obtain unchanged | ⟨_, stats, workers, _, ⟨_, ended⟩ | ⟨_, partly⟩⟩ :=
    finishBatch_cases s bid worker now
  · rw [unchanged]
    exact .refl rule.refl s.batches
  · rw [ended]
    exact rule.modify found (rule.complete b now inFlight)
  · rw [partly]
    exact rule.modify found (rule.stop b inFlight)

theorem reports (policy : BatchPolicy) (now : TimePoint) (start : Impl) :
    ReportRule policy now (fun _ _ _ => true) fun s =>
      Evolves R start.batches s.batches where
  count _ _ evolved := evolved
  outcome s mc evolved _ :=
    rule.chain evolved
      (rule.outcomes (.applyMemberOutcome policy now s mc))
  dispatch _ _ _ worker boot evolved found isSealed :=
    rule.chain evolved
      (rule.markDispatched found isSealed worker boot now)
  running _ _ _ evolved found dispatched :=
    rule.chain evolved (rule.markRunning found dispatched)
  finish _ _ _ worker evolved found inFlight :=
    rule.chain evolved (rule.finishBatch found inFlight worker now)

section Ticks

variable {policy : BatchPolicy} {Inv : Impl → Prop}
  (invariant : TickInvariant policy Inv)
  (joining : ∀ (s : Impl) (key : CompatibilityKey) (bid : BatchId)
    (b : BatchRec), Inv s → s.formingByKey[key]? = some bid →
    s.batches[bid]? = some b → joins b)

include invariant joining

theorem ticks (merging : policy.merge.enabled = true → merges)
    (now : TimePoint) (start : Impl) :
    TickRule policy now fun s =>
      Inv s ∧ Evolves R start.batches s.batches where
  wellFormed s held := (invariant.ticks now).wellFormed s held.1
  expire s id held :=
    ⟨(invariant.ticks now).expire s id held.1,
      rule.chain held.2 (rule.expireWaiting now id)⟩
  cancel s id held :=
    ⟨(invariant.ticks now).cancel s id held.1,
      rule.chain held.2 (rule.doCancel policy id now)⟩
  openForming s key held unregistered :=
    ⟨(invariant.ticks now).openForming s key held.1 unregistered,
      rule.chain held.2
        (rule.openForming ((invariant.ticks now).wellFormed s held.1) key now)⟩
  place s bid key pick b r held placing :=
    ⟨(invariant.ticks now).place s bid key pick b r held.1 placing,
      rule.chain held.2 (rule.place placing.batch
        (joining s key bid b held.1 placing.registered placing.batch)
        placing.request key)⟩
  retime s bid change held retimes :=
    ⟨(invariant.ticks now).retime s bid change held.1 retimes,
      rule.chain held.2 (rule.retimed bid retimes)⟩
  close s bid b reason held found forming :=
    ⟨(invariant.ticks now).close s bid b reason held.1 found forming,
      rule.chain held.2 (rule.sealForming found forming reason now)⟩
  merge s aid bid a b held taken :=
    ⟨(invariant.ticks now).merge s aid bid a b held.1 taken,
      rule.chain held.2
        (rule.mergeInto (merging (canMerge_enabled taken.possible))
          taken.first taken.second
          (taken.firstSealed.trans taken.secondSealed.symm)
          (.inl taken.firstSealed))⟩

theorem doTick (merging : policy.merge.enabled = true → merges)
    (held : Inv s) (order : List CompatibilityKey) (now : TimePoint) :
    Evolves R s.batches (s.doTick policy order now).batches :=
  ((rule.ticks invariant joining merging now s).doTick
    (fun s bid b held found isSealed possible =>
      ⟨invariant.split s bid b held.1 found isSealed possible,
        rule.chain held.2 (rule.splitSealed
          ((invariant.ticks now).wellFormed s held.1) found isSealed)⟩)
    ⟨held, .refl rule.refl s.batches⟩ order).2

theorem doRetry (merging : policy.merge.enabled = true → merges)
    (held : Inv s) (id : RequestId) (order : List CompatibilityKey)
    (now : TimePoint) :
    Evolves R s.batches (s.doRetry policy id order now).2.batches := by
  have queued : Inv (s.retryQueued policy id now).2 ∧
      (s.retryQueued policy id now).2.batches = s.batches := by
    obtain ⟨err, refused⟩ | ⟨r, found, _, _, requeued⟩ :=
      retryQueued_cases policy s id now
    · rw [refused]
      exact ⟨held, rfl⟩
    · rw [requeued]
      exact ⟨invariant.requeue s id r _ held found, rfl⟩
  rw [doRetry_eq]
  split
  · rw [queued.2]
    exact .refl rule.refl s.batches
  · next taken =>
      rw [taken] at queued
      rw [← queued.2]
      exact rule.doTick invariant joining merging queued.1 order now

/-- Every operation relates the batches before and after it. -/
theorem step (held : Inv s) {op : Op}
    (merging : mayMerge policy op = true → merges) :
    Evolves R s.batches (step policy s op).batches := by
  have wellFormed := (invariant.ticks 0).wellFormed s held
  cases op with
  | submit metadata now =>
      show Evolves R s.batches (s.doSubmit policy metadata now).2.batches
      obtain ⟨stats, taken⟩ | ⟨_, ⟨_, _, _, _, taken⟩ | ⟨_, _, taken⟩⟩ :=
        doSubmit_cases policy s metadata now
      · rw [taken]
        exact .refl rule.refl s.batches
      · rw [taken]
        exact .refl rule.refl s.batches
      · rw [taken]
        exact .refl rule.refl s.batches
  | cancel request now => exact rule.doCancel policy request now
  | complete completion now =>
      exact (rule.reports policy now s).doComplete (.refl rule.refl s.batches)
        (allowsReport_always policy s completion now)
  | sealBatch batch reason now =>
      show Evolves R s.batches (s.sealBatch batch reason now).2.batches
      obtain unchanged | ⟨b, found, forming, closed⟩ :=
        sealBatch_cases s batch reason now
      · rw [unchanged]
        exact .refl rule.refl s.batches
      · rw [closed]
        exact rule.sealForming found forming reason now
  | split batch =>
      show Evolves R s.batches (s.doSplit batch).2.batches
      obtain unchanged | ⟨b, found, possible, ⟨isSealed, taken⟩ |
          ⟨unsealed, taken⟩⟩ := doSplit_cases s batch
      · rw [unchanged]
        exact .refl rule.refl s.batches
      · rw [taken]
        exact rule.splitSealed wellFormed found isSealed
      · rw [taken]
        exact rule.splitOpen wellFormed found possible unsealed
  | merge a b =>
      show Evolves R s.batches (s.doMerge policy a b).2.batches
      obtain unchanged | ⟨first, second, foundA, foundB, possible, merged⟩ :=
        doMerge_cases policy s a b
      · rw [unchanged]
        exact .refl rule.refl s.batches
      · rw [merged]
        obtain ⟨_, _, states, opened⟩ := canMerge_cases possible
        exact rule.mergeInto (merging (canMerge_enabled possible)) foundA
          foundB states opened
  | retry request order now =>
      exact rule.doRetry invariant joining merging held request order now
  | tick order now => exact rule.doTick invariant joining merging held order now
  | expire order now =>
      exact kept_expireLocked (fun s' => Evolves R s.batches s'.batches)
        (fun _ id evolved =>
          rule.chain evolved (rule.expireWaiting now id))
        (fun _ id evolved =>
          rule.chain evolved (rule.doCancel policy id now))
        (.refl rule.refl s.batches) order
  | dispatchAndRun batch executor now =>
      exact (rule.reports policy now s).doDispatchAndRun
        (.refl rule.refl s.batches)
        (allowsRun_always policy s batch executor now)
  | prepareDispatch batch worker boot now =>
      exact (rule.reports policy now s).prepareDispatch
        (.refl rule.refl s.batches) batch worker boot
  | registerWorker worker boot cap => exact .refl rule.refl s.batches
  | rollEpoch => exact .refl rule.refl s.batches

end Ticks

end BatchRule

end BatchFabric.Impl
