import BatchFabric.Safety.RecordRule
import BatchFabric.Safety.SealReport

namespace BatchFabric

open OrderedMap

/-! The rule of batch contents: what holds of each batch and the requests it
lists, given what a joining member, a smaller list and a merge leave of it. -/

theorem accumOf_congr_on {requests requests' : Map RequestId RequestRec}
    {members : List RequestId}
    (same : ∀ m ∈ members, (requests'[m]?).map (·.metadata) =
      (requests[m]?).map (·.metadata)) :
    accumOf requests' members = accumOf requests members := by
  unfold accumOf
  apply List.foldl_ext
  intro accum m member
  have metadata := same m member
  cases found : requests[m]? with
  | none =>
      rw [found, Option.map_none, Option.map_eq_none_iff] at metadata
      rw [metadata]
  | some r =>
      rw [found] at metadata
      obtain ⟨r', found', equal⟩ := Option.map_eq_some_iff.mp metadata
      rw [found']
      dsimp only
      rw [equal]

namespace Impl

theorem metadata_of_fixed {found found' : Option RequestRec}
    (same : found'.map RequestRec.fixed = found.map RequestRec.fixed) :
    found'.map (·.metadata) = found.map (·.metadata) := by
  have read := congrArg (Option.map fun fixed => fixed.2.1) same
  rw [Option.map_map, Option.map_map] at read
  exact read

/-- What holds of every batch. -/
def Contents (P : Map RequestId RequestRec → BatchRec → Prop) (s : Impl) :
    Prop :=
  Everywhere s.batches fun _ b => P s.requests b

/-- A restriction on the merges that are made, by the state they meet. -/
abbrev MergeGuard := Impl → BatchId × BatchId → Bool

/-- What the single updates of a batch keep. `allowed` restricts the
merges. -/
structure ContentRule (policy : BatchPolicy) (allowed : MergeGuard)
    (P : Map RequestId RequestRec → BatchRec → Prop) : Prop where
  congr : ∀ {requests requests' b b'}, b'.members = b.members →
    b'.accum = b.accum →
    (isBatchTerminal b.state = true → isBatchTerminal b'.state = true) →
    (∀ m ∈ b.members, (requests'[m]?).map (·.metadata) =
      (requests[m]?).map (·.metadata)) →
    P requests b → P requests' b'
  empty : ∀ requests b, b.members = [] → b.accum = {} → P requests b
  join : ∀ s bid key pick now b r, WellFormed s →
    Placing policy s bid key pick now b r → P s.requests b →
    P s.requests (b.addMember pick r.metadata)
  part : ∀ requests b b', isBatchTerminal b.state = false →
    b'.members.Sublist b.members →
    b'.accum = accumOf requests b'.members → P requests b → P requests b'
  absorb : ∀ s aid bid a b target, s.batches[aid]? = some a →
    s.batches[bid]? = some b → canMerge policy a b = true →
    allowed s (aid, bid) = true → P s.requests a → P s.requests b →
    target.members = a.members ++ b.members →
    target.accum = accumOf s.requests target.members →
    target.state = (if aid = bid then .superseded else a.state) →
    P s.requests target

/-- A merge that is made is allowed. -/
def allowsMerge (policy : BatchPolicy) (allowed : MergeGuard) (s : Impl)
    (pair : BatchId × BatchId) : Bool :=
  !s.mergeable policy pair || allowed s pair

/-- So is every merge of the pass from this state on. -/
structure AllowsMergePass (policy : BatchPolicy) (allowed : MergeGuard)
    (s : Impl) : Prop where
  along : policy.merge.enabled = true →
    Transition.Along (mergeNeighbours policy)
      (fun current pair =>
        (!decide (current.stats.batchesMerged <
            policy.merge.maxMergesPerCycle.toUInt64) ||
          current.allowsMerge policy allowed pair) = true) s s.mergePairs

/-- Every merge that the operation makes is allowed. -/
def KeepsContents (policy : BatchPolicy) (allowed : MergeGuard) (s : Impl) :
    Op → Prop
  | .merge a b => s.allowsMerge policy allowed (a, b) = true
  | .tick order now =>
      AllowsMergePass policy allowed (s.sealedState policy order now)
  | .retry request order now =>
      match s.retryQueued policy request now with
      | (.error _, _) => True
      | (.ok _, queued) =>
          AllowsMergePass policy allowed (queued.sealedState policy order now)
  | _ => True

instance (policy : BatchPolicy) (allowed : MergeGuard) (s : Impl) :
    Decidable (AllowsMergePass policy allowed s) :=
  decidable_of_iff (policy.merge.enabled = true →
      Transition.Along (mergeNeighbours policy) _ s s.mergePairs)
    ⟨AllowsMergePass.mk, AllowsMergePass.along⟩

instance (policy : BatchPolicy) (allowed : MergeGuard) (s : Impl) (op : Op) :
    Decidable (KeepsContents policy allowed s op) := by
  unfold KeepsContents
  cases op <;> dsimp only <;> try infer_instance
  split <;> infer_instance

theorem allowsMerge_of_mergeable {policy : BatchPolicy} {allowed : MergeGuard}
    {s : Impl} {aid bid : BatchId} {a b : BatchRec}
    (first : s.batches[aid]? = some a) (second : s.batches[bid]? = some b)
    (possible : canMerge policy a b = true)
    (allows : s.allowsMerge policy allowed (aid, bid) = true) :
    allowed s (aid, bid) = true := by
  simpa [allowsMerge, mergeable, first, second, possible] using allows

namespace ContentRule

variable {policy : BatchPolicy} {allowed : MergeGuard}
  {P : Map RequestId RequestRec → BatchRec → Prop}
  (rule : ContentRule policy allowed P) {s : Impl}

include rule

/-- Updates that leave the requests' metadata: the batches are read with the
requests as they were. -/
theorem carry {s' : Impl}
    (requests : ∀ id : RequestId,
      (s'.requests[id]?).map RequestRec.fixed =
        (s.requests[id]?).map RequestRec.fixed)
    (batches : Everywhere s'.batches fun _ b => P s.requests b) :
    s'.Contents P :=
  fun bid b found => rule.congr rfl rfl id
    (fun m _ => metadata_of_fixed (requests m)) (batches bid b found)

theorem modified (contents : s.Contents P) (bid : BatchId)
    {change : BatchRec → BatchRec}
    (members : ∀ b, (change b).members = b.members)
    (accum : ∀ b, (change b).accum = b.accum)
    (ends : ∀ b, s.batches[bid]? = some b → isBatchTerminal b.state = true →
      isBatchTerminal (change b).state = true) :
    Everywhere (s.batches.modify bid change) fun _ b => P s.requests b :=
  Everywhere.modify contents fun b found held =>
    rule.congr (members b) (accum b) (ends b found) (fun _ _ => rfl) held

/-- The requests stay in place, and the batches as they are. -/
theorem inPlace {s' : Impl} (contents : s.Contents P) (kept : InPlace s s')
    (batches : s'.batches = s.batches) : s'.Contents P := by
  apply rule.carry kept.requests
  rw [batches]
  exact contents

theorem doCancel (contents : s.Contents P) (id : RequestId)
    (now : TimePoint) : (s.doCancel policy id now).2.Contents P := by
  obtain unchanged | ⟨r, _, _, ⟨_, outside⟩ |
      ⟨_, b, found, ⟨forming, left⟩ | ⟨_, later⟩⟩⟩ :=
    doCancel_cases policy s id now
  · rw [unchanged]
    exact contents
  · rw [outside]
    exact rule.inPlace contents (InPlace.cancelOutside s id r now) rfl
  · rw [left]
    apply rule.carry (InPlace.cancelForming policy s id r now).requests
    apply Everywhere.modify contents
    intro b' at_batch held
    rw [found] at at_batch
    cases at_batch
    apply rule.part s.requests b _ _ List.filter_sublist rfl held
    rw [forming]
    rfl
  · rw [later]
    apply rule.carry (InPlace.cancelAfterSeal s id r now).requests
    exact rule.modified contents r.batch (fun _ => by rfl) (fun _ => by rfl)
      fun _ _ ended => ended

theorem expireWaiting (contents : s.Contents P) (now : TimePoint)
    (id : RequestId) : (expireWaiting now s id).Contents P := by
  obtain unchanged | ⟨r, _, ⟨_, removed⟩ | ⟨_, stats, expired⟩⟩ :=
    expireWaiting_cases now s id
  · rw [unchanged]
    exact contents
  · rw [removed]
    exact rule.inPlace contents (InPlace.dequeue s r.key id) rfl
  · rw [expired]
    exact rule.inPlace (rule.inPlace contents (InPlace.dequeue s r.key id) rfl)
      (InPlace.endRequest _ id r .expired .expired now stats) rfl

theorem openForming (contents : s.Contents P) (key : CompatibilityKey)
    (now : TimePoint) : (s.openForming key now).Contents P :=
  rule.carry (fun _ => rfl)
    (Everywhere.insert contents (rule.empty s.requests _ rfl rfl))

theorem place (contents : s.Contents P) (wellFormed : WellFormed s)
    {bid : BatchId} {key : CompatibilityKey} {pick : RequestId}
    {now : TimePoint} {b : BatchRec} {r : RequestRec}
    (placing : Placing policy s bid key pick now b r) :
    (s.place bid key pick).Contents P := by
  rw [place_eq placing.request]
  apply rule.carry (map_getElem?_modify (fun _ => by rfl) s.requests pick)
  apply Everywhere.modify contents
  intro before found held
  rw [placing.batch] at found
  cases found
  exact rule.join s bid key pick now b r wellFormed placing held

theorem retime (contents : s.Contents P) (bid : BatchId)
    {change : BatchRec → BatchRec} (retimes : Retimes change) :
    ({ s with batches := s.batches.modify bid change } : Impl).Contents P := by
  apply rule.modified contents bid
  · intro b
    obtain ⟨allowed, formed, changed⟩ := retimes b
    rw [changed]
  · intro b
    obtain ⟨allowed, formed, changed⟩ := retimes b
    rw [changed]
  · intro b _
    obtain ⟨allowed, formed, changed⟩ := retimes b
    rw [changed]
    exact id

theorem sealForming (contents : s.Contents P) {bid : BatchId} {b : BatchRec}
    (found : s.batches[bid]? = some b) (forming : b.state = .forming)
    (reason : SealReason) (now : TimePoint) :
    (s.sealForming bid b reason now).Contents P := by
  apply rule.carry
    (map_getElem?_modifyAll (fixed_advance _ _) s.requests b.members)
  apply rule.modified contents bid (fun _ => by rfl) (fun _ => by rfl)
  intro b' at_bid ended
  rw [found] at at_bid
  cases at_bid
  rw [forming] at ended
  cases ended

/-- A part of a batch that goes on, with the totals of a table in which
requests have moved. -/
theorem halved (contents : s.Contents P) {bid : BatchId} {b b' : BatchRec}
    (found : s.batches[bid]? = some b) (possible : splittable b = true)
    (part : b'.members.Sublist b.members)
    {requests : Map RequestId RequestRec}
    (moved : ∀ id : RequestId, (requests[id]?).map RequestRec.fixed =
      (s.requests[id]?).map RequestRec.fixed)
    (accum : b'.accum = accumOf requests b'.members) : P s.requests b' := by
  have going : isBatchTerminal b.state = false := by
    cases ended : isBatchTerminal b.state with
    | false => rfl
    | true => simp [splittable, ended] at possible
  apply rule.part s.requests b b' going part _ (contents bid b found)
  rw [accum]
  exact accumOf_congr_on fun m _ => metadata_of_fixed (moved m)

theorem splitSealed (contents : s.Contents P) {bid : BatchId} {b : BatchRec}
    (found : s.batches[bid]? = some b) (possible : splittable b = true) :
    (s.splitSealed bid b).Contents P := by
  have moved := fixed_splitRequests s bid { value := s.nextBatch } b
  have first := List.take_sublist (b.members.length / 2) b.members
  have second := List.drop_sublist (b.members.length / 2) b.members
  apply rule.carry moved
  apply Everywhere.insert
  · apply Everywhere.insert
    · apply Everywhere.insert contents
      exact rule.halved contents found possible first moved rfl
    · exact rule.halved contents found possible second moved rfl
  · exact rule.halved contents found possible first moved rfl

theorem splitOpen (contents : s.Contents P) {bid : BatchId} {b : BatchRec}
    (found : s.batches[bid]? = some b) (possible : splittable b = true) :
    (s.splitOpen bid b).Contents P := by
  have moved := fixed_splitRequests s bid { value := s.nextBatch } b
  have first := List.take_sublist (b.members.length / 2) b.members
  have second := List.drop_sublist (b.members.length / 2) b.members
  apply rule.carry moved
  apply Everywhere.insert
  · apply Everywhere.insert contents
    exact rule.halved contents found possible first moved rfl
  · exact rule.halved contents found possible second moved rfl

theorem mergeInto (contents : s.Contents P) {aid bid : BatchId}
    {a b : BatchRec} (first : s.batches[aid]? = some a)
    (second : s.batches[bid]? = some b)
    (possible : canMerge policy a b = true)
    (allows : allowed s (aid, bid) = true) :
    (s.mergeInto aid bid a b).Contents P := by
  let requests := modifyAll s.requests b.members (RequestRec.setBatch aid)
  have moved : ∀ id : RequestId, (requests[id]?).map RequestRec.fixed =
      (s.requests[id]?).map RequestRec.fixed :=
    map_getElem?_modifyAll (fun _ => by rfl) s.requests b.members
  have totals : ∀ members, accumOf requests members =
      accumOf s.requests members := fun members =>
    accumOf_congr_on fun m _ => metadata_of_fixed (moved m)
  have target : ∀ state, state = (if aid = bid then .superseded else a.state) →
      P s.requests { mergeTarget requests bid a b with state := state } :=
    fun state settled => rule.absorb s aid bid a b _ first second possible
      allows (contents aid a first) (contents bid b second) rfl (totals _)
      settled
  apply rule.carry moved
  intro other record found
  unfold Impl.mergeInto at found
  dsimp only at found
  obtain ⟨before, at_other, ⟨same, changed⟩ | ⟨different, unchanged⟩⟩ :=
    getElem?_modify_cases found
  · subst same changed
    rw [getElem?_insert] at at_other
    split at at_other
    · next same =>
        cases at_other
        exact target .superseded (by rw [if_pos same])
    · rw [second] at at_other
      cases at_other
      exact rule.congr (b := b) rfl rfl (fun _ => rfl) (fun _ _ => rfl)
        (contents bid b second)
  · subst unchanged
    rw [getElem?_insert] at at_other
    split at at_other
    · next same =>
        subst same
        cases at_other
        exact target a.state (by rw [if_neg (Ne.symm different)])
    · exact contents other record at_other

theorem conclude (contents : s.Contents P) (r : RequestRec)
    (mc : MemberCompletion) (state : RequestState) (now : TimePoint)
    (fairness : FairnessController) (stats : BatchStats) :
    ({ s.conclude r mc state now with
      fairness := fairness, stats := stats } : Impl).Contents P := by
  apply rule.carry (InPlace.conclude s r mc state now fairness stats).requests
  apply rule.modified contents r.batch
  · intro b
    exact (conclude_listing b mc).2.1
  · intro b
    unfold BatchRec.conclude
    dsimp only
    split <;> rfl
  · intro b _ ended
    rw [(conclude_listing b mc).2.2.1]
    exact ended

theorem requeue (contents : s.Contents P) (id : RequestId) (r : RequestRec)
    (number : UInt32) : (s.requeue id r number).Contents P :=
  rule.carry (map_getElem?_modify (fun _ => by rfl) s.requests id) contents

/-- A new request is a member of no batch. -/
theorem create (contents : s.Contents P) (wellFormed : WellFormed s)
    {s' : Impl} {r : RequestRec}
    (requests : s'.requests =
      s.requests.insert { value := s.nextRequest } r)
    (batches : s'.batches = s.batches) : s'.Contents P := by
  intro bid b found
  rw [batches] at found
  apply rule.congr rfl rfl (fun ended => ended) _ (contents bid b found)
  intro m member
  rw [requests, getElem?_insert, if_neg (wellFormed.ne_of_member found member)]

/-! Over a tick, a report and any operation. -/

theorem placeRule (now : TimePoint) :
    PlaceRule policy now (fun s => WellFormed s ∧ s.Contents P) where
  wellFormed _ held := held.1
  openForming _ key held _ :=
    ⟨held.1.openForming key now, rule.openForming held.2 key now⟩
  place s bid key pick b r held placing :=
    ⟨(WellFormed.tickRule policy now).place s bid key pick b r held.1 placing,
      rule.place held.2 held.1 placing⟩
  retime _ bid _ held retimes :=
    ⟨held.1.retime bid retimes, rule.retime held.2 bid retimes⟩

theorem expireLocked (contents : s.Contents P) (order : List CompatibilityKey)
    (now : TimePoint) : (s.expireLocked policy order now).Contents P :=
  kept_expireLocked (Contents P)
    (fun _ id held => rule.expireWaiting held now id)
    (fun _ id held => rule.doCancel held id now) contents order

theorem sealedState (wellFormed : WellFormed s) (contents : s.Contents P)
    (order : List CompatibilityKey) (now : TimePoint) :
    WellFormed (s.sealedState policy order now) ∧
      (s.sealedState policy order now).Contents P := by
  have expired : WellFormed (s.expireLocked policy order now) ∧
      (s.expireLocked policy order now).Contents P :=
    ⟨(WellFormed.tickRule policy now).expireLocked wellFormed order,
      rule.expireLocked contents order now⟩
  apply (rule.placeRule now).sealPass _
    ((rule.placeRule now).formPass expired order)
  exact fun _ _ _ reason held found forming =>
    ⟨held.1.sealForming found forming reason now,
      rule.sealForming held.2 found forming reason now⟩

theorem mergePass (wellFormed : WellFormed s) (contents : s.Contents P)
    (guarded : AllowsMergePass policy allowed s) :
    WellFormed (s.mergePass policy) ∧ (s.mergePass policy).Contents P := by
  unfold Impl.mergePass
  split
  · next enabled =>
      apply (guarded.along enabled).invariant
        (fun s => WellFormed s ∧ s.Contents P) _ ⟨wellFormed, contents⟩
      intro current pair _ held allows
      unfold mergeNeighbours
      split
      · next room =>
          obtain unchanged | ⟨a, b, first, second, possible, merged⟩ :=
            doMerge_cases policy current pair.1 pair.2
          · rw [unchanged]
            exact held
          · rw [merged]
            refine ⟨held.1.mergeInto first second (canMerge_cases possible).1,
              rule.mergeInto held.2 first second possible ?_⟩
            apply allowsMerge_of_mergeable first second possible
            simpa [room] using allows
      · exact held
  · exact ⟨wellFormed, contents⟩

theorem sizePass (wellFormed : WellFormed s) (contents : s.Contents P) :
    s.sizePass.Contents P := by
  have passed : WellFormed s.sizePass ∧ s.sizePass.Contents P := by
    unfold Impl.sizePass
    apply Transition.run_invariant (fun s : Impl => WellFormed s ∧ s.Contents P)
    · intro current i _ held
      obtain unchanged | ⟨bid, b, found, _, possible, _, taken⟩ :=
        splitOversized_cases held.1 i
      · rw [unchanged]
        exact held
      · rw [taken]
        exact ⟨held.1.splitSealed found,
          rule.splitSealed held.2 found possible⟩
    · exact ⟨wellFormed, contents⟩
  exact passed.2

theorem tickUntilSizePass (wellFormed : WellFormed s)
    (contents : s.Contents P) (order : List CompatibilityKey) (now : TimePoint)
    (guarded : AllowsMergePass policy allowed
      (s.sealedState policy order now)) :
    WellFormed (s.tickUntilSizePass policy order now) ∧
      (s.tickUntilSizePass policy order now).Contents P := by
  have closed := rule.sealedState wellFormed contents order now
  rw [tickUntilSizePass_eq]
  generalize s.sealedState policy order now = current at closed guarded ⊢
  exact rule.mergePass closed.1 closed.2 guarded

theorem doTick (wellFormed : WellFormed s) (contents : s.Contents P)
    (order : List CompatibilityKey) (now : TimePoint)
    (guarded : AllowsMergePass policy allowed
      (s.sealedState policy order now)) :
    (s.doTick policy order now).Contents P := by
  have ticked := rule.tickUntilSizePass wellFormed contents order now guarded
  unfold Impl.doTick
  generalize s.tickUntilSizePass policy order now = current at ticked ⊢
  exact rule.sizePass ticked.1 ticked.2

theorem recordRule (now : TimePoint) :
    RecordRule policy now (fun _ _ _ => true) (Contents P) where
  count _ _ contents := contents
  conclude _ r _ mc state fairness stats contents _ _ :=
    rule.conclude contents r mc state now fairness stats
  requeue _ r a mc state fairness stats contents _ _ _ _ _ :=
    rule.requeue (rule.conclude contents r mc state now fairness stats)
      mc.request r (a.number + 1)
  dispatch s bid b worker boot contents found isSealed := by
    apply rule.carry (InPlace.markDispatched found isSealed worker boot
      now).requests
    apply rule.modified contents bid (fun _ => by rfl) (fun _ => by rfl)
    intro b' at_bid ended
    rw [found] at at_bid
    cases at_bid
    rw [isSealed] at ended
    cases ended
  running s bid b contents found dispatched := by
    apply rule.carry (InPlace.markRunning found dispatched).requests
    apply rule.modified contents bid (fun _ => by rfl) (fun _ => by rfl)
    intro b' at_bid ended
    rw [found] at at_bid
    cases at_bid
    rw [dispatched] at ended
    cases ended
  finish s bid b worker contents found inFlight := by
    obtain unchanged | ⟨_, stats, workers, _, ⟨_, ended⟩ | ⟨_, partly⟩⟩ :=
      finishBatch_cases s bid worker now
    · rw [unchanged]
      exact contents
    · rw [ended]
      exact rule.modified contents bid (fun _ => by rfl) (fun _ => by rfl)
        fun _ _ _ => rfl
    · rw [partly]
      apply rule.modified contents bid (fun _ => by rfl) (fun _ => by rfl)
      intro b' at_bid ended
      rw [found] at at_bid
      cases at_bid
      rcases inFlight with state | state
      · rw [state] at ended
        cases ended
      · rw [state] at ended
        cases ended

theorem doSubmit (contents : s.Contents P) (wellFormed : WellFormed s)
    (metadata : RequestMetadata) (now : TimePoint) :
    (s.doSubmit policy metadata now).2.Contents P := by
  obtain ⟨stats, unrecorded⟩ | ⟨_, ⟨state, outcome, stats, _, taken⟩ |
      ⟨fairness, stats, taken⟩⟩ := doSubmit_cases policy s metadata now
  · rw [unrecorded]
    exact contents
  · rw [taken]
    exact rule.create contents wellFormed rfl rfl
  · rw [taken]
    exact rule.create contents wellFormed rfl rfl

theorem doRetry (wellFormed : WellFormed s) (contents : s.Contents P)
    {id : RequestId} {order : List CompatibilityKey} {now : TimePoint}
    (guarded : KeepsContents policy allowed s (.retry id order now)) :
    (s.doRetry policy id order now).2.Contents P := by
  have formed := wellFormed.retryQueued policy id now
  have queued : (s.retryQueued policy id now).2.Contents P := by
    obtain ⟨err, refused⟩ | ⟨r, _, _, _, taken⟩ :=
      retryQueued_cases policy s id now
    · rw [refused]
      exact contents
    · rw [taken]
      exact rule.requeue contents id r _
  unfold KeepsContents at guarded
  dsimp only at guarded
  rcases answer : s.retryQueued policy id now with ⟨err | na, left⟩
  · have unticked : (s.doRetry policy id order now).2 = left := by
      simp only [Impl.doRetry, answer]
    rw [answer] at queued
    rw [unticked]
    exact queued
  · have ticked : (s.doRetry policy id order now).2 =
        left.doTick policy order now := by
      simp only [Impl.doRetry, answer]
    rw [answer] at formed queued guarded
    rw [ticked]
    exact rule.doTick formed queued order now guarded

theorem step (wellFormed : WellFormed s) (contents : s.Contents P) {op : Op}
    (guarded : KeepsContents policy allowed s op) :
    (step policy s op).Contents P := by
  cases op with
  | submit metadata now => exact rule.doSubmit contents wellFormed metadata now
  | cancel request now => exact rule.doCancel contents request now
  | complete completion now =>
      exact (rule.recordRule now).reports.doComplete contents
        (allowsReport_always policy s completion now)
  | sealBatch batch reason now =>
      show (s.sealBatch batch reason now).2.Contents P
      obtain unchanged | ⟨b, found, forming, closed⟩ :=
        sealBatch_cases s batch reason now
      · rw [unchanged]
        exact contents
      · rw [closed]
        exact rule.sealForming contents found forming reason now
  | split batch =>
      show (s.doSplit batch).2.Contents P
      obtain unchanged | ⟨b, found, possible, ⟨_, taken⟩ | ⟨_, taken⟩⟩ :=
        doSplit_cases s batch
      · rw [unchanged]
        exact contents
      · rw [taken]
        exact rule.splitSealed contents found possible
      · rw [taken]
        exact rule.splitOpen contents found possible
  | merge a b =>
      show (s.doMerge policy a b).2.Contents P
      obtain unchanged | ⟨_, _, first, second, possible, merged⟩ :=
        doMerge_cases policy s a b
      · rw [unchanged]
        exact contents
      · rw [merged]
        exact rule.mergeInto contents first second possible
          (allowsMerge_of_mergeable first second possible guarded)
  | retry request order now => exact rule.doRetry wellFormed contents guarded
  | tick order now => exact rule.doTick wellFormed contents order now guarded
  | expire order now => exact rule.expireLocked contents order now
  | dispatchAndRun batch executor now =>
      exact (rule.recordRule now).reports.doDispatchAndRun contents
        (allowsRun_always policy s batch executor now)
  | prepareDispatch batch worker boot now =>
      exact (rule.recordRule now).reports.prepareDispatch contents batch worker
        boot
  | registerWorker worker boot cap => exact contents
  | rollEpoch => exact contents

theorem of_run (ops : List Op)
    (guarded : Transition.Along (BatchFabric.step policy)
      (KeepsContents policy allowed) fresh ops) :
    (run policy ops).Contents P := by
  have held := guarded.invariant (fun s => WellFormed s ∧ s.Contents P)
    (fun _ op _ held allows =>
      ⟨held.1.step op, rule.step held.1 held.2 allows⟩)
    ⟨WellFormed.fresh, everywhere_empty⟩
  exact held.2

end ContentRule

/-! Without a restriction on the merges. -/

theorem allowsMergePass_always (policy : BatchPolicy) (s : Impl) :
    AllowsMergePass policy (fun _ _ => true) s where
  along _ := by
    apply Transition.along_of_forall
    intro current pair
    simp [allowsMerge]

theorem keepsContents_always (policy : BatchPolicy) (s : Impl) (op : Op) :
    KeepsContents policy (fun _ _ => true) s op := by
  cases op with
  | merge a b => simp [KeepsContents, allowsMerge]
  | tick order now => exact allowsMergePass_always policy _
  | retry request order now =>
      unfold KeepsContents
      dsimp only
      split
      · trivial
      · exact allowsMergePass_always policy _
  | _ => trivial

theorem ContentRule.of_reachable {policy : BatchPolicy}
    {P : Map RequestId RequestRec → BatchRec → Prop}
    (rule : ContentRule policy (fun _ _ => true) P) {s : Impl}
    (reachable : Reachable policy s) : s.Contents P := by
  have held := reachable.invariant (fun s => WellFormed s ∧ s.Contents P)
    (fun s op held => ⟨held.1.step op,
      rule.step held.1 held.2 (keepsContents_always policy s op)⟩)
    ⟨WellFormed.fresh, everywhere_empty⟩
  exact held.2

end Impl

end BatchFabric
