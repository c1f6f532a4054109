import BatchFabric.Safety.Cancellation
import BatchFabric.Safety.SealReport

namespace BatchFabric

open OrderedMap

/-! What expiry ends of the requests past their deadlines. It goes through the
waiting index, then through the registered batches. -/

/-- The states of a request whose batch has not been sealed. -/
def awaitsSealing : RequestState → Bool
  | .eligible | .waiting | .reserved => true
  | _ => false

/-- What decides whether a request has run out of time. -/
def RequestRec.due (r : RequestRec) : RequestMetadata × Bool :=
  (r.metadata, isRequestTerminal r.state)

namespace Impl

/-- No request that awaits sealing is past its deadline. -/
def NoneOverdue (s : Impl) (now : TimePoint) : Prop :=
  Everywhere s.requests fun _ r => awaitsSealing r.state = true →
    r.metadata.deadline.expired now = false

def isQueued (s : Impl) (id : RequestId) : Bool :=
  s.waitingIndex.toList.any fun entry => entry.2.contains id

/-- Some registered batch lists the request. -/
def isRegistered (s : Impl) (id : RequestId) : Bool :=
  s.formingByKey.toList.any fun entry => (s.membersOf entry.2).contains id

/-- Expiry comes across every request past its deadline that awaits sealing,
and can end it. -/
def FindsOverdue (s : Impl) (now : TimePoint) : Prop :=
  Everywhere s.requests fun id r => awaitsSealing r.state = true →
    r.metadata.deadline.expired now = true →
    (s.isQueued id || s.isRegistered id && s.leavable r) = true

/-- The request has ended or has time left, or expiry can end it. -/
def canEnd (s : Impl) (now : TimePoint) (id : RequestId) : Bool :=
  match s.requests[id]? with
  | none => true
  | some r =>
      isRequestTerminal r.state || !r.metadata.deadline.expired now ||
        s.isQueued id || s.leavable r

/-- It can end the other members of the registered forming batches, too. -/
def EndsMembers (s : Impl) (now : TimePoint) : Prop :=
  Everywhere s.formingByKey fun _ bid =>
    ∀ b ∈ s.batches[bid]?, b.state = .forming →
      ∀ m ∈ b.members, s.canEnd now m = true

instance (s : Impl) (now : TimePoint) : Decidable (s.NoneOverdue now) :=
  inferInstanceAs (Decidable (Everywhere _ _))

instance (s : Impl) (now : TimePoint) : Decidable (s.FindsOverdue now) :=
  inferInstanceAs (Decidable (Everywhere _ _))

instance (s : Impl) (now : TimePoint) : Decidable (s.EndsMembers now) :=
  inferInstanceAs (Decidable (Everywhere _ _))

/-- The request is known and has ended. -/
def Ended (s : Impl) (id : RequestId) : Prop :=
  ∃ r, s.requests[id]? = some r ∧ isRequestTerminal r.state = true

section Steps

variable {policy : BatchPolicy} {s s' : Impl} {id other : RequestId}
  {r : RequestRec} {now : TimePoint}

theorem expireWaiting_other (different : id ≠ other) (s : Impl)
    (now : TimePoint) :
    (expireWaiting now s id).requests[other]? = s.requests[other]? := by
  obtain unchanged | ⟨r, _, ⟨_, removed⟩ | ⟨_, stats, expired⟩⟩ :=
    expireWaiting_cases now s id
  · rw [unchanged]
  · rw [removed]
  · rw [expired]
    dsimp only
    rw [getElem?_modify, if_neg different]

theorem ended_expireWaiting (found : s.requests[id]? = some r)
    (now : TimePoint) : Ended (expireWaiting now s id) id := by
  unfold Ended expireWaiting completeRequestTerminal
  rw [found]
  dsimp only
  rw [found]
  dsimp only
  split
  · next ended => exact ⟨r, found, ended⟩
  · exact ⟨_, getElem?_modify_self found _, rfl⟩

theorem cancelExpired_eq (policy : BatchPolicy) (now : TimePoint) (s : Impl)
    (id : RequestId) :
    cancelExpired policy now s id = (s.doCancel policy id now).2 := by
  unfold cancelExpired
  split
  · next missing => exact (doCancel_missing missing).symm
  · rfl

theorem ended_doCancel (found : s.requests[id]? = some r)
    (leavable : s.leavable r = true) :
    Ended (s.doCancel policy id now).2 id := by
  cases live : isRequestTerminal r.state with
  | true =>
      rw [doCancel_ended found live]
      exact ⟨r, found, live⟩
  | false =>
      cases inBatch : isInBatch r.state with
      | false =>
          rw [doCancel_outside found live inBatch]
          exact ⟨_, getElem?_modify_self found _, rfl⟩
      | true =>
          have open' : s.namesOpen r = true := by
            unfold Impl.leavable at leavable
            rw [inBatch] at leavable
            exact leavable
          obtain ⟨b, named, forming | carrying⟩ := namesOpen_iff.mp open'
          · rw [doCancel_forming found live inBatch named forming]
            exact ⟨_, getElem?_modify_self found _, rfl⟩
          · rw [doCancel_carrying found live inBatch named carrying]
            exact ⟨_, getElem?_modify_self found _, rfl⟩

theorem Ended.expireWaiting (ended : Ended s other) (now : TimePoint)
    (id : RequestId) : Ended (expireWaiting now s id) other := by
  obtain ⟨r, found, terminal⟩ := ended
  by_cases same : id = other
  · subst same
    exact ended_expireWaiting found now
  · exact ⟨r, (expireWaiting_other same s now).trans found, terminal⟩

theorem Ended.doCancel (ended : Ended s other) (policy : BatchPolicy)
    (id : RequestId) (now : TimePoint) :
    Ended (s.doCancel policy id now).2 other := by
  obtain ⟨r, found, terminal⟩ := ended
  by_cases same : id = other
  · subst same
    rw [doCancel_ended found terminal]
    exact ⟨r, found, terminal⟩
  · exact ⟨r, (requests_doCancel_other policy s same now).trans found,
      terminal⟩

/-- Batches in the same states can be left by the same requests. -/
theorem leavable_congr
    (states : ∀ bid : BatchId, (s'.batches[bid]?).map (·.state) =
      (s.batches[bid]?).map (·.state)) (r : RequestRec) :
    s'.leavable r = s.leavable r := by
  have viewed : ∀ current : Impl, current.namesOpen r =
      match (current.batches[r.batch]?).map (·.state) with
      | none => false
      | some state => state == .forming || isCarrying state := by
    intro current
    unfold namesOpen
    cases current.batches[r.batch]? <;> rfl
  unfold leavable
  rw [viewed, viewed, states]

end Steps

/-! The pass over the waiting index. -/

section Queued

variable {s : Impl} {id : RequestId} {order : List CompatibilityKey}
  {now : TimePoint}

/-- The state between the two passes of an expiry. -/
def queuesExpired (s : Impl) (order : List CompatibilityKey)
    (now : TimePoint) : Impl :=
  Transition.run (expireWaiting now) s (s.expiredWaiting order now)

theorem mem_expiredWaiting_iff : id ∈ s.expiredWaiting order now ↔
    s.isQueued id = true ∧ s.deadlinePassed now id = true := by
  unfold expiredWaiting isQueued
  rw [List.mem_flatMap, List.any_eq_true]
  constructor
  · rintro ⟨⟨key, queue⟩, listed, member⟩
    obtain ⟨member, passed⟩ := List.mem_filter.mp member
    have at_key := (CompatibilityIndex.mem_enumerate_iff _ _ _ _).mp listed
    exact ⟨⟨(key, queue), (mem_toList_iff _ key queue).mpr at_key,
      List.contains_iff_mem.mpr member⟩, passed⟩
  · rintro ⟨⟨⟨key, queue⟩, listed, member⟩, passed⟩
    have at_key := (mem_toList_iff _ key queue).mp listed
    exact ⟨(key, queue),
      (CompatibilityIndex.mem_enumerate_iff _ _ _ _).mpr at_key,
      List.mem_filter.mpr ⟨List.contains_iff_mem.mp member, passed⟩⟩

theorem deadlinePassed_of_found {r : RequestRec}
    (found : s.requests[id]? = some r) :
    s.deadlinePassed now id = r.metadata.deadline.expired now := by
  unfold deadlinePassed
  rw [found]
  unfold Deadline.expired
  dsimp only
  cases r.metadata.deadline.hasDeadline with
  | true => rfl
  | false => rfl

theorem queuesExpired_tables :
    (s.queuesExpired order now).batches = s.batches ∧
      (s.queuesExpired order now).formingByKey = s.formingByKey := by
  apply Transition.run_invariant (fun current : Impl =>
    current.batches = s.batches ∧ current.formingByKey = s.formingByKey)
  · rintro current next _ ⟨batches, registry⟩
    refine ⟨(batches_expireWaiting now current next).trans batches, ?_⟩
    obtain unchanged | ⟨r, _, ⟨_, removed⟩ | ⟨_, stats, expired⟩⟩ :=
      expireWaiting_cases now current next
    · rw [unchanged]
      exact registry
    · rw [removed]
      exact registry
    · rw [expired]
      exact registry
  · exact ⟨rfl, rfl⟩

theorem queuesExpired_other (apart : id ∉ s.expiredWaiting order now) :
    (s.queuesExpired order now).requests[id]? = s.requests[id]? := by
  apply Transition.run_invariant (fun current : Impl =>
    current.requests[id]? = s.requests[id]?)
  · intro current next member same
    have different : next ≠ id := by
      rintro rfl
      exact apart member
    exact (expireWaiting_other different current now).trans same
  · rfl

theorem ended_queuesExpired (listed : id ∈ s.expiredWaiting order now) :
    Ended (s.queuesExpired order now) id := by
  have known : ∃ r, s.requests[id]? = some r := by
    have passed := (mem_expiredWaiting_iff.mp listed).2
    unfold deadlinePassed at passed
    cases found : s.requests[id]? with
    | none =>
        rw [found] at passed
        cases passed
    | some r => exact ⟨r, rfl⟩
  apply Transition.run_establishes (fun current : Impl =>
    ∃ r, current.requests[id]? = some r) (fun current => Ended current id)
    _ _ _ listed known
  · rintro current next _ ⟨r, found⟩
    by_cases same : next = id
    · subst same
      obtain ⟨r', found', _⟩ := ended_expireWaiting found now
      exact ⟨r', found'⟩
    · exact ⟨r, (expireWaiting_other same current now).trans found⟩
  · intro current next _ ended
    exact ended.expireWaiting now next
  · rintro current ⟨r, found⟩
    exact ended_expireWaiting found now

end Queued

/-! The pass over the registered batches. -/

section Registered

variable {policy : BatchPolicy} {s : Impl} {id : RequestId} {r : RequestRec}
  {now : TimePoint} {ids : List RequestId}

theorem mem_expiredInForming_iff : id ∈ s.expiredInForming now ↔
    s.isRegistered id = true ∧ s.deadlinePassed now id = true := by
  unfold expiredInForming isRegistered membersOf
  rw [List.mem_flatMap, List.any_eq_true]
  constructor
  · rintro ⟨⟨key, bid⟩, listed, member⟩
    dsimp only at member
    cases found : s.batches[bid]? with
    | none =>
        rw [found] at member
        cases member
    | some b =>
        rw [found] at member
        obtain ⟨member, passed⟩ := List.mem_filter.mp member
        refine ⟨⟨(key, bid), listed, ?_⟩, passed⟩
        dsimp only
        rw [found]
        exact List.contains_iff_mem.mpr member
  · rintro ⟨⟨⟨key, bid⟩, listed, member⟩, passed⟩
    refine ⟨(key, bid), listed, ?_⟩
    dsimp only at member ⊢
    cases found : s.batches[bid]? with
    | none =>
        rw [found] at member
        cases member
    | some b =>
        rw [found] at member
        exact List.mem_filter.mpr ⟨List.contains_iff_mem.mp member, passed⟩

/-- Batches lose members at most, and stay registered. -/
theorem cancelAll_batches (s : Impl) (ids : List RequestId) :
    (Transition.run (cancelExpired policy now) s ids).formingByKey =
        s.formingByKey ∧
      Everywhere (Transition.run (cancelExpired policy now) s ids).batches
        fun bid b' => ∃ b, s.batches[bid]? = some b ∧ b'.state = b.state ∧
          b'.members ⊆ b.members := by
  apply Transition.run_invariant (fun current : Impl =>
    current.formingByKey = s.formingByKey ∧
      Everywhere current.batches fun bid b' => ∃ b,
        s.batches[bid]? = some b ∧ b'.state = b.state ∧
          b'.members ⊆ b.members)
  · rintro current next _ ⟨registry, shrunk⟩
    rw [cancelExpired_eq]
    refine ⟨(registry_doCancel policy current next now).trans registry, ?_⟩
    intro bid b' found'
    obtain ⟨b, found, members, _⟩ :=
      shrunkFrom_doCancel policy current next now bid b' found'
    obtain ⟨b₀, found₀, state₀, members₀⟩ := shrunk bid b found
    have states := states_doCancel policy current next now bid
    rw [found', found] at states
    exact ⟨b₀, found₀, (Option.some.inj states).trans state₀,
      fun m member => members₀ (members.subset member)⟩
  · exact ⟨rfl, fun _ b found => ⟨b, found, rfl, fun _ member => member⟩⟩

theorem cancelAll_other (apart : id ∉ ids) :
    (Transition.run (cancelExpired policy now) s ids).requests[id]? =
      s.requests[id]? := by
  apply Transition.run_invariant (fun current : Impl =>
    current.requests[id]? = s.requests[id]?)
  · intro current next member same
    have different : next ≠ id := by
      rintro rfl
      exact apart member
    rw [cancelExpired_eq]
    exact (requests_doCancel_other policy current different now).trans same
  · rfl

theorem ended_cancelAll (ended : Ended s id) :
    Ended (Transition.run (cancelExpired policy now) s ids) id := by
  apply Transition.run_invariant (fun current => Ended current id) _ ended
  intro current next _ ended
  rw [cancelExpired_eq]
  exact ended.doCancel policy next now

/-- A request that cannot leave its batch is left. -/
theorem cancelAll_stuck (found : s.requests[id]? = some r)
    (stuck : s.leavable r = false) :
    (Transition.run (cancelExpired policy now) s ids).requests[id]? =
      some r := by
  have kept : (∀ bid : BatchId,
      ((Transition.run (cancelExpired policy now) s ids).batches[bid]?).map
        (·.state) = (s.batches[bid]?).map (·.state)) ∧
      (Transition.run (cancelExpired policy now) s ids).requests[id]? =
        some r := by
    apply Transition.run_invariant (fun current : Impl =>
      (∀ bid : BatchId, (current.batches[bid]?).map (·.state) =
        (s.batches[bid]?).map (·.state)) ∧ current.requests[id]? = some r)
    · rintro current next _ ⟨states, same⟩
      rw [cancelExpired_eq]
      refine ⟨fun bid => (states_doCancel policy current next now bid).trans
        (states bid), ?_⟩
      by_cases here : next = id
      · subst here
        have stuck' := (leavable_congr states r).trans stuck
        cases live : isRequestTerminal r.state with
        | true =>
            rw [doCancel_ended same live]
            exact same
        | false =>
            obtain ⟨err, refused⟩ : ∃ err, current.doCancel policy next now =
                (.error err, current) := doCancel_stuck same live stuck'
            rw [refused]
            exact same
      · exact (requests_doCancel_other policy current here now).trans same
    · exact ⟨fun _ => rfl, found⟩
  exact kept.2

/-- One that can leave is ended. -/
theorem cancelAll_ends (listed : id ∈ ids) (found : s.requests[id]? = some r)
    (leaves : s.leavable r = true) :
    Ended (Transition.run (cancelExpired policy now) s ids) id := by
  apply Transition.run_establishes (fun current : Impl =>
    (∀ bid : BatchId, (current.batches[bid]?).map (·.state) =
      (s.batches[bid]?).map (·.state)) ∧
      (current.requests[id]? = some r ∨ Ended current id))
    (fun current => Ended current id) _ _ _ listed ⟨fun _ => rfl, .inl found⟩
  · rintro current next _ ⟨states, known⟩
    rw [cancelExpired_eq]
    refine ⟨fun bid => (states_doCancel policy current next now bid).trans
      (states bid), ?_⟩
    rcases known with same | ended
    · by_cases here : next = id
      · subst here
        exact .inr (ended_doCancel same
          ((leavable_congr states r).trans leaves))
      · exact .inl
          ((requests_doCancel_other policy current here now).trans same)
    · exact .inr (ended.doCancel policy next now)
  · intro current next _ ended
    rw [cancelExpired_eq]
    exact ended.doCancel policy next now
  · rintro current ⟨states, same | ended⟩
    · rw [cancelExpired_eq]
      exact ended_doCancel same ((leavable_congr states r).trans leaves)
    · rw [cancelExpired_eq]
      exact ended.doCancel policy id now

end Registered

/-! An expiry. -/

section Expiring

variable {policy : BatchPolicy} {s : Impl} {id : RequestId} {r : RequestRec}
  {order : List CompatibilityKey} {now : TimePoint}

/-- The requests that an expiry ends. -/
def expiryEnds (s : Impl) (now : TimePoint) (id : RequestId)
    (r : RequestRec) : Bool :=
  r.metadata.deadline.expired now &&
    (s.isQueued id || s.isRegistered id && s.leavable r)

theorem expireLocked_eq (policy : BatchPolicy) (s : Impl)
    (order : List CompatibilityKey) (now : TimePoint) :
    s.expireLocked policy order now =
      Transition.run (cancelExpired policy now) (s.queuesExpired order now)
        ((s.queuesExpired order now).expiredInForming now) := rfl

/-- Every other request is left as it is. -/
theorem expireLocked_found (found : s.requests[id]? = some r) :
    if s.expiryEnds now id r = true then
      Ended (s.expireLocked policy order now) id
    else (s.expireLocked policy order now).requests[id]? = some r := by
  obtain ⟨batches, registry⟩ : (s.queuesExpired order now).batches =
      s.batches ∧ (s.queuesExpired order now).formingByKey = s.formingByKey :=
    queuesExpired_tables
  have registered : (s.queuesExpired order now).isRegistered id =
      s.isRegistered id := by
    unfold isRegistered membersOf
    rw [batches, registry]
  have leaves : (s.queuesExpired order now).leavable r = s.leavable r :=
    leavable_congr (fun _ => by rw [batches]) r
  have passed : s.deadlinePassed now id = r.metadata.deadline.expired now :=
    deadlinePassed_of_found found
  rw [expireLocked_eq]
  unfold expiryEnds
  by_cases listed : id ∈ s.expiredWaiting order now
  · have ended : Ended (s.queuesExpired order now) id :=
      ended_queuesExpired listed
    obtain ⟨queued, due⟩ := mem_expiredWaiting_iff.mp listed
    rw [passed] at due
    rw [due, queued]
    exact ended_cancelAll ended
  · have still : (s.queuesExpired order now).requests[id]? = some r :=
      (queuesExpired_other listed).trans found
    have unlisted := mt mem_expiredWaiting_iff.mpr listed
    rw [passed] at unlisted
    have due : id ∈ (s.queuesExpired order now).expiredInForming now ↔
        s.isRegistered id = true ∧
          r.metadata.deadline.expired now = true := by
      rw [mem_expiredInForming_iff, registered, deadlinePassed_of_found still]
    split
    · next ends =>
        rw [Bool.and_eq_true, Bool.or_eq_true, Bool.and_eq_true] at ends
        obtain ⟨overdue, queued | ⟨inBatch, leavable⟩⟩ := ends
        · exact absurd ⟨queued, overdue⟩ unlisted
        · exact cancelAll_ends (due.mpr ⟨inBatch, overdue⟩) still
            (leaves.trans leavable)
    · next stays =>
        by_cases inForming :
            id ∈ (s.queuesExpired order now).expiredInForming now
        · obtain ⟨inBatch, overdue⟩ := due.mp inForming
          have stuck : s.leavable r = false := by
            rw [← Bool.not_eq_true]
            intro leaves
            apply stays
            rw [overdue, inBatch, leaves, Bool.and_true, Bool.or_true]
            rfl
          exact cancelAll_stuck still (leaves.trans stuck)
        · exact (cancelAll_other inForming).trans still

theorem expireLocked_missing (missing : s.requests[id]? = none) :
    (s.expireLocked policy order now).requests[id]? = none := by
  have passed : ∀ current : Impl, current.requests[id]? = none →
      current.deadlinePassed now id ≠ true := by
    intro current absent
    unfold deadlinePassed
    rw [absent]
    exact nofun
  have still : (s.queuesExpired order now).requests[id]? = none := by
    rw [queuesExpired_other, missing]
    exact fun listed => passed s missing (mem_expiredWaiting_iff.mp listed).2
  rw [expireLocked_eq, cancelAll_other, still]
  exact fun listed => passed _ still (mem_expiredInForming_iff.mp listed).2

theorem noneOverdue_expireLocked_iff :
    NoneOverdue (s.expireLocked policy order now) now ↔
      s.FindsOverdue now := by
  constructor
  · intro none id r found awaits overdue
    by_contra missed
    have stays : s.expiryEnds now id r ≠ true := by
      intro ends
      exact missed (Bool.and_eq_true_iff.mp ends).2
    have left : ite (s.expiryEnds now id r = true) _
        ((s.expireLocked policy order now).requests[id]? = some r) :=
      expireLocked_found found
    rw [if_neg stays] at left
    rw [none id r left awaits] at overdue
    cases overdue
  · intro finds id r' found' awaits
    cases found : s.requests[id]? with
    | none =>
        rw [expireLocked_missing found] at found'
        cases found'
    | some r =>
        have left : ite (s.expiryEnds now id r = true)
            (Ended (s.expireLocked policy order now) id) _ :=
          expireLocked_found found
        by_cases ends : s.expiryEnds now id r = true
        · rw [if_pos ends] at left
          obtain ⟨ended, at_id, terminal⟩ := left
          rw [found'] at at_id
          cases at_id
          unfold awaitsSealing at awaits
          unfold isRequestTerminal at terminal
          split at awaits
          · next state => simp [state] at terminal
          · next state => simp [state] at terminal
          · next state => simp [state] at terminal
          · cases awaits
        · rw [if_neg ends, found'] at left
          cases left
          rw [← Bool.not_eq_true]
          intro overdue
          apply ends
          unfold expiryEnds
          rw [overdue]
          exact finds id r' found awaits overdue

end Expiring

/-! The passes that follow it end no request and make none overdue. -/

/-- Every request has its metadata still, has ended if it had, and awaits
sealing only if it did. -/
structure SameDue (before after : Map RequestId RequestRec) : Prop where
  same : ∀ id : RequestId,
    (after[id]?).map RequestRec.due = (before[id]?).map RequestRec.due
  awaits : Everywhere after fun id r' => awaitsSealing r'.state = true →
    ∃ r, before[id]? = some r ∧ awaitsSealing r.state = true

namespace SameDue

variable {before after later : Map RequestId RequestRec}

theorem refl (requests : Map RequestId RequestRec) :
    SameDue requests requests :=
  ⟨fun _ => rfl, fun _ r found awaits => ⟨r, found, awaits⟩⟩

theorem modify (due : SameDue before after) {id : RequestId} {r : RequestRec}
    (found : after[id]? = some r) {change : RequestRec → RequestRec}
    (same : (change r).due = r.due)
    (awaits : awaitsSealing (change r).state = true →
      awaitsSealing r.state = true) :
    SameDue before (after.modify id change) where
  same other := by
    rw [← due.same, getElem?_modify]
    split
    · next here =>
        subst here
        rw [found, Option.map_some, Option.map_some, same]
        rfl
    · rfl
  awaits := by
    apply due.awaits.modify
    intro value at_id known awaits'
    rw [found] at at_id
    cases at_id
    exact known (awaits awaits')

theorem modifyAll (due : SameDue before after) (ids : List RequestId)
    {change : RequestRec → RequestRec}
    (same : ∀ r, (change r).due = r.due)
    (awaits : ∀ r, awaitsSealing (change r).state = true →
      awaitsSealing r.state = true) :
    SameDue before (modifyAll after ids change) where
  same id := (map_getElem?_modifyAll same after ids id).trans (due.same id)
  awaits := due.awaits.modifyAll fun _ r known awaits' =>
    known (awaits r awaits')

theorem close (due : SameDue before after) (ids : List RequestId) :
    SameDue before
      (OrderedMap.modifyAll after ids (·.advance .reserved .batched)) := by
  apply due.modifyAll
  · intro r
    unfold RequestRec.due RequestRec.advance
    split
    · next reserved =>
        rw [reserved]
        rfl
    · rfl
  · intro r
    unfold RequestRec.advance
    split
    · exact nofun
    · exact id

theorem setBatch (due : SameDue before after) (ids : List RequestId)
    (bid : BatchId) :
    SameDue before
      (OrderedMap.modifyAll after ids (RequestRec.setBatch bid)) :=
  due.modifyAll ids (fun _ => rfl) (fun _ => id)

theorem place {policy : BatchPolicy} {s : Impl} {bid : BatchId}
    {key : CompatibilityKey} {pick : RequestId} {now : TimePoint}
    {b : BatchRec} {r : RequestRec} (due : SameDue before s.requests)
    (placing : Placing policy s bid key pick now b r) :
    SameDue before (s.place bid key pick).requests := by
  have waiting := placing.waiting
  rw [place_eq placing.request]
  apply due.modify placing.request
  · have live := not_terminal_of_isWaiting waiting
    unfold RequestRec.due
    rw [live]
    rfl
  · intro _
    unfold isWaitingState at waiting
    split at waiting
    · next state =>
        rw [state]
        rfl
    · next state =>
        rw [state]
        rfl
    · cases waiting

end SameDue

theorem dueRule (policy : BatchPolicy) (now : TimePoint) (s : Impl) :
    FillRule policy now fun s' =>
      WellFormed s' ∧ SameDue s.requests s'.requests where
  wellFormed _ held := held.1
  openForming _ key held _ := ⟨held.1.openForming key now, held.2⟩
  place s' bid key pick b r held placing :=
    ⟨(WellFormed.tickRule policy now).place s' bid key pick b r held.1 placing,
      held.2.place placing⟩
  retime _ bid _ held retimes := ⟨held.1.retime bid retimes, held.2⟩
  close _ _ b reason held found forming :=
    ⟨held.1.sealForming found forming reason now, held.2.close b.members⟩
  merge _ aid _ _ b held merging :=
    ⟨held.1.mergeInto merging.first merging.second merging.keyed,
      held.2.setBatch b.members aid⟩

section Passes

variable {policy : BatchPolicy} {s : Impl} {order : List CompatibilityKey}
  {now : TimePoint}

theorem sealedState_eq (policy : BatchPolicy) (s : Impl)
    (order : List CompatibilityKey) (now : TimePoint) :
    s.sealedState policy order now =
      ((s.expireLocked policy order now).formPass policy order now).sealPass
        policy now := rfl

theorem wellFormed_expireLocked (wellFormed : WellFormed s) :
    WellFormed (s.expireLocked policy order now) :=
  (WellFormed.tickRule policy now).expireLocked wellFormed order

theorem sameDue_sealedState (wellFormed : WellFormed s) :
    SameDue (s.expireLocked policy order now).requests
      (s.sealedState policy order now).requests := by
  have rule := dueRule policy now (s.expireLocked policy order now)
  rw [sealedState_eq]
  exact (rule.sealPass (rule.formPass
    ⟨wellFormed_expireLocked wellFormed, .refl _⟩ order)).2

/-- From the end of the expiry to the end of the tick. -/
theorem sameDue_doTick (wellFormed : WellFormed s) :
    SameDue (s.expireLocked policy order now).requests
      (s.doTick policy order now).requests := by
  have rule := dueRule policy now (s.expireLocked policy order now)
  have passed := rule.passes ⟨wellFormed_expireLocked wellFormed, .refl _⟩
    order
  exact (rule.toMergeRule.sizePass (fun _ _ b held found _ _ =>
    ⟨held.1.splitSealed found,
      (held.2.setBatch (secondHalf b) _).setBatch (firstHalf b) _⟩) passed).2

theorem noneOverdue_doTick (wellFormed : WellFormed s)
    (none : NoneOverdue (s.expireLocked policy order now) now) :
    NoneOverdue (s.doTick policy order now) now := by
  have due : SameDue (s.expireLocked policy order now).requests
      (s.doTick policy order now).requests := sameDue_doTick wellFormed
  intro id r' found' awaits'
  obtain ⟨r, found, awaits⟩ := due.awaits id r' found' awaits'
  have same := due.same id
  rw [found', found] at same
  have metadata : r'.metadata = r.metadata :=
    congrArg Prod.fst (Option.some.inj same)
  rw [metadata]
  exact none id r found awaits

end Passes

/-! Nor do they seal one that is. -/

/-- The member has ended or has time left. -/
def HasTime (s : Impl) (now : TimePoint) (m : RequestId) : Prop :=
  ∀ r : RequestRec, s.requests[m]? = some r →
    isRequestTerminal r.state = false → r.metadata.deadline.expired now = false

theorem SameDue.hasTime_iff {s s' : Impl}
    (due : SameDue s.requests s'.requests) {now : TimePoint} {m : RequestId} :
    s'.HasTime now m ↔ s.HasTime now m := by
  have viewed : ∀ current : Impl, current.HasTime now m ↔
      ∀ view, (current.requests[m]?).map RequestRec.due = some view →
        view.2 = false → view.1.deadline.expired now = false := by
    intro current
    constructor
    · intro hasTime view found live
      obtain ⟨r, at_m, rfl⟩ := Option.map_eq_some_iff.mp found
      exact hasTime r at_m live
    · intro hasTime r at_m live
      exact hasTime r.due (by rw [at_m, Option.map_some]) live
  rw [viewed, viewed, due.same]

/-- The member has ended or has time left, or the expiry ends it. -/
def inTime (s : Impl) (now : TimePoint) (m : RequestId) : Bool :=
  match s.requests[m]? with
  | none => true
  | some r =>
      isRequestTerminal r.state || !r.metadata.deadline.expired now ||
        s.expiryEnds now m r

theorem hasTime_expireLocked_iff {policy : BatchPolicy} {s : Impl}
    {order : List CompatibilityKey} {now : TimePoint} {m : RequestId} :
    (s.expireLocked policy order now).HasTime now m ↔
      s.inTime now m = true := by
  unfold inTime HasTime
  cases found : s.requests[m]? with
  | none =>
      rw [expireLocked_missing found]
      simp
  | some r =>
      dsimp only
      have left : ite (s.expiryEnds now m r = true)
          (Ended (s.expireLocked policy order now) m)
          ((s.expireLocked policy order now).requests[m]? = some r) :=
        expireLocked_found found
      split at left
      · next ends =>
          obtain ⟨r', found', terminal⟩ := left
          rw [found', ends, Bool.or_true]
          refine iff_of_true ?_ rfl
          intro r'' same live
          cases same
          rw [terminal] at live
          cases live
      · next stays =>
          rw [left, Bool.eq_false_iff.mpr stays, Bool.or_false]
          cases live : isRequestTerminal r.state with
          | true => simp [live]
          | false => simp [live]

theorem hasTime_sealedState_iff {policy : BatchPolicy} {s : Impl}
    (wellFormed : WellFormed s) {order : List CompatibilityKey}
    {now : TimePoint} {m : RequestId} :
    (s.sealedState policy order now).HasTime now m ↔
      s.inTime now m = true :=
  (sameDue_sealedState wellFormed).hasTime_iff.trans hasTime_expireLocked_iff

/-- So it stays until the end of the tick. -/
theorem hasTime_doTick_iff {policy : BatchPolicy} {s : Impl}
    (wellFormed : WellFormed s) {order : List CompatibilityKey}
    {now : TimePoint} {m : RequestId} :
    (s.doTick policy order now).HasTime now m ↔ s.inTime now m = true :=
  (sameDue_doTick wellFormed).hasTime_iff.trans hasTime_expireLocked_iff

/-- All members of the registered batches that are forming have time left. -/
def FormsInTime (s : Impl) (now : TimePoint) : Prop :=
  ∀ (key : CompatibilityKey) (bid : BatchId) (b : BatchRec),
    s.formingByKey[key]? = some bid → s.batches[bid]? = some b →
    b.state = .forming → ∀ m ∈ b.members, s.HasTime now m

theorem formsInTime_place {policy : BatchPolicy} {s : Impl} {bid : BatchId}
    {key : CompatibilityKey} {pick : RequestId} {now : TimePoint}
    {b : BatchRec} {r : RequestRec} (inTime : FormsInTime s now)
    (placing : Placing policy s bid key pick now b r) :
    FormsInTime (s.place bid key pick) now := by
  have later : ∀ m, s.HasTime now m → (s.place bid key pick).HasTime now m :=
    fun _ => ((SameDue.refl s.requests).place placing).hasTime_iff.mpr
  have registry : (s.place bid key pick).formingByKey = s.formingByKey := by
    rw [place_eq placing.request]
  have picked : s.HasTime now pick := by
    intro r' found _
    rw [placing.request] at found
    cases found
    exact placing.live
  intro key' bid' b' registered found forming m member
  rw [registry] at registered
  apply later
  obtain ⟨rfl, before, at_bid, members, state⟩ | ⟨_, at_bid⟩ :=
    found_place placing.request found
  · rw [members] at member
    rcases List.mem_append.mp member with old | new
    · exact inTime key' bid' before registered at_bid
        (state.symm.trans forming) m old
    · rw [List.mem_singleton.mp new]
      exact picked
  · exact inTime key' bid' b' registered at_bid forming m member

theorem formsInTime_openForming {s : Impl} (wellFormed : WellFormed s)
    {now : TimePoint} (inTime : FormsInTime s now) (key : CompatibilityKey) :
    FormsInTime (s.openForming key now) now := by
  intro key' bid b registered found forming m member
  show s.HasTime now m
  obtain ⟨_, rfl⟩ | at_bid := found_openForming found
  · cases member
  · have registered : (s.formingByKey.insert key
        { value := s.nextBatch })[key']? = some bid := registered
    rw [getElem?_insert] at registered
    split at registered
    · cases registered
      exact absurd (wellFormed.batch _ b at_bid).2.2 (Nat.lt_irrefl _)
    · exact inTime key' bid b registered at_bid forming m member

theorem timeRule (policy : BatchPolicy) (now : TimePoint) :
    PlaceRule policy now fun s => WellFormed s ∧ FormsInTime s now where
  wellFormed _ held := held.1
  openForming _ key held _ :=
    ⟨held.1.openForming key now, formsInTime_openForming held.1 held.2 key⟩
  place s bid key pick b r held placing :=
    ⟨(WellFormed.tickRule policy now).place s bid key pick b r held.1 placing,
      formsInTime_place held.2 placing⟩
  retime s bid change held retimes := by
    refine ⟨held.1.retime bid retimes, ?_⟩
    intro key' bid' b registered found forming m member
    obtain ⟨before, at_bid, ⟨_, changed⟩ | ⟨_, unchanged⟩⟩ :=
      getElem?_modify_cases found
    · obtain ⟨allowed, formed, same⟩ := retimes before
      rw [changed, same] at forming member
      exact held.2 key' bid' before registered at_bid forming m member
    · rw [unchanged] at forming member
      exact held.2 key' bid' before registered at_bid forming m member

section Sealing

variable {policy : BatchPolicy} {s : Impl} {order : List CompatibilityKey}
  {now : TimePoint}

theorem inTime_of_canEnd {m : RequestId} (can : s.canEnd now m = true)
    (registered : s.isRegistered m = true) : s.inTime now m = true := by
  unfold canEnd at can
  unfold inTime
  cases found : s.requests[m]? with
  | none => rfl
  | some r =>
      rw [found] at can
      unfold expiryEnds
      dsimp only at can ⊢
      rw [registered]
      cases overdue : r.metadata.deadline.expired now with
      | false => simp
      | true => simpa [overdue, or_assoc] using can

/-- What an expiry leaves in the registered batches has time left. -/
theorem formsInTime_expireLocked (ends : s.EndsMembers now) :
    FormsInTime (s.expireLocked policy order now) now := by
  obtain ⟨batches, registry⟩ : (s.queuesExpired order now).batches =
      s.batches ∧ (s.queuesExpired order now).formingByKey = s.formingByKey :=
    queuesExpired_tables
  obtain ⟨registry', shrunk⟩ := cancelAll_batches (s.queuesExpired order now)
    ((s.queuesExpired order now).expiredInForming now)
  rw [← expireLocked_eq policy] at registry' shrunk
  intro key bid b registered found' forming m member
  rw [registry', registry] at registered
  obtain ⟨b, found, state, members⟩ := shrunk bid b found'
  rw [batches] at found
  have listed : s.isRegistered m = true := by
    unfold isRegistered
    refine List.any_eq_true.mpr ⟨(key, bid),
      (mem_toList_iff _ key bid).mpr registered, ?_⟩
    unfold membersOf
    dsimp only
    rw [found]
    exact List.contains_iff_mem.mpr (members member)
  exact hasTime_expireLocked_iff.mpr (inTime_of_canEnd
    (ends key bid registered b found (state.symm.trans forming) m
      (members member)) listed)

theorem membersOf_congr {s s' : Impl}
    (members : ∀ bid : BatchId, (s'.batches[bid]?).map (·.members) =
      (s.batches[bid]?).map (·.members)) (bid : BatchId) :
    s'.membersOf bid = s.membersOf bid := by
  have viewed : ∀ current : Impl, current.membersOf bid =
      ((current.batches[bid]?).map (·.members)).getD [] := by
    intro current
    unfold membersOf
    cases current.batches[bid]? <;> rfl
  rw [viewed, viewed, members]

/-- While a pass seals batches: what is still forming among them has time left,
and what has been ordered since. -/
structure ClosesInTime (s : Impl) (now : TimePoint) (bids : List BatchId)
    (s' : Impl) : Prop where
  forming : ∀ bid ∈ bids, ∀ b : BatchRec, s'.batches[bid]? = some b →
    b.state = .forming → ∀ m ∈ b.members, s'.HasTime now m
  ordered : ∀ bid ∈ s'.sealedOrder, bid ∉ s.sealedOrder →
    ∀ m ∈ s'.membersOf bid, s'.HasTime now m

theorem ClosesInTime.sealDecided {s' : Impl} {bids : List BatchId}
    (closes : ClosesInTime s now bids s') {bid : BatchId}
    (listed : bid ∈ bids) :
    ClosesInTime s now bids (sealDecided now s' bid) := by
  unfold Impl.sealDecided
  split
  · exact closes
  · obtain unchanged | ⟨b, found, forming, closed⟩ :=
      doSeal_cases s' bid (s'.sealedReasonFor bid) now
    · rw [unchanged]
      exact closes
    · rw [closed]
      generalize s'.sealedReasonFor bid = reason
      have later : ∀ m, s'.HasTime now m →
          (s'.sealForming bid b reason now).HasTime now m := by
        have due : SameDue s'.requests
            (s'.sealForming bid b reason now).requests :=
          (SameDue.refl s'.requests).close b.members
        exact fun _ => due.hasTime_iff.mpr
      have members : ∀ other,
          (s'.sealForming bid b reason now).membersOf other =
            s'.membersOf other := by
        exact membersOf_congr
          (map_getElem?_modify (fun _ => by rfl) s'.batches bid)
      constructor
      · intro other at_other b' found' forming' m member
        apply later
        obtain ⟨before, at_before, ⟨_, changed⟩ | ⟨_, unchanged⟩⟩ :=
          getElem?_modify_cases found'
        · rw [changed] at forming'
          cases forming'
        · subst unchanged
          exact closes.forming other at_other b' at_before forming' m member
      · intro other ordered new m member
        apply later
        rw [members] at member
        rcases List.mem_append.mp ordered with earlier | last
        · exact closes.ordered other earlier new m member
        · rw [List.mem_singleton.mp last] at member
          unfold membersOf at member
          rw [found] at member
          exact closes.forming bid listed b found forming m member

/-- Every member that a tick seals has time left when it is sealed. -/
theorem closesInTime_sealedState (wellFormed : WellFormed s)
    (ends : s.EndsMembers now) :
    ClosesInTime s now (s.considered policy order now)
      (s.sealedState policy order now) := by
  have rule := timeRule policy now
  have formed : WellFormed (s.formedState policy order now) ∧
      FormsInTime (s.formedState policy order now) now :=
    rule.formPass ⟨wellFormed_expireLocked wellFormed,
      formsInTime_expireLocked ends⟩ order
  have quiet : Quiet s ((s.formedState policy order now).refillAll policy now
      (s.considered policy order now)) :=
    (Quiet.formedState wellFormed order).refillAll
  have registered : ∀ bid ∈ s.considered policy order now,
      ∃ key : CompatibilityKey,
        (s.formedState policy order now).formingByKey[key]? = some bid := by
    intro bid considered
    obtain ⟨⟨key, _⟩, at_key, rfl⟩ := List.mem_map.mp considered
    exact ⟨key, (mem_toList_iff _ key _).mp at_key⟩
  have filled := (rule.decidePass formed registered).2
  rw [decidePass_fst] at filled
  unfold sealedState
  rw [sealPass_eq]
  apply Transition.run_invariant
  · intro current bid decided closes
    exact closes.sealDecided (mem_of_decidePass decided)
  · constructor
    · intro bid considered b found forming
      obtain ⟨key, at_key⟩ := registered bid considered
      have still : ((s.formedState policy order now).refillAll policy now
          (s.considered policy order now)).formingByKey[key]? = some bid := by
        rw [refillAll_registry]
        exact at_key
      exact filled key bid b still found forming
    · intro bid ordered new
      rw [quiet.order] at ordered
      exact absurd ordered new

end Sealing

end Impl

end BatchFabric
