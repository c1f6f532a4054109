import BatchFabric.Safety.Attempts
import BatchFabric.Scheduler.KnownKeys

namespace BatchFabric

open OrderedMap

/-! What a cancellation does, and where it does not do what it should: it finds
the batch by the name the request carries. -/

/-- The states past forming in which a batch carries its members on. -/
def isCarrying : BatchState → Bool
  | .sealed | .dispatched | .running => true
  | _ => false

namespace Impl

/-- The batch that the request names, in a state to take the cancellation. -/
def namesOpen (s : Impl) (r : RequestRec) : Bool :=
  match s.batches[r.batch]? with
  | none => false
  | some b => b.state == .forming || isCarrying b.state

/-- A cancellation of the request is not refused. -/
def leavable (s : Impl) (r : RequestRec) : Bool :=
  !isInBatch r.state || s.namesOpen r

theorem namesOpen_iff {s : Impl} {r : RequestRec} : s.namesOpen r = true ↔
    ∃ b, s.batches[r.batch]? = some b ∧
      (b.state = .forming ∨ isCarrying b.state = true) := by
  unfold namesOpen
  cases s.batches[r.batch]? with
  | none => simp
  | some b => simp

section Cases

variable {policy : BatchPolicy} {s : Impl} {id : RequestId} {r : RequestRec}
  {now : TimePoint}

theorem doCancel_outside (found : s.requests[id]? = some r)
    (live : isRequestTerminal r.state = false)
    (outside : isInBatch r.state = false) :
    s.doCancel policy id now = (.ok (), s.cancelOutside id r now) := by
  unfold doCancel
  simp [found, live, outside]

theorem doCancel_forming (found : s.requests[id]? = some r)
    (live : isRequestTerminal r.state = false)
    (inBatch : isInBatch r.state = true) {b : BatchRec}
    (named : s.batches[r.batch]? = some b) (forming : b.state = .forming) :
    s.doCancel policy id now = (.ok (), s.cancelForming policy id r now) := by
  unfold doCancel
  simp [found, live, inBatch, named, forming]

theorem doCancel_carrying (found : s.requests[id]? = some r)
    (live : isRequestTerminal r.state = false)
    (inBatch : isInBatch r.state = true) {b : BatchRec}
    (named : s.batches[r.batch]? = some b)
    (carrying : isCarrying b.state = true) :
    s.doCancel policy id now = (.ok (), s.cancelAfterSeal id r now) := by
  unfold doCancel
  unfold isCarrying at carrying
  split at carrying
  · next state => simp [found, live, inBatch, named, state]
  · next state => simp [found, live, inBatch, named, state]
  · next state => simp [found, live, inBatch, named, state]
  · cases carrying

theorem doCancel_missing (missing : s.requests[id]? = none) :
    (s.doCancel policy id now).2 = s := by
  unfold doCancel
  rw [missing]

theorem doCancel_ended (found : s.requests[id]? = some r)
    (ended : isRequestTerminal r.state = true) :
    (s.doCancel policy id now).2 = s := by
  unfold doCancel
  simp [found, ended]

/-- A request that is in a batch but names none that is open is refused. -/
theorem doCancel_stuck (found : s.requests[id]? = some r)
    (live : isRequestTerminal r.state = false)
    (stuck : s.leavable r = false) :
    ∃ err, s.doCancel policy id now = (.error err, s) := by
  unfold leavable at stuck
  rw [Bool.or_eq_false_iff, Bool.not_eq_false'] at stuck
  unfold doCancel
  cases named : s.batches[r.batch]? with
  | none => exact ⟨_, by simp [found, live, stuck.1, named]; rfl⟩
  | some b =>
      have closed := stuck.2
      unfold namesOpen isCarrying at closed
      rw [named] at closed
      cases state : b.state with
      | forming => simp [state] at closed
      | «sealed» => simp [state] at closed
      | dispatched => simp [state] at closed
      | running => simp [state] at closed
      | _ => exact ⟨_, by simp [found, live, stuck.1, named, state]; rfl⟩

theorem requests_doCancel_other (policy : BatchPolicy) (s : Impl)
    {id other : RequestId} (different : id ≠ other) (now : TimePoint) :
    (s.doCancel policy id now).2.requests[other]? = s.requests[other]? := by
  have kept : ∀ change : RequestRec → RequestRec,
      (s.requests.modify id change)[other]? = s.requests[other]? := by
    intro change
    rw [getElem?_modify, if_neg different]
  obtain unchanged | ⟨r, _, _, ⟨_, outside⟩ |
      ⟨_, b, _, ⟨_, forming⟩ | ⟨_, later⟩⟩⟩ := doCancel_cases policy s id now
  · rw [unchanged]
  · rw [outside]
    exact kept _
  · rw [forming]
    exact kept _
  · rw [later]
    exact kept _

/-- No batch comes into another state. -/
theorem states_doCancel (policy : BatchPolicy) (s : Impl) (id : RequestId)
    (now : TimePoint) (bid : BatchId) :
    ((s.doCancel policy id now).2.batches[bid]?).map (·.state) =
      (s.batches[bid]?).map (·.state) := by
  obtain unchanged | ⟨r, _, _, ⟨_, outside⟩ |
      ⟨_, b, _, ⟨_, forming⟩ | ⟨_, later⟩⟩⟩ := doCancel_cases policy s id now
  · rw [unchanged]
  · rw [outside]
    rfl
  · rw [forming]
    exact map_getElem?_modify (fun _ => by rfl) s.batches r.batch bid
  · rw [later]
    exact map_getElem?_modify (fun _ => by rfl) s.batches r.batch bid

theorem registry_doCancel (policy : BatchPolicy) (s : Impl) (id : RequestId)
    (now : TimePoint) :
    (s.doCancel policy id now).2.formingByKey = s.formingByKey := by
  obtain unchanged | ⟨r, _, _, ⟨_, outside⟩ |
      ⟨_, b, _, ⟨_, forming⟩ | ⟨_, later⟩⟩⟩ := doCancel_cases policy s id now
  · rw [unchanged]
  · rw [outside]
    rfl
  · rw [forming]
    rfl
  · rw [later]
    rfl

end Cases

/-- Some batch carries the request. -/
def carries (s : Impl) (id : RequestId) : Bool :=
  s.batches.toList.any fun entry =>
    isCarrying entry.2.state && entry.2.members.contains id

/-- Some batch carries the request, and every one that does has it recorded as
cancelled. -/
structure RecordsCancelled (s : Impl) (id : RequestId) : Prop where
  carried : s.carries id = true
  recorded : Everywhere s.batches fun _ b => isCarrying b.state = true →
    id ∈ b.members → b.outcomes[id]? = some .cancelled

/-- What a cancellation of a request that has not ended should do. -/
structure CancelWorks (policy : BatchPolicy) (s : Impl) (id : RequestId)
    (r : RequestRec) (now : TimePoint) : Prop where
  succeeds : (s.doCancel policy id now).1 = .ok ()
  request : ∃ r', (s.doCancel policy id now).2.requests[id]? = some r' ∧
    r'.state = .cancelled ∧
      ∃ a, (s.doCancel policy id now).2.attempts[r'.currentAttempt]? =
        some a ∧ a.state = .cancelled
  unqueued : ∀ key, id ∉ (s.doCancel policy id now).2.bucket key
  unlisted : Everywhere (s.doCancel policy id now).2.batches fun _ b =>
    b.state = .forming → id ∉ b.members
  recorded : ∀ b : BatchRec, s.batches[r.batch]? = some b →
    b.state ≠ .forming →
      (∃ b' : BatchRec,
        (s.doCancel policy id now).2.batches[r.batch]? = some b' ∧
          b'.members = b.members) ∧
      RecordsCancelled (s.doCancel policy id now).2 id
  others : ∀ (other : RequestId) (r' : RequestRec), other ≠ id →
    s.requests[other]? = some r' →
      (s.doCancel policy id now).2.requests[other]? = some r' ∧
        ∀ aid ∈ r'.attempts, (s.doCancel policy id now).2.attempts[aid]? =
          s.attempts[aid]?

/-- What the request says of itself is so. It is queued once at most, and only
where it waits and is flagged. No batch lists it as forming but the one it
names, and that one, past forming, is the only one to carry it. -/
structure KnowsItsPlace (s : Impl) (id : RequestId) (r : RequestRec) :
    Prop where
  leavable : s.leavable r = true
  queued : (s.bucket r.key).count id ≤
    if !isInBatch r.state && r.inWaiting then 1 else 0
  forming : Everywhere s.batches fun bid b => b.state = .forming →
    id ∈ b.members → isInBatch r.state = true ∧ bid = r.batch
  carried : ∀ b ∈ s.batches[r.batch]?, b.state ≠ .forming →
    s.carries id = true ∧
      Everywhere s.batches fun bid c => isCarrying c.state = true →
        id ∈ c.members → (isInBatch r.state = true ∧ bid = r.batch) ∨
          c.outcomes[id]? = some .cancelled

instance (s : Impl) (id : RequestId) (r : RequestRec) :
    Decidable (s.KnowsItsPlace id r) :=
  decidable_of_iff (_ ∧ _ ∧ _ ∧ _)
    ⟨fun ⟨leavable, queued, forming, carried⟩ =>
        ⟨leavable, queued, forming, carried⟩,
      fun place => ⟨place.leavable, place.queued, place.forming,
        place.carried⟩⟩

theorem carries_iff {s : Impl} {id : RequestId} : s.carries id = true ↔
    ∃ (bid : BatchId) (b : BatchRec), s.batches[bid]? = some b ∧
      isCarrying b.state = true ∧ id ∈ b.members := by
  unfold carries
  rw [List.any_eq_true]
  constructor
  · rintro ⟨⟨bid, b⟩, listed, carrying⟩
    rw [Bool.and_eq_true, List.contains_iff_mem] at carrying
    exact ⟨bid, b, (mem_toList_iff _ bid b).mp listed, carrying⟩
  · rintro ⟨bid, b, found, carrying, member⟩
    refine ⟨(bid, b), (mem_toList_iff _ bid b).mpr found, ?_⟩
    rw [Bool.and_eq_true, List.contains_iff_mem]
    exact ⟨carrying, member⟩

theorem carries_of_view {s s' : Impl} {id : RequestId}
    (view : ∀ bid : BatchId,
      (s'.batches[bid]?).map (fun b => (b.state, b.members)) =
        (s.batches[bid]?).map (fun b => (b.state, b.members)))
    (carried : s.carries id = true) : s'.carries id = true := by
  obtain ⟨bid, b, found, carrying, member⟩ := carries_iff.mp carried
  obtain ⟨b', found', same⟩ := exists_of_map_eq (view bid).symm found
  obtain ⟨states, members⟩ := Prod.mk.inj same
  rw [states] at carrying
  rw [members] at member
  exact carries_iff.mpr ⟨bid, b', found', carrying, member⟩

section Works

variable {policy : BatchPolicy} {s s' : Impl} {id : RequestId}
  {r : RequestRec} {now : TimePoint}

/-- The request and its current attempt are cancelled. -/
theorem cancelled_of_modify (owns : s.OwnsAttempts)
    (found : s.requests[id]? = some r) (now : TimePoint)
    {change : RequestRec → RequestRec}
    (requests : s'.requests = s.requests.modify id change)
    (attempts : s'.attempts = s.attempts.modify r.currentAttempt
      fun a => a.finish .cancelled .cancelled now)
    (cancels : (change r).state = .cancelled)
    (keeps : (change r).currentAttempt = r.currentAttempt) :
    ∃ r', s'.requests[id]? = some r' ∧ r'.state = .cancelled ∧
      ∃ a, s'.attempts[r'.currentAttempt]? = some a ∧
        a.state = .cancelled := by
  obtain ⟨_, a, known, _⟩ := owns.known id r found
  refine ⟨change r, ?_, cancels, ?_⟩
  · rw [requests]
    exact getElem?_modify_self found change
  · rw [keeps, attempts]
    exact ⟨_, getElem?_modify_self known _, rfl⟩

/-- Every other request is left as it is, with its attempts. -/
theorem others_of_modify (owns : s.OwnsAttempts)
    (found : s.requests[id]? = some r) (now : TimePoint)
    {change : RequestRec → RequestRec}
    (requests : s'.requests = s.requests.modify id change)
    (attempts : s'.attempts = s.attempts.modify r.currentAttempt
      fun a => a.finish .cancelled .cancelled now)
    (other : RequestId) (r' : RequestRec) (different : other ≠ id)
    (found' : s.requests[other]? = some r') :
    s'.requests[other]? = some r' ∧
      ∀ aid ∈ r'.attempts, s'.attempts[aid]? = s.attempts[aid]? := by
  constructor
  · rw [requests, getElem?_modify, if_neg (Ne.symm different)]
    exact found'
  · intro aid member
    have own := (owns.known id r found).1
    have apart : r.currentAttempt ≠ aid := by
      rintro rfl
      exact different (owns.apart other id r' r _ found' found member own)
    rw [attempts, getElem?_modify, if_neg apart]

theorem key_of_queued (wellFormed : WellFormed s)
    (found : s.requests[id]? = some r) {key : CompatibilityKey}
    (queued : id ∈ s.bucket key) : key = r.key := by
  have keyed := wellFormed.queued key id queued
  unfold keyOf? at keyed
  rw [found] at keyed
  exact (Option.some.inj keyed).symm

theorem unqueued_iff (wellFormed : WellFormed s)
    (found : s.requests[id]? = some r) :
    (∀ key, id ∉ s.bucket key) ↔ (s.bucket r.key).count id ≤ 0 := by
  rw [Nat.le_zero, List.count_eq_zero]
  constructor
  · exact fun nowhere => nowhere r.key
  · intro absent key queued
    have same := key_of_queued wellFormed found queued
    subst same
    exact absent queued

theorem unqueued_remove_iff (wellFormed : WellFormed s)
    (found : s.requests[id]? = some r) :
    (∀ key, id ∉ (s.waitingIndex.remove r.key id).bucketOf key) ↔
      (s.bucket r.key).count id ≤ 1 := by
  constructor
  · intro nowhere
    have absent := nowhere r.key
    rw [CompatibilityIndex.bucketOf_remove, if_pos rfl,
      ← List.count_eq_zero, List.count_erase_self] at absent
    have absent : (s.bucket r.key).count id - 1 = 0 := absent
    omega
  · intro once key queued
    rw [CompatibilityIndex.bucketOf_remove] at queued
    split at queued
    · next same =>
        subst same
        have some' := List.count_pos_iff.mpr queued
        rw [List.count_erase_self] at some'
        have some' : 0 < (s.bucket r.key).count id - 1 := some'
        omega
    · next different =>
        exact different (key_of_queued wellFormed found queued).symm

theorem cancelWorks_outside_iff (wellFormed : WellFormed s)
    (owns : s.OwnsAttempts) (found : s.requests[id]? = some r)
    (live : isRequestTerminal r.state = false)
    (outside : isInBatch r.state = false) :
    CancelWorks policy s id r now ↔ KnowsItsPlace s id r := by
  have ran : s.doCancel policy id now = (.ok (), s.cancelOutside id r now) :=
    doCancel_outside found live outside
  have queues : (∀ key, id ∉ (s.cancelOutside id r now).bucket key) ↔
      (s.bucket r.key).count id ≤
        if !isInBatch r.state && r.inWaiting then 1 else 0 := by
    have once := unqueued_remove_iff wellFormed found
    have none := unqueued_iff wellFormed found
    show (∀ key, id ∉ CompatibilityIndex.bucketOf
      (if r.inWaiting then s.waitingIndex.remove r.key id
        else s.waitingIndex) key) ↔ _
    rw [outside]
    cases r.inWaiting with
    | true => exact once
    | false => exact none
  constructor
  · rintro ⟨_, _, unqueued, unlisted, recorded, _⟩
    rw [ran] at unqueued unlisted recorded
    constructor
    · unfold Impl.leavable
      rw [outside]
      rfl
    · exact queues.mp unqueued
    · intro bid b at_bid forming member
      exact absurd member (unlisted bid b at_bid forming)
    · intro b named closed
      obtain ⟨_, records⟩ := recorded b named closed
      exact ⟨records.carried, fun bid c at_bid carrying member =>
        .inr (records.recorded bid c at_bid carrying member)⟩
  · intro place
    constructor
    · rw [ran]
    · rw [ran]
      exact cancelled_of_modify owns found now rfl rfl rfl rfl
    · rw [ran]
      exact queues.mpr place.queued
    · rw [ran]
      intro bid b at_bid forming member
      have inBatch := (place.forming bid b at_bid forming member).1
      rw [outside] at inBatch
      cases inBatch
    · rw [ran]
      intro b named closed
      obtain ⟨carried, recorded⟩ := place.carried b named closed
      refine ⟨⟨b, named, rfl⟩, carried, ?_⟩
      intro bid c at_bid carrying member
      rcases recorded bid c at_bid carrying member with ⟨inBatch, _⟩ | ended
      · rw [outside] at inBatch
        cases inBatch
      · exact ended
    · rw [ran]
      exact others_of_modify owns found now rfl rfl

theorem cancelWorks_forming_iff (wellFormed : WellFormed s)
    (owns : s.OwnsAttempts) (found : s.requests[id]? = some r)
    (live : isRequestTerminal r.state = false)
    (inBatch : isInBatch r.state = true) {b : BatchRec}
    (named : s.batches[r.batch]? = some b) (forming : b.state = .forming) :
    CancelWorks policy s id r now ↔ KnowsItsPlace s id r := by
  have ran : s.doCancel policy id now =
      (.ok (), s.cancelForming policy id r now) :=
    doCancel_forming found live inBatch named forming
  have queues : (∀ key, id ∉ (s.cancelForming policy id r now).bucket key) ↔
      (s.bucket r.key).count id ≤
        if !isInBatch r.state && r.inWaiting then 1 else 0 := by
    have none := unqueued_iff wellFormed found
    rw [inBatch]
    exact none
  have never : ∀ {P : Prop} (b' : BatchRec),
      s.batches[r.batch]? = some b' → b'.state ≠ .forming → P := by
    intro P b' named' closed
    rw [named] at named'
    cases named'
    exact absurd forming closed
  constructor
  · rintro ⟨_, _, unqueued, unlisted, _, _⟩
    rw [ran] at unqueued unlisted
    constructor
    · unfold Impl.leavable
      rw [namesOpen_iff.mpr ⟨b, named, .inl forming⟩, Bool.or_true]
    · exact queues.mp unqueued
    · intro bid c at_bid open' member
      refine ⟨inBatch, ?_⟩
      by_contra different
      apply unlisted bid c _ open' member
      unfold cancelForming
      dsimp only
      rw [getElem?_modify, if_neg (Ne.symm different)]
      exact at_bid
    · exact fun b' named' closed => never b' named' closed
  · intro place
    constructor
    · rw [ran]
    · rw [ran]
      exact cancelled_of_modify owns found now rfl rfl rfl rfl
    · rw [ran]
      exact queues.mpr place.queued
    · rw [ran]
      intro bid c at_bid open'
      obtain ⟨before, at_before, ⟨_, changed⟩ | ⟨different, unchanged⟩⟩ :=
        getElem?_modify_cases at_bid
      · have members : c.members = before.members.filter (· ≠ id) := by
          rw [changed]
          rfl
        rw [members]
        intro member
        exact absurd rfl (of_decide_eq_true (List.mem_filter.mp member).2)
      · subst unchanged
        intro member
        exact different (place.forming bid c at_before open' member).2.symm
    · exact fun b' named' closed => never b' named' closed
    · rw [ran]
      exact others_of_modify owns found now rfl rfl

theorem cancelWorks_carrying_iff (wellFormed : WellFormed s)
    (owns : s.OwnsAttempts) (found : s.requests[id]? = some r)
    (live : isRequestTerminal r.state = false)
    (inBatch : isInBatch r.state = true) {b : BatchRec}
    (named : s.batches[r.batch]? = some b)
    (carrying : isCarrying b.state = true) :
    CancelWorks policy s id r now ↔ KnowsItsPlace s id r := by
  have ran : s.doCancel policy id now =
      (.ok (), s.cancelAfterSeal id r now) :=
    doCancel_carrying found live inBatch named carrying
  have notForming : b.state ≠ .forming := by
    intro forming
    rw [forming] at carrying
    cases carrying
  have queues : (∀ key, id ∉ (s.cancelAfterSeal id r now).bucket key) ↔
      (s.bucket r.key).count id ≤
        if !isInBatch r.state && r.inWaiting then 1 else 0 := by
    have none := unqueued_iff wellFormed found
    rw [inBatch]
    exact none
  have here : (s.cancelAfterSeal id r now).batches[r.batch]? =
      some (b.recordOutcome id .cancelled) := getElem?_modify_self named _
  have elsewhere : ∀ {bid : BatchId}, bid ≠ r.batch →
      (s.cancelAfterSeal id r now).batches[bid]? = s.batches[bid]? := by
    intro bid different
    unfold cancelAfterSeal
    dsimp only
    rw [getElem?_modify, if_neg (Ne.symm different)]
    rfl
  have view : ∀ bid : BatchId,
      ((s.cancelAfterSeal id r now).batches[bid]?).map
          (fun b => (b.state, b.members)) =
        (s.batches[bid]?).map (fun b => (b.state, b.members)) :=
    map_getElem?_modify (fun _ => by rfl) s.batches r.batch
  constructor
  · rintro ⟨_, _, unqueued, unlisted, recorded, _⟩
    rw [ran] at unqueued unlisted recorded
    constructor
    · unfold Impl.leavable
      rw [namesOpen_iff.mpr ⟨b, named, .inr carrying⟩, Bool.or_true]
    · exact queues.mp unqueued
    · intro bid c at_bid open' member
      refine ⟨inBatch, ?_⟩
      by_contra different
      exact unlisted bid c ((elsewhere different).trans at_bid) open' member
    · intro b' named' closed
      obtain ⟨_, records⟩ := recorded b' named' closed
      refine ⟨carries_of_view (fun bid => (view bid).symm) records.carried, ?_⟩
      intro bid c at_bid carrying' member
      by_cases same : bid = r.batch
      · exact .inl ⟨inBatch, same⟩
      · exact .inr (records.recorded bid c ((elsewhere same).trans at_bid)
          carrying' member)
  · intro place
    constructor
    · rw [ran]
    · rw [ran]
      exact cancelled_of_modify owns found now rfl rfl rfl rfl
    · rw [ran]
      exact queues.mpr place.queued
    · rw [ran]
      intro bid c at_bid open' member
      by_cases same : bid = r.batch
      · subst same
        rw [here] at at_bid
        cases at_bid
        exact notForming open'
      · rw [elsewhere same] at at_bid
        exact same (place.forming bid c at_bid open' member).2
    · rw [ran]
      intro b' named' closed
      obtain ⟨carried, recorded⟩ := place.carried b' named' closed
      rw [named] at named'
      cases named'
      refine ⟨⟨_, here, rfl⟩, carries_of_view view carried, ?_⟩
      intro bid c at_bid carrying' member
      by_cases same : bid = r.batch
      · subst same
        rw [here] at at_bid
        cases at_bid
        show (b.outcomes.insert id CompletionStatus.cancelled)[id]? = _
        rw [getElem?_insert, if_pos rfl]
      · rw [elsewhere same] at at_bid
        exact (recorded bid c at_bid carrying' member).resolve_left
          fun known => same known.2
    · rw [ran]
      exact others_of_modify owns found now rfl rfl

end Works

/-- A cancellation works exactly where the request knows its place. -/
theorem cancelWorks_iff {policy : BatchPolicy} {s : Impl}
    (reachable : Reachable policy s) {id : RequestId} {r : RequestRec}
    (found : s.requests[id]? = some r)
    (live : isRequestTerminal r.state = false) (now : TimePoint) :
    CancelWorks policy s id r now ↔ KnowsItsPlace s id r := by
  have wellFormed := wellFormed_of_reachable reachable
  have owns := ownsAttempts_of_reachable reachable
  cases inBatch : isInBatch r.state with
  | false => exact cancelWorks_outside_iff wellFormed owns found live inBatch
  | true =>
      cases open' : s.namesOpen r with
      | false =>
          have stuck : s.leavable r = false := by
            unfold leavable
            rw [inBatch, open']
            rfl
          constructor
          · intro works
            obtain ⟨err, refused⟩ : ∃ err, s.doCancel policy id now =
                (.error err, s) := doCancel_stuck found live stuck
            have succeeds := works.succeeds
            rw [refused] at succeeds
            cases succeeds
          · intro place
            have leaves := place.leavable
            rw [stuck] at leaves
            cases leaves
      | true =>
          obtain ⟨b, named, forming | carrying⟩ := namesOpen_iff.mp open'
          · exact cancelWorks_forming_iff wellFormed owns found live inBatch
              named forming
          · exact cancelWorks_carrying_iff wellFormed owns found live inBatch
              named carrying

/-- A member of a sealed batch. -/
theorem cancelWorks_of_sealed :
    ∃ (s : Impl) (r : RequestRec), s.requests[({ value := 1 } : RequestId)]? =
      some r ∧ CancelWorks {} s { value := 1 } r 2 := by
  obtain ⟨s, ran⟩ : ∃ s, s = BatchFabric.run {}
      [.submit minimalRequest 0, .tick [] 1] := ⟨_, rfl⟩
  have reachable : Reachable {} s := ran ▸ reachable_run {} _
  have known : (s.requests[({ value := 1 } : RequestId)]?).isSome = true := by
    rw [ran, run_eq_runKnown .minimal]
    decide +kernel
  have places : Everywhere s.requests fun id r =>
      isRequestTerminal r.state = false ∧ s.KnowsItsPlace id r := by
    rw [ran, run_eq_runKnown .minimal]
    decide +kernel
  obtain ⟨r, found⟩ := Option.isSome_iff_exists.mp known
  obtain ⟨live, place⟩ := places _ r found
  exact ⟨s, r, found, (cancelWorks_iff reachable found live 2).mpr place⟩

/-- After a sealed batch has been split, the members of its first half name the
batch that has been superseded, and cannot be cancelled. -/
theorem not_cancelWorks_of_split :
    ¬ ∀ (policy : BatchPolicy) (s : Impl) (id : RequestId) (r : RequestRec)
      (now : TimePoint), Reachable policy s → s.requests[id]? = some r →
      isRequestTerminal r.state = false → CancelWorks policy s id r now := by
  intro works
  obtain ⟨s, ran⟩ : ∃ s, s = BatchFabric.run {}
      [.submit minimalRequest 0, .submit minimalRequest 0, .tick [] 1,
        .split { value := 1 }] := ⟨_, rfl⟩
  have reachable : Reachable {} s := ran ▸ reachable_run {} _
  have view : (s.requests[({ value := 1 } : RequestId)]?).map
      (fun r => isRequestTerminal r.state) = some false := by
    rw [ran, run_eq_runKnown .minimal]
    decide +kernel
  have refused : (s.doCancel {} { value := 1 } 2).1.isOk = false := by
    rw [ran, run_eq_runKnown .minimal]
    decide +kernel
  obtain ⟨r, found, live⟩ := Option.map_eq_some_iff.mp view
  rw [(works {} s _ r 2 reachable found live).succeeds] at refused
  cases refused

end Impl

end BatchFabric
