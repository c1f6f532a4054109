import BatchFabric.Safety.Agreement
import BatchFabric.Scheduler.KnownKeys

namespace BatchFabric

open OrderedMap

/-! Splits and merges against the agreement of the records, and its runs. -/

namespace Impl

theorem setBatch_settles (bid : BatchId) (r : RequestRec) :
    (r.setBatch bid).setBatch bid = r.setBatch bid := rfl

theorem mem_halves_of_mem {b : BatchRec} {m : RequestId}
    (member : m ∈ b.members) : m ∈ firstHalf b ∨ m ∈ secondHalf b := by
  unfold firstHalf secondHalf
  rw [← List.mem_append, List.take_append_drop]
  exact member

/-- Which batch a request names after a split. -/
theorem found_splitRequests {s : Impl} {bid child : BatchId} {b : BatchRec}
    {id : RequestId} {r' : RequestRec}
    (found : (s.splitRequests bid child b)[id]? = some r') :
    ∃ r, s.requests[id]? = some r ∧ r'.state = r.state ∧
      ((id ∈ firstHalf b ∧ r'.batch = bid) ∨
        (id ∉ firstHalf b ∧ id ∈ secondHalf b ∧ r'.batch = child) ∨
        (id ∉ b.members ∧ r'.batch = r.batch)) := by
  unfold splitRequests at found
  obtain ⟨r₁, at_id, ⟨first, rfl⟩ | ⟨notFirst, rfl⟩⟩ :=
    getElem?_modifyAll_cases (setBatch_settles bid) found
  · obtain ⟨r, before, ⟨_, rfl⟩ | ⟨_, rfl⟩⟩ :=
      getElem?_modifyAll_cases (setBatch_settles child) at_id
    · exact ⟨r, before, rfl, .inl ⟨first, rfl⟩⟩
    · exact ⟨r₁, before, rfl, .inl ⟨first, rfl⟩⟩
  · obtain ⟨r, before, ⟨second, rfl⟩ | ⟨notSecond, rfl⟩⟩ :=
      getElem?_modifyAll_cases (setBatch_settles child) at_id
    · exact ⟨r, before, rfl, .inr (.inl ⟨notFirst, second, rfl⟩)⟩
    · refine ⟨r', before, rfl, .inr (.inr ⟨?_, rfl⟩)⟩
      intro member
      rcases mem_halves_of_mem member with first | second
      · exact notFirst first
      · exact notSecond second

/-- The first half of a batch has ended. -/
def firstHalfEnded (s : Impl) (b : BatchRec) : Bool :=
  (firstHalf b).all fun m =>
    match s.requests[m]? with
    | none => true
    | some r => isRequestTerminal r.state

theorem ended_of_firstHalf {s : Impl} {b : BatchRec}
    (ended : s.firstHalfEnded b = true) {m : RequestId} {r : RequestRec}
    (first : m ∈ firstHalf b) (request : s.requests[m]? = some r) :
    isRequestTerminal r.state = true := by
  have known := List.all_eq_true.mp ended m first
  simpa only [request] using known

namespace Agrees

variable {s : Impl}

/-- An open batch gives its second half to a child. The first half stays, or
has ended and may go anywhere. -/
theorem halves {s' : Impl} (agrees : s.Agrees) (wellFormed : WellFormed s')
    {bid child : BatchId} {b : BatchRec} (found : s.batches[bid]? = some b)
    (opened : b.state.stage ≤ 1)
    (requests : s'.requests = s.splitRequests bid child b)
    (kept : ∀ x b', x ≠ bid → s.batches[x]? = some b' →
      s'.batches[x]? = some b')
    (second : ∃ c, s'.batches[child]? = some c ∧ c.members = secondHalf b ∧
      c.state = b.state)
    (first : (∃ p, s'.batches[bid]? = some p ∧ p.members = firstHalf b ∧
      p.state = b.state) ∨ s.firstHalfEnded b = true)
    (lists : ∀ x b', s'.batches[x]? = some b' → b'.state.stage ≤ 1 →
      (x = child ∧ b'.members = secondHalf b) ∨
        (b'.members = firstHalf b ∧
          (x = bid ∨ s.firstHalfEnded b = true)) ∨
        (x ≠ bid ∧ s.batches[x]? = some b'))
    (registered : Everywhere s'.formingByKey fun _ x =>
      ∃ b, s'.batches[x]? = some b ∧ b.state = .forming)
    (listed : ListedOnce 1 s') : s'.Agrees := by
  have disjoint : List.Disjoint (firstHalf b) (secondHalf b) :=
    List.disjoint_take_drop (agrees.listed.once bid b found opened)
      (Nat.le_refl _)
  constructor
  · exact wellFormed
  · constructor
    · intro id r' found' placed
      rw [requests] at found'
      obtain ⟨r, request, state, moved⟩ := found_splitRequests found'
      rw [state] at placed ⊢
      obtain ⟨x, at_x, inX, fits⟩ := agrees.records.held id r request placed
      have named : id ∈ b.members → x = b := by
        intro member
        rw [agrees.batch_of_member found opened member request
          (not_terminal_of_isPlaced placed), found] at at_x
        exact (Option.some.inj at_x).symm
      rcases moved with ⟨inFirst, named'⟩ | ⟨_, inSecond, named'⟩ |
        ⟨outside, named'⟩
      · rw [named']
        rw [named (mem_halves (.inl inFirst))] at fits
        rcases first with ⟨p, at_bid, members, same⟩ | ended
        · exact ⟨p, at_bid, members ▸ inFirst, same ▸ fits⟩
        · have terminal := ended_of_firstHalf ended inFirst request
          rw [not_terminal_of_isPlaced placed] at terminal
          cases terminal
      · rw [named']
        rw [named (mem_halves (.inr inSecond))] at fits
        obtain ⟨c, at_child, members, same⟩ := second
        exact ⟨c, at_child, members ▸ inSecond, same ▸ fits⟩
      · rw [named']
        refine ⟨x, kept r.batch x ?_ at_x, inX, fits⟩
        intro same
        rw [same, found] at at_x
        cases at_x
        exact outside inX
    · intro x b' found' opened' m member r' request' going
      rw [requests] at request'
      obtain ⟨r, request, state, moved⟩ := found_splitRequests request'
      rw [state] at going
      rcases lists x b' found' ((open_iff _).mp opened') with
        ⟨rfl, members⟩ | ⟨members, place⟩ | ⟨different, before⟩
      · rw [members] at member
        rcases moved with ⟨inFirst, _⟩ | ⟨_, _, named⟩ | ⟨outside, _⟩
        · exact absurd member (disjoint inFirst)
        · exact named
        · exact absurd (mem_halves (.inr member)) outside
      · rw [members] at member
        rcases place with rfl | ended
        · rcases moved with ⟨_, named⟩ | ⟨notFirst, _⟩ | ⟨outside, _⟩
          · exact named
          · exact absurd member notFirst
          · exact absurd (mem_halves (.inl member)) outside
        · rw [ended_of_firstHalf ended member request] at going
          cases going
      · have named := agrees.records.named x b' before opened' m member r
          request going
        have outside : m ∉ b.members := by
          intro shared
          exact different (named.symm.trans
            (agrees.batch_of_member found opened shared request going))
        rcases moved with ⟨inFirst, _⟩ | ⟨_, inSecond, _⟩ | ⟨_, same⟩
        · exact absurd (mem_halves (.inl inFirst)) outside
        · exact absurd (mem_halves (.inr inSecond)) outside
        · exact same.trans named
  · intro id r' found' waiting
    rw [requests] at found'
    obtain ⟨r, request, state, moved⟩ := found_splitRequests found'
    rw [state] at waiting
    have outside : id ∉ b.members :=
      agrees.unlisted_of_waiting request waiting bid b found opened
    rcases moved with ⟨inFirst, _⟩ | ⟨_, inSecond, _⟩ | ⟨_, same⟩
    · exact absurd (mem_halves (.inl inFirst)) outside
    · exact absurd (mem_halves (.inr inSecond)) outside
    · exact same.trans (agrees.waits id r request waiting)
  · exact registered
  · exact listed

theorem splitOpen (agrees : s.Agrees) {bid : BatchId} {b : BatchRec}
    (found : s.batches[bid]? = some b) (forming : b.state = .forming) :
    (s.splitOpen bid b).Agrees := by
  have opened : b.state.stage ≤ 1 := by
    rw [forming]
    decide
  have below : bid ≠ { value := s.nextBatch } := by
    rintro rfl
    rw [agrees.wellFormed.no_batch (Nat.le_refl _)] at found
    cases found
  have kept : ∀ x b', x ≠ bid → s.batches[x]? = some b' →
      (s.splitOpen bid b).batches[x]? = some b' := by
    intro x b' different before
    unfold Impl.splitOpen
    dsimp only
    rw [getElem?_insert, getElem?_insert, if_neg (Ne.symm different)]
    split
    · next same =>
        subst same
        rw [agrees.wellFormed.no_batch (Nat.le_refl _)] at before
        cases before
    · exact before
  have parent : ∃ p, (s.splitOpen bid b).batches[bid]? = some p ∧
      p.members = firstHalf b ∧ p.state = b.state := by
    unfold Impl.splitOpen
    dsimp only
    rw [getElem?_insert, if_neg (Ne.symm below), getElem?_insert, if_pos rfl]
    exact ⟨_, rfl, rfl, rfl⟩
  apply agrees.halves (agrees.wellFormed.splitOpen found) found opened rfl kept
    _ (.inl parent) _ _ (agrees.listed.splitOpen found opened)
  · unfold Impl.splitOpen
    dsimp only
    rw [getElem?_insert, if_pos rfl]
    exact ⟨_, rfl, rfl, rfl⟩
  · intro x b' found' _
    rcases found_splitOpen found' with
      ⟨same, members, _⟩ | ⟨same, members, _⟩ | before
    · exact .inl ⟨same, members⟩
    · exact .inr (.inl ⟨members, .inl same⟩)
    · exact .inr (.inr before)
  · intro key x at_key
    obtain ⟨p, at_bid, _, state⟩ := parent
    by_cases same : x = bid
    · subst same
      exact ⟨p, at_bid, state.trans forming⟩
    · unfold Impl.splitOpen at at_key
      dsimp only at at_key
      rw [getElem?_insert] at at_key
      split at at_key
      · cases at_key
        exact absurd rfl same
      · obtain ⟨b', at_x, isForming⟩ := agrees.registered key x at_key
        exact ⟨b', kept x b' same at_x, isForming⟩

theorem splitSealed (agrees : s.Agrees) {bid : BatchId} {b : BatchRec}
    (found : s.batches[bid]? = some b) (isSealed : b.state = .sealed)
    (ended : s.firstHalfEnded b = true) : (s.splitSealed bid b).Agrees := by
  have opened : b.state.stage ≤ 1 := by
    rw [isSealed]
    decide
  have kept : ∀ x b', x ≠ bid → s.batches[x]? = some b' →
      (s.splitSealed bid b).batches[x]? = some b' := by
    intro x b' different before
    unfold Impl.splitSealed
    dsimp only
    rw [getElem?_insert, getElem?_insert, getElem?_insert,
      if_neg (Ne.symm different)]
    split
    · next same =>
        subst same
        rw [agrees.wellFormed.no_batch (Nat.le_succ _)] at before
        cases before
    · split
      · next same =>
          subst same
          rw [agrees.wellFormed.no_batch (Nat.le_refl _)] at before
          cases before
      · exact before
  apply agrees.halves (agrees.wellFormed.splitSealed found) found opened rfl
    kept _ (.inr ended) _ _ (agrees.listed.splitSealed (by decide) found opened)
  · have distinct : ({ value := s.nextBatch + 1 } : BatchId) ≠
        { value := s.nextBatch } := by
      intro same
      exact absurd (congrArg Identifier.value same) (Nat.succ_ne_self _)
    unfold Impl.splitSealed
    dsimp only
    rw [getElem?_insert, if_neg distinct, getElem?_insert, if_pos rfl]
    exact ⟨_, rfl, rfl, rfl⟩
  · intro x b' found' reached
    rcases found_splitSealed found' with ⟨_, members, _⟩ |
      ⟨same, members, _⟩ | ⟨_, state⟩ | before
    · exact .inr (.inl ⟨members, .inr ended⟩)
    · exact .inl ⟨same, members⟩
    · exact absurd reached
        (ListedOnce.not_reached_of_superseded (by decide) state)
    · exact .inr (.inr before)
  · intro key x at_key
    obtain ⟨different, before⟩ :=
      agrees.not_registered found (by rw [isSealed]; exact nofun) key x at_key
    obtain ⟨b', at_x, isForming⟩ := agrees.registered key x before
    exact ⟨b', kept x b' different at_x, isForming⟩

/-- An open batch takes the members of another of its state. -/
theorem mergeInto (agrees : s.Agrees) {aid bid : BatchId} {a b : BatchRec}
    (different : aid ≠ bid) (foundA : s.batches[aid]? = some a)
    (foundB : s.batches[bid]? = some b) (keyed : a.key = b.key)
    (states : a.state = b.state) (opened : b.state.stage ≤ 1) :
    (s.mergeInto aid bid a b).Agrees := by
  have openedA : a.state.stage ≤ 1 := states ▸ opened
  have kept : ∀ x b', x ≠ aid → x ≠ bid → s.batches[x]? = some b' →
      (s.mergeInto aid bid a b).batches[x]? = some b' := by
    intro x b' otherA otherB before
    unfold Impl.mergeInto
    dsimp only
    rw [getElem?_modify, if_neg (Ne.symm otherB), getElem?_insert,
      if_neg (Ne.symm otherA)]
    exact before
  have target : ∃ t, (s.mergeInto aid bid a b).batches[aid]? = some t ∧
      t.members = a.members ++ b.members ∧ t.state = a.state := by
    unfold Impl.mergeInto
    dsimp only
    rw [getElem?_modify, if_neg (Ne.symm different), getElem?_insert,
      if_pos rfl]
    exact ⟨_, rfl, rfl, rfl⟩
  have moved : ∀ id r', (s.mergeInto aid bid a b).requests[id]? = some r' →
      ∃ r, s.requests[id]? = some r ∧ r'.state = r.state ∧
        ((id ∈ b.members ∧ r'.batch = aid) ∨
          (id ∉ b.members ∧ r'.batch = r.batch)) := by
    intro id r' found'
    obtain ⟨r, request, ⟨member, rfl⟩ | ⟨outside, rfl⟩⟩ :=
      getElem?_modifyAll_cases (setBatch_settles aid) found'
    · exact ⟨r, request, rfl, .inl ⟨member, rfl⟩⟩
    · exact ⟨r', request, rfl, .inr ⟨outside, rfl⟩⟩
  obtain ⟨t, at_aid, members, state⟩ := target
  constructor
  · exact agrees.wellFormed.mergeInto foundA foundB keyed
  · constructor
    · intro id r' found' placed
      obtain ⟨r, request, sameState, named⟩ := moved id r' found'
      rw [sameState] at placed ⊢
      obtain ⟨x, at_x, inX, fits⟩ := agrees.records.held id r request placed
      rcases named with ⟨member, named⟩ | ⟨outside, named⟩
      · rw [agrees.batch_of_member foundB opened member request
          (not_terminal_of_isPlaced placed), foundB] at at_x
        cases at_x
        rw [named]
        exact ⟨t, at_aid, members ▸ List.mem_append_right _ member,
          by rw [state, states, fits]⟩
      · rw [named]
        by_cases same : r.batch = aid
        · rw [same] at at_x ⊢
          rw [foundA] at at_x
          cases at_x
          exact ⟨t, at_aid, members ▸ List.mem_append_left _ inX,
            by rw [state, fits]⟩
        · refine ⟨x, kept r.batch x same ?_ at_x, inX, fits⟩
          intro sameB
          rw [sameB, foundB] at at_x
          cases at_x
          exact outside inX
    · intro x b' found' opened' m member r' request' going
      obtain ⟨r, request, sameState, named⟩ := moved m r' request'
      rw [sameState] at going
      rcases found_mergeInto found' with ⟨_, superseded⟩ |
        ⟨rfl, _, members', _⟩ | ⟨otherA, otherB, before⟩
      · rw [superseded] at opened'
        rcases opened' with state | state <;> cases state
      · rcases named with ⟨_, named⟩ | ⟨outside, named⟩
        · exact named
        · rw [members'] at member
          rcases List.mem_append.mp member with ofA | ofB
          · exact named.trans
              (agrees.batch_of_member foundA openedA ofA request going)
          · exact absurd ofB outside
      · have namesX := agrees.records.named x b' before opened' m member r
          request going
        rcases named with ⟨shared, _⟩ | ⟨_, named⟩
        · exact absurd (namesX.symm.trans
            (agrees.batch_of_member foundB opened shared request going)) otherB
        · exact named.trans namesX
  · intro id r' found' waiting
    obtain ⟨r, request, sameState, named⟩ := moved id r' found'
    rw [sameState] at waiting
    rcases named with ⟨member, _⟩ | ⟨_, named⟩
    · exact absurd member
        (agrees.unlisted_of_waiting request waiting bid b foundB opened)
    · exact named.trans (agrees.waits id r request waiting)
  · have stays : ∀ x, x ≠ bid →
        (∃ b', s.batches[x]? = some b' ∧ b'.state = .forming) →
        ∃ b', (s.mergeInto aid bid a b).batches[x]? = some b' ∧
          b'.state = .forming := by
      rintro x otherB ⟨b', at_x, forming⟩
      by_cases same : x = aid
      · subst same
        rw [foundA] at at_x
        cases at_x
        exact ⟨t, at_aid, state.trans forming⟩
      · exact ⟨b', kept x b' same otherB at_x, forming⟩
    intro key x at_key
    unfold Impl.mergeInto at at_key
    dsimp only at at_key
    split at at_key
    · next isRegistered =>
        rw [getElem?_insert] at at_key
        split at at_key
        · cases at_key
          obtain ⟨b', at_bid, forming⟩ :=
            agrees.registered b.key bid isRegistered
          rw [foundB] at at_bid
          cases at_bid
          exact ⟨t, at_aid, state.trans (states.trans forming)⟩
        · next otherKey =>
            apply stays x _ (agrees.registered key x at_key)
            rintro rfl
            exact otherKey (agrees.wellFormed.registered_key at_key foundB)
    · next unregistered =>
        apply stays x _ (agrees.registered key x at_key)
        rintro rfl
        rw [agrees.wellFormed.registered_key at_key foundB] at unregistered
        exact unregistered at_key
  · exact agrees.listed.mergeInto (by decide) foundA foundB states

theorem tickRule (policy : BatchPolicy) (now : TimePoint) :
    TickRule policy now Agrees where
  wellFormed _ agrees := agrees.wellFormed
  expire _ id agrees := agrees.expireWaiting now id
  cancel _ id agrees := agrees.doCancel policy id now
  openForming _ key agrees _ := agrees.openForming key now
  place s bid key pick b r agrees placing :=
    agrees.place
      ((WellFormed.tickRule policy now).place s bid key pick b r
        agrees.wellFormed placing)
      placing.batch placing.registered placing.request placing.waiting
  retime s bid change agrees retimes := by
    have kept := InPlace.of_retimes s bid retimes
    have states : ∀ b, (change b).state = b.state ∧
        (change b).members = b.members := by
      intro b
      obtain ⟨allowed, formed, changed⟩ := retimes b
      rw [changed]
      exact ⟨rfl, rfl⟩
    -- No request is removed: an identifier that names none will do.
    have removes : Removes s
        { s with batches := s.batches.modify bid change }
        { value := s.nextRequest } := {
      others := fun _ _ => rfl
      shrinks := kept.shrinking
      keeps := keeps_modify (fun b => (states b).1)
        fun b m member _ => (states b).2 ▸ member
      registry := rfl }
    apply agrees.leave (agrees.wellFormed.inPlace kept) removes
    intro r found
    rw [agrees.wellFormed.no_request] at found
    cases found
  close _ _ _ reason agrees found forming :=
    agrees.sealForming found forming reason now
  merge _ _ _ _ _ agrees merging :=
    agrees.mergeInto merging.different merging.first merging.second
      merging.keyed (merging.firstSealed.trans merging.secondSealed.symm)
      (by rw [merging.secondSealed]; decide)

end Agrees

/-! What a run may not do. -/

/-- A split leaves no placed request behind in a batch that has ended, and
registers no batch that is past forming. -/
def splitsCleanly (s : Impl) (b : BatchRec) : Bool :=
  !splittable b || b.state == .forming ||
    (b.state == .sealed && s.firstHalfEnded b)

/-- The oversized batch at a position, if there is one, is split cleanly. -/
def sizeSplitsCleanly (s : Impl) (i : Nat) : Bool :=
  match s.oversizedAt i with
  | none => true
  | some bid =>
      match s.batches[bid]? with
      | none => true
      | some b => s.splitsCleanly b

/-- Every split of a tick's last pass is clean when its turn comes. -/
def tickSplitsCleanly (policy : BatchPolicy) (s : Impl)
    (order : List CompatibilityKey) (now : TimePoint) : Bool :=
  let merged := s.tickUntilSizePass policy order now
  decide (Transition.Along splitOversized
    (fun s i => s.sizeSplitsCleanly i = true) merged
    (List.range merged.sealedOrder.length))

/-- An outcome of this status queues the request again. -/
def requeues (policy : BatchPolicy) (s : Impl) (id : RequestId)
    (status : CompletionStatus) : Bool :=
  status == .retryableFailure && policy.retry.enabled &&
    match s.requests[id]? with
    | none => false
    | some r =>
        match s.attempts[r.currentAttempt]? with
        | none => false
        | some a => a.number < policy.retry.maxAttempts

def requeuesUnlisted (policy : BatchPolicy) (s : Impl) (id : RequestId)
    (status : CompletionStatus) : Bool :=
  !s.requeues policy id status || decide (s.Unlisted 1 id)

/-- Splits are clean, no batch is merged with itself, and no request is queued
again that a forming or sealed batch lists. -/
def keepsAgreement (policy : BatchPolicy) (s : Impl) : Op → Bool
  | .split batch =>
      match s.batches[batch]? with
      | none => true
      | some b => s.splitsCleanly b
  | .merge a b =>
      match s.batches[a]? with
      | none => true
      | some r => a != b || !canMerge policy r r
  | .retry request order now =>
      !s.takesRetry policy request now ||
        (decide (s.Unlisted 1 request) &&
          (s.retryQueued policy request now).2.tickSplitsCleanly policy order
            now)
  | .tick order now => s.tickSplitsCleanly policy order now
  | .complete completion now =>
      s.allowsReport policy (requeuesUnlisted policy) completion now
  | .dispatchAndRun batch executor now =>
      s.allowsRun policy (requeuesUnlisted policy) batch executor now
  | _ => true

namespace Agrees

theorem recordRule (policy : BatchPolicy) (now : TimePoint) :
    RecordRule policy now (requeuesUnlisted policy) Agrees where
  count _ _ agrees :=
    agrees.of_tables (agrees.wellFormed.of_counters _ _ _ _) rfl rfl rfl
  conclude _ _ _ _ _ fairness stats agrees concluding _ :=
    agrees.conclude concluding now fairness stats
  requeue s r a mc state fairness stats agrees concluding allowed retryable
      enabled again := by
    have concluded := agrees.conclude concluding now fairness stats
    have removes := removes_conclude s r mc state now fairness stats
    have unlisted : s.Unlisted 1 mc.request := by
      simpa [requeuesUnlisted, requeues, retryable, enabled,
        concluding.request, concluding.attempt, again] using allowed
    apply concluded.requeue
    · intro number
      have keyed := agrees.wellFormed.keyed_of_found concluding.request
      rw [← keyOf?_eq_of_fixed
        (InPlace.conclude s r mc state now fairness stats).requests] at keyed
      exact concluded.wellFormed.requeue keyed mc.request number
    · exact unlisted.of_lists fun bid lists =>
        ⟨bid, lists.of_shrunk removes.shrinks⟩
  dispatch _ _ _ worker boot agrees found isSealed :=
    agrees.markDispatched found isSealed worker boot now
  running _ _ _ agrees found dispatched := agrees.markRunning found dispatched
  finish _ _ _ worker agrees found inFlight :=
    agrees.finishBatch found inFlight worker now

theorem doTick {s : Impl} (agrees : s.Agrees) {policy : BatchPolicy}
    {order : List CompatibilityKey} {now : TimePoint}
    (clean : s.tickSplitsCleanly policy order now = true) :
    (s.doTick policy order now).Agrees := by
  have along := of_decide_eq_true clean
  apply along.invariant Agrees
  · intro current i _ held allowed
    rcases splitOversized_cases held.wellFormed i with
      unchanged | ⟨bid, b, found, isSealed, possible, oversized, taken⟩
    · rw [unchanged]
      exact held
    · rw [taken]
      apply held.splitSealed found isSealed
      simpa [sizeSplitsCleanly, oversized, found, splitsCleanly, possible,
        isSealed] using allowed
  · exact (tickRule policy now).untilSizePass agrees order

theorem step {policy : BatchPolicy} {s : Impl} (agrees : s.Agrees) {op : Op}
    (guarded : keepsAgreement policy s op = true) :
    (step policy s op).Agrees := by
  cases op with
  | submit metadata now => exact agrees.doSubmit policy metadata now
  | cancel request now => exact agrees.doCancel policy request now
  | complete completion now =>
      exact (recordRule policy now).reports.doComplete agrees guarded
  | sealBatch batch reason now =>
      show (s.sealBatch batch reason now).2.Agrees
      obtain unchanged | ⟨b, found, forming, closed⟩ :=
        sealBatch_cases s batch reason now
      · rw [unchanged]
        exact agrees
      · rw [closed]
        exact agrees.sealForming found forming reason now
  | split batch =>
      show (s.doSplit batch).2.Agrees
      obtain unchanged | ⟨b, found, possible, ⟨isSealed, taken⟩ |
          ⟨unsealed, taken⟩⟩ := doSplit_cases s batch
      · rw [unchanged]
        exact agrees
      · rw [taken]
        apply agrees.splitSealed found isSealed
        simpa [keepsAgreement, found, splitsCleanly, possible, isSealed]
          using guarded
      · rw [taken]
        apply agrees.splitOpen found
        simpa [keepsAgreement, found, splitsCleanly, possible, unsealed]
          using guarded
  | merge a b =>
      show (s.doMerge policy a b).2.Agrees
      obtain unchanged | ⟨first, second, foundA, foundB, possible, merged⟩ :=
        doMerge_cases policy s a b
      · rw [unchanged]
        exact agrees
      · rw [merged]
        obtain ⟨keyed, _, states, opened⟩ := canMerge_cases possible
        rw [states] at opened
        apply agrees.mergeInto _ foundA foundB keyed states
        · exact (open_iff second.state).mp opened.symm
        · rintro rfl
          rw [foundA] at foundB
          cases foundB
          simp [keepsAgreement, foundA, possible] at guarded
  | retry request order now =>
      show (s.doRetry policy request order now).2.Agrees
      obtain ⟨err, refused⟩ | ⟨r, found, again, live, queued⟩ :=
        retryQueued_cases policy s request now
      · rw [doRetry_eq, refused]
        exact agrees
      · have guards : s.Unlisted 1 request ∧
            (s.requeue request r (s.attemptNumber r + 1)).tickSplitsCleanly
              policy order now = true := by
          simpa [keepsAgreement, takesRetry, found, again, live, queued]
            using guarded
        rw [doRetry_eq, queued]
        apply (agrees.requeue _ guards.1 _).doTick guards.2
        intro number
        exact agrees.wellFormed.requeue
          (agrees.wellFormed.keyed_of_found found) request number
  | tick order now => exact agrees.doTick guarded
  | expire order now => exact (tickRule policy now).expireLocked agrees order
  | dispatchAndRun batch executor now =>
      exact (recordRule policy now).reports.doDispatchAndRun agrees guarded
  | prepareDispatch batch worker boot now =>
      exact (recordRule policy now).reports.prepareDispatch agrees batch worker
        boot
  | registerWorker worker boot cap =>
      exact agrees.of_tables (agrees.wellFormed.of_counters _ _ _ _) rfl rfl rfl
  | rollEpoch =>
      exact agrees.of_tables (agrees.wellFormed.of_counters _ _ _ _) rfl rfl rfl

end Agrees

/-- Requests and batches agree in every run that splits cleanly, merges no batch
with itself and queues no request again that an open batch lists. -/
theorem recordsAgree_of_run (policy : BatchPolicy) (ops : List Op)
    (guarded : Transition.Along (BatchFabric.step policy)
      (fun s op => keepsAgreement policy s op = true) fresh ops) :
    (run policy ops).RecordsAgree :=
  (guarded.invariant Agrees (fun _ _ _ held allowed => held.step allowed)
    Agrees.fresh).records

/-- A forming batch is split, its halves sealed and merged; then the batch is
dispatched, partly fails, and what failed is placed again. -/
theorem recordsAgree_of_merged_halves :
    (run { constraints.minimumPreferredBatch := 3 }
      [.submit minimalRequest 0, .submit minimalRequest 0, .tick [] 1,
        .split { value := 1 }, .sealBatch { value := 1 } .policyDerived 2,
        .sealBatch { value := 2 } .policyDerived 2,
        .merge { value := 1 } { value := 2 },
        .prepareDispatch { value := 1 } .null .null 3,
        .complete {
          epoch := { value := 1 }, generation := { value := 1 }
          batch := { value := 1 }
          members := [{
            request := { value := 1 }, attempt := { value := 1 }
            status := .retryableFailure }] } 4,
        .tick [] 5]).RecordsAgree :=
  recordsAgree_of_run _ _ (by
    rw [step_eq_stepKnown .minimal]
    decide +kernel)

theorem not_recordsAgree_of_stray {s : Impl} (id : RequestId)
    (stray : (s.requests[id]?).any (fun r => isPlaced r.state &&
      !(s.batches[r.batch]?).any fun b => fitsBatch r.state b.state) = true) :
    ¬ s.RecordsAgree := by
  intro agree
  obtain ⟨r, found, known⟩ := (Option.any_eq_true _ _).mp stray
  obtain ⟨placed, nowhere⟩ := (Bool.and_eq_true _ _).mp known
  obtain ⟨b, at_batch, _, fits⟩ := agree.held id r found placed
  rw [at_batch] at nowhere
  simp [fits] at nowhere

/-- The first half of a sealed batch still names it after a split, though it
is superseded and a new batch has taken the half over. -/
theorem not_recordsAgree_of_splitting_sealed :
    ¬ (run {}
      [.submit minimalRequest 0, .submit minimalRequest 0, .tick [] 1,
        .split { value := 1 }]).RecordsAgree :=
  not_recordsAgree_of_stray { value := 1 } (by
    rw [run_eq_runKnown .minimal]
    decide +kernel)

end Impl

end BatchFabric
