import BatchFabric.Safety.Membership

namespace BatchFabric

open OrderedMap

/-! Request records against batch records. -/

/-- The states in which a request belongs to a batch. -/
def isPlaced : RequestState → Bool
  | .reserved | .batched | .dispatched | .running => true
  | _ => false

/-- The batch states a placed request's state goes with. -/
def fitsBatch : RequestState → BatchState → Bool
  | .reserved, .forming => true
  | .batched, .sealed => true
  | .dispatched, .dispatched | .dispatched, .running
  | .dispatched, .partiallyCompleted => true
  | .running, .dispatched | .running, .running
  | .running, .partiallyCompleted => true
  | _, _ => false

theorem isPlaced_of_fits {state : RequestState} {batch : BatchState}
    (fits : fitsBatch state batch = true) : isPlaced state = true := by
  cases state <;> first | rfl | (cases batch <;> cases fits)

theorem not_terminal_of_isPlaced {state : RequestState}
    (placed : isPlaced state = true) : isRequestTerminal state = false := by
  cases state <;> first | rfl | cases placed

theorem not_waiting_of_isPlaced {state : RequestState}
    (placed : isPlaced state = true) : isWaitingState state = false := by
  cases state <;> first | rfl | cases placed

theorem reserved_of_fits {state : RequestState}
    (fits : fitsBatch state .forming = true) : state = .reserved := by
  cases state <;> first | rfl | cases fits

theorem batched_of_fits {state : RequestState}
    (fits : fitsBatch state .sealed = true) : state = .batched := by
  cases state <;> first | rfl | cases fits

namespace RequestRec

theorem advance_settles (source target : RequestState) (r : RequestRec) :
    (r.advance source target).advance source target =
      r.advance source target := by
  unfold advance
  by_cases atSource : r.state = source
  · rw [if_pos atSource]
    split <;> rfl
  · rw [if_neg atSource, if_neg atSource]

theorem batch_advance (source target : RequestState) (r : RequestRec) :
    (r.advance source target).batch = r.batch := by
  unfold advance
  split <;> rfl

theorem state_advance {source target : RequestState} {r : RequestRec}
    (atSource : r.state = source) :
    (r.advance source target).state = target := by
  unfold advance
  rw [if_pos atSource]

end RequestRec

theorem open_iff (state : BatchState) :
    (state = .forming ∨ state = .sealed) ↔ state.stage ≤ 1 := by
  cases state <;> decide

namespace Impl

/-- A placed request is a member of the batch it names, and a forming or sealed
batch is named by its members. -/
structure RecordsAgree (s : Impl) : Prop where
  held : Everywhere s.requests fun id r => isPlaced r.state = true →
    ∃ b, s.batches[r.batch]? = some b ∧ id ∈ b.members ∧
      fitsBatch r.state b.state = true
  named : Everywhere s.batches fun bid b =>
    (b.state = .forming ∨ b.state = .sealed) →
    ∀ m ∈ b.members, ∀ r, s.requests[m]? = some r →
      isRequestTerminal r.state = false → r.batch = bid

/-- With what carries it from step to step: a waiting request names no batch,
only forming batches are registered, and no two open batches share a member. -/
structure Agrees (s : Impl) : Prop where
  wellFormed : WellFormed s
  records : s.RecordsAgree
  waits : Everywhere s.requests fun _ r =>
    isWaitingState r.state = true → r.batch = .null
  registered : Everywhere s.formingByKey fun _ bid =>
    ∃ b, s.batches[bid]? = some b ∧ b.state = .forming
  listed : ListedOnce 1 s

theorem Agrees.fresh : Agrees fresh where
  wellFormed := WellFormed.fresh
  records := ⟨everywhere_empty, everywhere_empty⟩
  waits := everywhere_empty
  registered := everywhere_empty
  listed := ListedOnce.fresh 1

namespace Agrees

variable {s : Impl}

theorem of_tables {s' : Impl} (agrees : s.Agrees) (wellFormed : WellFormed s')
    (requests : s'.requests = s.requests) (batches : s'.batches = s.batches)
    (registry : s'.formingByKey = s.formingByKey) : s'.Agrees where
  wellFormed := wellFormed
  records := by
    constructor
    · rw [requests, batches]
      exact agrees.records.held
    · rw [requests, batches]
      exact agrees.records.named
  waits := by
    rw [requests]
    exact agrees.waits
  registered := by
    rw [registry, batches]
    exact agrees.registered
  listed := agrees.listed.of_batches batches

/-- A member of an open batch that has not ended names it. -/
theorem batch_of_member (agrees : s.Agrees) {bid : BatchId} {b : BatchRec}
    (found : s.batches[bid]? = some b) (opened : b.state.stage ≤ 1)
    {m : RequestId} (member : m ∈ b.members) {r : RequestRec}
    (request : s.requests[m]? = some r)
    (going : isRequestTerminal r.state = false) : r.batch = bid :=
  agrees.records.named bid b found ((open_iff b.state).mpr opened) m member r
    request going

/-- No open batch lists a waiting request. -/
theorem unlisted_of_waiting (agrees : s.Agrees) {id : RequestId}
    {r : RequestRec} (request : s.requests[id]? = some r)
    (waiting : isWaitingState r.state = true) : s.Unlisted 1 id := by
  intro bid b found opened member
  have named := agrees.batch_of_member found opened member request
    (not_terminal_of_isWaiting waiting)
  rw [agrees.waits id r request waiting] at named
  have positive := (agrees.wellFormed.batch bid b found).2.1
  rw [← named] at positive
  exact Nat.lt_irrefl _ positive

end Agrees

/-- An update of one request that leaves batches in their states and without
more members, and drops no other request from them. -/
structure Removes (s s' : Impl) (id : RequestId) : Prop where
  others : ∀ other, other ≠ id → s'.requests[other]? = s.requests[other]?
  shrinks : Everywhere s'.batches (ShrunkFrom s)
  keeps : Everywhere s.batches fun bid b => ∃ b', s'.batches[bid]? = some b' ∧
    b'.state = b.state ∧ ∀ m ∈ b.members, m ≠ id → m ∈ b'.members
  registry : s'.formingByKey = s.formingByKey

/-- A request ends, or is queued again while no open batch lists it. -/
theorem Agrees.leave {s s' : Impl} (agrees : s.Agrees)
    (wellFormed : WellFormed s') {id : RequestId} (removes : Removes s s' id)
    (after : ∀ r, s'.requests[id]? = some r →
      isPlaced r.state = false ∧
      (isWaitingState r.state = true → r.batch = .null) ∧
      (isRequestTerminal r.state = false → s.Unlisted 1 id)) :
    s'.Agrees where
  wellFormed := wellFormed
  records := by
    constructor
    · intro other r found placed
      by_cases same : other = id
      · subst same
        rw [(after r found).1] at placed
        cases placed
      · rw [removes.others other same] at found
        obtain ⟨b, at_batch, member, fits⟩ :=
          agrees.records.held other r found placed
        obtain ⟨b', after', state, kept⟩ := removes.keeps r.batch b at_batch
        exact ⟨b', after', kept other member same, by rw [state, fits]⟩
    · intro bid b' found' opened' m member r request going
      obtain ⟨b, found, sublist, advanced⟩ := removes.shrinks bid b' found'
      have opened := Nat.le_trans advanced ((open_iff b'.state).mp opened')
      by_cases same : m = id
      · subst same
        exact absurd (sublist.subset member)
          ((after r request).2.2 going bid b found opened)
      · rw [removes.others m same] at request
        exact agrees.batch_of_member found opened (sublist.subset member)
          request going
  waits := by
    intro other r found waiting
    by_cases same : other = id
    · subst same
      exact (after r found).2.1 waiting
    · rw [removes.others other same] at found
      exact agrees.waits other r found waiting
  registered := by
    rw [removes.registry]
    intro key bid found
    obtain ⟨b, at_bid, forming⟩ := agrees.registered key bid found
    obtain ⟨b', after', state, _⟩ := removes.keeps bid b at_bid
    exact ⟨b', after', state.trans forming⟩
  listed := agrees.listed.shrink removes.shrinks

theorem keeps_modify {s : Impl} {bid : BatchId} {change : BatchRec → BatchRec}
    {id : RequestId} (state : ∀ b, (change b).state = b.state)
    (members : ∀ b, ∀ m ∈ b.members, m ≠ id → m ∈ (change b).members) :
    Everywhere s.batches fun other b =>
      ∃ b', (s.batches.modify bid change)[other]? = some b' ∧
        b'.state = b.state ∧ ∀ m ∈ b.members, m ≠ id → m ∈ b'.members := by
  intro other b found
  rw [getElem?_modify]
  split
  · rw [found]
    exact ⟨change b, rfl, state b, members b⟩
  · exact ⟨b, found, rfl, fun _ member _ => member⟩

theorem keeps_refl (s : Impl) (id : RequestId) :
    Everywhere s.batches fun bid b => ∃ b', s.batches[bid]? = some b' ∧
      b'.state = b.state ∧ ∀ m ∈ b.members, m ≠ id → m ∈ b'.members :=
  fun _ b found => ⟨b, found, rfl, fun _ member _ => member⟩

theorem others_modify {requests : Map RequestId RequestRec} (id : RequestId)
    (change : RequestRec → RequestRec) (other : RequestId)
    (different : other ≠ id) :
    (requests.modify id change)[other]? = requests[other]? := by
  rw [getElem?_modify, if_neg (Ne.symm different)]

/-- The record of a request that has just ended. -/
theorem ended_modify {s : Impl} {id : RequestId}
    {change : RequestRec → RequestRec}
    (ended : ∀ r, isRequestTerminal (change r).state = true) :
    ∀ r, (s.requests.modify id change)[id]? = some r →
      isPlaced r.state = false ∧
      (isWaitingState r.state = true → r.batch = .null) ∧
      (isRequestTerminal r.state = false → s.Unlisted 1 id) := by
  intro r found
  have ended : isRequestTerminal r.state = true := by
    obtain ⟨before, _, ⟨_, rfl⟩ | ⟨different, _⟩⟩ :=
      getElem?_modify_cases found
    · exact ended before
    · exact absurd rfl different
  refine ⟨?_, ?_, ?_⟩
  · cases placed : isPlaced r.state with
    | false => rfl
    | true =>
        rw [not_terminal_of_isPlaced placed] at ended
        cases ended
  · intro waiting
    rw [not_terminal_of_isWaiting waiting] at ended
    cases ended
  · intro going
    rw [ended] at going
    cases going

namespace Agrees

variable {s : Impl}

theorem doCancel (agrees : s.Agrees) (policy : BatchPolicy) (id : RequestId)
    (now : TimePoint) : (s.doCancel policy id now).2.Agrees := by
  have wellFormed := agrees.wellFormed.doCancel policy id now
  obtain unchanged | ⟨r, _, _, ⟨_, outside⟩ |
      ⟨_, b, _, ⟨_, forming⟩ | ⟨_, later⟩⟩⟩ := doCancel_cases policy s id now
  · rw [unchanged]
    exact agrees
  · rw [outside] at wellFormed ⊢
    exact agrees.leave wellFormed {
      others := others_modify id _
      shrinks := everywhere_shrunkFrom s
      keeps := keeps_refl s id
      registry := rfl } (ended_modify fun _ => rfl)
  · rw [forming] at wellFormed ⊢
    exact agrees.leave wellFormed {
      others := others_modify id _
      shrinks := (InPlace.cancelForming policy s id r now).shrinking
      keeps := keeps_modify (fun _ => rfl) fun _ m member different =>
        List.mem_filter.mpr ⟨member, decide_eq_true different⟩
      registry := rfl } (ended_modify fun _ => rfl)
  · rw [later] at wellFormed ⊢
    exact agrees.leave wellFormed {
      others := others_modify id _
      shrinks := (InPlace.cancelAfterSeal s id r now).shrinking
      keeps := keeps_modify (fun _ => rfl) fun _ _ member _ => member
      registry := rfl } (ended_modify fun _ => rfl)

theorem expireWaiting (agrees : s.Agrees) (now : TimePoint)
    (id : RequestId) : (expireWaiting now s id).Agrees := by
  have wellFormed := agrees.wellFormed.expireWaiting now id
  obtain unchanged | ⟨r, found, ⟨ended, removed⟩ | ⟨_, stats, expired⟩⟩ :=
    expireWaiting_cases now s id
  · rw [unchanged]
    exact agrees
  · rw [removed] at wellFormed ⊢
    exact agrees.of_tables wellFormed rfl rfl rfl
  · rw [expired] at wellFormed ⊢
    exact agrees.leave wellFormed {
      others := others_modify id _
      shrinks := everywhere_shrunkFrom s
      keeps := keeps_refl s id
      registry := rfl } (ended_modify fun _ => rfl)

theorem doSubmit (agrees : s.Agrees) (policy : BatchPolicy)
    (metadata : RequestMetadata) (now : TimePoint) :
    (s.doSubmit policy metadata now).2.Agrees := by
  have wellFormed := agrees.wellFormed.doSubmit policy metadata now
  have created : ∀ r : RequestRec, r.batch = .null →
      isPlaced r.state = false → ∀ s' : Impl, WellFormed s' →
      s'.requests = s.requests.insert { value := s.nextRequest } r →
      s'.batches = s.batches → s'.formingByKey = s.formingByKey →
      s'.Agrees := by
    intro r nameless unplaced s' wellFormed' requests batches registry
    apply agrees.leave wellFormed' {
      others := by
        intro other different
        rw [requests, getElem?_insert, if_neg (Ne.symm different)]
      shrinks := by
        rw [batches]
        exact everywhere_shrunkFrom s
      keeps := by
        rw [batches]
        exact keeps_refl s _
      registry := registry }
    intro r' found
    rw [requests, getElem?_insert, if_pos rfl] at found
    cases found
    refine ⟨unplaced, fun _ => nameless, fun _ => ?_⟩
    intro bid b at_bid _ member
    exact agrees.wellFormed.ne_of_member at_bid member rfl
  obtain ⟨stats, unrecorded⟩ | ⟨_, ⟨state, outcome, stats, known, taken⟩ |
      ⟨fairness, stats, taken⟩⟩ := doSubmit_cases policy s metadata now
  · rw [unrecorded] at wellFormed ⊢
    exact agrees.of_tables wellFormed rfl rfl rfl
  · rw [taken] at wellFormed ⊢
    have unplaced : isPlaced state = false := by
      rcases known with rfl | rfl | ⟨rfl, _⟩ <;> rfl
    exact created _ rfl unplaced _ wellFormed rfl rfl rfl
  · rw [taken] at wellFormed ⊢
    exact created _ rfl rfl _ wellFormed rfl rfl rfl

theorem openForming (agrees : s.Agrees) (key : CompatibilityKey)
    (now : TimePoint) : (s.openForming key now).Agrees := by
  have unknown : s.batches[({ value := s.nextBatch } : BatchId)]? = none :=
    agrees.wellFormed.no_batch (Nat.le_refl _)
  have stays : ∀ (bid : BatchId) (b : BatchRec), s.batches[bid]? = some b →
      (s.openForming key now).batches[bid]? = some b := by
    intro bid b found
    unfold Impl.openForming
    dsimp only
    rw [getElem?_insert]
    split
    · next same =>
        subst same
        rw [unknown] at found
        cases found
    · exact found
  constructor
  · exact agrees.wellFormed.openForming key now
  · constructor
    · intro id r found placed
      obtain ⟨b, at_batch, member, fits⟩ := agrees.records.held id r found
        placed
      exact ⟨b, stays r.batch b at_batch, member, fits⟩
    · intro bid b found opened m member
      rcases found_openForming found with ⟨_, rfl⟩ | before
      · cases member
      · exact agrees.records.named bid b before opened m member
  · exact agrees.waits
  · intro other bid found
    unfold Impl.openForming at found ⊢
    dsimp only at found ⊢
    rw [getElem?_insert] at found
    split at found
    · cases found
      rw [getElem?_insert, if_pos rfl]
      exact ⟨_, rfl, rfl⟩
    · obtain ⟨b, at_bid, forming⟩ := agrees.registered other bid found
      exact ⟨b, stays bid b at_bid, forming⟩
  · exact agrees.listed.openForming key now

theorem place (agrees : s.Agrees) {bid : BatchId} {key : CompatibilityKey}
    {pick : RequestId} {b : BatchRec} {r : RequestRec}
    (wellFormed : WellFormed (s.place bid key pick))
    (found : s.batches[bid]? = some b)
    (registered : s.formingByKey[key]? = some bid)
    (request : s.requests[pick]? = some r)
    (waiting : isWaitingState r.state = true) :
    (s.place bid key pick).Agrees := by
  have unlisted := agrees.unlisted_of_waiting request waiting
  have forming : b.state = .forming := by
    obtain ⟨b', found', forming⟩ := agrees.registered key bid registered
    rw [found] at found'
    cases found'
    exact forming
  have listed : ListedOnce 1 (s.place bid key pick) :=
    agrees.listed.place request unlisted
  rw [place_eq request] at wellFormed listed ⊢
  have stays : ∀ (other : BatchId) (before : BatchRec),
      s.batches[other]? = some before →
      ∃ b', (s.batches.modify bid fun b => b.addMember pick r.metadata)[
        other]? = some b' ∧ b'.state = before.state ∧
        ∀ m ∈ before.members, m ∈ b'.members := by
    intro other before at_other
    rw [getElem?_modify]
    split
    · rw [at_other]
      exact ⟨_, rfl, rfl, fun m member => List.mem_append_left _ member⟩
    · exact ⟨before, at_other, rfl, fun _ member => member⟩
  constructor
  · exact wellFormed
  · constructor
    · intro id r' found' placed
      obtain ⟨before, at_id, ⟨rfl, rfl⟩ | ⟨_, rfl⟩⟩ :=
        getElem?_modify_cases found'
      · refine ⟨b.addMember pick r.metadata, getElem?_modify_self found _, ?_, ?_⟩
        · exact List.mem_append_right _ (List.mem_singleton_self pick)
        · show fitsBatch .reserved b.state = true
          rw [forming]
          rfl
      · obtain ⟨b', at_batch, member, fits⟩ :=
          agrees.records.held id r' at_id placed
        obtain ⟨after, at_after, state, kept⟩ := stays r'.batch b' at_batch
        exact ⟨after, at_after, kept id member, by rw [state, fits]⟩
    · intro other b' found' opened m member r' request' going
      obtain ⟨before, at_other, ⟨rfl, rfl⟩ | ⟨different, rfl⟩⟩ :=
        getElem?_modify_cases found'
      · obtain ⟨r₀, at_m, ⟨rfl, rfl⟩ | ⟨otherRequest, rfl⟩⟩ :=
          getElem?_modify_cases request'
        · rfl
        · rcases List.mem_append.mp member with old | new
          · exact agrees.records.named bid before at_other opened m old r' at_m
              going
          · exact absurd (List.mem_singleton.mp new).symm otherRequest
      · have reached := (open_iff b'.state).mp opened
        obtain ⟨r₀, at_m, ⟨rfl, rfl⟩ | ⟨_, rfl⟩⟩ :=
          getElem?_modify_cases request'
        · exact absurd member (unlisted other b' at_other reached)
        · exact agrees.records.named other b' at_other opened m member r' at_m
            going
  · exact agrees.waits.modify fun _ _ _ waiting => nomatch waiting
  · intro other bid' at_key
    obtain ⟨before, at_bid, isForming⟩ := agrees.registered other bid' at_key
    obtain ⟨after, at_after, state, _⟩ := stays bid' before at_bid
    exact ⟨after, at_after, state.trans isForming⟩
  · exact listed

/-- A batch moves on with those of its members that are in state `source`. -/
theorem advance {s' : Impl} (agrees : s.Agrees) (wellFormed : WellFormed s')
    {bid : BatchId} {b : BatchRec} {change : BatchRec → BatchRec}
    {source target : RequestState} (found : s.batches[bid]? = some b)
    (requests : s'.requests =
      modifyAll s.requests b.members (RequestRec.advance source target))
    (batches : s'.batches = s.batches.modify bid change)
    (members : (change b).members = b.members)
    (stages : b.state.stage ≤ (change b).state.stage)
    (placed : isPlaced source = true ∧ isPlaced target = true)
    (lands : fitsBatch target (change b).state = true)
    (kept : ∀ state, state ≠ source → fitsBatch state b.state = true →
      fitsBatch state (change b).state = true)
    (elsewhere : ∀ id r x, id ∈ b.members → s.requests[id]? = some r →
      r.state = source → r.batch ≠ bid → s.batches[r.batch]? = some x →
      fitsBatch source x.state = true → fitsBatch target x.state = true)
    (registered : Everywhere s'.formingByKey fun key x =>
      x ≠ bid ∧ s.formingByKey[key]? = some x) : s'.Agrees := by
  have moved : ∀ id r', s'.requests[id]? = some r' →
      ∃ r, s.requests[id]? = some r ∧ r'.batch = r.batch ∧
        ((id ∈ b.members ∧ r.state = source ∧ r'.state = target) ∨
          ((id ∈ b.members → r.state ≠ source) ∧ r'.state = r.state)) := by
    intro id r' found'
    rw [requests] at found'
    obtain ⟨r, at_id, ⟨member, rfl⟩ | ⟨outside, rfl⟩⟩ :=
      getElem?_modifyAll_cases (RequestRec.advance_settles source target) found'
    · refine ⟨r, at_id, RequestRec.batch_advance source target r, ?_⟩
      by_cases atSource : r.state = source
      · exact .inl ⟨member, atSource, RequestRec.state_advance atSource⟩
      · refine .inr ⟨fun _ => atSource, ?_⟩
        unfold RequestRec.advance
        rw [if_neg atSource]
    · exact ⟨r', at_id, rfl, .inr ⟨fun member => absurd member outside, rfl⟩⟩
  have atBid : s'.batches[bid]? = some (change b) := by
    rw [batches]
    exact getElem?_modify_self found change
  have atOther : ∀ x, x ≠ bid → s'.batches[x]? = s.batches[x]? := by
    intro x different
    rw [batches, getElem?_modify, if_neg (Ne.symm different)]
  constructor
  · exact wellFormed
  · constructor
    · intro id r' found' placed'
      obtain ⟨r, at_id, named, ⟨member, atSource, state⟩ | ⟨outside, state⟩⟩ :=
        moved id r' found'
      · rw [named, state]
        obtain ⟨x, at_x, inX, fits⟩ := agrees.records.held id r at_id
          (by rw [atSource]; exact placed.1)
        by_cases same : r.batch = bid
        · rw [same]
          exact ⟨change b, atBid, members ▸ member, lands⟩
        · refine ⟨x, (atOther _ same).trans at_x, inX, ?_⟩
          exact elsewhere id r x member at_id atSource same at_x
            (by rwa [atSource] at fits)
      · rw [state] at placed'
        rw [named, state]
        obtain ⟨x, at_x, inX, fits⟩ := agrees.records.held id r at_id placed'
        by_cases same : r.batch = bid
        · rw [same] at at_x ⊢
          rw [found] at at_x
          cases at_x
          exact ⟨change b, atBid, members ▸ inX,
            kept r.state (outside inX) fits⟩
        · exact ⟨x, (atOther _ same).trans at_x, inX, fits⟩
    · intro x b' found' opened m member r' request going
      obtain ⟨r, at_m, named, changed⟩ := moved m r' request
      have going' : isRequestTerminal r.state = false := by
        rcases changed with ⟨_, atSource, _⟩ | ⟨_, state⟩
        · rw [atSource]
          exact not_terminal_of_isPlaced placed.1
        · rwa [← state]
      rw [named]
      by_cases same : x = bid
      · subst same
        rw [atBid] at found'
        cases found'
        have reached := (open_iff _).mp opened
        exact agrees.batch_of_member found (Nat.le_trans stages reached)
          (members ▸ member) at_m going'
      · rw [atOther x same] at found'
        exact agrees.records.named x b' found' opened m member r at_m going'
  · intro id r' found' waiting
    obtain ⟨r, at_id, named, ⟨_, _, state⟩ | ⟨_, state⟩⟩ := moved id r' found'
    · rw [state] at waiting
      rw [not_waiting_of_isPlaced placed.2] at waiting
      cases waiting
    · rw [named]
      rw [state] at waiting
      exact agrees.waits id r at_id waiting
  · intro key x at_key
    obtain ⟨different, before⟩ := registered key x at_key
    obtain ⟨b', at_x, forming⟩ := agrees.registered key x before
    exact ⟨b', (atOther x different).trans at_x, forming⟩
  · apply agrees.listed.shrink
    intro x b' found'
    by_cases same : x = bid
    · subst same
      rw [atBid] at found'
      cases found'
      exact ⟨b, found, by rw [members], stages⟩
    · rw [atOther x same] at found'
      exact ⟨b', found', List.Sublist.refl _, Nat.le_refl _⟩

/-- Where the batch is open, its placed members all name it. -/
theorem not_elsewhere (agrees : s.Agrees) {bid : BatchId} {b : BatchRec}
    (found : s.batches[bid]? = some b) (opened : b.state.stage ≤ 1)
    {source : RequestState} (placed : isPlaced source = true)
    {id : RequestId} {r : RequestRec} (member : id ∈ b.members)
    (request : s.requests[id]? = some r) (state : r.state = source) :
    r.batch = bid :=
  agrees.batch_of_member found opened member request
    (by rw [state]; exact not_terminal_of_isPlaced placed)

/-- A batch that is not forming is registered under no key. -/
theorem not_registered (agrees : s.Agrees) {bid : BatchId} {b : BatchRec}
    (found : s.batches[bid]? = some b) (closed : b.state ≠ .forming) :
    Everywhere s.formingByKey fun key x =>
      x ≠ bid ∧ s.formingByKey[key]? = some x := by
  intro key x at_key
  refine ⟨?_, at_key⟩
  rintro rfl
  obtain ⟨b', at_x, forming⟩ := agrees.registered key x at_key
  rw [found] at at_x
  cases at_x
  exact closed forming

theorem sealForming (agrees : s.Agrees) {bid : BatchId} {b : BatchRec}
    (found : s.batches[bid]? = some b) (forming : b.state = .forming)
    (reason : SealReason) (now : TimePoint) :
    (s.sealForming bid b reason now).Agrees := by
  have opened : b.state.stage ≤ 1 := by
    rw [forming]
    decide
  have stages : b.state.stage ≤ BatchState.stage .sealed := opened
  apply agrees.advance (agrees.wellFormed.sealForming found forming reason now)
    found rfl rfl rfl stages ⟨rfl, rfl⟩ rfl
  · intro state different fits
    rw [forming] at fits
    exact absurd (reserved_of_fits fits) different
  · intro id r x member request state other _ _
    exact absurd (agrees.not_elsewhere found opened rfl member request state)
      other
  · intro key x at_key
    unfold Impl.sealForming at at_key
    dsimp only at at_key
    rw [getElem?_erase] at at_key
    split at at_key
    · cases at_key
    · next different =>
        refine ⟨?_, at_key⟩
        rintro rfl
        exact different (agrees.wellFormed.registered_key at_key found)

theorem markDispatched (agrees : s.Agrees) {bid : BatchId} {b : BatchRec}
    (found : s.batches[bid]? = some b) (isSealed : b.state = .sealed)
    (worker : WorkerId) (boot : WorkerBootId) (now : TimePoint) :
    (s.markDispatched bid b worker boot now).Agrees := by
  have opened : b.state.stage ≤ 1 := by
    rw [isSealed]
    decide
  have stages : b.state.stage ≤ BatchState.stage .dispatched :=
    Nat.le_succ_of_le opened
  apply agrees.advance (agrees.wellFormed.inPlace
      (InPlace.markDispatched found isSealed worker boot now))
    found rfl rfl rfl stages ⟨rfl, rfl⟩ rfl
  · intro state different fits
    rw [isSealed] at fits
    exact absurd (batched_of_fits fits) different
  · intro id r x member request state other _ _
    exact absurd (agrees.not_elsewhere found opened rfl member request state)
      other
  · exact agrees.not_registered found (by rw [isSealed]; exact nofun)

theorem markRunning (agrees : s.Agrees) {bid : BatchId} {b : BatchRec}
    (found : s.batches[bid]? = some b) (dispatched : b.state = .dispatched) :
    (s.markRunning bid b).Agrees := by
  have stages : b.state.stage ≤ BatchState.stage .running := by
    rw [dispatched]
    decide
  apply agrees.advance (agrees.wellFormed.inPlace
      (InPlace.markRunning found dispatched))
    found rfl rfl rfl stages ⟨rfl, rfl⟩ rfl
  · intro state _ fits
    rw [dispatched] at fits
    cases state <;> first | rfl | cases fits
  · intro _ _ x _ _ _ _ _ fits
    cases state : x.state <;> rw [state] at fits <;> first | rfl | cases fits
  · exact agrees.not_registered found (by rw [dispatched]; exact nofun)

/-- A batch in flight comes to an end. -/
theorem endBatch {s' : Impl} (agrees : s.Agrees) (wellFormed : WellFormed s')
    {bid : BatchId} {b : BatchRec} {change : BatchRec → BatchRec}
    (found : s.batches[bid]? = some b) (closed : b.state ≠ .forming)
    (requests : s'.requests = s.requests)
    (batches : s'.batches = s.batches.modify bid change)
    (registry : s'.formingByKey = s.formingByKey)
    (shrinks : Everywhere s'.batches (ShrunkFrom s))
    (members : (change b).members = b.members)
    (ended : 2 ≤ (change b).state.stage)
    (fitting : ∀ id ∈ b.members, ∀ r, s.requests[id]? = some r →
      fitsBatch r.state b.state = true →
      fitsBatch r.state (change b).state = true) : s'.Agrees := by
  have atOther : ∀ x, x ≠ bid → s'.batches[x]? = s.batches[x]? := by
    intro x different
    rw [batches, getElem?_modify, if_neg (Ne.symm different)]
  have atBid : s'.batches[bid]? = some (change b) := by
    rw [batches]
    exact getElem?_modify_self found change
  constructor
  · exact wellFormed
  · constructor
    · rw [requests]
      intro id r request placed
      obtain ⟨x, at_x, member, fits⟩ := agrees.records.held id r request placed
      by_cases same : r.batch = bid
      · rw [same] at at_x ⊢
        rw [found] at at_x
        cases at_x
        exact ⟨change b, atBid, members ▸ member,
          fitting id member r request fits⟩
      · exact ⟨x, (atOther _ same).trans at_x, member, fits⟩
    · rw [requests]
      intro x b' found' opened
      by_cases same : x = bid
      · subst same
        rw [atBid] at found'
        cases found'
        have reached := (open_iff _).mp opened
        exact absurd (Nat.le_trans ended reached) (by decide)
      · rw [atOther x same] at found'
        exact agrees.records.named x b' found' opened
  · rw [requests]
    exact agrees.waits
  · rw [registry]
    intro key x at_key
    obtain ⟨different, _⟩ := agrees.not_registered found closed key x at_key
    obtain ⟨b', at_x, forming⟩ := agrees.registered key x at_key
    exact ⟨b', (atOther x different).trans at_x, forming⟩
  · exact agrees.listed.shrink shrinks

theorem finishBatch (agrees : s.Agrees) {bid : BatchId} {b : BatchRec}
    (found : s.batches[bid]? = some b)
    (inFlight : b.state = .dispatched ∨ b.state = .running)
    (worker : WorkerId) (now : TimePoint) :
    (s.finishBatch bid worker now).Agrees := by
  have wellFormed := agrees.wellFormed.inPlace
    (InPlace.finishBatch found inFlight worker now)
  have shrinks := (InPlace.finishBatch found inFlight worker now).shrinking
  have closed : b.state ≠ .forming := by
    intro forming
    rw [forming] at inFlight
    rcases inFlight with state | state <;> cases state
  obtain unchanged | ⟨b', stats, workers, found', ⟨ended, taken⟩ |
      ⟨_, taken⟩⟩ := finishBatch_cases s bid worker now
  · rw [unchanged]
    exact agrees
  · rw [found] at found'
    cases found'
    rw [taken] at wellFormed shrinks ⊢
    have completed : 2 ≤ BatchState.stage .completed := by decide
    apply agrees.endBatch wellFormed found closed rfl rfl rfl shrinks rfl
      completed
    -- All members have ended, so none of them is placed.
    intro id member r request fits
    have terminal := List.all_eq_true.mp ended id member
    simp only [request] at terminal
    rw [not_terminal_of_isPlaced (isPlaced_of_fits fits)] at terminal
    cases terminal
  · rw [found] at found'
    cases found'
    rw [taken] at wellFormed shrinks ⊢
    have completed : 2 ≤ BatchState.stage .partiallyCompleted := by decide
    apply agrees.endBatch wellFormed found closed rfl rfl rfl shrinks rfl
      completed
    intro id _ r _ fits
    rcases inFlight with state | state <;> rw [state] at fits <;>
      cases at' : r.state <;> rw [at'] at fits <;> first | rfl | cases fits

theorem removes_conclude (s : Impl) (r : RequestRec) (mc : MemberCompletion)
    (state : RequestState) (now : TimePoint) (fairness : FairnessController)
    (stats : BatchStats) :
    Removes s { s.conclude r mc state now with
      fairness := fairness, stats := stats } mc.request where
  others := others_modify mc.request _
  shrinks := (InPlace.conclude s r mc state now fairness stats).shrinking
  keeps := keeps_modify (fun b => (conclude_listing b mc).2.2.1)
    fun b m member _ => by rwa [(conclude_listing b mc).2.1]
  registry := rfl

theorem conclude (agrees : s.Agrees) {r : RequestRec} {a : AttemptRec}
    {mc : MemberCompletion} {state : RequestState}
    (concluding : Concluding s mc r a state) (now : TimePoint)
    (fairness : FairnessController) (stats : BatchStats) :
    Agrees { s.conclude r mc state now with
      fairness := fairness, stats := stats } := by
  apply agrees.leave (agrees.wellFormed.inPlace
    (InPlace.conclude s r mc state now fairness stats))
    (removes_conclude s r mc state now fairness stats)
  apply ended_modify
  intro before
  rw [state_conclude]
  exact endState_terminal concluding.acts

/-- A request no open batch lists is queued again. -/
theorem requeue (agrees : s.Agrees) {id : RequestId} {r : RequestRec}
    (wellFormed : ∀ number, WellFormed (s.requeue id r number))
    (unlisted : s.Unlisted 1 id) (number : UInt32) :
    (s.requeue id r number).Agrees := by
  apply agrees.leave (wellFormed number) {
    others := others_modify id _
    shrinks := everywhere_shrunkFrom s
    keeps := keeps_refl s id
    registry := rfl }
  intro r' found'
  obtain ⟨before, _, ⟨_, rfl⟩ | ⟨different, _⟩⟩ :=
    getElem?_modify_cases found'
  · exact ⟨rfl, fun _ => rfl, fun _ => unlisted⟩
  · exact absurd rfl different

end Agrees

end Impl

end BatchFabric
