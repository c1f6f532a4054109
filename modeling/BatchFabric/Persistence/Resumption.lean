import BatchFabric.Persistence.Recovery
import BatchFabric.Safety.Compatible
import BatchFabric.Safety.FormingRegistry
import BatchFabric.Safety.Names
import BatchFabric.Safety.SealedOrder
import BatchFabric.Safety.WaitingIndex

namespace BatchFabric

open OrderedMap

/-! Whether a fabric that resumes from what another has persisted works from
the same records and indexes. -/

namespace Impl

/-- A fresh fabric that has loaded what this one persists. -/
def resumed (s : Impl) : Impl :=
  fresh.loadPersisted s.buildPersisted

/-- The second fabric is the first as far as a tick reads it, its records in
the fields that are persisted. -/
structure Resumes (s s' : Impl) : Prop where
  epoch : s'.epoch = s.epoch
  nextRequest : s'.nextRequest = s.nextRequest
  nextBatch : s'.nextBatch = s.nextBatch
  nextAttempt : s'.nextAttempt = s.nextAttempt
  nextGeneration : s'.nextGeneration = s.nextGeneration
  requests : ∀ id : RequestId,
    (s'.requests[id]?).map RequestRec.persisted =
      (s.requests[id]?).map RequestRec.persisted
  attempts : ∀ aid : AttemptId,
    (s'.attempts[aid]?).map AttemptRec.persisted =
      (s.attempts[aid]?).map AttemptRec.persisted
  batches : ∀ bid : BatchId,
    (s'.batches[bid]?).map BatchRec.persisted =
      (s.batches[bid]?).map BatchRec.persisted
  buckets : ∀ key id, id ∈ s'.bucket key ↔ id ∈ s.bucket key
  registry : ∀ key : CompatibilityKey,
    s'.formingByKey[key]? = s.formingByKey[key]?
  sealedBatches : ∀ bid,
    (bid ∈ s'.sealedOrder ∧ s'.isSealedBatch bid = true) ↔
      (bid ∈ s.sealedOrder ∧ s.isSealedBatch bid = true)
  served : ∀ t : TenantId, s'.fairness.served[t]? = s.fairness.served[t]?

/-- The latest of the forming batches of a key. -/
def LatestForming (s : Impl) (key : CompatibilityKey) (bid : BatchId) : Prop :=
  (s.batches[bid]?).bind formingKey = some key ∧
    ∀ other : BatchId, (s.batches[other]?).bind formingKey = some key →
      other.value ≤ bid.value

/-- The indexes say what the records say. -/
structure IndexesCurrent (s : Impl) : Prop where
  queued : ∀ key id, id ∈ s.bucket key ↔
    ∃ r, s.requests[id]? = some r ∧ isWaitingState r.state = true ∧
      r.key = key
  registered : ∀ (key : CompatibilityKey) bid,
    s.formingByKey[key]? = some bid ↔ s.LatestForming key bid
  ordered : s.SealedListed
  tenants : Everywhere s.fairness.served fun t _ => t.value < 2 ^ 64

/-! What the loops of a load leave alone. -/

section Loops

variable (s : Impl)

theorem run_loadRequest (records : List PersistedRequest) :
    ∃ requests waitingIndex, Transition.run loadRequest s records =
      { s with requests := requests, waitingIndex := waitingIndex } := by
  induction records generalizing s with
  | nil => exact ⟨s.requests, s.waitingIndex, rfl⟩
  | cons record rest induction => exact induction (s.loadRequest record)

theorem run_loadAttempt (records : List PersistedAttempt) :
    ∃ attempts, Transition.run loadAttempt s records =
      { s with attempts := attempts } := by
  induction records generalizing s with
  | nil => exact ⟨s.attempts, rfl⟩
  | cons record rest induction => exact induction (s.loadAttempt record)

theorem loadBatch_frame (record : PersistedBatch) :
    ∃ batches formingByKey sealedOrder stats, s.loadBatch record =
      { s with
        batches := batches, formingByKey := formingByKey
        sealedOrder := sealedOrder, stats := stats } := by
  unfold loadBatch
  dsimp only
  split
  · split
    · exact ⟨_, _, _, _, rfl⟩
    · exact ⟨_, _, _, _, rfl⟩
  · split
    · exact ⟨_, _, _, _, rfl⟩
    · exact ⟨_, _, _, _, rfl⟩

theorem run_loadBatch (records : List PersistedBatch) :
    ∃ batches formingByKey sealedOrder stats,
      Transition.run loadBatch s records =
        { s with
          batches := batches, formingByKey := formingByKey
          sealedOrder := sealedOrder, stats := stats } := by
  induction records generalizing s with
  | nil => exact ⟨s.batches, s.formingByKey, s.sealedOrder, s.stats, rfl⟩
  | cons record rest induction =>
      obtain ⟨_, _, _, _, loaded⟩ := loadBatch_frame s record
      rw [Transition.run_cons, loaded]
      exact induction _

end Loops

/-! What the loops fill in. -/

section Filled

variable {s : Impl}

theorem requests_run_loadRequest (records : List PersistedRequest)
    (cleared : s.requests = ∅) (id : RequestId) :
    ((Transition.run loadRequest s records).requests[id]?).map
        RequestRec.persisted =
      (insertAll ∅ (records.map fun pr => (pr.id, pr)))[id]? := by
  rw [← List.filterMap_eq_map]
  apply view_foldl_eq_insertAll
  · rintro state pr _ ⟨⟩ key
    unfold loadRequest
    dsimp only
    rw [getElem?_insert]
    split <;> rfl
  · exact fun _ _ => nofun
  · intro key
    rw [cleared]
    simp

theorem attempts_run_loadAttempt (records : List PersistedAttempt)
    (cleared : s.attempts = ∅) (aid : AttemptId) :
    ((Transition.run loadAttempt s records).attempts[aid]?).map
        AttemptRec.persisted =
      (insertAll ∅ (records.map fun pa => (pa.id, pa)))[aid]? := by
  rw [← List.filterMap_eq_map]
  apply view_foldl_eq_insertAll
  · rintro state pa _ ⟨⟩ key
    unfold loadAttempt
    dsimp only
    rw [getElem?_insert]
    split <;> rfl
  · exact fun _ _ => nofun
  · intro key
    rw [cleared]
    simp

/-- The entry a batch record makes in the registry of forming batches. -/
def formingEntry (pb : PersistedBatch) : Option (CompatibilityKey × BatchId) :=
  if pb.state = .forming then some (pb.key, pb.id) else none

theorem batches_loadBatch (s : Impl) (pb : PersistedBatch) (bid : BatchId) :
    ((s.loadBatch pb).batches[bid]?).map BatchRec.persisted =
      if pb.id = bid then some pb
      else (s.batches[bid]?).map BatchRec.persisted := by
  have inserted : ∃ b : BatchRec, b.persisted = pb ∧
      (s.loadBatch pb).batches = s.batches.insert pb.id b := by
    unfold loadBatch
    dsimp only
    split
    · split <;> exact ⟨_, rfl, rfl⟩
    · split <;> exact ⟨_, rfl, rfl⟩
  obtain ⟨b, persisted, batches⟩ := inserted
  rw [batches, getElem?_insert]
  split
  · exact congrArg some persisted
  · rfl

theorem batches_run_loadBatch (records : List PersistedBatch)
    (cleared : s.batches = ∅) (bid : BatchId) :
    ((Transition.run loadBatch s records).batches[bid]?).map
        BatchRec.persisted =
      (insertAll ∅ (records.map fun pb => (pb.id, pb)))[bid]? := by
  rw [← List.filterMap_eq_map]
  apply view_foldl_eq_insertAll
  · rintro state pb _ ⟨⟩ key
    exact batches_loadBatch state pb key
  · exact fun _ _ => nofun
  · intro key
    rw [cleared]
    simp

theorem formingByKey_loadBatch (s : Impl) (pb : PersistedBatch) :
    (s.loadBatch pb).formingByKey =
      if pb.state = .forming then s.formingByKey.insert pb.key pb.id
      else s.formingByKey := by
  unfold loadBatch
  dsimp only
  split
  · split <;> rfl
  · split <;> rfl

theorem formingByKey_run_loadBatch (records : List PersistedBatch)
    (cleared : s.formingByKey = ∅) (key : CompatibilityKey) :
    (Transition.run loadBatch s records).formingByKey[key]? =
      (insertAll ∅ (records.filterMap formingEntry))[key]? := by
  have viewed : ((Transition.run loadBatch s records).formingByKey[key]?).map
      id = (insertAll ∅ (records.filterMap formingEntry))[key]? := by
    apply view_foldl_eq_insertAll
    · intro state pb entry enters key
      unfold formingEntry at enters
      rw [formingByKey_loadBatch]
      split at enters
      · next forming =>
          cases enters
          rw [if_pos forming, getElem?_insert]
          split <;> rfl
      · cases enters
    · intro state pb enters key
      unfold formingEntry at enters
      rw [formingByKey_loadBatch]
      split at enters
      · cases enters
      · next other => rw [if_neg other]
    · intro key
      rw [cleared]
      simp
  rwa [Option.map_id, id_eq] at viewed

theorem sealedOrder_run_loadBatch (s : Impl) (records : List PersistedBatch) :
    (Transition.run loadBatch s records).sealedOrder =
      s.sealedOrder ++
        (records.filter fun pb => pb.state = .sealed).map (·.id) := by
  induction records generalizing s with
  | nil => exact (List.append_nil _).symm
  | cons pb rest induction =>
      have loaded : (s.loadBatch pb).sealedOrder =
          if pb.state = .sealed then s.sealedOrder ++ [pb.id]
          else s.sealedOrder := by
        unfold loadBatch
        dsimp only
        split
        · split <;> rfl
        · split <;> rfl
      rw [Transition.run_cons, induction, loaded]
      by_cases isSealed : pb.state = .sealed
      · simp [isSealed]
      · simp [isSealed]

theorem mem_bucket_run_loadRequest (s : Impl)
    (records : List PersistedRequest) (key : CompatibilityKey)
    (id : RequestId) :
    id ∈ (Transition.run loadRequest s records).bucket key ↔
      id ∈ s.bucket key ∨
        ∃ pr ∈ records, isWaitingState pr.state = true ∧
          CompatibilityKey.build pr.descriptor = key ∧ pr.id = id := by
  induction records generalizing s with
  | nil => simp
  | cons pr rest induction =>
      have loaded : id ∈ (s.loadRequest pr).bucket key ↔
          id ∈ s.bucket key ∨ (isWaitingState pr.state = true ∧
            CompatibilityKey.build pr.descriptor = key ∧ pr.id = id) := by
        unfold loadRequest bucket
        dsimp only
        split
        · next waiting =>
            rw [CompatibilityIndex.bucketOf_add]
            by_cases same : CompatibilityKey.build pr.descriptor = key
            · simp [same, waiting, eq_comm]
            · simp [same]
        · next elsewhere => simp [elsewhere]
      rw [Transition.run_cons, induction, loaded, or_assoc]
      simp

end Filled

/-- What a load makes of a runtime, table by table. -/
structure Loaded (rt : PersistedRuntime) (s : Impl) : Prop where
  epoch : s.epoch = rt.epoch
  nextRequest : s.nextRequest = rt.nextRequest
  nextBatch : s.nextBatch = rt.nextBatch
  nextAttempt : s.nextAttempt = rt.nextAttempt
  nextGeneration : s.nextGeneration = rt.nextGeneration
  requests : ∀ id : RequestId,
    (s.requests[id]?).map RequestRec.persisted =
      (insertAll ∅ (rt.requests.map fun pr => (pr.id, pr)))[id]?
  attempts : ∀ aid : AttemptId,
    (s.attempts[aid]?).map AttemptRec.persisted =
      (insertAll ∅ (rt.attempts.map fun pa => (pa.id, pa)))[aid]?
  batches : ∀ bid : BatchId,
    (s.batches[bid]?).map BatchRec.persisted =
      (insertAll ∅ (rt.batches.map fun pb => (pb.id, pb)))[bid]?
  buckets : ∀ key id, id ∈ s.bucket key ↔
    ∃ pr ∈ rt.requests, isWaitingState pr.state = true ∧
      CompatibilityKey.build pr.descriptor = key ∧ pr.id = id
  registry : ∀ key : CompatibilityKey, s.formingByKey[key]? =
    (insertAll ∅ (rt.batches.filterMap formingEntry))[key]?
  order : s.sealedOrder =
    (rt.batches.filter fun pb => pb.state = .sealed).map (·.id)
  fairness : s.fairness = rt.fairnessServed.toList.foldl loadServed {}

theorem loaded_loadPersisted (s : Impl) (rt : PersistedRuntime) :
    Loaded rt (s.loadPersisted rt) := by
  unfold loadPersisted
  dsimp only
  generalize cleared : ({ s with
    epoch := rt.epoch
    nextRequest := rt.nextRequest
    nextBatch := rt.nextBatch
    nextAttempt := rt.nextAttempt
    nextGeneration := rt.nextGeneration
    requests := ∅
    attempts := ∅
    batches := ∅
    formingByKey := ∅
    sealedOrder := []
    waitingIndex := ∅ } : Impl) = start
  obtain ⟨_, _, first⟩ := run_loadRequest start rt.requests
  obtain ⟨_, second⟩ :=
    run_loadAttempt (Transition.run loadRequest start rt.requests) rt.attempts
  obtain ⟨_, _, _, _, third⟩ := run_loadBatch (Transition.run loadAttempt
    (Transition.run loadRequest start rt.requests) rt.attempts) rt.batches
  constructor
  case epoch | nextRequest | nextBatch | nextAttempt | nextGeneration =>
    rw [third, second, first, ← cleared]
  case requests =>
    rw [third, second]
    apply requests_run_loadRequest
    rw [← cleared]
  case attempts =>
    rw [third]
    apply attempts_run_loadAttempt
    rw [first, ← cleared]
  case batches =>
    apply batches_run_loadBatch
    rw [second, first, ← cleared]
  case buckets =>
    intro key id
    unfold bucket
    rw [third, second]
    apply (mem_bucket_run_loadRequest start rt.requests key id).trans
    rw [← cleared]
    simp [bucket, CompatibilityIndex.bucketOf]
  case registry =>
    apply formingByKey_run_loadBatch
    rw [second, first, ← cleared]
  case order =>
    dsimp only
    rw [sealedOrder_run_loadBatch, second, first, ← cleared]
    rfl
  case fairness => rfl

/-! The indexes a fabric resumes with, read off the records it came from. -/

section Resumed

variable {s : Impl} (wellFormed : WellFormed s)

theorem loaded_resumed (s : Impl) : Loaded s.buildPersisted s.resumed :=
  loaded_loadPersisted fresh s.buildPersisted

include wellFormed

theorem requests_resumed (id : RequestId) :
    (s.resumed.requests[id]?).map RequestRec.persisted =
      (s.requests[id]?).map RequestRec.persisted := by
  rw [(loaded_resumed s).requests]
  have named : Everywhere s.requests fun id r => r.persisted.id = id :=
    fun id r found => (wellFormed.request id r found).1
  exact getElem?_insertAll_records named id

theorem batches_resumed (bid : BatchId) :
    (s.resumed.batches[bid]?).map BatchRec.persisted =
      (s.batches[bid]?).map BatchRec.persisted := by
  rw [(loaded_resumed s).batches]
  have named : Everywhere s.batches fun bid b => b.persisted.id = bid :=
    fun bid b found => (wellFormed.batch bid b found).1
  exact getElem?_insertAll_records named bid

theorem mem_bucket_resumed
    (keyed : Everywhere s.requests fun _ r =>
      r.key = CompatibilityKey.build r.metadata.descriptor)
    (key : CompatibilityKey) (id : RequestId) :
    id ∈ s.resumed.bucket key ↔
      ∃ r, s.requests[id]? = some r ∧ isWaitingState r.state = true ∧
        r.key = key := by
  rw [(loaded_resumed s).buckets]
  unfold buildPersisted
  simp only [mem_records_iff s.requests RequestRec.persisted]
  constructor
  · rintro ⟨_, ⟨other, r, found, rfl⟩, waiting, built, rfl⟩
    have named : r.persisted.id = other := (wellFormed.request other r found).1
    rw [named]
    exact ⟨r, found, waiting, (keyed other r found).trans built⟩
  · rintro ⟨r, found, waiting, rfl⟩
    exact ⟨r.persisted, ⟨id, r, found, rfl⟩, waiting,
      (keyed id r found).symm, (wellFormed.request id r found).1⟩

theorem isSealedBatch_resumed (bid : BatchId) :
    s.resumed.isSealedBatch bid = s.isSealedBatch bid := by
  have same := batches_resumed wellFormed bid
  unfold isSealedBatch
  cases found : s.batches[bid]? with
  | none =>
      rw [found, Option.map_none, Option.map_eq_none_iff] at same
      rw [same]
  | some b =>
      rw [found] at same
      obtain ⟨b', found', equal⟩ := Option.map_eq_some_iff.mp same
      have state : b'.state = b.state := congrArg PersistedBatch.state equal
      rw [found']
      dsimp only
      rw [state]

theorem mem_sealedOrder_resumed (bid : BatchId) :
    bid ∈ s.resumed.sealedOrder ↔ s.isSealedBatch bid = true := by
  rw [(loaded_resumed s).order, List.mem_map]
  unfold buildPersisted
  simp only [List.mem_filter, mem_records_iff s.batches BatchRec.persisted]
  constructor
  · rintro ⟨_, ⟨⟨other, b, found, rfl⟩, isSealed⟩, rfl⟩
    have named : b.persisted.id = other := (wellFormed.batch other b found).1
    have state : b.state = .sealed := of_decide_eq_true isSealed
    unfold isSealedBatch
    rw [named, found]
    exact beq_iff_eq.mpr state
  · intro isSealed
    unfold isSealedBatch at isSealed
    split at isSealed
    · cases isSealed
    · next b found =>
        exact ⟨b.persisted, ⟨⟨bid, b, found, rfl⟩,
          decide_eq_true (eq_of_beq isSealed)⟩,
          (wellFormed.batch bid b found).1⟩

theorem mem_formingEntries_iff (key : CompatibilityKey) (bid : BatchId) :
    (key, bid) ∈ s.buildPersisted.batches.filterMap formingEntry ↔
      (s.batches[bid]?).bind formingKey = some key := by
  unfold buildPersisted
  simp only [List.mem_filterMap,
    mem_records_iff s.batches BatchRec.persisted]
  constructor
  · rintro ⟨_, ⟨other, b, found, rfl⟩, enters⟩
    unfold formingEntry at enters
    split at enters
    · next forming =>
        cases enters
        have named : b.persisted.id = other :=
          (wellFormed.batch other b found).1
        rw [named, found]
        exact formingKey_eq_some.mpr ⟨rfl, forming⟩
    · cases enters
  · intro viewed
    obtain ⟨b, found, keyed⟩ := Option.bind_eq_some_iff.mp viewed
    obtain ⟨rfl, forming⟩ := formingKey_eq_some.mp keyed
    refine ⟨b.persisted, ⟨bid, b, found, rfl⟩, ?_⟩
    have named : b.persisted.id = bid := (wellFormed.batch bid b found).1
    have entering : b.persisted.state = .forming := forming
    unfold formingEntry
    rw [if_pos entering, named]
    rfl

/-- The records are persisted in the order of their ids, so the latest batch
of a key is registered last. -/
theorem registry_resumed (key : CompatibilityKey) (bid : BatchId) :
    s.resumed.formingByKey[key]? = some bid ↔ s.LatestForming key bid := by
  rw [(loaded_resumed s).registry,
    getElem?_insertAll_ascending Identifier.value]
  · simp only [mem_formingEntries_iff wellFormed]
    rfl
  · have sorted : s.batches.toList.Pairwise fun earlier later =>
        earlier.2.id.value < later.2.id.value := by
      apply Std.ExtTreeMap.ordered_keys_toList.imp_of_mem
      rintro ⟨first, a⟩ ⟨second, b⟩ listed listed' below
      have a_named := (wellFormed.batch first a
        ((mem_toList_iff _ _ _).mp listed)).1
      have b_named := (wellFormed.batch second b
        ((mem_toList_iff _ _ _).mp listed')).1
      dsimp only
      rw [a_named, b_named]
      exact Nat.compare_eq_lt.mp below
    have records : s.buildPersisted.batches.Pairwise fun earlier later =>
        earlier.id.value < later.id.value := List.pairwise_map.mpr sorted
    apply records.filterMap
    intro pb pb' below entry enters entry' enters'
    unfold formingEntry at enters enters'
    split at enters
    · cases enters
      split at enters'
      · cases enters'
        exact below
      · cases enters'
    · cases enters

omit wellFormed in
theorem attempts_resumed
    (named : Everywhere s.attempts fun aid a => a.id = aid) (aid : AttemptId) :
    (s.resumed.attempts[aid]?).map AttemptRec.persisted =
      (s.attempts[aid]?).map AttemptRec.persisted := by
  rw [(loaded_resumed s).attempts]
  have persisted : Everywhere s.attempts fun aid a => a.persisted.id = aid :=
    named
  exact getElem?_insertAll_records persisted aid

end Resumed

/-! The served totals are filed under the tenants' decimal names. -/

section Served

variable {s : Impl}

/-- The entry a saved total makes when it is loaded. -/
def servedEntry (record : ByteString × UInt64) : Option (TenantId × UInt64) :=
  record.1.stoull.map fun v => ({ value := v }, record.2)

theorem served_loadServed (records : List (ByteString × UInt64))
    (t : TenantId) :
    (records.foldl loadServed {}).served[t]? =
      (insertAll ∅ (records.filterMap servedEntry))[t]? := by
  have viewed : ((records.foldl loadServed {}).served[t]?).map id =
      (insertAll ∅ (records.filterMap servedEntry))[t]? := by
    apply view_foldl_eq_insertAll
    · intro fairness record entry enters t
      obtain ⟨v, read, rfl⟩ := Option.map_eq_some_iff.mp enters
      unfold loadServed
      rw [read]
      dsimp only [FairnessController.restoreServed]
      rw [getElem?_insert]
      split <;> rfl
    · intro fairness record enters t
      unfold loadServed
      rw [Option.map_eq_none_iff.mp enters]
    · intro t
      simp
  rwa [Option.map_id, id_eq] at viewed

theorem saved_served (fits : Everywhere s.fairness.served fun t _ =>
    t.value < 2 ^ 64) (text : ByteString) (amount : UInt64) :
    s.buildPersisted.fairnessServed[text]? = some amount ↔
      ∃ t : TenantId, s.fairness.served[t]? = some amount ∧
        ByteString.ofNumber t.value = text := by
  unfold buildPersisted
  dsimp only
  have listed : ∀ text amount, (text, amount) ∈
      (s.fairness.served.toList.map fun entry =>
        (ByteString.ofNumber entry.1.value, entry.2)) ↔
      ∃ t : TenantId, s.fairness.served[t]? = some amount ∧
        ByteString.ofNumber t.value = text := by
    intro text amount
    rw [List.mem_map]
    constructor
    · rintro ⟨⟨t, _⟩, member, ⟨⟩⟩
      exact ⟨t, (mem_toList_iff _ _ _).mp member, rfl⟩
    · rintro ⟨t, found, rfl⟩
      exact ⟨(t, amount), (mem_toList_iff _ _ _).mpr found, rfl⟩
  rw [getElem?_insertAll_empty, listed]
  rintro ⟨text, first⟩ member ⟨_, second⟩ member' rfl
  obtain ⟨t, found, named⟩ := (listed text first).mp member
  obtain ⟨t', found', named'⟩ := (listed text second).mp member'
  have same : t = t' := Identifier.eq_of_value_eq
    (ByteString.ofNumber_inj (fits t first found) (fits t' second found')
      (named.trans named'.symm))
  rw [same, found'] at found
  exact (Option.some.inj found).symm

theorem served_resumed (fits : Everywhere s.fairness.served fun t _ =>
    t.value < 2 ^ 64) (t : TenantId) :
    s.resumed.fairness.served[t]? = s.fairness.served[t]? := by
  have listed : ∀ t amount, (t, amount) ∈
      s.buildPersisted.fairnessServed.toList.filterMap servedEntry ↔
      s.fairness.served[t]? = some amount := by
    intro t amount
    rw [List.mem_filterMap]
    constructor
    · rintro ⟨⟨text, saved⟩, member, enters⟩
      obtain ⟨t', found, named⟩ :=
        (saved_served fits text saved).mp ((mem_toList_iff _ _ _).mp member)
      unfold servedEntry at enters
      rw [← named, ByteString.stoull_ofNumber (fits t' saved found)] at enters
      cases enters
      exact found
    · intro found
      refine ⟨(ByteString.ofNumber t.value, amount),
        (mem_toList_iff _ _ _).mpr
          ((saved_served fits _ amount).mpr ⟨t, found, rfl⟩), ?_⟩
      unfold servedEntry
      rw [ByteString.stoull_ofNumber (fits t amount found)]
      rfl
  rw [(loaded_resumed s).fairness, served_loadServed]
  apply Option.ext
  intro amount
  rw [getElem?_insertAll_empty, listed]
  rintro ⟨t, first⟩ member ⟨_, second⟩ member' rfl
  have found := (listed t first).mp member
  rw [(listed t second).mp member'] at found
  exact (Option.some.inj found).symm

/-- No total is loaded for a tenant whose number does not fit. -/
theorem fits_resumed (s : Impl) :
    Everywhere s.resumed.fairness.served fun t _ => t.value < 2 ^ 64 := by
  rw [(loaded_resumed s).fairness]
  apply Transition.run_invariant (fun fairness : FairnessController =>
    Everywhere fairness.served fun t _ => t.value < 2 ^ 64)
  · intro fairness record _ held
    unfold loadServed
    split
    · exact held
    · next read => exact held.insert (ByteString.stoull_lt read)
  · exact everywhere_empty

end Served

/-! When the second fabric is the first. -/

theorem resumes_resumed_iff {s : Impl} (wellFormed : WellFormed s)
    (named : Everywhere s.attempts fun aid a => a.id = aid)
    (keyed : Everywhere s.requests fun _ r =>
      r.key = CompatibilityKey.build r.metadata.descriptor) :
    Resumes s s.resumed ↔ s.IndexesCurrent := by
  constructor
  · intro resumes
    constructor
    · intro key id
      rw [← resumes.buckets]
      exact mem_bucket_resumed wellFormed keyed key id
    · intro key bid
      rw [← resumes.registry]
      exact registry_resumed wellFormed key bid
    · intro bid b found state
      have isSealed : s.isSealedBatch bid = true := by
        unfold isSealedBatch
        rw [found]
        exact beq_iff_eq.mpr state
      have resumed : bid ∈ s.resumed.sealedOrder ∧
          s.resumed.isSealedBatch bid = true :=
        ⟨(mem_sealedOrder_resumed wellFormed bid).mpr isSealed,
          (isSealedBatch_resumed wellFormed bid).trans isSealed⟩
      exact ((resumes.sealedBatches bid).mp resumed).1
    · intro t amount found
      rw [← resumes.served] at found
      exact fits_resumed s t amount found
  · intro current
    have loaded := loaded_resumed s
    exact {
      epoch := loaded.epoch
      nextRequest := loaded.nextRequest
      nextBatch := loaded.nextBatch
      nextAttempt := loaded.nextAttempt
      nextGeneration := loaded.nextGeneration
      requests := requests_resumed wellFormed
      attempts := attempts_resumed named
      batches := batches_resumed wellFormed
      buckets := fun key id =>
        (mem_bucket_resumed wellFormed keyed key id).trans
          (current.queued key id).symm
      registry := fun key => Option.ext fun bid =>
        (registry_resumed wellFormed key bid).trans
          (current.registered key bid).symm
      sealedBatches := by
        intro bid
        rw [mem_sealedOrder_resumed wellFormed,
          isSealedBatch_resumed wellFormed, and_self]
        constructor
        · intro isSealed
          refine ⟨?_, isSealed⟩
          unfold isSealedBatch at isSealed
          split at isSealed
          · cases isSealed
          · next b found =>
              exact current.ordered bid b found (eq_of_beq isSealed)
        · exact fun both => both.2
      served := served_resumed current.tenants }

/-! Runs. -/

/-- No submission is deferred, no request is queued or concluded while it
waits, no batch is split, and no forming batch is merged with itself. -/
def keepsIndexes (policy : BatchPolicy) (s : Impl) (op : Op) : Bool :=
  keepsQueue policy s op && keepsRegistry policy s op &&
    keepsSealed policy s op && fitsTenant op
where
  fitsTenant : Op → Bool
    | .submit metadata _ => metadata.tenant.value < 2 ^ 64
    | _ => true

/-- The invariants from which the indexes are current. -/
structure KeepsCurrent (s : Impl) : Prop where
  queues : s.Queues
  registry : s.FormingRegistry
  listed : s.SealedListed
  filed : Filed (fun t => t.value < 2 ^ 64) s

namespace KeepsCurrent

variable {s : Impl}

theorem fresh : KeepsCurrent fresh where
  queues := Queues.fresh
  registry := FormingRegistry.fresh
  listed := SealedListed.fresh
  filed := Filed.fresh

theorem step {policy : BatchPolicy} (reachable : Reachable policy s)
    (kept : s.KeepsCurrent) {op : Op}
    (guarded : keepsIndexes policy s op = true) :
    (step policy s op).KeepsCurrent := by
  have wellFormed := wellFormed_of_reachable reachable
  unfold keepsIndexes at guarded
  simp only [Bool.and_eq_true] at guarded
  obtain ⟨⟨⟨queue, registry⟩, seals⟩, fits⟩ := guarded
  exact {
    queues := (Queues.stepRule policy).step reachable kept.queues queue
    registry :=
      (FormingRegistry.stepRule policy).step reachable kept.registry registry
    listed := kept.listed.step wellFormed seals
    filed := by
      apply (Filed.stepRule policy).step reachable kept.filed
      cases op with
      | submit metadata now =>
          show metadata.tenant.value < 2 ^ 64
          exact of_decide_eq_true fits
      | _ => trivial }

theorem queued (kept : s.KeepsCurrent) (key : CompatibilityKey)
    (id : RequestId) : id ∈ s.bucket key ↔
      ∃ r, s.requests[id]? = some r ∧ isWaitingState r.state = true ∧
        r.key = key := by
  have listing := (waitingListed_iff s).mpr kept.queues
  constructor
  · intro queued
    obtain ⟨r, found, waiting⟩ := (listing.listed id).mp ⟨key, queued⟩
    refine ⟨r, found, waiting, ?_⟩
    by_contra different
    exact (listing.placed id r found waiting).2.1 key (Ne.symm different)
      queued
  · rintro ⟨r, found, waiting, rfl⟩
    apply List.count_pos_iff.mp
    rw [(listing.placed id r found waiting).1]
    exact Nat.one_pos

theorem registered (kept : s.KeepsCurrent) (key : CompatibilityKey)
    (bid : BatchId) :
    s.formingByKey[key]? = some bid ↔ s.LatestForming key bid := by
  have converse := (formingRegistry_iff s).mp kept.registry key
  constructor
  · intro found
    refine ⟨(converse bid).mp found, fun other forming => ?_⟩
    have found' := (converse other).mpr forming
    rw [found] at found'
    cases found'
    exact Nat.le_refl _
  · exact fun latest => (converse bid).mpr latest.1

theorem indexesCurrent (kept : s.KeepsCurrent) : s.IndexesCurrent where
  queued := kept.queued
  registered := kept.registered
  ordered := kept.listed
  tenants := kept.filed.served

end KeepsCurrent

theorem resumes_resumed_of_reachable {policy : BatchPolicy} {s : Impl}
    (reachable : Reachable policy s) :
    Resumes s s.resumed ↔ s.IndexesCurrent := by
  have wellFormed := wellFormed_of_reachable reachable
  have describes : s.Describes :=
    (Describes.stepRule policy).of_reachable Describes.fresh reachable
  obtain ⟨ops, rfl⟩ := reachable
  have named : Filed (fun _ => True) (run policy ops) :=
    (Filed.stepRule policy).of_run Filed.fresh ops
      (Transition.along_of_forall _ (fun _ op => by cases op <;> trivial)
        fresh ops)
  exact resumes_resumed_iff wellFormed named.attempts
    fun id r found => (describes.keyed id r found).1

/-- In every reachable state exactly current indexes survive a restart, and
they stay current in every run that defers no submission, queues and concludes
no waiting request, splits no batch and merges no forming batch with itself. -/
theorem resumes_run (policy : BatchPolicy) (ops : List Op) :
    (Resumes (run policy ops) (run policy ops).resumed ↔
      (run policy ops).IndexesCurrent) ∧
    (Transition.Along (BatchFabric.step policy)
        (fun s op => keepsIndexes policy s op = true) fresh ops →
      Resumes (run policy ops) (run policy ops).resumed) := by
  have exactly := resumes_resumed_of_reachable (reachable_run policy ops)
  refine ⟨exactly, fun guarded => exactly.mpr ?_⟩
  have kept : Reachable policy (run policy ops) ∧
      (run policy ops).KeepsCurrent :=
    guarded.invariant (fun s => Reachable policy s ∧ s.KeepsCurrent)
      (fun _ op _ held allows =>
        ⟨held.1.step op, held.2.step held.1 allows⟩)
      ⟨⟨[], rfl⟩, KeepsCurrent.fresh⟩
  exact kept.2.indexesCurrent

/-- One request waits, another is in flight. -/
theorem resumes_of_dispatched :
    Resumes
      (run {} [.submit minimalRequest 0, .tick [] 1,
        .prepareDispatch { value := 1 } .null .null 2,
        .submit minimalRequest 3])
      (run {} [.submit minimalRequest 0, .tick [] 1,
        .prepareDispatch { value := 1 } .null .null 2,
        .submit minimalRequest 3]).resumed :=
  (resumes_run _ _).2 (by
    rw [step_eq_stepKnown .minimal]
    decide +kernel)

/-- A second request of a tenant that may have one is deferred. It waits in no
bucket, and is in one after a restart. -/
theorem not_resumes_of_deferred :
    ¬ ∀ (policy : BatchPolicy) (ops : List Op),
      Resumes (run policy ops) (run policy ops).resumed := by
  intro resumes
  let policy : BatchPolicy := { fairness.maxOutstandingPerTenant := 1 }
  let ops : List Op := [.submit minimalRequest 0, .submit minimalRequest 1]
  have current := (resumes_resumed_of_reachable (reachable_run policy ops)).mp
    (resumes policy ops)
  let id : RequestId := { value := 2 }
  have lost : ((run policy ops).requests[id]?).any (fun r =>
      isWaitingState r.state &&
        !((run policy ops).bucket r.key).contains id) = true := by
    rw [run_eq_runKnown .minimal]
    decide +kernel
  obtain ⟨r, found, known⟩ := (Option.any_eq_true _ _).mp lost
  obtain ⟨waiting, absent⟩ := (Bool.and_eq_true _ _).mp known
  have queued := (current.queued r.key id).mpr ⟨r, found, waiting, rfl⟩
  rw [List.contains_iff_mem.mpr queued] at absent
  cases absent

end Impl

end BatchFabric
