import BatchFabric.Preimage
import BatchFabric.Safety.StepRule
import BatchFabric.Scheduler.KnownKeys

namespace BatchFabric.Impl

open OrderedMap

/-! Members of one batch have one descriptor, and so has its execution. -/

/-- Some request of the key was submitted with the descriptor. -/
def Known (s : Impl) (key : CompatibilityKey) (d : ModelDescriptor) : Prop :=
  ∃ (id : RequestId) (r : RequestRec), s.requests[id]? = some r ∧
    r.key = key ∧ r.metadata.descriptor = d

/-- The descriptor of a batch stems from its key, once it has one. -/
structure Described (s : Impl) (b : BatchRec) : Prop where
  present : b.members ≠ [] → b.descriptor.model.isEmpty = false
  known : b.descriptor.model.isEmpty = false → s.Known b.key b.descriptor

structure Describes (s : Impl) : Prop where
  keyed : Everywhere s.requests fun _ r =>
    r.key = CompatibilityKey.build r.metadata.descriptor ∧
      r.metadata.descriptor.model.isEmpty = false
  described : Everywhere s.batches fun _ b => s.Described b

section Described

variable {s s' : Impl}

theorem Known.of_fixed {key : CompatibilityKey} {d : ModelDescriptor}
    (known : s.Known key d)
    (requests : ∀ id : RequestId,
      (s'.requests[id]?).map RequestRec.fixed =
        (s.requests[id]?).map RequestRec.fixed) : s'.Known key d := by
  obtain ⟨id, r, found, isKey, isDescriptor⟩ := known
  obtain ⟨r', found', fixed⟩ := exists_of_map_eq (requests id).symm found
  have sameKey : r.key = r'.key := congrArg (·.2.2.2) fixed
  have sameMetadata : r.metadata = r'.metadata := congrArg (·.2.1) fixed
  exact ⟨id, r', found', sameKey ▸ isKey, sameMetadata ▸ isDescriptor⟩

theorem Described.of_same {b b' : BatchRec} (described : s.Described b)
    (key : b'.key = b.key) (descriptor : b'.descriptor = b.descriptor)
    (members : b'.members ≠ [] → b.members ≠ []) : s.Described b' where
  present nonempty := by
    rw [descriptor]
    exact described.present (members nonempty)
  known := by
    rw [key, descriptor]
    exact described.known

/-- Recomputing the totals takes a missing descriptor from the first member. -/
theorem described_recompute (describes : s.Describes)
    {requests : Map RequestId RequestRec}
    (fixed : ∀ id : RequestId, (requests[id]?).map RequestRec.fixed =
      (s.requests[id]?).map RequestRec.fixed)
    {b : BatchRec} (members : ∀ m ∈ b.members, s.keyOf? m = some b.key)
    (known : b.descriptor.model.isEmpty = false →
      s.Known b.key b.descriptor) : s.Described (recomputeAccum requests b) := by
  cases listed : b.members with
  | nil =>
      have unchanged : (recomputeAccum requests b).descriptor =
          b.descriptor := by
        unfold recomputeAccum descriptorOf
        rw [listed]
      constructor
      · intro nonempty
        exact absurd listed nonempty
      · rw [unchanged]
        exact known
  | cons front rest =>
      have keyed := members front (by rw [listed]; exact List.mem_cons_self)
      unfold keyOf? at keyed
      obtain ⟨r, found, isKey⟩ := Option.map_eq_some_iff.mp keyed
      obtain ⟨r', found', same⟩ := exists_of_map_eq (fixed front).symm found
      have metadata : r.metadata = r'.metadata := congrArg (·.2.1) same
      cases missing : b.descriptor.model.isEmpty with
      | false =>
          have unchanged : (recomputeAccum requests b).descriptor =
              b.descriptor := by
            unfold recomputeAccum descriptorOf
            rw [listed]
            simp [missing]
          constructor
          · intro _
            rw [unchanged]
            exact missing
          · rw [unchanged]
            exact known
      | true =>
          have taken : (recomputeAccum requests b).descriptor =
              r.metadata.descriptor := by
            unfold recomputeAccum descriptorOf
            rw [listed]
            simp [missing, found', metadata]
          constructor
          · intro _
            rw [taken]
            exact (describes.keyed front r found).2
          · intro _
            rw [taken]
            exact ⟨front, r, found, isKey, rfl⟩

end Described

namespace Describes

variable {s s' : Impl}

theorem fresh : Describes fresh where
  keyed := everywhere_empty
  described := everywhere_empty

theorem step_of (describes : s.Describes)
    (requests : ∀ id : RequestId, (s'.requests[id]?).map RequestRec.fixed =
      (s.requests[id]?).map RequestRec.fixed)
    (batches : Everywhere s'.batches fun _ b => s.Described b) :
    s'.Describes where
  keyed := by
    intro id r' found'
    obtain ⟨r, found, fixed⟩ := exists_of_map_eq (requests id) found'
    have sameKey : r'.key = r.key := congrArg (·.2.2.2) fixed
    have sameMetadata : r'.metadata = r.metadata := congrArg (·.2.1) fixed
    rw [sameKey, sameMetadata]
    exact describes.keyed id r found
  described := batches.imp fun _ _ _ described => {
    present := described.present
    known := fun present => (described.known present).of_fixed requests }

theorem of_tables (describes : s.Describes)
    (requests : s'.requests = s.requests) (batches : s'.batches = s.batches) :
    s'.Describes := by
  apply describes.step_of
  · exact fun id => by rw [requests]
  · rw [batches]
    exact describes.described

/-- One batch record changes, but neither its key nor its descriptor. -/
theorem described_modify (describes : s.Describes) (bid : BatchId)
    {change : BatchRec → BatchRec}
    (key : ∀ b, (change b).key = b.key)
    (descriptor : ∀ b, (change b).descriptor = b.descriptor)
    (members : ∀ b, (change b).members = b.members) :
    Everywhere (s.batches.modify bid change) fun _ b => s.Described b :=
  describes.described.modify fun b _ described =>
    described.of_same (key b) (descriptor b) (by rw [members b]; exact id)

theorem createRequest (describes : s.Describes) (wellFormed : WellFormed s)
    {metadata : RequestMetadata}
    (named : metadata.descriptor.model.isEmpty = false) (now : TimePoint)
    (state attemptState : RequestState) (outcome : CompletionStatus)
    (inWaiting : Bool) :
    (s.createRequest metadata now state attemptState outcome
      inWaiting).Describes where
  keyed := describes.keyed.insert ⟨rfl, named⟩
  described := describes.described.imp fun _ _ _ described => {
    present := described.present
    known := fun present => by
      obtain ⟨id, r, found, isKey, isDescriptor⟩ := described.known present
      refine ⟨id, r, ?_, isKey, isDescriptor⟩
      have below := (wellFormed.request id r found).2
      unfold Impl.createRequest
      dsimp only
      rw [getElem?_insert, if_neg]
      · exact found
      · rintro rfl
        exact Nat.lt_irrefl _ below }

theorem doSubmit (describes : s.Describes) (wellFormed : WellFormed s)
    (policy : BatchPolicy) (metadata : RequestMetadata) (now : TimePoint) :
    (s.doSubmit policy metadata now).2.Describes := by
  obtain ⟨stats, refused⟩ | ⟨named, ⟨state, outcome, stats, _, recorded⟩ |
      ⟨fairness, stats, queued⟩⟩ := doSubmit_cases policy s metadata now
  · rw [refused]
    exact describes.of_tables rfl rfl
  · rw [recorded]
    exact (describes.createRequest wellFormed named now state state outcome
      false).of_tables rfl rfl
  · rw [queued]
    exact (describes.createRequest wellFormed named now .eligible .eligible
      .success true).of_tables rfl rfl

theorem doCancel (describes : s.Describes) (wellFormed : WellFormed s)
    (policy : BatchPolicy) (id : RequestId) (now : TimePoint) :
    (s.doCancel policy id now).2.Describes := by
  obtain unchanged | ⟨r, _, _, ⟨_, outside⟩ |
      ⟨_, b, found, ⟨_, forming⟩ | ⟨_, later⟩⟩⟩ := doCancel_cases policy s id now
  · rw [unchanged]
    exact describes
  · rw [outside]
    exact describes.step_of (InPlace.cancelOutside s id r now).requests
      describes.described
  · rw [forming]
    apply describes.step_of (InPlace.cancelForming policy s id r now).requests
    apply describes.described.modify
    intro before at_batch described
    have kept : s.Described (recomputeAccum s.requests
        { before with members := before.members.filter (· ≠ id) }) := by
      apply described_recompute describes (fun _ => rfl)
      · exact fun m member => wellFormed.member r.batch before at_batch m
          (List.mem_of_mem_filter member)
      · exact described.known
    exact kept.of_same rfl rfl (fun nonempty => nonempty)
  · rw [later]
    exact describes.step_of (InPlace.cancelAfterSeal s id r now).requests
      (describes.described_modify r.batch (fun _ => rfl) (fun _ => rfl)
        (fun _ => rfl))

theorem expireWaiting (describes : s.Describes) (now : TimePoint)
    (id : RequestId) : (expireWaiting now s id).Describes := by
  obtain unchanged | ⟨r, _, ⟨_, removed⟩ | ⟨_, stats, ended⟩⟩ :=
    expireWaiting_cases now s id
  · rw [unchanged]
    exact describes
  · rw [removed]
    exact describes.of_tables rfl rfl
  · rw [ended]
    exact describes.step_of
      (InPlace.endRequest s id r .expired .expired now stats).requests
      describes.described

theorem openForming (describes : s.Describes) (key : CompatibilityKey)
    (now : TimePoint) : (s.openForming key now).Describes :=
  describes.step_of (fun _ => rfl) (describes.described.insert {
    present := fun nonempty => absurd rfl nonempty
    known := fun present => nomatch present })

theorem place (describes : s.Describes) {policy : BatchPolicy} {bid : BatchId}
    {key : CompatibilityKey} {pick : RequestId} {now : TimePoint}
    {b : BatchRec} {r : RequestRec}
    (placing : Placing policy s bid key pick now b r)
    (wellFormed : WellFormed s) : (s.place bid key pick).Describes := by
  have submitted := describes.keyed pick r placing.request
  rw [place_eq placing.request]
  refine describes.step_of
    (map_getElem?_modify (fun _ => by rfl) s.requests pick) ?_
  apply describes.described.modify
  intro before at_batch described
  rw [placing.batch] at at_batch
  cases at_batch
  by_cases first : (b.members ++ [pick]).length = 1
  · have descriptor : (b.addMember pick r.metadata).descriptor =
        r.metadata.descriptor := if_pos first
    constructor
    · intro _
      rw [descriptor]
      exact submitted.2
    · intro _
      rw [descriptor]
      exact ⟨pick, r, placing.request,
        (placing.requestKeyed wellFormed).trans placing.keyed.symm, rfl⟩
  · have descriptor : (b.addMember pick r.metadata).descriptor =
        b.descriptor := if_neg first
    refine described.of_same ?_ descriptor ?_
    · rfl
    · intro _ none
      rw [none] at first
      exact first rfl

theorem sealForming (describes : s.Describes) (bid : BatchId) (b : BatchRec)
    (reason : SealReason) (now : TimePoint) :
    (s.sealForming bid b reason now).Describes :=
  describes.step_of
    (map_getElem?_modifyAll (fixed_advance .reserved .batched) s.requests
      b.members)
    (describes.described_modify bid (fun _ => rfl) (fun _ => rfl)
      (fun _ => rfl))

section Halves

variable {bid : BatchId} {b : BatchRec}

theorem splitParent (describes : s.Describes) (wellFormed : WellFormed s)
    (found : s.batches[bid]? = some b) (child : BatchId) :
    s.Described (splitParent (s.splitRequests bid child b) child b) :=
  described_recompute describes (fixed_splitRequests s bid child b)
    (fun m member =>
      wellFormed.member bid b found m (mem_halves (.inl member)))
    (describes.described bid b found).known

theorem splitChild (describes : s.Describes) (wellFormed : WellFormed s)
    (found : s.batches[bid]? = some b) (child : BatchId) :
    s.Described (splitChild (s.splitRequests bid child b) bid child b) :=
  described_recompute describes (fixed_splitRequests s bid child b)
    (fun m member =>
      wellFormed.member bid b found m (mem_halves (.inr member)))
    (describes.described bid b found).known

theorem splitSealed (describes : s.Describes) (wellFormed : WellFormed s)
    (found : s.batches[bid]? = some b) : (s.splitSealed bid b).Describes := by
  have parent := splitParent describes wellFormed found
  have second := splitChild describes wellFormed found
  apply describes.step_of (fixed_splitRequests s bid _ b)
  refine ((describes.described.insert ?_).insert ?_).insert ?_
  · exact (parent _).of_same rfl rfl (fun nonempty => nonempty)
  · exact (second _).of_same rfl rfl (fun nonempty => nonempty)
  · apply described_recompute describes (fixed_splitRequests s bid _ b)
    · exact fun m member =>
        wellFormed.member bid b found m (mem_halves (.inl member))
    · exact (parent _).known

theorem splitOpen (describes : s.Describes) (wellFormed : WellFormed s)
    (found : s.batches[bid]? = some b) : (s.splitOpen bid b).Describes := by
  apply describes.step_of (fixed_splitRequests s bid _ b)
  exact (describes.described.insert
    (splitParent describes wellFormed found _)).insert
      (splitChild describes wellFormed found _)

end Halves

theorem mergeInto (describes : s.Describes) (wellFormed : WellFormed s)
    {aid bid : BatchId} {a b : BatchRec} (foundA : s.batches[aid]? = some a)
    (foundB : s.batches[bid]? = some b) (keyed : a.key = b.key) :
    (s.mergeInto aid bid a b).Describes := by
  have fixed : ∀ id : RequestId, ((modifyAll s.requests b.members
      (RequestRec.setBatch aid))[id]?).map RequestRec.fixed =
        (s.requests[id]?).map RequestRec.fixed :=
    map_getElem?_modifyAll (fun _ => by rfl) s.requests b.members
  apply describes.step_of fixed
  refine Everywhere.modify (describes.described.insert ?_) ?_
  · apply described_recompute describes fixed
    · intro m member
      rcases List.mem_append.mp member with ofA | ofB
      · exact wellFormed.member aid a foundA m ofA
      · exact (wellFormed.member bid b foundB m ofB).trans
          (congrArg some keyed.symm)
    · exact (describes.described aid a foundA).known
  · exact fun before _ described =>
      described.of_same rfl rfl (fun nonempty => nonempty)

theorem finishBatch (describes : s.Describes) (bid : BatchId)
    (worker : WorkerId) (now : TimePoint) :
    (s.finishBatch bid worker now).Describes := by
  obtain unchanged | ⟨b, stats, workers, _, ⟨_, ended⟩ | ⟨_, partly⟩⟩ :=
    finishBatch_cases s bid worker now
  · rw [unchanged]
    exact describes
  · rw [ended]
    exact describes.step_of (fun _ => rfl) (describes.described_modify bid
      (fun _ => rfl) (fun _ => rfl) (fun _ => rfl))
  · rw [partly]
    exact describes.step_of (fun _ => rfl) (describes.described_modify bid
      (fun _ => rfl) (fun _ => rfl) (fun _ => rfl))

theorem conclude (describes : s.Describes) (r : RequestRec)
    (mc : MemberCompletion) (state : RequestState) (now : TimePoint)
    (fairness : FairnessController) (stats : BatchStats) :
    ({ s.conclude r mc state now with
      fairness := fairness, stats := stats } : Impl).Describes :=
  describes.step_of
    (InPlace.conclude s r mc state now fairness stats).requests
    (describes.described_modify r.batch
      (fun b => congrArg (·.2.1) (conclude_listing b mc).1)
      (fun b => (conclude_listing b mc).2.2.2)
      (fun b => (conclude_listing b mc).2.1))

theorem requeue (describes : s.Describes) (id : RequestId) (r : RequestRec)
    (number : UInt32) : (s.requeue id r number).Describes :=
  describes.step_of (map_getElem?_modify (fun _ => by rfl) s.requests id)
    describes.described

theorem recordRule (policy : BatchPolicy) (now : TimePoint) :
    RecordRule policy now (fun _ _ _ => true) Describes where
  count _ _ describes := describes.of_tables rfl rfl
  conclude _ r _ mc state fairness stats describes _ _ :=
    describes.conclude r mc state now fairness stats
  requeue _ r _ mc state fairness stats describes _ _ _ _ _ :=
    (describes.conclude r mc state now fairness stats).requeue _ r _
  dispatch s bid b _ _ describes _ _ :=
    describes.step_of
      (map_getElem?_modifyAll (fixed_advance .batched .dispatched) s.requests
        b.members)
      (describes.described_modify bid (fun _ => rfl) (fun _ => rfl)
        (fun _ => rfl))
  running s bid b describes _ _ :=
    describes.step_of
      (map_getElem?_modifyAll (fixed_advance .dispatched .running) s.requests
        b.members)
      (describes.described_modify bid (fun _ => rfl) (fun _ => rfl)
        (fun _ => rfl))
  finish _ bid _ worker describes _ _ := describes.finishBatch bid worker now

theorem tickRule (policy : BatchPolicy) (now : TimePoint) :
    TickRule policy now (fun s => WellFormed s ∧ s.Describes) where
  wellFormed _ held := held.1
  expire _ id held :=
    ⟨held.1.expireWaiting now id, held.2.expireWaiting now id⟩
  cancel _ id held :=
    ⟨held.1.doCancel policy id now, held.2.doCancel held.1 policy id now⟩
  openForming _ key held _ :=
    ⟨held.1.openForming key now, held.2.openForming key now⟩
  place s bid key pick b r held placing :=
    ⟨(WellFormed.tickRule policy now).place s bid key pick b r held.1 placing,
      held.2.place placing held.1⟩
  retime s bid change held retimes :=
    ⟨held.1.retime bid retimes,
      held.2.step_of (fun _ => rfl) (held.2.described.modify
        fun b _ described => by
          obtain ⟨allowed, formed, changed⟩ := retimes b
          rw [changed]
          exact described.of_same rfl rfl (fun nonempty => nonempty))⟩
  close _ bid b reason held found forming :=
    ⟨held.1.sealForming found forming reason now,
      held.2.sealForming bid b reason now⟩
  merge _ _ _ _ _ held merging :=
    ⟨held.1.mergeInto merging.first merging.second merging.keyed,
      held.2.mergeInto held.1 merging.first merging.second merging.keyed⟩

theorem stepRule (policy : BatchPolicy) :
    StepRule policy (fun _ _ => True) (fun _ _ _ => true) Describes where
  ticks now := tickRule policy now
  reports now := (recordRule policy now).reports.formed
  complete s comp now _ _ _ := allowsReport_always policy s comp now
  dispatchAndRun s bid executor now _ _ _ :=
    allowsRun_always policy s bid executor now
  submit _ metadata now reachable describes _ :=
    describes.doSubmit (wellFormed_of_reachable reachable) policy metadata now
  splitSealed _ _ _ wellFormed describes found _ _ :=
    describes.splitSealed wellFormed found
  splitOpen _ _ _ reachable describes _ found _ _ :=
    describes.splitOpen (wellFormed_of_reachable reachable) found
  mergeInto _ _ _ _ _ reachable describes _ foundA foundB possible :=
    describes.mergeInto (wellFormed_of_reachable reachable) foundA foundB
      (canMerge_cases possible).1
  requeue _ id r _ _ _ describes _ _ _ := describes.requeue id r _
  registerWorker _ _ _ _ describes := describes.of_tables rfl rfl
  rollEpoch _ describes := describes.of_tables rfl rfl

end Describes

/-- The descriptor a request was submitted with. -/
def descriptor? (s : Impl) (id : RequestId) : Option ModelDescriptor :=
  (s.requests[id]?).map (·.metadata.descriptor)

/-- No two requests have preimages that differ and hash alike. -/
def CollisionFree (s : Impl) : Prop :=
  Everywhere s.requests fun _ r => Everywhere s.requests fun _ r' =>
    Sha256.digest (CompatibilityKey.preimage r.metadata.descriptor) =
        Sha256.digest (CompatibilityKey.preimage r'.metadata.descriptor) →
      CompatibilityKey.preimage r.metadata.descriptor =
        CompatibilityKey.preimage r'.metadata.descriptor

instance (s : Impl) : Decidable s.CollisionFree :=
  inferInstanceAs (Decidable (Everywhere _ _))

def FewExtensions (s : Impl) : Prop :=
  Everywhere s.requests fun _ r =>
    r.metadata.descriptor.extensions.length < 2 ^ 32

instance (s : Impl) : Decidable s.FewExtensions :=
  inferInstanceAs (Decidable (Everywhere _ _))

/-- Members of one batch agree on the descriptor, which is also the one in
every execution of the batch: those `prepareDispatch` returns and those a run
in process passes to its executor. -/
structure Compatible (s : Impl) : Prop where
  members : Everywhere s.batches fun _ b => ∀ m ∈ b.members, ∀ m' ∈ b.members,
    s.descriptor? m = s.descriptor? m'
  prepared : Everywhere s.batches fun bid b => ∀ worker boot now exec,
    (s.prepareDispatch bid worker boot now).1 = .ok exec →
      ∀ m ∈ b.members, s.descriptor? m = some exec.descriptor
  passed : Everywhere s.batches fun bid b => ∀ worker now,
    ∀ m ∈ b.members, s.descriptor? m =
      some (s.runExecution bid b worker now).descriptor

theorem Describes.unique {s : Impl} (describes : s.Describes)
    (collisionFree : s.CollisionFree) (few : s.FewExtensions)
    {key : CompatibilityKey} {d d' : ModelDescriptor} (known : s.Known key d)
    (known' : s.Known key d') : d = d' := by
  obtain ⟨id, r, found, isKey, rfl⟩ := known
  obtain ⟨id', r', found', isKey', rfl⟩ := known'
  have built := (describes.keyed id r found).1
  have built' := (describes.keyed id' r' found').1
  have digests : CompatibilityKey.build r.metadata.descriptor =
      CompatibilityKey.build r'.metadata.descriptor := by
    rw [← built, ← built', isKey, isKey']
  exact CompatibilityKey.preimage_injective (few id r found)
    (few id' r' found')
    (collisionFree id r found id' r' found'
      (congrArg CompatibilityKey.digest digests))

/-- Every member has the descriptor of its batch. -/
theorem Describes.descriptor_of_member {s : Impl} (describes : s.Describes)
    (wellFormed : WellFormed s) (collisionFree : s.CollisionFree)
    (few : s.FewExtensions) {bid : BatchId} {b : BatchRec}
    (found : s.batches[bid]? = some b) {m : RequestId}
    (member : m ∈ b.members) : s.descriptor? m = some b.descriptor := by
  have keyed := wellFormed.member bid b found m member
  unfold keyOf? at keyed
  obtain ⟨r, present, isKey⟩ := Option.map_eq_some_iff.mp keyed
  have described := describes.described bid b found
  have known := described.known
    (described.present (List.ne_nil_of_mem member))
  unfold descriptor?
  rw [present]
  exact congrArg some (describes.unique collisionFree few
    ⟨m, r, present, isKey, rfl⟩ known)

/-- Operations that merge no batch with itself lead to compatible states only,
where hashing and counting of extensions do not confuse the requests. -/
theorem compatible_of_run (policy : BatchPolicy) (ops : List Op) (s : Impl)
    (runs : RunsTo policy (fun s op => mergesItself policy s op = false) ops s)
    (collisionFree : s.CollisionFree) (few : s.FewExtensions) :
    s.Compatible := by
  obtain ⟨rfl, _⟩ := runs.eq_run fun _ _ apart => apart
  have reachable := reachable_run policy ops
  have held : WellFormed (run policy ops) ∧ (run policy ops).Describes :=
    ⟨wellFormed_of_reachable reachable,
      (Describes.stepRule policy).of_reachable Describes.fresh reachable⟩
  have described : ∀ (bid : BatchId) (b : BatchRec),
      (run policy ops).batches[bid]? = some b → ∀ m ∈ b.members,
        (run policy ops).descriptor? m = some b.descriptor :=
    fun bid b found m member =>
      held.2.descriptor_of_member held.1 collisionFree few found member
  constructor
  · intro bid b found m member m' member'
    rw [described bid b found m member, described bid b found m' member']
  · intro bid b found worker boot now exec prepared m member
    obtain ⟨err, refused⟩ | ⟨b', found', _, _, dispatched⟩ :=
      prepareDispatch_cases (run policy ops) bid worker boot now
    · rw [refused] at prepared
      cases prepared
    · rw [found] at found'
      cases found'
      rw [dispatched] at prepared
      cases prepared
      exact described bid b found m member
  · exact fun bid b found _ _ m member => described bid b found m member

/-- Keys that a table of known keys tells apart are told apart. -/
theorem collisionFree_of_known (known : KnownKeys) {s : Impl}
    (separate : Everywhere s.requests fun _ r =>
      Everywhere s.requests fun _ r' =>
        known.keyOf r.metadata.descriptor =
            known.keyOf r'.metadata.descriptor →
          CompatibilityKey.preimage r.metadata.descriptor =
            CompatibilityKey.preimage r'.metadata.descriptor) :
    s.CollisionFree := by
  intro id r found id' r' found' digests
  apply separate id r found id' r' found'
  by_contra different
  exact known.separate different digests

/-- Two requests of one model share a batch, one of another model has its
own. -/
theorem compatible_of_two_models :
    (run {} [.submit minimalRequest 0, .submit minimalRequest 0,
      .submit { minimalRequest with
        descriptor.phase := .decode, descriptor.extensions := [{}] } 0,
      .tick [] 1]).Compatible :=
  compatible_of_run _ _ _
    (runsTo_run (by
      rw [step_eq_stepKnown KnownKeys.twoModels]
      decide +kernel))
    (collisionFree_of_known KnownKeys.twoModels (by
      rw [run_eq_runKnown KnownKeys.twoModels]
      decide +kernel))
    (by
      rw [run_eq_runKnown KnownKeys.twoModels]
      decide +kernel)

/-- Two requests share a batch, which is merged with itself. What its loop
reads for the second of them is no request's id, and stays in the list. -/
theorem not_compatible_of_self_merge :
    ¬ ∀ (policy : BatchPolicy) (ops : List Op) (s : Impl),
      RunsTo policy (fun _ _ => True) ops s → s.CollisionFree →
        s.FewExtensions → s.Compatible := by
  intro compatible
  let ops : List Op :=
    [.submit minimalRequest 0, .submit minimalRequest 0, .tick [] 1]
  obtain ⟨s, ran⟩ : ∃ s, s = run {} ops := ⟨_, rfl⟩
  obtain ⟨stray, isStray⟩ : ∃ stray : RequestId,
      stray = { value := 8770340115146065288 } := ⟨_, rfl⟩
  have views : ((s.batches[({ value := 1 } : BatchId)]?).any fun b =>
      let t := s.mergeInto { value := 1 } { value := 1 } b
        { b with members := [{ value := 1 }, stray] }
      canMerge {} b b && decide (
        b.members = [{ value := 1 }, { value := 2 }] ∧
        (Everywhere t.requests fun _ r => Everywhere t.requests fun _ r' =>
          KnownKeys.minimal.keyOf r.metadata.descriptor =
              KnownKeys.minimal.keyOf r'.metadata.descriptor →
            CompatibilityKey.preimage r.metadata.descriptor =
              CompatibilityKey.preimage r'.metadata.descriptor) ∧
        t.FewExtensions ∧
        t.descriptor? { value := 1 } ≠ t.descriptor? stray)) = true := by
    rw [ran, run_eq_runKnown .minimal, isStray]
    decide +kernel
  obtain ⟨b, found, views⟩ := (Option.any_eq_true _ _).mp views
  obtain ⟨possible, views⟩ := (Bool.and_eq_true _ _).mp views
  obtain ⟨members, separate, few, differ⟩ := of_decide_eq_true views
  have reads : RereadsBatch b
      { b with members := [{ value := 1 }, stray] } := {
    members := by
      rw [members]
      exact ⟨rfl, rfl⟩
    parents := ⟨rfl, rfl⟩
    children := ⟨rfl, rfl⟩
    others := rfl }
  have before : RunsTo {} (fun _ _ => True) ops s := by
    rw [ran]
    exact runsTo_run (Transition.along_of_forall _ (fun _ _ => trivial) _ ops)
  have runs : RunsTo {} (fun _ _ => True) (ops ++ [.merge _ _]) _ :=
    before.append (.cons trivial (.mergeItself found possible reads) (.nil _))
  have merged := (compatible {} _ _ runs
    (collisionFree_of_known .minimal separate) few).members
  have present : (s.mergeInto { value := 1 } { value := 1 } b
      { b with members := [{ value := 1 }, stray] }).batches[
        ({ value := 1 } : BatchId)]? =
      some { mergeTarget (OrderedMap.modifyAll s.requests [{ value := 1 }, stray]
          (RequestRec.setBatch { value := 1 })) { value := 1 } b
            { b with members := [{ value := 1 }, stray] } with
        state := .superseded } := by
    unfold mergeInto
    dsimp only
    rw [getElem?_modify, if_pos rfl, getElem?_insert, if_pos rfl]
    rfl
  apply differ
  apply merged { value := 1 } _ present
  · exact List.mem_append_right _ List.mem_cons_self
  · exact List.mem_append_right _
      (List.mem_cons_of_mem _ List.mem_cons_self)

end BatchFabric.Impl
