import BatchFabric.Safety.Reachable
import BatchFabric.Scheduler.KnownKeys

namespace BatchFabric.Impl

open OrderedMap

/-! The work that a dispatch hands to a worker. -/

/-- The request has not ended and may still be served in time. -/
def isLive (s : Impl) (now : TimePoint) (m : RequestId) : Bool :=
  match s.requests[m]? with
  | none => false
  | some r => !isRequestTerminal r.state && !r.metadata.deadline.expired now

/-- The execution has the live members of the batch, in their order and once
each, under their current attempts. -/
structure CarriesLive (s : Impl) (b : BatchRec) (now : TimePoint)
    (execution : BatchExecution) : Prop where
  members : execution.members =
    (b.members.filter (s.isLive now)).filterMap s.memberWork
  once : (execution.members.map (·.request)).Nodup

/-- No member has ended or is late, and none is listed twice. -/
structure AllLive (s : Impl) (b : BatchRec) (now : TimePoint) : Prop where
  live : ∀ m ∈ b.members, s.isLive now m = true
  once : b.members.Nodup

theorem memberWork_markDispatched (s : Impl) (bid : BatchId) (b : BatchRec)
    (worker : WorkerId) (boot : WorkerBootId) (now : TimePoint) :
    (s.markDispatched bid b worker boot now).memberWork = s.memberWork := by
  funext m
  have kept : ∀ r : RequestRec,
      ((r.advance .batched .dispatched).currentAttempt,
        (r.advance .batched .dispatched).metadata) =
      (r.currentAttempt, r.metadata) := by
    intro r
    unfold RequestRec.advance
    split <;> rfl
  have same : ((modifyAll s.requests b.members
        (RequestRec.advance .batched .dispatched))[m]?).map (fun r =>
          (r.currentAttempt, r.metadata)) =
      (s.requests[m]?).map fun r => (r.currentAttempt, r.metadata) :=
    map_getElem?_modifyAll kept s.requests b.members m
  have work := congrArg (Option.map fun seen : AttemptId × RequestMetadata =>
    ({ request := m
       attempt := seen.1
       work := seen.2.work.value
       inputTokens := seen.2.tokens.input
       outputTokens := seen.2.tokens.output
       payload := seen.2.payload } : MemberWork)) same
  rw [Option.map_map, Option.map_map] at work
  exact work

theorem members_executionOf (s : Impl) (bid : BatchId) (b : BatchRec)
    (worker : WorkerId) (boot : WorkerBootId) (now : TimePoint) :
    ((s.markDispatched bid b worker boot now).executionOf b worker).members =
      b.members.filterMap s.memberWork := by
  unfold executionOf
  rw [memberWork_markDispatched]

section Members

variable {s : Impl} {members : List RequestId}
  (known : ∀ m ∈ members, ∃ work, s.memberWork m = some work)

include known

/-- Every member that exists is handed over under its own id. -/
theorem requests_filterMap_memberWork :
    (members.filterMap s.memberWork).map (·.request) = members := by
  induction members with
  | nil => rfl
  | cons m rest induction =>
      obtain ⟨work, found⟩ := known m List.mem_cons_self
      have named : work.request = m := by
        unfold memberWork at found
        obtain ⟨r, _, rfl⟩ := Option.map_eq_some_iff.mp found
        rfl
      rw [List.filterMap_cons_some found, List.map_cons, named,
        induction fun m' member => known m' (List.mem_cons_of_mem m member)]

/-- Nothing is left out only where every member is live. -/
theorem filterMap_filter_iff (live : RequestId → Bool) :
    members.filterMap s.memberWork =
        (members.filter live).filterMap s.memberWork ↔
      ∀ m ∈ members, live m = true := by
  constructor
  · intro same
    have requests := congrArg (List.map (·.request)) same
    rw [requests_filterMap_memberWork known, requests_filterMap_memberWork
      fun m member => known m (List.mem_of_mem_filter member)] at requests
    exact List.filter_eq_self.mp requests.symm
  · intro all
    rw [List.filter_eq_self.mpr all]

end Members

theorem known_of_member {s : Impl} (wellFormed : WellFormed s) {bid : BatchId}
    {b : BatchRec} (found : s.batches[bid]? = some b) :
    ∀ m ∈ b.members, ∃ work, s.memberWork m = some work := by
  intro m member
  obtain ⟨r, request⟩ := wellFormed.found_member found member
  unfold memberWork
  rw [request]
  exact ⟨_, rfl⟩

theorem carriesLive_iff_of_members {s : Impl} (wellFormed : WellFormed s)
    {bid : BatchId} {b : BatchRec} (found : s.batches[bid]? = some b)
    (now : TimePoint) {execution : BatchExecution}
    (members : execution.members = b.members.filterMap s.memberWork) :
    CarriesLive s b now execution ↔ AllLive s b now := by
  have known := known_of_member wellFormed found
  constructor
  · rintro ⟨carried, once⟩
    rw [members] at carried once
    rw [requests_filterMap_memberWork known] at once
    exact ⟨(filterMap_filter_iff known _).mp carried, once⟩
  · rintro ⟨live, once⟩
    refine ⟨?_, ?_⟩
    · rw [members]
      exact (filterMap_filter_iff known _).mpr live
    · rw [members, requests_filterMap_memberWork known]
      exact once

theorem execution_of_prepared {s : Impl} {bid : BatchId} {b : BatchRec}
    (found : s.batches[bid]? = some b) {worker : WorkerId}
    {boot : WorkerBootId} {now : TimePoint} {execution : BatchExecution}
    (prepared : (s.prepareDispatch bid worker boot now).1 = .ok execution) :
    execution =
      (s.markDispatched bid b worker boot now).executionOf b worker := by
  obtain ⟨err, refused⟩ | ⟨b', at_bid, _, _, accepted⟩ :=
    prepareDispatch_cases s bid worker boot now
  · rw [refused] at prepared
    cases prepared
  · rw [found] at at_bid
    cases at_bid
    rw [accepted] at prepared
    exact (Except.ok.inj prepared).symm

/-- Either way of dispatching a sealed batch hands over its live members exactly
when all its members are live and none is listed twice. -/
theorem carriesLive_iff {policy : BatchPolicy} {s : Impl}
    (reachable : Reachable policy s) {bid : BatchId} {b : BatchRec}
    (found : s.batches[bid]? = some b) (now : TimePoint) :
    (∀ worker boot execution,
      (s.prepareDispatch bid worker boot now).1 = .ok execution →
        (CarriesLive s b now execution ↔ AllLive s b now)) ∧
    (∀ worker, CarriesLive s b now (s.runExecution bid b worker now) ↔
      AllLive s b now) := by
  have wellFormed := wellFormed_of_reachable reachable
  constructor
  · intro worker boot execution prepared
    apply carriesLive_iff_of_members wellFormed found
    rw [execution_of_prepared found prepared]
    exact members_executionOf s bid b worker boot now
  · intro worker
    apply carriesLive_iff_of_members wellFormed found
    exact members_executionOf s bid b worker _ now

/-- Two requests sealed in one batch, and what is done before its dispatch. -/
def beforeDispatch (between : List Op) : List Op :=
  [.submit minimalRequest 0, .submit minimalRequest 0, .tick [] 1] ++ between

/-- Whether a batch's members are all live, as a run can compute it. -/
def allLive (s : Impl) (b : BatchRec) (now : TimePoint) : Bool :=
  b.members.all (s.isLive now) && decide b.members.Nodup

theorem allLive_iff {s : Impl} {b : BatchRec} {now : TimePoint} :
    s.allLive b now = true ↔ AllLive s b now := by
  unfold allLive
  rw [Bool.and_eq_true, List.all_eq_true, decide_eq_true_iff]
  constructor
  · rintro ⟨live, once⟩
    exact ⟨live, once⟩
  · rintro ⟨live, once⟩
    exact ⟨live, once⟩

theorem carriesLive_of_two_live :
    ∃ (s : Impl) (b : BatchRec) (execution : BatchExecution),
      s.batches[({ value := 1 } : BatchId)]? = some b ∧
      (s.prepareDispatch { value := 1 } .null .null 2).1 = .ok execution ∧
      CarriesLive s b 2 execution ∧
      CarriesLive s b 2 (s.runExecution { value := 1 } b .null 2) := by
  obtain ⟨s, ran⟩ : ∃ s, s = BatchFabric.run {} (beforeDispatch []) :=
    ⟨_, rfl⟩
  have reachable : Reachable {} s := ran ▸ reachable_run {} _
  have views : (s.batches[({ value := 1 } : BatchId)]?).map
        (fun b => s.allLive b 2) = some true ∧
      ((s.prepareDispatch { value := 1 } .null .null 2).1.toOption).isSome =
        true := by
    rw [ran, run_eq_runKnown .minimal]
    decide +kernel
  obtain ⟨view, accepted⟩ := views
  obtain ⟨b, found, live⟩ := Option.map_eq_some_iff.mp view
  obtain ⟨execution, answered⟩ := Option.isSome_iff_exists.mp accepted
  have prepared := ok_of_toOption answered
  have carries := carriesLive_iff reachable found 2
  exact ⟨s, b, execution, found, prepared,
    (carries.1 .null .null execution prepared).mpr (allLive_iff.mp live),
    (carries.2 .null).mpr (allLive_iff.mp live)⟩

/-- One of two sealed requests is cancelled. It is handed to the worker with
the other. -/
theorem not_carriesLive_of_cancelled :
    ¬ ∀ (policy : BatchPolicy) (s : Impl) (bid : BatchId) (b : BatchRec)
      (now : TimePoint), Reachable policy s → s.batches[bid]? = some b →
      b.state = .sealed →
      (∀ worker boot execution,
        (s.prepareDispatch bid worker boot now).1 = .ok execution →
          CarriesLive s b now execution) ∧
      (∀ worker,
        CarriesLive s b now (s.runExecution bid b worker now)) := by
  intro carries
  obtain ⟨s, ran⟩ : ∃ s, s =
      BatchFabric.run {} (beforeDispatch [.cancel { value := 2 } 2]) :=
    ⟨_, rfl⟩
  have reachable : Reachable {} s := ran ▸ reachable_run {} _
  have views : (s.batches[({ value := 1 } : BatchId)]?).map
        (fun b => (b.state, (b.members.filter (s.isLive 3)).length,
          ((s.runExecution { value := 1 } b .null 3).members).length)) =
        some (.sealed, 1, 2) := by
    rw [ran, run_eq_runKnown .minimal]
    decide +kernel
  obtain ⟨b, found, seen⟩ := Option.map_eq_some_iff.mp views
  have isSealed : b.state = .sealed := congrArg Prod.fst seen
  have one : (b.members.filter (s.isLive 3)).length = 1 :=
    congrArg (fun view => view.2.1) seen
  have two : ((s.runExecution { value := 1 } b .null 3).members).length = 2 :=
    congrArg (fun view => view.2.2) seen
  have carried :=
    (carries {} s { value := 1 } b 3 reachable found isSealed).2 .null
  rw [carried.members] at two
  have fewer := List.length_filterMap_le s.memberWork
    (b.members.filter (s.isLive 3))
  omega

end BatchFabric.Impl
