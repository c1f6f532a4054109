import BatchFabric.Cluster.Flights
import BatchFabric.Safety.Results

namespace BatchFabric.Cluster

open OrderedMap PersistenceStore Protocol

/-! What worker programs compute is recorded for the requests it was computed
for. -/

variable {policy : BatchPolicy} {c c' : State} {ch : Nat}

/-- The member is the work of a request, which is known by it. -/
structure Wanted (s : Impl) (m : MemberWork) : Prop where
  request : ∃ r, s.requests[m.request]? = some r ∧
    CpuExecutor.output m = CpuExecutor.answer r.metadata
  attempt : m.attempt.value < s.nextAttempt

theorem Wanted.fits {s : Impl} {m : MemberWork} (wanted : Wanted s m)
    (reachable : Reachable policy s) (within : s.WithinWords) :
    Fits m.request ∧ Fits m.attempt := by
  obtain ⟨r, found, _⟩ := wanted.request
  have known := (Impl.wellFormed_of_reachable reachable).request m.request r
    found
  exact ⟨known.2.trans_le within.1, wanted.attempt.trans_le within.2.2.1⟩

theorem metadata_step {s : Impl} (reachable : Reachable policy s) (op : Op) :
    Evolves Impl.SameSubmission s.requests
      (BatchFabric.step policy s op).requests := by
  have wellFormed := Impl.wellFormed_of_reachable reachable
  by_cases submits : ∃ metadata now, op = .submit metadata now
  · obtain ⟨metadata, now, rfl⟩ := submits
    exact Impl.evolves_doSubmit wellFormed metadata now
  · apply Impl.SameFixed.evolves
    apply Impl.SameFixed.step wellFormed
    exact fun metadata now same => submits ⟨metadata, now, same⟩

theorem Wanted.step {s : Impl} {m : MemberWork} (wanted : Wanted s m)
    (reachable : Reachable policy s) (op : Op) :
    Wanted (BatchFabric.step policy s op) m := by
  obtain ⟨r, found, output⟩ := wanted.request
  obtain ⟨r', found', same⟩ := metadata_step reachable op m.request r found
  refine ⟨⟨r', found', ?_⟩, ?_⟩
  · rw [same.1]
    exact output
  · exact wanted.attempt.trans_le
      (Impl.Allocated.step reachable op).attempt

theorem wanted_of_prepared {s s' : Impl} (reachable : Reachable policy s)
    {bid : BatchId} {worker : WorkerId} {boot : WorkerBootId}
    {now : TimePoint} {exec : BatchExecution}
    (prepared : s.prepareDispatch bid worker boot now = (.ok exec, s')) :
    ∀ m ∈ exec.members, Wanted s' m := by
  have after : Reachable policy s' := by
    have stepped := reachable.step (.prepareDispatch bid worker boot now)
    have same : BatchFabric.step policy s
        (.prepareDispatch bid worker boot now) = s' :=
      congrArg Prod.snd prepared
    rwa [same] at stepped
  obtain ⟨err, refused⟩ | ⟨b, found, _, _, dispatched⟩ :=
    Impl.prepareDispatch_cases s bid worker boot now
  · rw [refused] at prepared
    cases prepared
  · rw [dispatched] at prepared
    cases prepared
    intro m listed
    obtain ⟨r, request, current, output⟩ := Impl.output_of_execution listed
    have owns := Impl.ownsAttempts_of_reachable after
    refine ⟨⟨r, request, output⟩, ?_⟩
    rw [current]
    exact owns.allocated m.request r request _
      (owns.known m.request r request).1

theorem members_report (p : WorkerProcess) (exec : BatchExecution) :
    (report p p.executor exec).members = exec.members.map fun m => {
      request := m.request
      attempt := m.attempt
      status := .success
      result := CpuExecutor.output m } :=
  List.map_map

/-- What worker programs are sent and what they report is the work of the
requests named. -/
theorem working (policy : BatchPolicy) :
    Courier policy (fun s exec => ∀ m ∈ exec.members, Wanted s m)
      (fun s comp => ∀ mc ∈ comp.members,
        s.Honest CpuExecutor.answer mc) where
  sentStep _ op _ reachable wanted m member :=
    (wanted m member).step reachable op
  toldStep _ op _ reachable honest mc member :=
    (honest mc member).evolve (metadata_step reachable op) And.left
  prepared _ _ _ _ _ _ _ reachable prepared :=
    wanted_of_prepared reachable prepared
  arrives s exec read reachable within wanted small found := by
    rw [members_of_dispatchFrame small
      (fun m member => (wanted m member).fits reachable within) found]
    exact wanted
  reported s exec p read reachable within wanted found := by
    have members : read.members = (report p p.executor exec).members := by
      apply members_of_completeFrame _ found
      intro mc member
      rw [members_report] at member
      obtain ⟨m, listed, rfl⟩ := List.mem_map.mp member
      exact (wanted m listed).fits reachable within
    rw [members, members_report]
    intro mc member _
    obtain ⟨m, listed, rfl⟩ := List.mem_map.mp member
    exact (wanted m listed).request

/-- The results recorded are those of the CPU executor. -/
def Computed (c : State) : Prop :=
  c.coordinator.fabric.WithinWords →
    c.coordinator.fabric.Earned CpuExecutor.answer

namespace Computed

theorem fresh : Computed {} :=
  fun _ => Impl.Earned.fresh

theorem of_same (computed : Computed c)
    (fabric : c'.coordinator.fabric = c.coordinator.fabric) :
    Computed c' := by
  unfold Computed
  rw [fabric]
  exact computed

theorem of_op (computed : Computed c)
    (reachable : Reachable policy c.coordinator.fabric) (op : Op)
    (fabric : c'.coordinator.fabric =
      BatchFabric.step policy c.coordinator.fabric op)
    (honest : c.coordinator.fabric.WithinWords →
      c.coordinator.fabric.HonestOp CpuExecutor.answer op) :
    Computed c' := by
  intro within
  rw [fabric] at within ⊢
  have before := within.before (Impl.Allocated.step reachable op)
  exact (computed before).step reachable (honest before)

/-- A report that was read from a connection. -/
theorem report (computed : Computed c)
    {Sent : Impl → BatchExecution → Prop}
    (reachable : Reachable policy c.coordinator.fabric)
    (traffic : Traffic Sent (fun s comp => ∀ mc ∈ comp.members,
      s.Honest CpuExecutor.answer mc) c)
    {link : Link} (found : c.links[ch]? = some link) {frame : FrameMessage}
    {rest : List FrameMessage} (next : link.up = frame :: rest)
    {comp : BatchCompletion} (read : completionOf frame = some comp)
    (now : TimePoint)
    (fabric : c'.coordinator.fabric =
      (c.coordinator.fabric.doComplete policy comp now).2) :
    Computed c' := by
  refine computed.of_op reachable (.complete comp now) fabric fun within => ?_
  have listed : frame ∈ link.up := next ▸ List.mem_cons_self
  exact (((traffic within).links ch link found).up frame listed comp read).2

theorem rule (policy : BatchPolicy) :
    Rule policy Unreporting
      (Tracked policy (fun s exec => ∀ m ∈ exec.members, Wanted s m)
        (fun s comp => ∀ mc ∈ comp.members,
          s.Honest CpuExecutor.answer mc)) Computed where
  start _ _ _ _ _ computed _ := computed.of_same rfl
  connect _ _ _ computed _ := computed.of_same rfl
  send _ _ _ _ _ computed _ _ _ := computed.of_same rfl
  disconnect _ _ _ computed :=
    computed.of_same (congrArg _ State.coordinator_disconnect)
  close _ _ _ computed :=
    computed.of_same (congrArg _ State.coordinator_close)
  closeDriver _ _ _ computed _ _ :=
    computed.of_same (congrArg (·.fabric) State.coordinator_close)
  reply _ _ _ _ computed _ := computed.of_same rfl
  serve c request held computed plain := by
    refine computed.of_op held.1.1.1.reachable request.1 rfl fun _ => ?_
    obtain ⟨op, served⟩ := request
    cases op with
    | complete => cases plain
    | dispatchAndRun => cases plain
    | _ => trivial
  thread c event held computed threads := by
    obtain same | ⟨worker, boot, cap, registered⟩ :=
      fabric_thread threads c.coordinator
    · exact computed.of_same same
    · exact computed.of_op held.1.1.1.reachable _ registered fun _ => trivial
  stop _ _ computed := computed.of_same rfl
  accept _ _ _ _ _ _ _ computed _ _ _ _ := computed.of_same rfl
  take _ _ _ _ _ _ computed _ _ _ := computed.of_same rfl
  skip _ _ _ _ _ _ _ computed _ _ _ _ := computed.of_same rfl
  report c ch link frame rest k comp now held computed _ found next read _ := by
    apply computed.report held.1.1.1.reachable held.2 found next read now
    rw [State.coordinator_book]
    exact congrArg (·.fabric) (State.coordinator_acknowledge _)
  unbooked c ch link frame rest k comp now held computed _ found next read
      _ :=
    computed.report held.1.1.1.reachable held.2 found next read now
      (congrArg (·.fabric) (State.coordinator_acknowledge _))
  handled c ch frame comp now held computed handling read := by
    refine computed.of_op held.1.1.1.reachable (.complete comp now)
      (congrArg (·.fabric) (State.coordinator_acknowledge _)) fun within => ?_
    have silent : completionOf frame = none :=
      (held.2 within).drivers ch _ handling
    rw [silent] at read
    cases read
  move _ _ _ _ _ computed _ _ _ := computed.of_same rfl
  prepare c ch work bid worker slot boot now exec fabric held computed _
      dispatched := by
    refine computed.of_op held.1.1.1.reachable
      (.prepareDispatch bid worker boot now) ?_ fun _ => trivial
    exact (congrArg Prod.snd dispatched).symm
  sendTo _ _ _ channel exec _ computed _ :=
    computed.of_same
      (congrArg (·.fabric) (State.coordinator_sendTo channel exec))
  carryOut _ _ link p _ rest exec _ computed _ _ _ _ :=
    computed.of_same
      (congrArg (·.fabric) (coordinator_carryOut link p exec rest))
  ignore _ _ _ _ _ _ computed _ _ _ := computed.of_same rfl

end Computed

/-- In every run in which only worker programs report, each completed attempt
of a request holds what the CPU executor makes of that very request, whatever
happened on the way. -/
theorem computed_of_run (policy : BatchPolicy) (events : List Event)
    (silent : ∀ event ∈ events, Sends Unreporting event)
    (within : (run policy events).coordinator.fabric.WithinWords) :
    let s := (run policy events).coordinator.fabric
    Everywhere s.requests fun _ r => ∀ aid ∈ r.attempts, ∀ a,
      s.attempts[aid]? = some a → a.state = .completed →
        a.result = CpuExecutor.answer r.metadata := by
  have held : Tracked policy _ _ (run policy events) ∧
      Computed (run policy events) :=
    ((Tracked.rule (working policy)).both (Computed.rule policy)).run
      ⟨⟨⟨⟨Prepared.fresh policy, Roles.fresh⟩, Accounted.fresh⟩,
        Traffic.fresh⟩, Computed.fresh⟩ silent
  have owns := Impl.ownsAttempts_of_reachable held.1.1.1.1.reachable
  intro s id r request aid member a found completed
  exact (held.2 within).result owns request member found completed

theorem computed_of_roundTrip :
    let s := (run Coordinator.coordPolicy roundTrip).coordinator.fabric
    Everywhere s.requests fun _ r => ∀ aid ∈ r.attempts, ∀ a,
      s.attempts[aid]? = some a → a.state = .completed →
        a.result = CpuExecutor.answer r.metadata :=
  computed_of_run Coordinator.coordPolicy roundTrip (by decide +kernel)
    (by decide +kernel)

end BatchFabric.Cluster
