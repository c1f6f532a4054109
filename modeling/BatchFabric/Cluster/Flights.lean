import BatchFabric.Cluster.Conservation
import BatchFabric.Cluster.Traffic
import BatchFabric.Safety.Flight

namespace BatchFabric.Cluster

open OrderedMap PersistenceStore Protocol

/-! The batches the fabric takes to be running are those whose dispatch or
report is on its way, was lost, or was refused. A report of a running program
is taken, unless the epoch or the worker's registration has changed. -/

variable {policy : BatchPolicy} {c c' : State} {ch : Nat} {bid : BatchId}

/-! What is sent and reported names a batch and its generation. -/

theorem fits_of_issued {s : Impl} (reachable : Reachable policy s)
    (words : s.WithinWords) {generation : Generation}
    (issued : s.Issued bid generation) : Fits bid ∧ Fits generation := by
  obtain ⟨b, found, rfl⟩ := issued
  have known := (Impl.wellFormed_of_reachable reachable).batch bid b found
  exact ⟨known.2.2.trans_le words.2.1,
    (Impl.generated_of_reachable reachable bid b found).trans_le
      words.2.2.2⟩

theorem issuing (policy : BatchPolicy) :
    Courier policy (fun s exec => s.Issued exec.batch exec.generation)
      (fun s comp => s.Issued comp.batch comp.generation) where
  sentStep _ op _ reachable issued := issued.step reachable op
  toldStep _ op _ reachable issued := issued.step reachable op
  prepared s bid worker boot now exec s' reachable prepared := by
    obtain ⟨err, refused⟩ | ⟨b, found, _, _, dispatched⟩ :=
      Impl.prepareDispatch_cases s bid worker boot now
    · rw [refused] at prepared
      cases prepared
    · rw [dispatched] at prepared
      cases prepared
      have named : b.id = bid :=
        ((Impl.wellFormed_of_reachable reachable).batch bid b found).1
      subst named
      have marked : (s.markDispatched b.id b worker boot now).batches[b.id]? =
          some _ := getElem?_modify_self found _
      exact ⟨_, marked, rfl⟩
  arrives s exec read reachable words issued _ found := by
    have fits := fits_of_issued reachable words issued
    rw [batch_of_dispatchFrame fits.1 found,
      generation_of_dispatchFrame fits.2 found]
    exact issued
  reported s exec p read reachable words issued found := by
    have fits := fits_of_issued reachable words issued
    have batch : read.batch = (report p p.executor exec).batch :=
      batch_of_completeFrame fits.1 found
    have generation :
        read.generation = (report p p.executor exec).generation :=
      generation_of_completeFrame fits.2 found
    rw [batch, generation]
    exact issued

/-! What the updates leave of the books. -/

namespace State

theorem accepted_close :
    (c.close ch).ledger.accepted = c.ledger.accepted := by
  unfold close
  split <;> rfl

theorem accepted_disconnect :
    (c.disconnect ch).ledger.accepted = c.ledger.accepted := by
  unfold disconnect
  split <;> rfl

theorem accepted_sendTo (channel : Option Nat) (exec : BatchExecution) :
    (c.sendTo channel exec).ledger.accepted = c.ledger.accepted := by
  unfold sendTo
  dsimp only
  split
  · rfl
  · split <;> rfl

end State

theorem accepted_carryOut (link : Link) (p : WorkerProcess)
    (exec : BatchExecution) (rest : List FrameMessage) :
    (carryOut c ch link p exec rest).ledger.accepted = c.ledger.accepted := by
  unfold carryOut
  dsimp only
  split <;> rfl

/-- What a driver's thread serves neither starts nor ends a flight. -/
theorem sameFlights_of_plain {s : Impl} (reachable : Reachable policy s)
    {op : Op} (plain : isPlain op = true) :
    Impl.SameFlights s (BatchFabric.step policy s op) := by
  cases op with
  | submit metadata now => exact .doSubmit policy s metadata now
  | cancel request now => exact .doCancel policy s request now
  | tick order now =>
      exact .doTick (Impl.wellFormed_of_reachable reachable) policy order now
  | rollEpoch => exact .of_batches rfl
  | _ => cases plain

/-- All that is known of a run in which only programs report. -/
def Tracked (policy : BatchPolicy) (Sent : Impl → BatchExecution → Prop)
    (Told : Impl → BatchCompletion → Prop) (c : State) : Prop :=
  (Sound policy c ∧ Accounted c) ∧ Traffic Sent Told c

section

variable {Sent : Impl → BatchExecution → Prop}
  {Told : Impl → BatchCompletion → Prop}

theorem Tracked.rule (courier : Courier policy Sent Told) :
    Rule policy Unreporting (fun _ => True) (Tracked policy Sent Told) :=
  ((Sound.rule policy _).both (Accounted.rule policy _)).both
    ((Traffic.rule courier).given fun _ given => given.1)

/-- A batch is in flight from its dispatch until its report is taken. -/
def Whereabouts (c : State) : Prop :=
  c.coordinator.fabric.WithinWords → ∀ bid,
    (c.coordinator.fabric.flight bid).isSome = true ↔
      bid ∈ c.ledger.prepared ∧ bid ∉ c.ledger.accepted

namespace Whereabouts

theorem fresh : Whereabouts {} := by
  intro _ bid
  exact ⟨nofun, nofun⟩

theorem of_flights (known : Whereabouts c)
    (words : c'.coordinator.fabric.WithinWords →
      c.coordinator.fabric.WithinWords)
    (flights : Impl.SameFlights c.coordinator.fabric c'.coordinator.fabric)
    (prepared : c'.ledger.prepared = c.ledger.prepared)
    (accepted : c'.ledger.accepted = c.ledger.accepted) :
    Whereabouts c' := by
  intro within bid
  rw [flights bid, prepared, accepted]
  exact known (words within) bid

theorem of_same (known : Whereabouts c)
    (fabric : c'.coordinator.fabric = c.coordinator.fabric)
    (prepared : c'.ledger.prepared = c.ledger.prepared)
    (accepted : c'.ledger.accepted = c.ledger.accepted) :
    Whereabouts c' :=
  known.of_flights (fun within => fabric ▸ within) (fun _ => by rw [fabric])
    prepared accepted

theorem within_of_op (reachable : Reachable policy c.coordinator.fabric)
    (op : Op) (fabric : c'.coordinator.fabric =
      BatchFabric.step policy c.coordinator.fabric op)
    (within : c'.coordinator.fabric.WithinWords) :
    c.coordinator.fabric.WithinWords := by
  rw [fabric] at within
  exact within.before (Impl.Allocated.step reachable op)

/-- A report of a program is entered. -/
theorem report (known : Whereabouts c)
    (reachable : Reachable policy c.coordinator.fabric)
    (comp : BatchCompletion) (now : TimePoint)
    (fabric : c'.coordinator.fabric =
      (c.coordinator.fabric.doComplete policy comp now).2)
    (prepared : c'.ledger.prepared = c.ledger.prepared)
    (accepted : c'.ledger.accepted =
      if (c.coordinator.fabric.doComplete policy comp now).1.isOk then
        c.ledger.accepted ++ [comp.batch] else c.ledger.accepted) :
    Whereabouts c' := by
  have words := within_of_op reachable (.complete comp now) fabric
  cases taken : (c.coordinator.fabric.doComplete policy comp now).1.isOk with
  | false =>
      rw [taken] at accepted
      apply known.of_flights words _ prepared accepted
      rw [fabric]
      exact Impl.flight_doComplete_error taken
  | true =>
      rw [taken] at accepted
      intro within bid
      rw [fabric, Impl.flight_doComplete_ok taken, prepared, accepted,
        if_pos rfl, List.mem_append, List.mem_singleton]
      split
      · next here =>
          subst here
          exact ⟨nofun, fun standing => absurd (.inr rfl) standing.2⟩
      · next other =>
          rw [known (words within) bid, not_or]
          exact ⟨fun standing => ⟨standing.1, standing.2, Ne.symm other⟩,
            fun standing => ⟨standing.1, standing.2.1⟩⟩

/-- A batch that was not dispatched has not been reported. -/
theorem not_accepted (accounted : Accounted c)
    (within : c.coordinator.fabric.WithinWords)
    (absent : bid ∉ c.ledger.prepared) : bid ∉ c.ledger.accepted := by
  have books := accounted within.2.1 bid
  have sent := books.sent
  have answered := books.answered
  rw [List.count_eq_zero_of_not_mem absent] at sent
  intro listed
  have some := List.count_pos_iff.mpr listed
  omega

theorem prepare (known : Whereabouts c) (prepared : Prepared policy c)
    (accounted : Accounted c) {worker : WorkerId} {boot : WorkerBootId}
    {now : TimePoint} {exec : BatchExecution} {fabric : Impl}
    (dispatched : c.coordinator.fabric.prepareDispatch bid worker boot now =
      (.ok exec, fabric))
    (after : c'.coordinator.fabric = fabric)
    (listed : c'.ledger.prepared = c.ledger.prepared ++ [exec.batch])
    (accepted : c'.ledger.accepted = c.ledger.accepted) :
    Whereabouts c' := by
  intro within other
  have step : c'.coordinator.fabric = BatchFabric.step policy
      c.coordinator.fabric (.prepareDispatch bid worker boot now) := by
    show _ = (c.coordinator.fabric.prepareDispatch bid worker boot now).2
    rw [dispatched]
    exact after
  have words := within_of_op prepared.reachable _ step within
  obtain ⟨err, refused⟩ | ⟨b, found, isSealed, _, taken⟩ :=
    Impl.prepareDispatch_cases c.coordinator.fabric bid worker boot now
  · rw [refused] at dispatched
    cases dispatched
  · rw [taken] at dispatched
    cases dispatched
    have named : b.id = bid := (prepared.wellFormed.batch bid b found).1
    have batch : ((c.coordinator.fabric.markDispatched bid b worker boot
        now).executionOf b worker).batch = bid := named
    rw [after, listed, accepted, batch, Impl.flight_markDispatched found,
      List.mem_append, List.mem_singleton]
    split
    · next here =>
        subst here
        have absent : bid ∉ c.ledger.prepared := by
          intro before
          obtain ⟨b', found', stage⟩ := prepared.advanced bid before
          rw [found] at found'
          cases found'
          rw [isSealed] at stage
          exact absurd stage (by decide)
        have unreported := not_accepted accounted words absent
        exact ⟨fun _ => ⟨.inr rfl, unreported⟩, fun _ => rfl⟩
    · next apart =>
        rw [known words other]
        constructor
        · exact fun standing => ⟨.inl standing.1, standing.2⟩
        · rintro ⟨before | same, unreported⟩
          · exact ⟨before, unreported⟩
          · exact absurd same.symm apart

/-- Nobody but a program reports. -/
theorem no_report (traffic : Traffic Sent Told c)
    (within : c.coordinator.fabric.WithinWords) {link : Link}
    (found : c.links[ch]? = some link) {frame : FrameMessage}
    {rest : List FrameMessage} (next : link.up = frame :: rest)
    {comp : BatchCompletion} (read : completionOf frame = some comp) :
    link.process.isSome = true :=
  (((traffic within).links ch link found).up frame
    (next ▸ List.mem_cons_self) comp read).1

theorem rule (policy : BatchPolicy) :
    Rule policy Unreporting (Tracked policy Sent Told) Whereabouts where
  start _ _ _ _ _ known _ := known.of_same rfl rfl rfl
  connect _ _ _ known _ := known.of_same rfl rfl rfl
  send _ _ _ _ _ known _ _ _ := known.of_same rfl rfl rfl
  disconnect _ _ _ known :=
    known.of_same (congrArg _ State.coordinator_disconnect)
      State.prepared_disconnect State.accepted_disconnect
  close _ _ _ known :=
    known.of_same (congrArg _ State.coordinator_close) State.prepared_close
      State.accepted_close
  closeDriver _ _ _ known _ _ :=
    known.of_same (congrArg (·.fabric) State.coordinator_close)
      State.prepared_close State.accepted_close
  reply _ _ _ _ known _ := known.of_same rfl rfl rfl
  serve _ request held known plain :=
    known.of_flights
      (within_of_op held.1.1.1.reachable request.1 rfl)
      (sameFlights_of_plain held.1.1.1.reachable plain) rfl rfl
  thread c event held known threads := by
    obtain same | ⟨worker, boot, cap, registered⟩ :=
      fabric_thread threads c.coordinator
    · exact known.of_same same rfl rfl
    · refine known.of_flights
        (within_of_op held.1.1.1.reachable _ registered) ?_ rfl rfl
      show Impl.SameFlights _ (Coordinator.step policy c.coordinator
        event).fabric
      rw [registered]
      exact .of_batches rfl
  stop _ _ known := known.of_same rfl rfl rfl
  accept _ _ _ _ _ _ _ known _ _ _ _ := known.of_same rfl rfl rfl
  take _ _ _ _ _ _ known _ _ _ := known.of_same rfl rfl rfl
  skip _ _ _ _ _ _ _ known _ _ _ _ := known.of_same rfl rfl rfl
  report c ch link frame rest k comp now held known _ _ _ _ _ := by
    apply known.report held.1.1.1.reachable comp now
    · rw [State.coordinator_book]
      exact congrArg (·.fabric) (State.coordinator_acknowledge _)
    · rw [State.prepared_book]
      exact congrArg (·.prepared) (State.ledger_acknowledge _)
    · have same : ((c.popUp ch link rest).complete policy ch comp
          now).ledger = c.ledger := State.ledger_acknowledge _
      unfold State.book
      cases (c.coordinator.fabric.doComplete policy comp now).1 with
      | ok =>
          show ((c.popUp ch link rest).complete policy ch comp
            now).ledger.accepted ++ [comp.batch] = _
          rw [same]
          rfl
      | error err =>
          show ((c.popUp ch link rest).complete policy ch comp
            now).ledger.accepted = _
          rw [same]
          rfl
  unbooked c ch link frame rest k comp now held known _ found next read
      none := by
    intro within
    have words := within_of_op held.1.1.1.reachable (.complete comp now)
      (congrArg (·.fabric) (State.coordinator_acknowledge _)) within
    have program := no_report held.2 words found next read
    rw [none] at program
    cases program
  handled c ch frame comp now held known handling read := by
    intro within
    have words := within_of_op held.1.1.1.reachable (.complete comp now)
      (congrArg (·.fabric) (State.coordinator_acknowledge _)) within
    have silent : completionOf frame = none :=
      (held.2 words).drivers ch _ handling
    rw [silent] at read
    cases read
  move _ _ _ _ _ known _ _ _ := known.of_same rfl rfl rfl
  prepare c ch work bid worker slot boot now exec fabric held known _
      dispatched :=
    known.prepare held.1.1.1 held.1.2 dispatched rfl rfl rfl
  sendTo c ch work channel exec _ known _ :=
    known.of_same (congrArg (·.fabric) (State.coordinator_sendTo channel exec))
      (State.prepared_sendTo channel exec)
      (State.accepted_sendTo channel exec)
  carryOut c ch link p frame rest exec _ known _ _ _ _ :=
    known.of_same
      (congrArg (·.fabric) (coordinator_carryOut link p exec rest))
      (prepared_carryOut link p exec rest)
      (accepted_carryOut link p exec rest)
  ignore _ _ _ _ _ _ known _ _ _ := known.of_same rfl rfl rfl

end Whereabouts

end

/-- What holds along every run in which only programs report. -/
theorem tracked_of_run (policy : BatchPolicy) {events : List Event}
    (silent : ∀ event ∈ events, Sends Unreporting event) :
    Tracked policy (fun s exec => s.Issued exec.batch exec.generation)
        (fun s comp => s.Issued comp.batch comp.generation)
        (run policy events) ∧
      Whereabouts (run policy events) :=
  ((Tracked.rule (issuing policy)).both (Whereabouts.rule policy)).run
    ⟨⟨⟨⟨Prepared.fresh policy, Roles.fresh⟩, Accounted.fresh⟩, Traffic.fresh⟩,
      Whereabouts.fresh⟩ silent

/-- In every run in which only worker programs report, a batch is dispatched or
running exactly when one dispatch of it, or one report, is on its way, was
lost, or was refused. -/
theorem inFlight_iff_of_run (policy : BatchPolicy) (events : List Event)
    (silent : ∀ event ∈ events, Sends Unreporting event)
    (within : (run policy events).coordinator.fabric.WithinWords)
    (bid : BatchId) :
    let c := run policy events
    (∃ b, c.coordinator.fabric.batches[bid]? = some b ∧
        (b.state = .dispatched ∨ b.state = .running)) ↔
      c.pending bid + c.queued bid + c.ledger.undelivered.count bid +
        c.reported bid + c.ledger.unreported.count bid +
        c.ledger.refused.count bid = 1 := by
  obtain ⟨tracked, known⟩ := tracked_of_run policy silent
  intro c
  have flying : (c.coordinator.fabric.flight bid).isSome = true ↔
      bid ∈ c.ledger.prepared ∧ bid ∉ c.ledger.accepted := known within bid
  rw [Impl.isSome_flight_iff] at flying
  simp only [isInFlight_iff] at flying
  have books : Balanced c bid := tracked.1.2 within.2.1 bid
  have sent := books.sent
  have answered := books.answered
  have once : c.ledger.prepared.count bid ≤ 1 :=
    List.nodup_iff_count_le_one.mp tracked.1.1.1.once bid
  rw [flying, ← List.count_pos_iff, ← List.count_eq_zero]
  omega

theorem inFlight_iff_of_delivery :
    let c := run Coordinator.coordPolicy delivery
    (∃ b, c.coordinator.fabric.batches[({ value := 1 } : BatchId)]? = some b ∧
        (b.state = .dispatched ∨ b.state = .running)) ↔
      c.pending { value := 1 } + c.queued { value := 1 } +
        c.ledger.undelivered.count { value := 1 } +
        c.reported { value := 1 } +
        c.ledger.unreported.count { value := 1 } +
        c.ledger.refused.count { value := 1 } = 1 :=
  inFlight_iff_of_run Coordinator.coordPolicy delivery (by decide +kernel)
    (by decide +kernel) { value := 1 }

/-- In every run in which only worker programs report, a report on its way from
a program will be accepted if its epoch is the current one and its worker's
registration is, and refused otherwise. -/
theorem accepts_iff_of_run (policy : BatchPolicy) (events : List Event)
    (silent : ∀ event ∈ events, Sends Unreporting event)
    (within : (run policy events).coordinator.fabric.WithinWords) :
    let c := run policy events
    Everywhere c.links fun _ link => ∀ frame ∈ link.up, ∀ comp,
      completionOf frame = some comp → ∀ now,
        (c.coordinator.fabric.doComplete policy comp now).1.isOk = true ↔
          comp.epoch = c.coordinator.fabric.epoch ∧
            c.coordinator.fabric.workerCurrent comp.worker comp.boot =
              true := by
  obtain ⟨tracked, known⟩ := tracked_of_run policy silent
  intro c ch link found frame member comp read now
  obtain ⟨program, b, issued, generation⟩ :=
    ((tracked.2 within).links ch link found).up frame member comp read
  have one : 0 < reportedOf comp.batch link := by
    unfold reportedOf Link.reports reports
    rw [if_pos program]
    exact List.count_pos_iff.mpr (List.mem_map.mpr
      ⟨comp, List.mem_filterMap.mpr ⟨frame, member, read⟩, rfl⟩)
  have reported : 0 < c.reported comp.batch := by
    have most := amountAt_le_total (reportedOf comp.batch) c.links ch
    unfold amountAt at most
    rw [found] at most
    exact one.trans_le most
  have standing : comp.batch ∈ c.ledger.prepared ∧
      comp.batch ∉ c.ledger.accepted := by
    have books : Balanced c comp.batch := tracked.1.2 within.2.1 comp.batch
    have sent := books.sent
    have answered := books.answered
    have once : c.ledger.prepared.count comp.batch ≤ 1 :=
      List.nodup_iff_count_le_one.mp tracked.1.1.1.once comp.batch
    rw [← List.count_pos_iff, ← List.count_eq_zero]
    omega
  obtain ⟨b', found', flying⟩ :=
    Impl.isSome_flight_iff.mp ((known within comp.batch).mpr standing)
  rw [issued] at found'
  cases found'
  constructor
  · intro taken
    obtain ⟨err, stale, refused⟩ | ⟨_, accepts, _⟩ :=
      Impl.doComplete_cases policy c.coordinator.fabric comp now
    · rw [refused] at taken
      cases taken
    · exact ⟨accepts.epoch, accepts.worker⟩
  · rintro ⟨epoch, worker⟩
    rw [Impl.doComplete_of_accepts ⟨epoch, worker, issued, generation,
      (isInFlight_iff b.state).mp flying⟩ policy now]
    rfl

theorem accepts_iff_of_delivery :
    (run Coordinator.coordPolicy delivery).reported { value := 1 } = 1 ∧
      let c := run Coordinator.coordPolicy delivery
      Everywhere c.links fun _ link => ∀ frame ∈ link.up, ∀ comp,
        completionOf frame = some comp → ∀ now,
          (c.coordinator.fabric.doComplete Coordinator.coordPolicy comp
              now).1.isOk = true ↔
            comp.epoch = c.coordinator.fabric.epoch ∧
              c.coordinator.fabric.workerCurrent comp.worker comp.boot =
                true :=
  ⟨by decide +kernel,
    accepts_iff_of_run Coordinator.coordPolicy delivery (by decide +kernel)
      (by decide +kernel)⟩

end BatchFabric.Cluster
