import BatchFabric.Cluster.Rule
import BatchFabric.Safety.BatchLifecycle

namespace BatchFabric.Cluster

open OrderedMap

/-! Whatever the threads do, the fabric only takes operations one after
another, and prepares each dispatch once. -/

variable {policy : BatchPolicy} {c c' : State} {ch : Nat}

namespace State

theorem ledger_acknowledge (answer : Except Error Unit) :
    (c.acknowledge ch answer).ledger = c.ledger := by
  cases answer <;> rfl

theorem prepared_close :
    (c.close ch).ledger.prepared = c.ledger.prepared := by
  unfold close
  split <;> rfl

theorem prepared_disconnect :
    (c.disconnect ch).ledger.prepared = c.ledger.prepared := by
  unfold disconnect
  split <;> rfl

theorem coordinator_disconnect :
    (c.disconnect ch).coordinator = c.coordinator := by
  unfold disconnect
  split <;> rfl

theorem prepared_book (bid : BatchId) (answer : Except Error Unit) :
    (c.book bid answer).ledger.prepared = c.ledger.prepared := by
  cases answer <;> rfl

theorem coordinator_book (bid : BatchId) (answer : Except Error Unit) :
    (c.book bid answer).coordinator = c.coordinator := by
  cases answer <;> rfl

theorem prepared_sendTo (channel : Option Nat) (exec : BatchExecution) :
    (c.sendTo channel exec).ledger.prepared = c.ledger.prepared := by
  unfold sendTo
  dsimp only
  split
  · rfl
  · split <;> rfl

theorem coordinator_sendTo (channel : Option Nat) (exec : BatchExecution) :
    (c.sendTo channel exec).coordinator = c.coordinator := by
  unfold sendTo
  dsimp only
  split
  · rfl
  · split <;> rfl

end State

theorem prepared_carryOut (link : Link) (p : WorkerProcess)
    (exec : BatchExecution) (rest : List FrameMessage) :
    (carryOut c ch link p exec rest).ledger.prepared = c.ledger.prepared := by
  unfold carryOut
  dsimp only
  split <;> rfl

theorem coordinator_carryOut (link : Link) (p : WorkerProcess)
    (exec : BatchExecution) (rest : List FrameMessage) :
    (carryOut c ch link p exec rest).coordinator = c.coordinator := by
  unfold carryOut
  dsimp only
  split <;> rfl

/-- The threads of worker connections at most register a worker. -/
theorem fabric_thread {event : Coordinator.Event}
    (threads : isThread event = true) (s : Coordinator.State) :
    (Coordinator.step policy s event).fabric = s.fabric ∨
      ∃ worker boot cap, (Coordinator.step policy s event).fabric =
        BatchFabric.step policy s.fabric (.registerWorker worker boot cap) := by
  cases event with
  | accept | serve => cases threads
  | register ch =>
      dsimp only [Coordinator.step]
      split
      · exact .inl rfl
      · exact .inr ⟨_, _, _, rfl⟩
  | leave ch =>
      dsimp only [Coordinator.step]
      split
      · exact .inl rfl
      · split <;> exact .inl rfl
  | record ch | fail ch | erase ch | shutdown ch =>
      dsimp only [Coordinator.step]
      split <;> exact .inl rfl

/-- The fabric is that of a run of its operations, and the batches prepared are
past sealing, each prepared once. -/
structure Prepared (policy : BatchPolicy) (c : State) : Prop where
  reachable : Reachable policy c.coordinator.fabric
  advanced : ∀ bid ∈ c.ledger.prepared, ∃ b,
    c.coordinator.fabric.batches[bid]? = some b ∧ 2 ≤ b.state.stage
  once : c.ledger.prepared.Nodup

namespace Prepared

theorem fresh (policy : BatchPolicy) : Prepared policy {} :=
  ⟨⟨[], rfl⟩, nofun, List.nodup_nil⟩

theorem wellFormed (prepared : Prepared policy c) :
    c.coordinator.fabric.WellFormed :=
  Impl.wellFormed_of_reachable prepared.reachable

theorem of_same (prepared : Prepared policy c)
    (fabric : c'.coordinator.fabric = c.coordinator.fabric)
    (ledger : c'.ledger.prepared = c.ledger.prepared) :
    Prepared policy c' := by
  constructor
  · rw [fabric]
    exact prepared.reachable
  · rw [fabric, ledger]
    exact prepared.advanced
  · rw [ledger]
    exact prepared.once

theorem of_op (prepared : Prepared policy c) (op : Op)
    (fabric : c'.coordinator.fabric =
      BatchFabric.step policy c.coordinator.fabric op)
    (ledger : c'.ledger.prepared = c.ledger.prepared) :
    Prepared policy c' := by
  constructor
  · rw [fabric]
    exact prepared.reachable.step op
  · intro bid listed
    rw [ledger] at listed
    obtain ⟨b, found, stage⟩ := prepared.advanced bid listed
    obtain ⟨b', found', advances⟩ :=
      Impl.advances_step prepared.wellFormed policy op bid b found
    refine ⟨b', ?_, stage.trans advances.stage_le⟩
    rw [fabric]
    exact found'
  · rw [ledger]
    exact prepared.once

theorem complete (prepared : Prepared policy c)
    (completion : BatchCompletion) (now : TimePoint)
    (fabric : c'.coordinator.fabric = (c.coordinator.fabric.doComplete policy
      completion now).2)
    (ledger : c'.ledger.prepared = c.ledger.prepared) :
    Prepared policy c' :=
  prepared.of_op (.complete completion now) fabric ledger

/-- A batch that is prepared is sealed, so it was not prepared before. -/
theorem prepare (prepared : Prepared policy c) {bid : BatchId}
    {worker : WorkerId} {boot : WorkerBootId} {now : TimePoint}
    {exec : BatchExecution} {fabric : Impl}
    (accepted : c.coordinator.fabric.prepareDispatch bid worker boot now =
      (.ok exec, fabric))
    (after : c'.coordinator.fabric = fabric)
    (ledger : c'.ledger.prepared = c.ledger.prepared ++ [exec.batch]) :
    Prepared policy c' := by
  obtain ⟨err, refused⟩ | ⟨b, found, isSealed, _, dispatched⟩ :=
    Impl.prepareDispatch_cases c.coordinator.fabric bid worker boot now
  · rw [refused] at accepted
    cases accepted
  · have fabric' : fabric = BatchFabric.step policy c.coordinator.fabric
        (.prepareDispatch bid worker boot now) := by
      show fabric =
        (c.coordinator.fabric.prepareDispatch bid worker boot now).2
      rw [accepted]
    have stepped : Prepared policy { c with
        coordinator := { c.coordinator with fabric := fabric } } :=
      prepared.of_op (.prepareDispatch bid worker boot now) fabric' rfl
    rw [dispatched] at accepted
    cases accepted
    have named : b.id = bid := (prepared.wellFormed.batch bid b found).1
    have batch : ((c.coordinator.fabric.markDispatched bid b worker boot
        now).executionOf b worker).batch = bid := named
    rw [batch] at ledger
    constructor
    · rw [after]
      exact stepped.reachable
    · intro other listed
      rw [ledger, List.mem_append, List.mem_singleton] at listed
      rw [after]
      rcases listed with before | rfl
      · exact stepped.advanced other before
      · exact ⟨_, getElem?_modify_self found _, Nat.le_refl 2⟩
    · rw [ledger]
      apply List.nodup_append'.mpr
      refine ⟨prepared.once, List.nodup_singleton _, ?_⟩
      rw [List.disjoint_singleton]
      intro listed
      obtain ⟨b', found', stage⟩ := prepared.advanced bid listed
      rw [found] at found'
      cases found'
      rw [isSealed] at stage
      exact absurd stage (by decide)

theorem rule (policy : BatchPolicy) (allowed : FrameMessage → Prop)
    (Given : State → Prop) : Rule policy allowed Given (Prepared policy) where
  start _ _ _ _ _ prepared _ := prepared.of_same rfl rfl
  connect _ _ _ prepared _ := prepared.of_same rfl rfl
  send _ _ _ _ _ prepared _ _ _ := prepared.of_same rfl rfl
  disconnect _ _ _ prepared :=
    prepared.of_same (congrArg _ State.coordinator_disconnect)
      State.prepared_disconnect
  close _ _ _ prepared :=
    prepared.of_same (congrArg _ State.coordinator_close) State.prepared_close
  closeDriver c ch _ prepared _ _ :=
    prepared.of_same (congrArg (·.fabric) (State.coordinator_close))
      (State.prepared_close)
  reply _ _ _ _ prepared _ := prepared.of_same rfl rfl
  serve _ request _ prepared _ := prepared.of_op request.1 rfl rfl
  thread c event _ prepared threads := by
    obtain same | ⟨worker, boot, cap, registered⟩ :=
      fabric_thread threads c.coordinator
    · exact prepared.of_same same rfl
    · exact prepared.of_op _ registered rfl
  stop _ _ prepared := prepared.of_same rfl rfl
  accept _ _ _ _ _ _ _ prepared _ _ _ _ := prepared.of_same rfl rfl
  take _ _ _ _ _ _ prepared _ _ _ := prepared.of_same rfl rfl
  skip _ _ _ _ _ _ _ prepared _ _ _ _ := prepared.of_same rfl rfl
  report c ch link frame rest k completion now _ prepared _ _ _ _ _ := by
    apply prepared.complete completion now
    · rw [State.coordinator_book]
      exact congrArg (·.fabric) (State.coordinator_acknowledge _)
    · rw [State.prepared_book]
      exact congrArg (·.prepared) (State.ledger_acknowledge _)
  unbooked c ch link frame rest k completion now _ prepared _ _ _ _ _ :=
    prepared.complete completion now
      (congrArg (·.fabric) (State.coordinator_acknowledge _))
      (congrArg (·.prepared) (State.ledger_acknowledge _))
  handled c ch frame completion now _ prepared _ _ :=
    prepared.complete completion now
      (congrArg (·.fabric) (State.coordinator_acknowledge _))
      (congrArg (·.prepared) (State.ledger_acknowledge _))
  move _ _ _ _ _ prepared _ _ _ := prepared.of_same rfl rfl
  prepare _ _ _ _ _ _ _ _ _ _ _ prepared _ accepted :=
    prepared.prepare accepted rfl rfl
  sendTo c ch work channel exec _ prepared _ :=
    prepared.of_same
      (congrArg (·.fabric) (State.coordinator_sendTo channel exec))
      (State.prepared_sendTo channel exec)
  carryOut c ch link p frame rest exec _ prepared _ _ _ _ :=
    prepared.of_same
      (congrArg (·.fabric) (coordinator_carryOut link p exec rest))
      (prepared_carryOut link p exec rest)
  ignore _ _ _ _ _ _ prepared _ _ _ := prepared.of_same rfl rfl

end Prepared

end BatchFabric.Cluster
