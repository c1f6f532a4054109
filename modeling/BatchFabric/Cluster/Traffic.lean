import BatchFabric.Cluster.Refinement
import BatchFabric.Cluster.Roles
import BatchFabric.Safety.Counters

namespace BatchFabric.Cluster

open OrderedMap Protocol

/-! What is known of every dispatch and every report on their way, as long as
only worker programs report. `Sent` and `Told` compare them with the fabric. -/

/-- A driver does not send reports. -/
def Unreporting (frame : FrameMessage) : Prop :=
  completionOf frame = none

instance : DecidablePred Unreporting := fun frame =>
  inferInstanceAs (Decidable (completionOf frame = none))

structure Courier (policy : BatchPolicy)
    (Sent : Impl → BatchExecution → Prop)
    (Told : Impl → BatchCompletion → Prop) : Prop where
  sentStep : ∀ s op exec, Reachable policy s → Sent s exec →
    Sent (BatchFabric.step policy s op) exec
  toldStep : ∀ s op comp, Reachable policy s → Told s comp →
    Told (BatchFabric.step policy s op) comp
  prepared : ∀ s bid worker boot now exec s', Reachable policy s →
    s.prepareDispatch bid worker boot now = (.ok exec, s') → Sent s' exec
  arrives : ∀ s exec read, Reachable policy s → s.WithinWords →
    Sent s exec → sendable (dispatchFrame exec) = true →
    executionOf (dispatchFrame exec) = some read → Sent s read
  reported : ∀ s exec p read, Reachable policy s → s.WithinWords →
    Sent s exec →
    completionOf (completeFrame (report p p.executor exec)) = some read →
    Told s read

section

variable (Sent : Impl → BatchExecution → Prop)
  (Told : Impl → BatchCompletion → Prop)

/-- What a thread holds was sent by the fabric. -/
def DriverPhase.Carries (s : Impl) : DriverPhase → Prop
  | .sending _ _ exec => Sent s exec
  | .handling frame => Unreporting frame
  | _ => True

/-- What is on its way was sent by the fabric, or by a worker program. -/
structure Link.Carries (s : Impl) (link : Link) : Prop where
  down : ∀ frame ∈ link.down, ∀ exec, executionOf frame = some exec →
    Sent s exec
  up : ∀ frame ∈ link.up, ∀ comp, completionOf frame = some comp →
    link.process.isSome = true ∧ Told s comp

structure Carried (c : State) : Prop where
  drivers : Everywhere c.drivers fun _ phase =>
    phase.Carries Sent c.coordinator.fabric
  links : Everywhere c.links fun _ link =>
    link.Carries Sent Told c.coordinator.fabric

/-- As long as all identifiers can be written down. -/
def Traffic (c : State) : Prop :=
  c.coordinator.fabric.WithinWords → Carried Sent Told c

end

variable {policy : BatchPolicy} {Sent : Impl → BatchExecution → Prop}
  {Told : Impl → BatchCompletion → Prop} {c c' : State} {ch : Nat}

namespace Link.Carries

variable {s : Impl} {link : Link}

theorem take (carries : link.Carries Sent Told s) {frame : FrameMessage}
    {rest : List FrameMessage} (next : link.up = frame :: rest) :
    Link.Carries Sent Told s { link with up := rest } where
  down := carries.down
  up frame member := carries.up frame (next ▸ List.mem_cons_of_mem _ member)

theorem append (carries : link.Carries Sent Told s) {frame : FrameMessage}
    (sent : ∀ exec, executionOf frame = some exec → Sent s exec) :
    Link.Carries Sent Told s { link with down := link.down ++ [frame] } where
  down other member := by
    rcases List.mem_append.mp member with before | new
    · exact carries.down other before
    · rw [List.mem_singleton.mp new]
      exact sent
  up := carries.up

end Link.Carries

namespace Carried

/-- Some link changes, and the fabric does not. -/
theorem link (carried : Carried Sent Told c) {after : Link} {ledger : Ledger}
    (carries : after.Carries Sent Told c.coordinator.fabric) :
    Carried Sent Told
      { c with links := c.links.insert ch after, ledger := ledger } where
  drivers := carried.drivers
  links := carried.links.insert carries

theorem setDriver (carried : Carried Sent Told c) {phase : DriverPhase}
    (carries : phase.Carries Sent c.coordinator.fabric) :
    Carried Sent Told (c.setDriver ch phase) where
  drivers := carried.drivers.insert carries
  links := carried.links

theorem of_same (carried : Carried Sent Told c)
    (fabric : c'.coordinator.fabric = c.coordinator.fabric)
    (drivers : c'.drivers = c.drivers) (links : c'.links = c.links) :
    Carried Sent Told c' := by
  constructor
  · rw [drivers, fabric]
    exact carried.drivers
  · rw [links, fabric]
    exact carried.links

/-- What the courier knows outlasts the operations of the fabric. -/
theorem of_op (carried : Carried Sent Told c)
    (courier : Courier policy Sent Told)
    (reachable : Reachable policy c.coordinator.fabric) (op : Op)
    (fabric : c'.coordinator.fabric =
      BatchFabric.step policy c.coordinator.fabric op)
    (drivers : c'.drivers = c.drivers) (links : c'.links = c.links) :
    Carried Sent Told c' := by
  constructor
  · rw [drivers, fabric]
    refine carried.drivers.imp fun ch phase _ carries => ?_
    cases phase with
    | sending _ _ exec => exact courier.sentStep _ op exec reachable carries
    | _ => exact carries
  · rw [links, fabric]
    refine carried.links.imp fun ch link _ carries => ?_
    constructor
    · intro frame member exec read
      exact courier.sentStep _ op exec reachable
        (carries.down frame member exec read)
    · intro frame member comp read
      obtain ⟨program, told⟩ := carries.up frame member comp read
      exact ⟨program, courier.toldStep _ op comp reachable told⟩

theorem reply (carried : Carried Sent Told c) {frame : FrameMessage}
    (sent : sendable frame = true → ∀ exec, executionOf frame = some exec →
      Sent c.coordinator.fabric exec) :
    Carried Sent Told (c.reply ch frame) where
  drivers := carried.drivers
  links := by
    apply carried.links.modify
    intro link _ carries
    split
    · next carried =>
        exact carries.append (sent ((Bool.and_eq_true _ _).mp carried).2)
    · exact carries

/-- A frame that dispatches nothing is sent. -/
theorem reply_idle (carried : Carried Sent Told c) {frame : FrameMessage}
    (idle : frame.type ≠ .dispatch) : Carried Sent Told (c.reply ch frame) := by
  apply carried.reply
  intro _ exec read
  unfold executionOf at read
  split at read
  · next dispatch => exact absurd dispatch idle
  · cases read

theorem acknowledge (carried : Carried Sent Told c)
    (answer : Except Error Unit) :
    Carried Sent Told (c.acknowledge ch answer) := by
  cases answer with
  | ok => exact carried.reply_idle nofun
  | error err => exact carried.reply_idle nofun

theorem close (carried : Carried Sent Told c) :
    Carried Sent Told (c.close ch) := by
  unfold State.close
  cases found : c.links[ch]? with
  | none => exact carried
  | some link => exact carried.link ⟨(carried.links ch link found).down, nofun⟩

theorem disconnect (carried : Carried Sent Told c) :
    Carried Sent Told (c.disconnect ch) := by
  unfold State.disconnect
  cases found : c.links[ch]? with
  | none => exact carried
  | some link => exact carried.link ⟨nofun, nofun⟩

theorem book (carried : Carried Sent Told c) (bid : BatchId)
    (answer : Except Error Unit) : Carried Sent Told (c.book bid answer) := by
  cases answer with
  | ok => exact carried.of_same rfl rfl rfl
  | error err => exact carried.of_same rfl rfl rfl

theorem popUp (carried : Carried Sent Told c) {link : Link}
    (found : c.links[ch]? = some link) {frame : FrameMessage}
    {rest : List FrameMessage} (next : link.up = frame :: rest) :
    Carried Sent Told (c.popUp ch link rest) :=
  carried.link ((carried.links ch link found).take next)

theorem complete (carried : Carried Sent Told c)
    (courier : Courier policy Sent Told)
    (reachable : Reachable policy c.coordinator.fabric)
    (comp : BatchCompletion) (now : TimePoint) :
    Carried Sent Told (c.complete policy ch comp now) := by
  apply acknowledge
  exact carried.of_op courier reachable (.complete comp now) rfl rfl rfl

end Carried

namespace Traffic

theorem fresh : Traffic Sent Told {} :=
  fun _ => ⟨everywhere_empty, everywhere_empty⟩

theorem of_same (traffic : Traffic Sent Told c)
    (fabric : c'.coordinator.fabric = c.coordinator.fabric)
    (carried : Carried Sent Told c → Carried Sent Told c') :
    Traffic Sent Told c' := by
  intro words
  rw [fabric] at words
  exact carried (traffic words)

theorem of_op (traffic : Traffic Sent Told c) (prepared : Prepared policy c)
    (op : Op) (fabric : c'.coordinator.fabric =
      BatchFabric.step policy c.coordinator.fabric op)
    (carried : c.coordinator.fabric.WithinWords → Carried Sent Told c →
      Carried Sent Told c') : Traffic Sent Told c' := by
  intro words
  rw [fabric] at words
  have before := words.before (Impl.Allocated.step prepared.reachable op)
  exact carried before (traffic before)

theorem rule (courier : Courier policy Sent Told) :
    Rule policy Unreporting (fun c => Prepared policy c ∧ Roles c)
      (Traffic Sent Told) where
  start c ch worker boot _ traffic _ := by
    refine traffic.of_same rfl fun carried => carried.link ⟨nofun, ?_⟩
    intro frame member comp read
    rw [List.mem_singleton.mp member] at read
    cases read
  connect c ch _ traffic _ :=
    traffic.of_same rfl fun carried => carried.link ⟨nofun, nofun⟩
  send c ch link frame _ traffic found _ silent := by
    refine traffic.of_same rfl fun carried => carried.link ?_
    have carries := carried.links ch link found
    refine ⟨carries.down, ?_⟩
    intro other member comp read
    rcases List.mem_append.mp member with before | new
    · exact carries.up other before comp read
    · rw [List.mem_singleton.mp new, silent] at read
      cases read
  disconnect c ch _ traffic :=
    traffic.of_same (congrArg _ State.coordinator_disconnect)
      fun carried => carried.disconnect
  close c ch _ traffic :=
    traffic.of_same (congrArg _ State.coordinator_close)
      fun carried => carried.close
  closeDriver c ch _ traffic _ _ :=
    traffic.of_same (congrArg (·.fabric) State.coordinator_close)
      fun carried => carried.close.setDriver trivial
  reply c ch frame _ traffic idle :=
    traffic.of_same rfl fun carried => carried.reply_idle idle
  serve c request held traffic _ :=
    traffic.of_op held.1 request.1 rfl fun _ carried =>
      carried.of_op courier held.1.reachable request.1 rfl rfl rfl
  thread c event held traffic threads := by
    obtain same | ⟨worker, boot, cap, registered⟩ :=
      fabric_thread threads c.coordinator
    · exact traffic.of_same same fun carried => carried.of_same same rfl rfl
    · exact traffic.of_op held.1 _ registered fun _ carried =>
        carried.of_op courier held.1.reachable _ registered rfl rfl
  stop c _ traffic :=
    traffic.of_same rfl fun carried => carried.of_same rfl rfl rfl
  accept c ch link frame rest k _ traffic _ found next _ :=
    traffic.of_same rfl fun carried =>
      (carried.popUp found next).of_same rfl rfl rfl
  take c ch link frame rest held traffic found next reader := by
    refine traffic.of_same rfl fun carried => ?_
    have noProgram := held.2.noProgram_of_take found next reader
    apply (carried.popUp found next).setDriver
    show completionOf frame = none
    cases read : completionOf frame with
    | none => rfl
    | some comp =>
        have listed : frame ∈ link.up := next ▸ List.mem_cons_self
        exact absurd ((carried.links ch link found).up frame listed comp
          read).1 noProgram
  skip c ch link frame rest k _ traffic _ found next _ :=
    traffic.of_same rfl fun carried => carried.popUp found next
  report c ch link frame rest k completion now held traffic _ found next _
      _ := by
    apply traffic.of_op held.1 (.complete completion now)
    · rw [State.coordinator_book]
      exact congrArg (·.fabric) (State.coordinator_acknowledge _)
    · intro _ carried
      exact ((carried.popUp found next).complete courier held.1.reachable
        completion now).book _ _
  unbooked c ch link frame rest k completion now held traffic _ found next _
      _ :=
    traffic.of_op held.1 (.complete completion now)
      (congrArg (·.fabric) (State.coordinator_acknowledge _))
      fun _ carried => (carried.popUp found next).complete courier
        held.1.reachable completion now
  handled c ch frame completion now held traffic _ _ :=
    traffic.of_op held.1 (.complete completion now)
      (congrArg (·.fabric) (State.coordinator_acknowledge _))
      fun _ carried => carried.complete courier held.1.reachable completion now
  move c ch phase phase' _ traffic _ _ idle := by
    refine traffic.of_same rfl fun carried => carried.setDriver ?_
    cases phase' with
    | sending | handling => cases idle
    | _ => exact trivial
  prepare c ch work bid worker slot boot now exec fabric held traffic _
      prepared := by
    have after : fabric = BatchFabric.step policy c.coordinator.fabric
        (.prepareDispatch bid worker boot now) := by
      show fabric =
        (c.coordinator.fabric.prepareDispatch bid worker boot now).2
      rw [prepared]
    apply traffic.of_op held.1 _ after
    intro _ carried
    apply Carried.setDriver
    · exact carried.of_op courier held.1.reachable _ after rfl rfl
    · exact courier.prepared _ bid worker boot now exec fabric
        held.1.reachable prepared
  sendTo c ch work channel exec held traffic found := by
    intro words
    have same := State.coordinator_sendTo (c := c) channel exec
    have words : c.coordinator.fabric.WithinWords := by
      rw [← same]
      exact words
    have carried := traffic words
    have sent : Sent c.coordinator.fabric exec := carried.drivers ch _ found
    have replied : ∀ other, Carried Sent Told
        (c.reply other (dispatchFrame exec)) := by
      intro other
      apply carried.reply
      intro small read
      exact courier.arrives _ exec read held.1.reachable words sent small
    refine Carried.setDriver ?_ trivial
    unfold State.sendTo
    dsimp only
    split
    · exact carried.of_same rfl rfl rfl
    · next other =>
        split
        · exact replied other
        · exact (replied other).of_same rfl rfl rfl
  carryOut c ch link p frame rest exec held traffic found process next
      read := by
    intro words
    rw [coordinator_carryOut] at words
    have carried := traffic words
    have carries := carried.links ch link found
    have sent := carries.down frame (next ▸ List.mem_cons_self) exec read
    have link' : Link.Carries Sent Told c.coordinator.fabric { link with
        down := rest
        up := if link.carries (completeFrame (report p p.executor exec)) then
            link.up ++ [completeFrame (report p p.executor exec)]
          else link.up } := by
      constructor
      · intro other member
        exact carries.down other (next ▸ List.mem_cons_of_mem _ member)
      · intro other member comp told
        dsimp only at member ⊢
        split at member
        · rcases List.mem_append.mp member with before | new
          · exact carries.up other before comp told
          · rw [List.mem_singleton.mp new] at told
            exact ⟨by rw [process]; rfl, courier.reported _ exec p comp
              held.1.reachable words sent told⟩
        · exact carries.up other member comp told
    unfold Cluster.carryOut
    dsimp only
    split
    · exact carried.link link'
    · exact carried.link link'
  ignore c ch link p running _ traffic found process _ := by
    refine traffic.of_same rfl fun carried => carried.link ?_
    have carries := carried.links ch link found
    constructor
    · intro frame member
      exact carries.down frame (List.mem_of_mem_tail member)
    · intro frame member comp read
      exact ⟨rfl, (carries.up frame member comp read).2⟩

end Traffic

end BatchFabric.Cluster
