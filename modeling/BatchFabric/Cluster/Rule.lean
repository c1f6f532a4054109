import BatchFabric.Cluster.System
import BatchFabric.Scheduler.Effects

namespace BatchFabric.Cluster

open OrderedMap Protocol

/-! The rule of steps: what each of the single updates keeps, every step of the
cluster keeps. The updates are stated with what the step knows when it makes
them. `allowed` restricts what drivers send. -/

/-- What a driver's thread serves, besides reports. -/
def isPlain : Op → Bool
  | .submit _ _ | .cancel _ _ | .tick _ _ | .rollEpoch => true
  | _ => false

/-- The steps of the threads that keep the table of workers. -/
def isThread : Coordinator.Event → Bool
  | .accept _ _ _ _ | .serve _ => false
  | _ => true

namespace DriverPhase

/-- The thread holds neither a dispatch nor a frame. -/
def isIdle : DriverPhase → Bool
  | .sending _ _ _ | .handling _ => false
  | _ => true

def isSending : DriverPhase → Bool
  | .sending _ _ _ => true
  | _ => false

/-- The thread has not ended, and holds no dispatch. -/
def isFree : DriverPhase → Bool
  | .sending _ _ _ | .closed => false
  | _ => true

end DriverPhase

/-- The coordinator reads the next frame of a connection. -/
def State.popUp (c : State) (ch : Nat) (link : Link)
    (rest : List FrameMessage) : State :=
  { c with links := c.links.insert ch { link with up := rest } }

/-- A connection whose thread has read nothing yet. -/
structure Unread (c : State) (ch : Nat) : Prop where
  connection : c.coordinator.connections[ch]? = none
  driver : c.drivers[ch]? = none

structure Rule (policy : BatchPolicy) (allowed : FrameMessage → Prop)
    (Given Kept : State → Prop) : Prop where
  start : ∀ c ch worker boot, Given c → Kept c → c.links[ch]? = none →
    Kept { c with
      links := c.links.insert ch {
        process := some { worker := worker, boot := boot }
        up := [{
          type := .registerWorker
          body := encodeRegister (registration worker boot) }] } }
  connect : ∀ c ch, Given c → Kept c → c.links[ch]? = none →
    Kept { c with links := c.links.insert ch {} }
  send : ∀ c ch link frame, Given c → Kept c →
    c.links[ch]? = some link → link.process = none → allowed frame →
    Kept { c with
      links := c.links.insert ch { link with
        sent := link.sent ++ [frame]
        up := link.up ++ [frame] } }
  disconnect : ∀ c ch, Given c → Kept c → Kept (c.disconnect ch)
  close : ∀ c ch, Given c → Kept c → Kept (c.close ch)
  closeDriver : ∀ c ch, Given c → Kept c →
    ((c.links[ch]?).isSome ∨ (c.drivers[ch]?).isSome) →
    (∀ phase, c.drivers[ch]? = some phase → phase.isSending = false) →
    Kept (c.closeDriver ch)
  reply : ∀ c ch frame, Given c → Kept c → frame.type ≠ .dispatch →
    Kept (c.reply ch frame)
  serve : ∀ c request, Given c → Kept c → isPlain request.1 = true →
    Kept (c.serve policy request)
  thread : ∀ c event, Given c → Kept c → isThread event = true →
    Kept { c with
      coordinator := Coordinator.step policy c.coordinator event }
  stop : ∀ c, Given c → Kept c →
    Kept { c with coordinator := { c.coordinator with running := false } }
  accept : ∀ c ch link frame rest k, Given c → Kept c → Unread c ch →
    c.links[ch]? = some link → link.up = frame :: rest →
    completionOf frame = none →
    Kept { c.popUp ch link rest with
      coordinator := { c.coordinator with
        connections := c.coordinator.connections.insert ch k } }
  take : ∀ c ch link frame rest, Given c → Kept c →
    c.links[ch]? = some link → link.up = frame :: rest →
    (c.drivers[ch]? = some .receiving ∨
      Unread c ch ∧ frame.type ≠ .registerWorker) →
    Kept ((c.popUp ch link rest).setDriver ch (.handling frame))
  skip : ∀ c ch link frame rest k, Given c → Kept c →
    c.coordinator.connections[ch]? = some k → c.links[ch]? = some link →
    link.up = frame :: rest → completionOf frame = none →
    Kept (c.popUp ch link rest)
  report : ∀ c ch link frame rest k completion now, Given c → Kept c →
    c.coordinator.connections[ch]? = some k → c.links[ch]? = some link →
    link.up = frame :: rest → completionOf frame = some completion →
    link.process.isSome = true →
    Kept (((c.popUp ch link rest).complete policy ch completion now).book
      completion.batch (c.coordinator.fabric.doComplete policy completion
        now).1)
  unbooked : ∀ c ch link frame rest k completion now, Given c → Kept c →
    c.coordinator.connections[ch]? = some k → c.links[ch]? = some link →
    link.up = frame :: rest → completionOf frame = some completion →
    link.process = none →
    Kept ((c.popUp ch link rest).complete policy ch completion now)
  handled : ∀ c ch frame completion now, Given c → Kept c →
    c.drivers[ch]? = some (.handling frame) →
    completionOf frame = some completion →
    Kept (c.complete policy ch completion now)
  move : ∀ c ch phase phase', Given c → Kept c →
    c.drivers[ch]? = some phase → phase.isFree = true →
    phase'.isIdle = true →
    Kept (c.setDriver ch phase')
  prepare : ∀ (c : State) ch work bid worker slot boot now exec fabric,
    Given c → Kept c →
    c.drivers[ch]? = some (DriverPhase.preparing work bid worker slot) →
    c.coordinator.fabric.prepareDispatch bid worker boot now =
      (.ok exec, fabric) →
    Kept ({ c with
      coordinator := { c.coordinator with fabric := fabric }
      ledger.prepared := c.ledger.prepared ++ [exec.batch] : State }.setDriver
        ch (.sending work (slot.map Coordinator.WorkerSlot.ch) exec))
  sendTo : ∀ c ch work channel exec, Given c → Kept c →
    c.drivers[ch]? = some (.sending work channel exec) →
    Kept ((c.sendTo channel exec).setDriver ch (.choosing work))
  carryOut : ∀ c ch link p frame rest exec, Given c → Kept c →
    c.links[ch]? = some link → link.process = some p →
    link.down = frame :: rest → executionOf frame = some exec →
    Kept (carryOut c ch link p exec rest)
  ignore : ∀ c ch link p running, Given c → Kept c →
    c.links[ch]? = some link → link.process = some p →
    dispatches (link.down.take 1) = [] →
    Kept { c with
      links := c.links.insert ch { link with
        down := link.down.tail
        process := some { p with running := running } } }

/-! What the updates leave alone. -/

namespace State

variable {policy : BatchPolicy} {c : State} {ch : Nat}

theorem drivers_acknowledge (answer : Except Error Unit) :
    (c.acknowledge ch answer).drivers = c.drivers := by
  cases answer <;> rfl

theorem coordinator_acknowledge (answer : Except Error Unit) :
    (c.acknowledge ch answer).coordinator = c.coordinator := by
  cases answer <;> rfl

theorem coordinator_close : (c.close ch).coordinator = c.coordinator := by
  unfold close
  split <;> rfl

theorem drivers_sendTo (channel : Option Nat) (exec : BatchExecution) :
    (c.sendTo channel exec).drivers = c.drivers := by
  unfold sendTo
  dsimp only
  split
  · rfl
  · split <;> rfl

/-- The frame read last is nothing to miss. -/
theorem close_popUp {link : Link} (found : c.links[ch]? = some link)
    {frame : FrameMessage} {rest : List FrameMessage}
    (next : link.up = frame :: rest) (idle : completionOf frame = none) :
    (c.popUp ch link rest).close ch = c.close ch := by
  have same : Link.reports { link with up := rest } = link.reports := by
    unfold Link.reports reports
    rw [next, List.filterMap_cons, idle]
  have popped : (c.links.insert ch { link with up := rest })[ch]? =
      some { link with up := rest } := by
    rw [getElem?_insert, if_pos rfl]
  have links : (c.links.insert ch { link with up := rest }).insert ch
      { link with up := [], connected := false } =
        c.links.insert ch { link with up := [], connected := false } := by
    apply Std.ExtTreeMap.ext_getElem?
    intro other
    rw [getElem?_insert, getElem?_insert, getElem?_insert]
    split <;> rfl
  unfold close popUp
  simp only [popped, found, links, same]

end State

/-- What drivers send is allowed. -/
def Sends (allowed : FrameMessage → Prop) : Event → Prop
  | .send _ frame => allowed frame
  | _ => True

instance (allowed : FrameMessage → Prop) [DecidablePred allowed] :
    DecidablePred (Sends allowed)
  | .send _ frame => inferInstanceAs (Decidable (allowed frame))
  | .start _ _ _ | .connect _ | .disconnect _ | .work _ | .accept _
  | .record _ | .register _ | .receive _ _ | .fail _ | .erase _ | .leave _
  | .drive _ _ _ => inferInstanceAs (Decidable True)

namespace Rule

variable {policy : BatchPolicy} {allowed : FrameMessage → Prop}
  {Kept : State → Prop}
  (rule : Rule policy allowed (fun _ => True) Kept) {c : State}
  {ch : Nat}

include rule

theorem sendAck (kept : Kept c) (ch : Nat) (ok : Bool) (code : ErrorCode)
    (message : ByteString) : Kept (c.sendAck ch ok code message) :=
  rule.reply c ch _ trivial kept nofun

theorem acknowledge (kept : Kept c) (ch : Nat) (answer : Except Error Unit) :
    Kept (c.acknowledge ch answer) := by
  cases answer with
  | ok => exact rule.sendAck kept ch true .ok _
  | error err => exact rule.sendAck kept ch false err.code err.message

theorem handleFrame (kept : Kept c) {frame : FrameMessage}
    (handling : c.drivers[ch]? = some (.handling frame)) (now : TimePoint) :
    Kept (c.handleFrame policy ch now frame) := by
  have move : ∀ (c' : State) phase, Kept c' → c'.drivers = c.drivers →
      phase.isIdle = true → Kept (c'.setDriver ch phase) := by
    intro c' phase kept' same idle
    rw [← same] at handling
    exact rule.move c' ch _ phase trivial kept' handling rfl idle
  unfold State.handleFrame
  split
  · split
    · exact move _ _ (rule.sendAck kept ch _ _ _) rfl rfl
    · next metadata _ =>
        have served := rule.serve c ⟨.submit metadata now, rfl⟩ trivial kept
          rfl
        exact move _ _ served rfl rfl
  · exact move _ _ (rule.reply c ch _ trivial kept nofun) rfl rfl
  · split
    · exact move _ _ (rule.sendAck kept ch _ _ _) rfl rfl
    · have served := rule.serve c ⟨.rollEpoch, rfl⟩ trivial kept rfl
      exact move _ _ (rule.sendAck served ch _ _ _) rfl rfl
  · next complete =>
      split
      · exact move _ _ (rule.sendAck kept ch _ _ _) rfl rfl
      · next completion decoded =>
          have read : completionOf frame = some completion := by
            unfold completionOf
            rw [complete]
            exact decoded
          exact move _ _
            (rule.handled c ch frame completion now trivial kept handling read)
            (State.drivers_acknowledge _) rfl
  · split
    · exact move _ _ (rule.sendAck kept ch _ _ _) rfl rfl
    · next m _ =>
        have served := rule.serve c ⟨.cancel m.request now, rfl⟩ trivial kept
          rfl
        exact move _ _ (rule.acknowledge served ch _)
          (State.drivers_acknowledge _) rfl
  · apply rule.stop _ trivial
    apply rule.closeDriver _ ch trivial (rule.sendAck kept ch _ _ _)
    · rw [show (c.sendAck ch _ _ _).drivers = c.drivers from rfl, handling]
      exact .inr rfl
    · intro phase found
      rw [show (c.sendAck ch _ _ _).drivers = c.drivers from rfl, handling]
        at found
      cases found
      rfl
  · exact move c _ kept rfl rfl

/-- The connection of a driver closes when nothing can come any more. -/
theorem takeFrame (kept : Kept c)
    (receiving : c.drivers[ch]? = some .receiving) :
    Kept (c.takeFrame ch) := by
  unfold State.takeFrame
  cases found : c.links[ch]? with
  | none => exact kept
  | some link =>
      dsimp only
      cases next : link.up with
      | nil =>
          dsimp only
          split
          · exact kept
          · apply rule.closeDriver c ch trivial kept
            · rw [found]
              exact .inl rfl
            · intro phase at_phase
              rw [receiving] at at_phase
              cases at_phase
              rfl
      | cons frame rest =>
          exact rule.take c ch link frame rest trivial kept found next
            (.inl receiving)

theorem chooseWorker (kept : Kept c) {work : Dispatching}
    (choosing : c.drivers[ch]? = some (.choosing work)) :
    Kept (c.chooseWorker ch work) := by
  have respond : Kept (c.respond ch work) :=
    rule.move (c.reply ch _) ch (.choosing work) .receiving
      trivial (rule.reply c ch _ trivial kept nofun) choosing rfl rfl
  unfold State.chooseWorker
  split
  · exact respond
  · exact respond
  · split
    · exact respond
    · exact rule.move c ch _ _ trivial kept choosing rfl rfl

/-- A refusal leaves the fabric as it is. -/
theorem prepareFor (kept : Kept c) {work : Dispatching} {bid : BatchId}
    {worker : WorkerId} {slot : Option Coordinator.WorkerSlot}
    (preparing : c.drivers[ch]? = some (.preparing work bid worker slot))
    (now : TimePoint) :
    Kept (c.prepareFor policy ch now work bid worker slot) := by
  unfold State.prepareFor State.serve
  dsimp only [Coordinator.step, BatchFabric.step]
  obtain ⟨err, refused⟩ | ⟨b, _, _, _, dispatched⟩ :=
    Impl.prepareDispatch_cases c.coordinator.fabric bid worker
      ((slot.map Coordinator.WorkerSlot.boot).getD .null) now
  · rw [refused]
    exact rule.move c ch _ _ trivial kept preparing rfl rfl
  · have prepared := rule.prepare c ch work bid worker slot _ now _ _ trivial
      kept preparing dispatched
    rw [dispatched]
    exact prepared

theorem drive (kept : Kept c) (ch : Nat) (order : List CompatibilityKey)
    (now : TimePoint) : Kept (drive policy c ch order now) := by
  unfold Cluster.drive
  split
  · exact kept
  · exact kept
  · next receiving => exact rule.takeFrame kept receiving
  · next frame handling =>
      split
      · exact rule.handleFrame kept handling now
      · apply rule.closeDriver c ch trivial kept
        · rw [handling]
          exact .inr rfl
        · intro phase at_phase
          rw [handling] at at_phase
          cases at_phase
          rfl
  · next outcome submitted =>
      have ticked := rule.serve c ⟨.tick order now, rfl⟩ trivial kept rfl
      exact rule.move _ ch (.submitted outcome) _ trivial ticked submitted rfl
        rfl
  · next work choosing => exact rule.chooseWorker kept choosing
  · next work bid worker locating =>
      exact rule.move c ch _ _ trivial kept locating rfl rfl
  · next work bid worker slot preparing =>
      exact rule.prepareFor kept preparing now
  · next work channel exec sending =>
      exact rule.sendTo c ch work channel exec trivial kept sending

theorem acceptFrame (kept : Kept c) (ch : Nat) :
    Kept (Cluster.accept c ch) := by
  unfold Cluster.accept
  cases connection : c.coordinator.connections[ch]? with
  | some k => exact kept
  | none =>
      cases driver : c.drivers[ch]? with
      | some phase => exact kept
      | none =>
          cases found : c.links[ch]? with
          | none => exact kept
          | some link =>
              have unread : Unread c ch := ⟨connection, driver⟩
              have closed : Kept (c.closeDriver ch) := by
                apply rule.closeDriver c ch trivial kept
                · rw [found]
                  exact .inl rfl
                · intro phase at_phase
                  rw [driver] at at_phase
                  cases at_phase
              dsimp only
              cases next : link.up with
              | nil =>
                  dsimp only
                  split
                  · exact kept
                  · exact closed
              | cons frame rest =>
                  dsimp only
                  split
                  · next registers =>
                      have idle : completionOf frame = none := by
                        unfold completionOf
                        rw [registers]
                      split
                      · have same := State.close_popUp found next idle
                        unfold State.closeDriver
                        unfold State.popUp at same
                        rw [same]
                        exact closed
                      · exact rule.accept c ch link frame rest _ trivial kept
                          unread found next idle
                  · next other =>
                      exact rule.take c ch link frame rest trivial kept found
                        next (.inr ⟨unread, other⟩)

theorem receive (kept : Kept c) (ch : Nat) (now : TimePoint) :
    Kept (receive policy c ch now) := by
  unfold Cluster.receive
  cases stands : c.coordinator.standing ch .serving with
  | none => exact kept
  | some k =>
      have connection := (Coordinator.standing_iff.mp stands).1
      cases found : c.links[ch]? with
      | none => exact kept
      | some link =>
          dsimp only
          cases next : link.up with
          | nil => exact kept
          | cons frame rest =>
              have skipped := rule.skip c ch link frame rest k trivial kept
                connection found next
              dsimp only
              split
              · next complete =>
                  have read : completionOf frame =
                      decodeComplete frame.body := by
                    unfold completionOf
                    rw [complete]
                  split
                  · next undecoded =>
                      exact rule.sendAck (skipped (read.trans undecoded)) ch _
                        _ _
                  · next completion decoded =>
                      have read := read.trans decoded
                      split
                      · next program =>
                          exact rule.report c ch link frame rest k completion
                            now trivial kept connection found next read program
                      · next none =>
                          exact rule.unbooked c ch link frame rest k completion
                            now trivial kept connection found next read
                            (by simpa using none)
              · next shutdown =>
                  have idle : completionOf frame = none := by
                    unfold completionOf
                    rw [shutdown]
                  exact rule.thread _ (.shutdown ch) trivial
                    (rule.close _ ch trivial (skipped idle)) rfl
              · next incomplete _ =>
                  apply skipped
                  unfold completionOf
                  split
                  · next complete => exact absurd complete incomplete
                  · rfl

theorem work (kept : Kept c) (ch : Nat) : Kept (work c ch) := by
  unfold Cluster.work
  cases found : c.links[ch]? with
  | none => exact kept
  | some link =>
      dsimp only
      cases process : link.process with
      | none => exact kept
      | some p =>
          have ignores := fun running idle =>
            rule.ignore c ch link p running trivial kept found process idle
          dsimp only
          split
          · next runs =>
              cases next : link.down with
              | nil =>
                  rw [next] at ignores
                  dsimp only
                  split
                  · exact kept
                  · exact ignores false rfl
              | cons frame rest =>
                  rw [next] at ignores
                  have passes : executionOf frame = none → Kept { c with
                      links := c.links.insert ch { link with
                        process := some p
                        down := rest } } := by
                    intro idle
                    apply ignores p.running
                    unfold dispatches
                    rw [List.take_succ_cons, List.take_zero,
                      List.filterMap_cons, idle]
                    rfl
                  dsimp only
                  split
                  · next dispatch =>
                      have read : executionOf frame =
                          decodeDispatch frame.body := by
                        unfold executionOf
                        rw [dispatch]
                      split
                      · next undecoded =>
                          exact passes (read.trans undecoded)
                      · next exec decoded =>
                          exact rule.carryOut c ch link p frame rest exec
                            trivial kept found process next
                            (read.trans decoded)
                  · next shutdown =>
                      apply ignores false
                      unfold dispatches executionOf
                      rw [List.take_succ_cons, List.take_zero,
                        List.filterMap_cons, shutdown]
                      rfl
                  · next other _ =>
                      apply passes
                      unfold executionOf
                      split
                      · next dispatch => exact absurd dispatch other
                      · rfl
          · exact kept

theorem step (kept : Kept c) {event : Event} (sends : Sends allowed event) :
    Kept (step policy c event) := by
  cases event with
  | start ch worker boot =>
      dsimp only [Cluster.step]
      split
      · exact kept
      · next absent => exact rule.start c ch worker boot trivial kept absent
  | connect ch =>
      dsimp only [Cluster.step]
      split
      · exact kept
      · next absent => exact rule.connect c ch trivial kept absent
  | send ch frame =>
      dsimp only [Cluster.step]
      split
      · exact kept
      · next link found =>
          split
          · next open' =>
              have none := ((Bool.and_eq_true _ _).mp open').1
              exact rule.send c ch link frame trivial kept found
                (Option.isNone_iff_eq_none.mp none) sends
          · exact kept
  | disconnect ch => exact rule.disconnect c ch trivial kept
  | work ch => exact rule.work kept ch
  | accept ch => exact rule.acceptFrame kept ch
  | record ch => exact rule.thread c (.record ch) trivial kept rfl
  | register ch => exact rule.thread c (.register ch) trivial kept rfl
  | receive ch now => exact rule.receive kept ch now
  | fail ch =>
      dsimp only [Cluster.step]
      split
      · exact kept
      · split
        · exact rule.thread c (.fail ch) trivial kept rfl
        · exact kept
  | erase ch =>
      dsimp only [Cluster.step]
      split
      · exact kept
      · exact rule.thread _ (.erase ch) trivial
          (rule.close c ch trivial kept) rfl
  | leave ch =>
      dsimp only [Cluster.step]
      split
      · exact kept
      · split
        · exact kept
        · exact rule.thread _ (.leave ch) trivial
            (rule.close c ch trivial kept) rfl
  | drive ch order now => exact rule.drive kept ch order now

theorem run (initially : Kept {}) {events : List Event}
    (sends : ∀ event ∈ events, Sends allowed event) :
    Kept (run policy events) :=
  Transition.run_invariant Kept
    (fun _ event member kept => rule.step kept (sends event member)) initially

end Rule

/-- More may be given. -/
theorem Rule.given {policy : BatchPolicy} {allowed : FrameMessage → Prop}
    {Given Given' Kept : State → Prop}
    (rule : Rule policy allowed Given Kept) (gives : ∀ c, Given' c → Given c) :
    Rule policy allowed Given' Kept where
  start c ch worker boot given := rule.start c ch worker boot (gives c given)
  connect c ch given := rule.connect c ch (gives c given)
  send c ch link frame given := rule.send c ch link frame (gives c given)
  disconnect c ch given := rule.disconnect c ch (gives c given)
  close c ch given := rule.close c ch (gives c given)
  closeDriver c ch given := rule.closeDriver c ch (gives c given)
  reply c ch frame given := rule.reply c ch frame (gives c given)
  serve c request given := rule.serve c request (gives c given)
  thread c event given := rule.thread c event (gives c given)
  stop c given := rule.stop c (gives c given)
  accept c ch link frame rest k given :=
    rule.accept c ch link frame rest k (gives c given)
  take c ch link frame rest given :=
    rule.take c ch link frame rest (gives c given)
  skip c ch link frame rest k given :=
    rule.skip c ch link frame rest k (gives c given)
  report c ch link frame rest k completion now given :=
    rule.report c ch link frame rest k completion now (gives c given)
  unbooked c ch link frame rest k completion now given :=
    rule.unbooked c ch link frame rest k completion now (gives c given)
  handled c ch frame completion now given :=
    rule.handled c ch frame completion now (gives c given)
  move c ch phase phase' given := rule.move c ch phase phase' (gives c given)
  prepare c ch work bid worker slot boot now exec fabric given :=
    rule.prepare c ch work bid worker slot boot now exec fabric
      (gives c given)
  sendTo c ch work channel exec given :=
    rule.sendTo c ch work channel exec (gives c given)
  carryOut c ch link p frame rest exec given :=
    rule.carryOut c ch link p frame rest exec (gives c given)
  ignore c ch link p running given :=
    rule.ignore c ch link p running (gives c given)

/-- An invariant kept where another holds, beside the other. -/
theorem Rule.both {policy : BatchPolicy} {allowed : FrameMessage → Prop}
    {Given Kept : State → Prop}
    (base : Rule policy allowed (fun _ => True) Given)
    (rule : Rule policy allowed Given Kept) :
    Rule policy allowed (fun _ => True) (fun c => Given c ∧ Kept c) where
  start c ch worker boot _ held absent :=
    ⟨base.start c ch worker boot trivial held.1 absent,
      rule.start c ch worker boot held.1 held.2 absent⟩
  connect c ch _ held absent :=
    ⟨base.connect c ch trivial held.1 absent,
      rule.connect c ch held.1 held.2 absent⟩
  send c ch link frame _ held found none allows :=
    ⟨base.send c ch link frame trivial held.1 found none allows,
      rule.send c ch link frame held.1 held.2 found none allows⟩
  disconnect c ch _ held :=
    ⟨base.disconnect c ch trivial held.1, rule.disconnect c ch held.1 held.2⟩
  close c ch _ held :=
    ⟨base.close c ch trivial held.1, rule.close c ch held.1 held.2⟩
  closeDriver c ch _ held present idle :=
    ⟨base.closeDriver c ch trivial held.1 present idle,
      rule.closeDriver c ch held.1 held.2 present idle⟩
  reply c ch frame _ held idle :=
    ⟨base.reply c ch frame trivial held.1 idle,
      rule.reply c ch frame held.1 held.2 idle⟩
  serve c request _ held plain :=
    ⟨base.serve c request trivial held.1 plain,
      rule.serve c request held.1 held.2 plain⟩
  thread c event _ held threads :=
    ⟨base.thread c event trivial held.1 threads,
      rule.thread c event held.1 held.2 threads⟩
  stop c _ held := ⟨base.stop c trivial held.1, rule.stop c held.1 held.2⟩
  accept c ch link frame rest k _ held unread found next idle :=
    ⟨base.accept c ch link frame rest k trivial held.1 unread found next idle,
      rule.accept c ch link frame rest k held.1 held.2 unread found next idle⟩
  take c ch link frame rest _ held found next reader :=
    ⟨base.take c ch link frame rest trivial held.1 found next reader,
      rule.take c ch link frame rest held.1 held.2 found next reader⟩
  skip c ch link frame rest k _ held connection found next idle :=
    ⟨base.skip c ch link frame rest k trivial held.1 connection found next
        idle,
      rule.skip c ch link frame rest k held.1 held.2 connection found next
        idle⟩
  report c ch link frame rest k completion now _ held connection found next
      read program :=
    ⟨base.report c ch link frame rest k completion now trivial held.1
        connection found next read program,
      rule.report c ch link frame rest k completion now held.1 held.2
        connection found next read program⟩
  unbooked c ch link frame rest k completion now _ held connection found next
      read none :=
    ⟨base.unbooked c ch link frame rest k completion now trivial held.1
        connection found next read none,
      rule.unbooked c ch link frame rest k completion now held.1 held.2
        connection found next read none⟩
  handled c ch frame completion now _ held handling read :=
    ⟨base.handled c ch frame completion now trivial held.1 handling read,
      rule.handled c ch frame completion now held.1 held.2 handling read⟩
  move c ch phase phase' _ held found idle idle' :=
    ⟨base.move c ch phase phase' trivial held.1 found idle idle',
      rule.move c ch phase phase' held.1 held.2 found idle idle'⟩
  prepare c ch work bid worker slot boot now exec fabric _ held found
      prepared :=
    ⟨base.prepare c ch work bid worker slot boot now exec fabric trivial held.1
        found prepared,
      rule.prepare c ch work bid worker slot boot now exec fabric held.1 held.2
        found prepared⟩
  sendTo c ch work channel exec _ held found :=
    ⟨base.sendTo c ch work channel exec trivial held.1 found,
      rule.sendTo c ch work channel exec held.1 held.2 found⟩
  carryOut c ch link p frame rest exec _ held found process next read :=
    ⟨base.carryOut c ch link p frame rest exec trivial held.1 found process
        next read,
      rule.carryOut c ch link p frame rest exec held.1 held.2 found process
        next read⟩
  ignore c ch link p running _ held found process idle :=
    ⟨base.ignore c ch link p running trivial held.1 found process idle,
      rule.ignore c ch link p running held.1 held.2 found process idle⟩

end BatchFabric.Cluster
