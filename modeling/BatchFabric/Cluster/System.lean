import BatchFabric.Coordinator.DriverSubmit
import BatchFabric.Executor
import BatchFabric.Library.Summing
import BatchFabric.Protocol.Messages
import BatchFabric.Transport

namespace BatchFabric

open OrderedMap

/-! The coordinator, its workers and its drivers, and what is on its way between
them. The threads of the coordinator, the worker processes and the network take
their steps in any order. -/

namespace Cluster

open Coordinator (WorkerSlot)
open Protocol

/-- A running worker program. -/
structure WorkerProcess where
  worker : WorkerId
  boot : WorkerBootId
  running : Bool := true

/-- A connection, with the frames on their way in each direction. A driver is
at the other end, unless a worker program is. Of a driver's frames all those
sent so far are noted, which no step reads. -/
structure Link where
  process : Option WorkerProcess := none
  sent : List FrameMessage := []
  up : List FrameMessage := []
  down : List FrameMessage := []
  connected : Bool := true

/-- A submission whose reported batches are being dispatched. -/
structure Dispatching where
  outcome : SubmitOutcome
  front : Option BatchId
  remaining : List BatchId

/-- Where the thread of a driver connection stands. -/
inductive DriverPhase
  | receiving
  | handling (frame : FrameMessage)
  | submitted (outcome : SubmitOutcome)
  | choosing (work : Dispatching)
  | locating (work : Dispatching) (bid : BatchId) (worker : WorkerId)
  | preparing (work : Dispatching) (bid : BatchId) (worker : WorkerId)
      (slot : Option WorkerSlot)
  | sending (work : Dispatching) (channel : Option Nat)
      (exec : BatchExecution)
  | closed

/-- What has happened so far, batch by batch. No step reads it. -/
structure Ledger where
  prepared : List BatchId := []
  undelivered : List BatchId := []
  executed : List BatchId := []
  unreported : List BatchId := []
  accepted : List BatchId := []
  refused : List BatchId := []

structure State where
  coordinator : Coordinator.State := {}
  links : Map Nat Link := ∅
  drivers : Map Nat DriverPhase := ∅
  ledger : Ledger := {}

/-! The worker program. -/

/-- What a worker registers as. -/
def registration (worker : WorkerId) (boot : WorkerBootId) : WireRegister where
  worker := worker
  boot := boot
  cap := { worker := worker, backend := .cpu, maxBatchSize := 64 }

/-- The report a worker makes of an execution. -/
def report (p : WorkerProcess) (executor : Executor) (exec : BatchExecution) :
    BatchCompletion where
  worker := p.worker
  boot := p.boot
  epoch := exec.epoch
  generation := exec.generation
  batch := exec.batch
  members :=
    match executor.execute exec with
    | .error err => exec.members.map fun m => {
        request := m.request
        attempt := m.attempt
        status := .retryableFailure
        errorCode := err.code
        errorMessage := err.message }
    | .ok members => members.map fun mr => {
        request := mr.request
        attempt := mr.attempt
        status := .success
        result := mr.output }

/-- The executor of a worker program. -/
def WorkerProcess.executor (p : WorkerProcess) : Executor :=
  cpuExecutor (registration p.worker p.boot).cap

/-! Frames on their way. -/

/-- A channel does not send a frame that is too large. -/
def sendable (frame : FrameMessage) : Bool :=
  1 + frame.body.length ≤ Channel.kMaxFrameSize.toNat

def dispatchFrame (exec : BatchExecution) : FrameMessage where
  type := .dispatch
  body := encodeDispatch exec

def completeFrame (completion : BatchCompletion) : FrameMessage where
  type := .complete
  body := encodeComplete completion

/-- The execution a worker program reads from a frame. -/
def executionOf (frame : FrameMessage) : Option BatchExecution :=
  match frame.type with
  | .dispatch => decodeDispatch frame.body
  | _ => none

/-- The report the coordinator reads from a frame. -/
def completionOf (frame : FrameMessage) : Option BatchCompletion :=
  match frame.type with
  | .complete => decodeComplete frame.body
  | _ => none

/-- The batches dispatched in a list of frames. -/
def dispatches (frames : List FrameMessage) : List BatchId :=
  (frames.filterMap executionOf).map BatchExecution.batch

/-- The batches reported in a list of frames. -/
def reports (frames : List FrameMessage) : List BatchId :=
  (frames.filterMap completionOf).map BatchCompletion.batch

/-- The reports on their way from a worker program. -/
def Link.reports (link : Link) : List BatchId :=
  if link.process.isSome then Cluster.reports link.up else []

/-- A frame sent at this end of a connection gets on its way. -/
def Link.carries (link : Link) (frame : FrameMessage) : Bool :=
  link.connected && sendable frame

namespace State

/-- A frame sent to the peer. Once the connection is gone it goes nowhere. -/
def reply (c : State) (ch : Nat) (frame : FrameMessage) : State :=
  { c with
    links := c.links.modify ch fun link =>
      if link.carries frame then { link with down := link.down ++ [frame] }
      else link }

/-- The coordinator deletes its channel. What the peer sent is not read any
more; what was sent to the peer may still arrive. -/
def close (c : State) (ch : Nat) : State :=
  match c.links[ch]? with
  | none => c
  | some link =>
      { c with
        links := c.links.insert ch { link with up := [], connected := false }
        ledger.unreported := c.ledger.unreported ++ link.reports }

/-- The connection is lost, and with it what was on its way. -/
def disconnect (c : State) (ch : Nat) : State :=
  match c.links[ch]? with
  | none => c
  | some link =>
      { c with
        links := c.links.insert ch
          { link with up := [], down := [], connected := false }
        ledger := { c.ledger with
          undelivered := c.ledger.undelivered ++ dispatches link.down
          unreported := c.ledger.unreported ++ link.reports } }

def setDriver (c : State) (ch : Nat) (phase : DriverPhase) : State :=
  { c with drivers := c.drivers.insert ch phase }

/-- The thread of a driver ends. -/
def closeDriver (c : State) (ch : Nat) : State :=
  (c.close ch).setDriver ch .closed

def sendAck (c : State) (ch : Nat) (ok : Bool) (code : ErrorCode)
    (message : ByteString) : State :=
  c.reply ch {
    type := .ack
    body := encodeAck { ok := ok, code := code, message := message } }

def acknowledge (c : State) (ch : Nat) (answer : Except Error Unit) : State :=
  match answer with
  | .ok _ => c.sendAck ch true .ok (.ofAscii "ok")
  | .error err => c.sendAck ch false err.code err.message

/-- A body that could not be decoded. -/
def refuseBody (c : State) (ch : Nat) (text : String) : State :=
  c.sendAck ch false .transportFailure (.ofAscii text)

/-- An operation of the fabric. -/
def serve (policy : BatchPolicy) (c : State) (request : Coordinator.Request) :
    State :=
  { c with
    coordinator := Coordinator.step policy c.coordinator (.serve request) }

/-- The coordinator takes up a report and acknowledges it. -/
def complete (policy : BatchPolicy) (c : State) (ch : Nat)
    (completion : BatchCompletion) (now : TimePoint) : State :=
  let answer := (c.coordinator.fabric.doComplete policy completion now).1
  (c.serve policy ⟨.complete completion now, rfl⟩).acknowledge ch answer

/-- The report of a worker program goes into the books. -/
def book (c : State) (bid : BatchId) (answer : Except Error Unit) : State :=
  match answer with
  | .ok _ => { c with ledger.accepted := c.ledger.accepted ++ [bid] }
  | .error _ => { c with ledger.refused := c.ledger.refused ++ [bid] }

end State

/-! The threads of the coordinator. -/

/-- The thread of a worker connection takes the next frame. -/
def receive (policy : BatchPolicy) (c : State) (ch : Nat) (now : TimePoint) :
    State :=
  match c.coordinator.standing ch .serving, c.links[ch]? with
  | some _, some link =>
      match link.up with
      | [] => c
      | frame :: rest =>
          let taken := { c with
            links := c.links.insert ch { link with up := rest } }
          match frame.type with
          | .complete =>
              match decodeComplete frame.body with
              | none => taken.refuseBody ch "bad complete"
              | some completion =>
                  let answer :=
                    (c.coordinator.fabric.doComplete policy completion now).1
                  let completed := taken.complete policy ch completion now
                  if link.process.isSome then
                    completed.book completion.batch answer
                  else completed
          | .shutdown =>
              let closed := taken.close ch
              { closed with
                coordinator :=
                  Coordinator.step policy closed.coordinator (.shutdown ch) }
          | _ => taken
  | _, _ => c

namespace State

/-- The answer to a submission, once its batches have been gone through. -/
def respond (c : State) (ch : Nat) (work : Dispatching) : State :=
  let resp : WireSubmitResp := {
    request := work.outcome.request
    attempt := work.outcome.attempt
    admission := work.outcome.admission
    reason := .ofAscii work.outcome.reason
    batch := work.front.getD .null }
  (c.reply ch { type := .submit, body := encodeSubmitResp resp }).setDriver ch
    .receiving

/-- What a driver's thread makes of a frame, up to the tick of a submission. -/
def handleFrame (policy : BatchPolicy) (c : State) (ch : Nat)
    (now : TimePoint) (frame : FrameMessage) : State :=
  match frame.type with
  | .submit =>
      match decodeSubmit frame.body with
      | none => (c.refuseBody ch "bad submit").setDriver ch .receiving
      | some metadata =>
          let outcome :=
            (c.coordinator.fabric.doSubmit policy metadata now).1
          (c.serve policy ⟨.submit metadata now, rfl⟩).setDriver ch
            (.submitted outcome)
  | .status =>
      (c.reply ch {
        type := .statusResponse
        body := encodeStatusResp c.coordinator.fabric.doStats }).setDriver ch
          .receiving
  | .rollEpoch =>
      let rolled :=
        match decodeRollEpoch frame.body with
        | none => c
        | some _ => c.serve policy ⟨.rollEpoch, rfl⟩
      (rolled.sendAck ch true .ok (.ofAscii "epoch rolled")).setDriver ch
        .receiving
  | .complete =>
      match decodeComplete frame.body with
      | none => (c.refuseBody ch "bad complete").setDriver ch .receiving
      | some completion =>
          (c.complete policy ch completion now).setDriver ch .receiving
  | .cancel =>
      match decodeCancel frame.body with
      | none => (c.refuseBody ch "bad cancel").setDriver ch .receiving
      | some m =>
          let answer := (c.coordinator.fabric.doCancel policy m.request now).1
          ((c.serve policy ⟨.cancel m.request now, rfl⟩).acknowledge ch
            answer).setDriver ch .receiving
  | .shutdown =>
      let closed :=
        (c.sendAck ch true .ok (.ofAscii "shutdown")).closeDriver ch
      { closed with
        coordinator := { closed.coordinator with running := false } }
  | _ => c.setDriver ch .receiving

/-- The thread of a driver reads the next frame, or ends when none can come. -/
def takeFrame (c : State) (ch : Nat) : State :=
  match c.links[ch]? with
  | none => c
  | some link =>
      match link.up with
      | [] => if link.connected then c else c.closeDriver ch
      | frame :: rest =>
          { c with links := c.links.insert ch { link with up := rest } }
            |>.setDriver ch (.handling frame)

theorem tick_isRegistration (order : List CompatibilityKey)
    (now : TimePoint) : (Op.tick order now).isRegistration = false :=
  rfl

/-- The tick of a submission. -/
def tickFor (policy : BatchPolicy) (c : State) (ch : Nat)
    (order : List CompatibilityKey) (now : TimePoint)
    (outcome : SubmitOutcome) : State :=
  let sealedBatches :=
    (c.coordinator.fabric.tick policy order now).1.sealedBatches
  (c.serve policy ⟨.tick order now, tick_isRegistration order now⟩).setDriver
    ch (.choosing {
      outcome := outcome
      front := sealedBatches.head?
      remaining := sealedBatches })

/-- The first worker of the table is chosen for the next batch. -/
def chooseWorker (c : State) (ch : Nat) (work : Dispatching) : State :=
  match work.remaining, c.coordinator.workers.toList.head? with
  | [], _ | _, none => c.respond ch work
  | bid :: rest, some entry =>
      if entry.1.value = 0 then c.respond ch work
      else c.setDriver ch
        (.locating { work with remaining := rest } bid entry.1)

/-- The dispatch of a batch is prepared. -/
def prepareFor (policy : BatchPolicy) (c : State) (ch : Nat) (now : TimePoint)
    (work : Dispatching) (bid : BatchId) (worker : WorkerId)
    (slot : Option WorkerSlot) : State :=
  let boot := (slot.map WorkerSlot.boot).getD .null
  let served := c.serve policy ⟨.prepareDispatch bid worker boot now, rfl⟩
  match (c.coordinator.fabric.prepareDispatch bid worker boot now).1 with
  | .error _ => served.setDriver ch (.choosing work)
  | .ok exec =>
      { served with ledger.prepared := c.ledger.prepared ++ [exec.batch] }
        |>.setDriver ch (.sending work (slot.map WorkerSlot.ch) exec)

/-- A frame that could not be sent, or cannot be read, is as good as lost. -/
def sendTo (c : State) (channel : Option Nat) (exec : BatchExecution) :
    State :=
  let frame := dispatchFrame exec
  match channel with
  | none =>
      { c with ledger.undelivered := c.ledger.undelivered ++ [exec.batch] }
  | some ch =>
      let carried := (c.links[ch]?).any fun link => link.carries frame
      if carried && (executionOf frame).isSome then c.reply ch frame
      else
        { c.reply ch frame with
          ledger.undelivered := c.ledger.undelivered ++ [exec.batch] }

end State

/-- The thread of a driver takes its next step. -/
def drive (policy : BatchPolicy) (c : State) (ch : Nat)
    (order : List CompatibilityKey) (now : TimePoint) : State :=
  match c.drivers[ch]? with
  | none | some .closed => c
  | some .receiving => c.takeFrame ch
  | some (.handling frame) =>
      if c.coordinator.running then c.handleFrame policy ch now frame
      else c.closeDriver ch
  | some (.submitted outcome) => c.tickFor policy ch order now outcome
  | some (.choosing work) => c.chooseWorker ch work
  | some (.locating work bid worker) =>
      c.setDriver ch
        (.preparing work bid worker c.coordinator.workers[worker]?)
  | some (.preparing work bid worker slot) =>
      c.prepareFor policy ch now work bid worker slot
  | some (.sending work channel exec) =>
      (c.sendTo channel exec).setDriver ch (.choosing work)

/-- The new thread of a connection reads the first frame: a registration makes
it the connection of a worker, anything else that of a driver. -/
def accept (c : State) (ch : Nat) : State :=
  match c.coordinator.connections[ch]?, c.drivers[ch]?, c.links[ch]? with
  | none, none, some link =>
      match link.up with
      | [] => if link.connected then c else c.closeDriver ch
      | frame :: rest =>
          let taken := { c with
            links := c.links.insert ch { link with up := rest } }
          match frame.type with
          | .registerWorker =>
              match decodeRegister frame.body with
              | none => taken.closeDriver ch
              | some reg =>
                  -- The thread may have started before a shutdown.
                  { taken with
                    coordinator := { c.coordinator with
                      connections := c.coordinator.connections.insert ch
                        { worker := reg.worker, boot := reg.boot,
                          cap := reg.cap } } }
          | _ => taken.setDriver ch (.handling frame)
  | _, _, _ => c

/-! The other parties. -/

/-- A worker program carries out a dispatch and reports it. -/
def carryOut (c : State) (ch : Nat) (link : Link) (p : WorkerProcess)
    (exec : BatchExecution) (rest : List FrameMessage) : State :=
  let frame := completeFrame (report p p.executor exec)
  let executed := { c with
    links := c.links.insert ch { link with
      down := rest
      up := if link.carries frame then link.up ++ [frame] else link.up }
    ledger.executed := c.ledger.executed ++ [exec.batch] }
  if link.carries frame && (completionOf frame).isSome then executed
  else
    { executed with
      ledger.unreported := executed.ledger.unreported ++ [exec.batch] }

/-- A worker program takes the next frame, and ends when none can come any
more. It ignores what is no dispatch. -/
def work (c : State) (ch : Nat) : State :=
  match c.links[ch]? with
  | none => c
  | some link =>
      match link.process with
      | none => c
      | some p =>
          let ended := { c with
            links := c.links.insert ch
              { link with
                down := link.down.tail
                process := some { p with running := false } } }
          if p.running then
            match link.down with
            | [] => if link.connected then c else ended
            | frame :: rest =>
                match frame.type with
                | .dispatch =>
                    match decodeDispatch frame.body with
                    | none =>
                        { c with
                          links :=
                            c.links.insert ch { link with down := rest } }
                    | some exec => carryOut c ch link p exec rest
                | .shutdown => ended
                | _ =>
                    { c with
                      links := c.links.insert ch { link with down := rest } }
          else c

inductive Event
  | start (ch : Nat) (worker : WorkerId) (boot : WorkerBootId)
  | connect (ch : Nat)
  | send (ch : Nat) (frame : FrameMessage)
  | disconnect (ch : Nat)
  | work (ch : Nat)
  | accept (ch : Nat)
  | record (ch : Nat)
  | register (ch : Nat)
  | receive (ch : Nat) (now : TimePoint)
  | fail (ch : Nat)
  | erase (ch : Nat)
  | leave (ch : Nat)
  | drive (ch : Nat) (order : List CompatibilityKey) (now : TimePoint)

/-- One step of one of the parties. -/
def step (policy : BatchPolicy) (c : State) : Event → State
  | .start ch worker boot =>
      match c.links[ch]? with
      | some _ => c
      | none =>
          { c with
            links := c.links.insert ch {
              process := some { worker := worker, boot := boot }
              up := [{
                type := .registerWorker
                body := encodeRegister (registration worker boot) }] } }
  | .connect ch =>
      match c.links[ch]? with
      | some _ => c
      | none => { c with links := c.links.insert ch {} }
  | .send ch frame =>
      match c.links[ch]? with
      | none => c
      | some link =>
          if link.process.isNone && link.carries frame then
            { c with
              links := c.links.insert ch { link with
                sent := link.sent ++ [frame]
                up := link.up ++ [frame] } }
          else c
  | .disconnect ch => c.disconnect ch
  | .work ch => work c ch
  | .accept ch => accept c ch
  | .record ch =>
      { c with
        coordinator := Coordinator.step policy c.coordinator (.record ch) }
  | .register ch =>
      { c with
        coordinator := Coordinator.step policy c.coordinator (.register ch) }
  | .receive ch now => receive policy c ch now
  | .fail ch =>
      match c.links[ch]? with
      | none => c
      | some link =>
          if link.up.isEmpty && !link.connected then
            { c with
              coordinator := Coordinator.step policy c.coordinator (.fail ch) }
          else c
  | .erase ch =>
      match c.coordinator.standing ch .failed with
      | none => c
      | some _ =>
          let closed := c.close ch
          { closed with
            coordinator :=
              Coordinator.step policy closed.coordinator (.erase ch) }
  | .leave ch =>
      match c.coordinator.standing ch .serving with
      | none => c
      | some _ =>
          if c.coordinator.running then c
          else
            let closed := c.close ch
            { closed with
              coordinator :=
                Coordinator.step policy closed.coordinator (.leave ch) }
  | .drive ch order now => drive policy c ch order now

/-- The cluster after its parties have taken these steps. -/
def run (policy : BatchPolicy) (events : List Event) : State :=
  Transition.run (step policy) {} events

end Cluster

end BatchFabric
