import BatchFabric.Cluster.Frames
import BatchFabric.Cluster.Refinement
import BatchFabric.Cluster.Roles
import BatchFabric.Safety.Counters

namespace BatchFabric.Cluster

open OrderedMap PersistenceStore Protocol

/-! Where every dispatch is. None is lost unaccounted for, and none is carried
out twice. -/

variable {policy : BatchPolicy} {bid : BatchId} {c : State} {ahead due : Int}

def pendingOf (bid : BatchId) : DriverPhase → Nat
  | .sending _ _ exec => [exec.batch].count bid
  | _ => 0

def queuedOf (bid : BatchId) (link : Link) : Nat :=
  (dispatches link.down).count bid

def reportedOf (bid : BatchId) (link : Link) : Nat :=
  link.reports.count bid

namespace State

/-- The dispatches of a batch that a thread is about to send. -/
def pending (c : State) (bid : BatchId) : Nat :=
  total (pendingOf bid) c.drivers

/-- Those on their way to a worker. -/
def queued (c : State) (bid : BatchId) : Nat :=
  total (queuedOf bid) c.links

/-- The reports of a batch on their way from a worker. -/
def reported (c : State) (bid : BatchId) : Nat :=
  total (reportedOf bid) c.links

end State

/-- The books on a batch: `ahead` dispatches are prepared and not taken up yet,
and `due` reports are read and not entered yet. -/
structure Books (c : State) (bid : BatchId) (ahead due : Int) : Prop where
  sent : (c.ledger.prepared.count bid : Int) =
    c.pending bid + c.queued bid + c.ledger.undelivered.count bid +
      c.ledger.executed.count bid + ahead
  answered : (c.ledger.executed.count bid : Int) =
    c.reported bid + c.ledger.unreported.count bid +
      c.ledger.accepted.count bid + c.ledger.refused.count bid + due

/-- The books are balanced. -/
abbrev Balanced (c : State) (bid : BatchId) : Prop :=
  Books c bid 0 0

/-! What frames carry. -/

theorem dispatches_append (first second : List FrameMessage) :
    dispatches (first ++ second) = dispatches first ++ dispatches second := by
  unfold dispatches
  rw [List.filterMap_append, List.map_append]

theorem reports_append (first second : List FrameMessage) :
    reports (first ++ second) = reports first ++ reports second := by
  unfold reports
  rw [List.filterMap_append, List.map_append]

theorem dispatches_cons (frame : FrameMessage) (rest : List FrameMessage) :
    dispatches (frame :: rest) = dispatches [frame] ++ dispatches rest :=
  dispatches_append [frame] rest

theorem reports_cons (frame : FrameMessage) (rest : List FrameMessage) :
    reports (frame :: rest) = reports [frame] ++ reports rest :=
  reports_append [frame] rest

theorem dispatches_singleton (frame : FrameMessage) :
    dispatches [frame] =
      ((executionOf frame).map BatchExecution.batch).toList := by
  unfold dispatches
  cases read : executionOf frame with
  | none => simp [read]
  | some exec => simp [read]

theorem reports_singleton (frame : FrameMessage) :
    reports [frame] =
      ((completionOf frame).map BatchCompletion.batch).toList := by
  unfold reports
  cases read : completionOf frame with
  | none => simp [read]
  | some completion => simp [read]

theorem dispatches_dispatchFrame {exec : BatchExecution}
    (fits : Fits exec.batch) : dispatches [dispatchFrame exec] =
      if (executionOf (dispatchFrame exec)).isSome then [exec.batch]
      else [] := by
  rw [dispatches_singleton]
  cases read : executionOf (dispatchFrame exec) with
  | none => rfl
  | some exec' =>
      rw [Option.map_some, batch_of_dispatchFrame fits read]
      rfl

theorem reports_completeFrame {comp : BatchCompletion}
    (fits : Fits comp.batch) : reports [completeFrame comp] =
      if (completionOf (completeFrame comp)).isSome then [comp.batch]
      else [] := by
  rw [reports_singleton]
  cases read : completionOf (completeFrame comp) with
  | none => rfl
  | some comp' =>
      rw [Option.map_some, batch_of_completeFrame fits read]
      rfl

namespace Books

theorem fresh (bid : BatchId) : Balanced {} bid where
  sent := by
    unfold State.pending State.queued
    rw [total_empty, total_empty]
    rfl
  answered := by
    unfold State.reported
    rw [total_empty]
    rfl

/-- The coordinator's own state is not in the books. -/
theorem coordinator (books : Books c bid ahead due)
    (coordinator : Coordinator.State) :
    Books { c with coordinator := coordinator } bid ahead due :=
  ⟨books.sent, books.answered⟩

theorem serve (books : Books c bid ahead due) (policy : BatchPolicy)
    (request : Coordinator.Request) :
    Books (c.serve policy request) bid ahead due :=
  books.coordinator _

/-- A frame is sent. -/
theorem reply (books : Books c bid ahead due) (ch : Nat)
    (frame : FrameMessage) :
    Books (c.reply ch frame) bid
      (ahead - if (c.links[ch]?).any fun link => link.carries frame then
        (dispatches [frame]).count bid else 0) due := by
  have reported : (c.reply ch frame).reported bid = c.reported bid := by
    apply total_modify_same
    intro link
    unfold reportedOf
    split
    · rfl
    · rfl
  have queued : (c.reply ch frame).queued bid = c.queued bid +
      if (c.links[ch]?).any fun link => link.carries frame then
        (dispatches [frame]).count bid else 0 := by
    have changed : (c.reply ch frame).queued bid +
        amountAt (queuedOf bid) c.links ch = c.queued bid + _ :=
      total_modify (queuedOf bid) c.links ch _
    unfold amountAt at changed
    cases found : c.links[ch]? with
    | none =>
        rw [found] at changed
        exact Nat.add_right_cancel changed
    | some link =>
        rw [found] at changed
        simp only [Option.map_some, Option.getD_some] at changed
        rw [Option.any_some]
        split at changed
        · next carried =>
            rw [if_pos carried]
            unfold queuedOf at changed
            dsimp only at changed
            rw [dispatches_append, List.count_append] at changed
            omega
        · next carried =>
            rw [if_neg carried]
            exact Nat.add_right_cancel changed
  have sent := books.sent
  have answered := books.answered
  constructor
  · rw [queued]
    show (c.ledger.prepared.count bid : Int) = c.pending bid + _ +
      c.ledger.undelivered.count bid + c.ledger.executed.count bid + _
    omega
  · rw [reported]
    exact answered

/-- A frame that dispatches nothing is sent. -/
theorem reply_idle (books : Books c bid ahead due) (ch : Nat)
    {frame : FrameMessage} (idle : frame.type ≠ .dispatch) :
    Books (c.reply ch frame) bid ahead due := by
  have nothing : dispatches [frame] = [] := by
    rw [dispatches_singleton]
    unfold executionOf
    split
    · next dispatch => exact absurd dispatch idle
    · rfl
  have sent := books.reply ch frame
  rw [nothing, List.count_nil, ite_self] at sent
  rwa [Int.natCast_zero, Int.sub_zero] at sent

theorem sendAck (books : Books c bid ahead due) (ch : Nat) (ok : Bool)
    (code : ErrorCode) (message : ByteString) :
    Books (c.sendAck ch ok code message) bid ahead due :=
  books.reply_idle ch nofun

theorem acknowledge (books : Books c bid ahead due) (ch : Nat)
    (answer : Except Error Unit) :
    Books (c.acknowledge ch answer) bid ahead due := by
  cases answer with
  | ok => exact books.sendAck ch true .ok _
  | error err => exact books.sendAck ch false err.code err.message

theorem complete (books : Books c bid ahead due) (policy : BatchPolicy)
    (ch : Nat) (completion : BatchCompletion) (now : TimePoint) :
    Books (c.complete policy ch completion now) bid ahead due :=
  (books.serve policy _).acknowledge ch _

/-- A thread moves on, and may take up a dispatch or let go of one. -/
theorem setDriver (books : Books c bid ahead due) (ch : Nat)
    (phase : DriverPhase) :
    Books (c.setDriver ch phase) bid
      (ahead + amountAt (pendingOf bid) c.drivers ch - pendingOf bid phase)
      due := by
  have inserted : (c.setDriver ch phase).pending bid +
      amountAt (pendingOf bid) c.drivers ch = c.pending bid +
        pendingOf bid phase :=
    total_insert (pendingOf bid) c.drivers ch phase
  have sent := books.sent
  constructor
  · show (c.ledger.prepared.count bid : Int) =
      (c.setDriver ch phase).pending bid + c.queued bid +
        c.ledger.undelivered.count bid + c.ledger.executed.count bid + _
    omega
  · exact books.answered

theorem move (books : Books c bid ahead due) {ch : Nat} {phase : DriverPhase}
    (same : amountAt (pendingOf bid) c.drivers ch = pendingOf bid phase) :
    Books (c.setDriver ch phase) bid ahead due := by
  have moved := books.setDriver ch phase
  rwa [same, Int.add_sub_cancel] at moved

/-- A link changes, and with it the books. -/
theorem link (books : Books c bid ahead due) {ch : Nat} {before after : Link}
    (found : c.links[ch]? = some before) {ledger : Ledger} {owed : Int}
    (prepared : ledger.prepared = c.ledger.prepared)
    (accepted : ledger.accepted = c.ledger.accepted)
    (refused : ledger.refused = c.ledger.refused)
    (down : queuedOf bid after + ledger.undelivered.count bid +
        ledger.executed.count bid =
      queuedOf bid before + c.ledger.undelivered.count bid +
        c.ledger.executed.count bid)
    (up : (reportedOf bid after + ledger.unreported.count bid +
        c.ledger.executed.count bid + owed : Int) =
      reportedOf bid before + c.ledger.unreported.count bid +
        ledger.executed.count bid + due) :
    Books { c with links := c.links.insert ch after, ledger := ledger } bid
      ahead owed := by
  have queued := total_insert (queuedOf bid) c.links ch after
  have reported := total_insert (reportedOf bid) c.links ch after
  unfold amountAt at queued reported
  rw [found] at queued reported
  simp only [Option.map_some, Option.getD_some] at queued reported
  have dispatched := books.sent
  have answered := books.answered
  unfold State.pending State.queued at dispatched
  unfold State.reported at answered
  constructor
  · unfold State.pending State.queued
    dsimp only
    rw [prepared]
    omega
  · unfold State.reported
    dsimp only
    rw [accepted, refused]
    omega

theorem reports_emptied (link : Link) (connected : Bool)
    (down : List FrameMessage) : Link.reports { link with
      up := [], down := down, connected := connected } = [] := by
  unfold Link.reports
  exact ite_self []

theorem close (books : Books c bid ahead due) (ch : Nat) :
    Books (c.close ch) bid ahead due := by
  unfold State.close
  cases found : c.links[ch]? with
  | none => exact books
  | some before =>
      have emptied := reports_emptied before false before.down
      dsimp only
      refine books.link found rfl rfl rfl rfl ?_
      unfold reportedOf
      dsimp only at emptied ⊢
      rw [emptied, List.count_append, List.count_nil]
      omega

theorem disconnect (books : Books c bid ahead due) (ch : Nat) :
    Books (c.disconnect ch) bid ahead due := by
  unfold State.disconnect
  cases found : c.links[ch]? with
  | none => exact books
  | some before =>
      have emptied := reports_emptied before false []
      have none : dispatches [] = [] := rfl
      dsimp only
      refine books.link found rfl rfl rfl ?_ ?_
      · unfold queuedOf
        dsimp only
        rw [List.count_append, none, List.count_nil]
        omega
      · unfold reportedOf
        dsimp only
        rw [emptied, List.count_append, List.count_nil]
        omega

theorem closeDriver (books : Books c bid ahead due) {ch : Nat}
    (idle : amountAt (pendingOf bid) c.drivers ch = 0) :
    Books (c.closeDriver ch) bid ahead due := by
  apply (books.close ch).move
  unfold State.close
  split
  · exact idle
  · exact idle

/-- A connection is made. -/
theorem connect (books : Books c bid ahead due) {ch : Nat}
    (absent : c.links[ch]? = none) {link : Link}
    (down : dispatches link.down = []) (up : reports link.up = []) :
    Books { c with links := c.links.insert ch link } bid ahead due := by
  have queued := total_insert (queuedOf bid) c.links ch link
  have reported := total_insert (reportedOf bid) c.links ch link
  have quiet : queuedOf bid link = 0 ∧ reportedOf bid link = 0 := by
    unfold queuedOf reportedOf Link.reports
    rw [down, up, ite_self]
    exact ⟨rfl, rfl⟩
  unfold amountAt at queued reported
  rw [absent] at queued reported
  rw [quiet.1] at queued
  rw [quiet.2] at reported
  have sent := books.sent
  have answered := books.answered
  unfold State.pending State.queued at sent
  unfold State.reported at answered
  constructor
  · unfold State.pending State.queued
    dsimp only
    rw [show total (queuedOf bid) (c.links.insert ch link) =
      total (queuedOf bid) c.links from queued]
    exact sent
  · unfold State.reported
    dsimp only
    rw [show total (reportedOf bid) (c.links.insert ch link) =
      total (reportedOf bid) c.links from reported]
    exact answered

/-- A frame is read that is none of the reports. -/
theorem popUp (books : Books c bid ahead due) {ch : Nat} {link : Link}
    (found : c.links[ch]? = some link) {frame : FrameMessage}
    {rest : List FrameMessage} (next : link.up = frame :: rest)
    (idle : link.process.isSome = true → completionOf frame = none) :
    Books (c.popUp ch link rest) bid ahead due := by
  refine books.link found rfl rfl rfl rfl ?_
  have same : reportedOf bid { link with up := rest } =
      reportedOf bid link := by
    unfold reportedOf Link.reports
    dsimp only
    split
    · next program =>
        rw [next, reports_cons, reports_singleton, idle program]
        rfl
    · rfl
  rw [same]

/-- A report is read, and not entered yet. -/
theorem popReport (books : Books c bid ahead 0) {ch : Nat} {link : Link}
    (found : c.links[ch]? = some link) {frame : FrameMessage}
    {rest : List FrameMessage} (next : link.up = frame :: rest)
    (program : link.process.isSome = true) {completion : BatchCompletion}
    (read : completionOf frame = some completion) :
    Books (c.popUp ch link rest) bid ahead
      (([completion.batch].count bid : Nat) : Int) := by
  refine books.link found rfl rfl rfl rfl ?_
  have one : reportedOf bid link =
      [completion.batch].count bid + reportedOf bid { link with
        up := rest } := by
    unfold reportedOf Link.reports
    dsimp only
    rw [if_pos program, if_pos program, next, reports_cons, reports_singleton,
      read, List.count_append]
    rfl
  omega

theorem book {other : BatchId}
    (books : Books c bid ahead (([other].count bid : Nat) : Int))
    (answer : Except Error Unit) :
    Books (c.book other answer) bid ahead 0 := by
  have answered := books.answered
  cases answer with
  | ok =>
      refine ⟨books.sent, ?_⟩
      show (c.ledger.executed.count bid : Int) = c.reported bid +
        c.ledger.unreported.count bid +
        ((c.ledger.accepted ++ [other]).count bid : Nat) +
        c.ledger.refused.count bid + 0
      rw [List.count_append]
      omega
  | error err =>
      refine ⟨books.sent, ?_⟩
      show (c.ledger.executed.count bid : Int) = c.reported bid +
        c.ledger.unreported.count bid + c.ledger.accepted.count bid +
        ((c.ledger.refused ++ [other]).count bid : Nat) + 0
      rw [List.count_append]
      omega

/-- The dispatch that a thread holds is sent, or is lost. -/
theorem sendTo (books : Balanced c bid) (channel : Option Nat)
    {exec : BatchExecution} (fits : Fits exec.batch) :
    Books (c.sendTo channel exec) bid (-([exec.batch].count bid : Nat)) 0 := by
  have lost : ∀ {c' : State} {ahead : Int}, Books c' bid ahead 0 →
      c'.ledger = c.ledger → Books { c' with
        ledger.undelivered := c.ledger.undelivered ++ [exec.batch] } bid
        (ahead - ([exec.batch].count bid : Nat)) 0 := by
    intro c' ahead books same
    have sent := books.sent
    refine ⟨?_, books.answered⟩
    show (c'.ledger.prepared.count bid : Int) = c'.pending bid +
      c'.queued bid + ((c.ledger.undelivered ++ [exec.batch]).count bid : Nat) +
      c'.ledger.executed.count bid + _
    rw [same] at sent ⊢
    rw [List.count_append]
    omega
  unfold State.sendTo
  dsimp only
  split
  · have unsent := lost books rfl
    rwa [Int.zero_sub] at unsent
  · next ch =>
      have sent := books.reply ch (dispatchFrame exec)
      rw [dispatches_dispatchFrame fits] at sent
      split
      · next arrives =>
          obtain ⟨carried, readable⟩ := (Bool.and_eq_true _ _).mp arrives
          rw [if_pos carried, if_pos readable, Int.zero_sub] at sent
          exact sent
      · next fails =>
          have nothing : (if (c.links[ch]?).any fun link => link.carries
              (dispatchFrame exec) then List.count bid
                (if (executionOf (dispatchFrame exec)).isSome then [exec.batch]
                  else []) else 0) = 0 := by
            split
            · next carried =>
                rw [if_neg]
                · rfl
                · exact fun readable => fails (by rw [carried, readable]; rfl)
            · rfl
          rw [nothing] at sent
          have unsent := lost sent rfl
          rwa [Int.natCast_zero, Int.sub_zero, Int.zero_sub] at unsent

/-- An execution is reported, or its report is lost. -/
theorem carryOut (books : Balanced c bid) {ch : Nat} {link : Link}
    (found : c.links[ch]? = some link) {p : WorkerProcess}
    (process : link.process = some p) {frame : FrameMessage}
    {rest : List FrameMessage} (next : link.down = frame :: rest)
    {exec : BatchExecution} (read : executionOf frame = some exec) :
    Balanced (carryOut c ch link p exec rest) bid := by
  have fits : Fits exec.batch := (wire_of_executionOf read).batch
  have queued : queuedOf bid link = [exec.batch].count bid +
      (dispatches rest).count bid := by
    unfold queuedOf
    rw [next, dispatches_cons, dispatches_singleton, read, List.count_append]
    rfl
  have named : (report p p.executor exec).batch = exec.batch := rfl
  have told : reports [completeFrame (report p p.executor exec)] = _ :=
    reports_completeFrame fits
  rw [named] at told
  have reported : ∀ sent up down connected, reportedOf bid {
      process := link.process, sent := sent, up := up, down := down,
      connected := connected } = (reports up).count bid := by
    intro sent up down connected
    unfold reportedOf Link.reports
    dsimp only
    rw [process]
    rfl
  have before : reportedOf bid link = (reports link.up).count bid :=
    reported link.sent link.up link.down link.connected
  unfold Cluster.carryOut
  dsimp only
  split
  · next arrives =>
      obtain ⟨carried, readable⟩ := (Bool.and_eq_true _ _).mp arrives
      rw [if_pos readable] at told
      refine books.link found rfl rfl rfl ?_ ?_
      · rw [queued]
        unfold queuedOf
        dsimp only
        rw [List.count_append]
        omega
      · rw [reported, before, if_pos carried, reports_append, told]
        dsimp only
        rw [List.count_append, List.count_append]
        omega
  · next fails =>
      refine books.link found rfl rfl rfl ?_ ?_
      · rw [queued]
        unfold queuedOf
        dsimp only
        rw [List.count_append]
        omega
      · rw [reported, before]
        have same : (reports (if link.carries (completeFrame
            (report p p.executor exec)) then link.up ++
              [completeFrame (report p p.executor exec)] else link.up)).count
                bid = (reports link.up).count bid := by
          split
          · next carried =>
              rw [if_neg fun readable => fails (by
                rw [carried, readable]; rfl)] at told
              rw [reports_append, told, List.append_nil]
          · rfl
        rw [same]
        dsimp only
        rw [List.count_append, List.count_append]
        omega

end Books

/-- The batches formed so far can be numbered. -/
def Words (c : State) : Prop :=
  c.coordinator.fabric.nextBatch ≤ 2 ^ 64

instance (c : State) : Decidable (Words c) :=
  inferInstanceAs (Decidable (_ ≤ _))

/-- What the books are kept by. -/
def Sound (policy : BatchPolicy) (c : State) : Prop :=
  Prepared policy c ∧ Roles c

theorem Sound.rule (policy : BatchPolicy) (allowed : FrameMessage → Prop) :
    Rule policy allowed (fun _ => True) (Sound policy) :=
  (Prepared.rule policy allowed _).both (Roles.rule policy allowed _)

/-- The books on every batch are balanced. -/
def Accounted (c : State) : Prop :=
  Words c → ∀ bid, Balanced c bid

namespace Accounted

theorem fresh : Accounted {} :=
  fun _ bid => Books.fresh bid

/-- The fabric does not change, and the books stay balanced. -/
theorem of_same {c' : State} (accounted : Accounted c)
    (fabric : c'.coordinator.fabric = c.coordinator.fabric)
    (balanced : ∀ bid, Balanced c bid → Balanced c' bid) : Accounted c' := by
  intro words bid
  unfold Words at words
  rw [fabric] at words
  exact balanced bid (accounted words bid)

/-- The fabric carries out an operation, and the books stay balanced. -/
theorem of_op {c' : State} (accounted : Accounted c)
    (prepared : Prepared policy c) (op : Op)
    (fabric : c'.coordinator.fabric =
      BatchFabric.step policy c.coordinator.fabric op)
    (balanced : ∀ bid, Balanced c bid → Balanced c' bid) : Accounted c' := by
  intro words bid
  unfold Words at words
  rw [fabric] at words
  have allocated := Impl.Allocated.step prepared.reachable op
  exact balanced bid (accounted (allocated.batch.trans words) bid)

theorem amount_of_found {bid : BatchId} {ch : Nat} {phase : DriverPhase}
    (found : c.drivers[ch]? = some phase) :
    amountAt (pendingOf bid) c.drivers ch = pendingOf bid phase := by
  unfold amountAt
  rw [found]
  rfl

theorem pendingOf_idle {phase : DriverPhase}
    (idle : phase.isSending = false) (bid : BatchId) :
    pendingOf bid phase = 0 := by
  cases phase with
  | sending => cases idle
  | _ => rfl

/-- What a thread is about to send has been prepared, so it has a number. -/
theorem fits_of_sending (balanced : ∀ bid, Balanced c bid)
    (prepared : Prepared policy c) (words : Words c) {ch : Nat}
    {work : Dispatching} {channel : Option Nat} {exec : BatchExecution}
    (sending : c.drivers[ch]? = some (.sending work channel exec)) :
    Fits exec.batch := by
  have pending := amountAt_le_total (pendingOf exec.batch) c.drivers ch
  rw [amount_of_found sending] at pending
  have one : pendingOf exec.batch (.sending work channel exec) = 1 :=
    List.count_singleton_self
  have sent := (balanced exec.batch).sent
  unfold State.pending at sent
  have listed : 0 < c.ledger.prepared.count exec.batch := by omega
  obtain ⟨b, found, _⟩ :=
    prepared.advanced exec.batch (List.count_pos_iff.mp listed)
  exact (prepared.wellFormed.batch exec.batch b found).2.2.trans_le words

theorem rule (policy : BatchPolicy) (allowed : FrameMessage → Prop) :
    Rule policy allowed (Sound policy) Accounted where
  start _ _ _ _ _ accounted absent :=
    accounted.of_same rfl fun _ books => books.connect absent rfl rfl
  connect _ _ _ accounted absent :=
    accounted.of_same rfl fun _ books => books.connect absent rfl rfl
  send c ch link frame _ accounted found none _ := by
    refine accounted.of_same rfl fun bid books => ?_
    refine books.link found rfl rfl rfl rfl ?_
    unfold reportedOf Link.reports
    rw [none]
    rfl
  disconnect c ch _ accounted :=
    accounted.of_same (congrArg _ State.coordinator_disconnect)
      fun _ books => books.disconnect ch
  close c ch _ accounted :=
    accounted.of_same (congrArg _ State.coordinator_close)
      fun _ books => books.close ch
  closeDriver c ch _ accounted _ idle := by
    refine accounted.of_same (congrArg (·.fabric) State.coordinator_close)
      fun bid books => ?_
    apply books.closeDriver
    unfold amountAt
    cases found : c.drivers[ch]? with
    | none => rfl
    | some phase => exact pendingOf_idle (idle phase found) bid
  reply c ch _ _ accounted idle :=
    accounted.of_same rfl fun _ books => books.reply_idle ch idle
  serve _ request sound accounted _ :=
    accounted.of_op sound.1 request.1 rfl fun _ books =>
      books.serve policy request
  thread c event sound accounted threads := by
    obtain same | ⟨worker, boot, cap, registered⟩ :=
      fabric_thread threads c.coordinator
    · exact accounted.of_same same fun _ books => books.coordinator _
    · exact accounted.of_op sound.1 _ registered fun _ books =>
        books.coordinator _
  stop _ _ accounted :=
    accounted.of_same rfl fun _ books => books.coordinator _
  accept c ch link frame rest k _ accounted _ found next idle :=
    accounted.of_same rfl fun _ books =>
      (books.popUp found next fun _ => idle).coordinator _
  take c ch link frame rest sound accounted found next reader := by
    refine accounted.of_same rfl fun bid books => ?_
    have noProgram := sound.2.noProgram_of_take found next reader
    have popped := books.popUp found next fun program =>
      absurd program noProgram
    apply popped.move
    unfold amountAt
    show ((c.drivers[ch]?).map _).getD 0 = 0
    rcases reader with receiving | ⟨unread, _⟩
    · rw [receiving]
      rfl
    · rw [unread.driver]
      rfl
  skip c ch link frame rest k _ accounted _ found next idle :=
    accounted.of_same rfl fun _ books => books.popUp found next fun _ => idle
  report c ch link frame rest k completion now sound accounted _ found next
      read program := by
    apply accounted.of_op sound.1 (.complete completion now)
    · rw [State.coordinator_book]
      exact congrArg (·.fabric) (State.coordinator_acknowledge _)
    · intro bid books
      exact ((books.popReport found next program read).complete policy ch
        completion now).book _
  unbooked c ch link frame rest k completion now sound accounted _ found next
      _ none := by
    apply accounted.of_op sound.1 (.complete completion now)
      (congrArg (·.fabric) (State.coordinator_acknowledge _))
    intro bid books
    have popped := books.popUp found next fun program => by
      rw [none] at program
      cases program
    exact popped.complete policy ch completion now
  handled c ch frame completion now sound accounted _ _ :=
    accounted.of_op sound.1 (.complete completion now)
      (congrArg (·.fabric) (State.coordinator_acknowledge _))
      fun _ books => books.complete policy ch completion now
  move c ch phase phase' _ accounted found free idle := by
    refine accounted.of_same rfl fun bid books => ?_
    apply books.move
    rw [amount_of_found found, pendingOf_idle, pendingOf_idle]
    · cases phase' <;> first | rfl | cases idle
    · cases phase <;> first | rfl | cases free
  prepare c ch work bid worker slot boot now exec fabric sound accounted found
      prepared := by
    apply accounted.of_op sound.1 (.prepareDispatch bid worker boot now)
    · show fabric =
        (c.coordinator.fabric.prepareDispatch bid worker boot now).2
      rw [prepared]
    · intro other books
      have ahead : Books { c with
          coordinator := { c.coordinator with fabric := fabric }
          ledger.prepared := c.ledger.prepared ++ [exec.batch] } other
            ([exec.batch].count other : Nat) 0 := by
        have sent := books.sent
        refine ⟨?_, books.answered⟩
        show ((c.ledger.prepared ++ [exec.batch]).count other : Int) =
          c.pending other + c.queued other +
            c.ledger.undelivered.count other +
            c.ledger.executed.count other + _
        rw [List.count_append]
        omega
      have moved := ahead.setDriver ch
        (.sending work (slot.map Coordinator.WorkerSlot.ch) exec)
      rw [amount_of_found found] at moved
      have nothing : pendingOf other (.preparing work bid worker slot) = 0 :=
        rfl
      have one : pendingOf other (.sending work
          (slot.map Coordinator.WorkerSlot.ch) exec) =
            [exec.batch].count other := rfl
      rw [nothing, one] at moved
      have even : (([exec.batch].count other : Nat) : Int) + (0 : Nat) -
          ([exec.batch].count other : Nat) = 0 := by omega
      rwa [even] at moved
  sendTo c ch work channel exec sound accounted found := by
    intro words bid
    have words : Words c := by
      unfold Words at words ⊢
      rw [← State.coordinator_sendTo channel exec]
      exact words
    have balanced := accounted words
    have fits := fits_of_sending balanced sound.1 words found
    have sent := (balanced bid).sendTo channel fits
    have moved := sent.setDriver ch (.choosing work)
    rw [State.drivers_sendTo, amount_of_found found] at moved
    have one : pendingOf bid (.sending work channel exec) =
        [exec.batch].count bid := rfl
    have nothing : pendingOf bid (.choosing work) = 0 := rfl
    rw [one, nothing] at moved
    have even : -(([exec.batch].count bid : Nat) : Int) +
        ([exec.batch].count bid : Nat) - (0 : Nat) = 0 := by omega
    rwa [even] at moved
  carryOut c ch link p frame rest exec _ accounted found process next read :=
    accounted.of_same
      (congrArg (·.fabric) (coordinator_carryOut link p exec rest))
      fun _ books => books.carryOut found process next read
  ignore c ch link p running _ accounted found process idle := by
    refine accounted.of_same rfl fun bid books => ?_
    refine books.link found rfl rfl rfl ?_ ?_
    · have same : queuedOf bid { link with
          down := link.down.tail
          process := some { p with running := running } } =
            queuedOf bid link := by
        have parts := dispatches_append (link.down.take 1) (link.down.drop 1)
        rw [List.take_append_drop, idle, List.nil_append, List.drop_one]
          at parts
        unfold queuedOf
        rw [parts]
      rw [same]
    · have same : reportedOf bid { link with
          down := link.down.tail
          process := some { p with running := running } } =
            reportedOf bid link := by
        unfold reportedOf Link.reports
        rw [process]
        rfl
      rw [same]

end Accounted

/-- In every run every batch is dispatched at most once, and each of its
dispatches and of the reports on them is in one place. -/
theorem accounted_of_run (policy : BatchPolicy) (events : List Event)
    (words : Words (run policy events)) (bid : BatchId) :
    let c := run policy events
    c.ledger.prepared.count bid ≤ 1 ∧
      c.ledger.prepared.count bid =
        c.pending bid + c.queued bid + c.ledger.undelivered.count bid +
          c.ledger.executed.count bid ∧
      c.ledger.executed.count bid =
        c.reported bid + c.ledger.unreported.count bid +
          c.ledger.accepted.count bid + c.ledger.refused.count bid := by
  have held : Sound policy (run policy events) ∧
      Accounted (run policy events) :=
    ((Sound.rule policy fun _ => True).both (Accounted.rule policy _)).run
      ⟨⟨Prepared.fresh policy, Roles.fresh⟩, Accounted.fresh⟩
      fun event _ => by cases event <;> trivial
  have books := held.2 words bid
  have sent := books.sent
  have answered := books.answered
  refine ⟨List.nodup_iff_count_le_one.mp held.1.1.once bid, ?_, ?_⟩
  · omega
  · omega

/-- A worker program registers, a driver submits a request, and the program
carries out its batch. -/
def delivery : List Event := [
  .start 1 { value := 5 } { value := 1 },
  .accept 1,
  .record 1,
  .register 1,
  .connect 2,
  .send 2 { type := .submit, body := encodeSubmit minimalRequest },
  .accept 2,
  .drive 2 [] 1,
  .drive 2 [] 2,
  .drive 2 [] 2,
  .drive 2 [] 2,
  .drive 2 [] 2,
  .drive 2 [] 2,
  .drive 2 [] 2,
  .work 1]

/-- And then the coordinator reads the report. -/
def roundTrip : List Event :=
  delivery ++ [.receive 1 5]

theorem accounted_of_roundTrip :
    (run Coordinator.coordPolicy roundTrip).ledger.accepted =
        [{ value := 1 }] ∧
      let c := run Coordinator.coordPolicy roundTrip
      c.ledger.prepared.count { value := 1 } ≤ 1 ∧
        c.ledger.prepared.count { value := 1 } =
          c.pending { value := 1 } + c.queued { value := 1 } +
            c.ledger.undelivered.count { value := 1 } +
            c.ledger.executed.count { value := 1 } ∧
        c.ledger.executed.count { value := 1 } =
          c.reported { value := 1 } +
            c.ledger.unreported.count { value := 1 } +
            c.ledger.accepted.count { value := 1 } +
            c.ledger.refused.count { value := 1 } :=
  ⟨by decide +kernel,
    accounted_of_run Coordinator.coordPolicy roundTrip (by decide +kernel)
      { value := 1 }⟩

end BatchFabric.Cluster
