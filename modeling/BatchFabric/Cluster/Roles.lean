import BatchFabric.Cluster.Rule

namespace BatchFabric.Cluster

open OrderedMap Protocol

/-! A worker program is heard by the thread of a worker connection, and by no
thread of a driver. -/

variable {policy : BatchPolicy} {c c' : State} {ch : Nat}

/-- The registration of a worker program is what can be read first. -/
def Link.Awaiting (link : Link) : Prop :=
  (link.up = [] ∧ link.connected = false) ∨
    ∃ frame rest, link.up = frame :: rest ∧ frame.type = .registerWorker

/-- The part of the thread at a worker program's connection. -/
structure Link.Served (c : State) (ch : Nat) (link : Link) : Prop where
  driver : ∀ phase, c.drivers[ch]? = some phase → phase = .closed
  first : Unread c ch → link.Awaiting

/-- A report waits behind the registration. -/
theorem Link.Awaiting.report {link : Link} (awaiting : link.Awaiting)
    (frame : FrameMessage) {down : List FrameMessage} : Link.Awaiting { link with
      down := down
      up := if link.carries frame then link.up ++ [frame] else link.up } := by
  obtain ⟨empty, lost⟩ | ⟨first, rest, up, registers⟩ := awaiting
  · left
    unfold Link.carries
    rw [lost]
    exact ⟨empty, rfl⟩
  · right
    dsimp only
    rw [up]
    split
    · exact ⟨first, rest ++ [frame], rfl, registers⟩
    · exact ⟨first, rest, rfl, registers⟩

structure Roles (c : State) : Prop where
  served : Everywhere c.links fun ch link =>
    link.process.isSome = true → link.Served c ch
  known : ∀ ch : Nat, c.links[ch]? = none → c.drivers[ch]? = none

/-- The programs are where they were, and their connections no worse. -/
structure Calm (c c' : State) : Prop where
  drivers : c'.drivers = c.drivers
  unread : ∀ ch, Unread c' ch → Unread c ch
  links : Everywhere c'.links fun ch link' =>
    link'.process.isSome = true → ∃ link, c.links[ch]? = some link ∧
      link.process.isSome = true ∧
        (Unread c' ch → link.Awaiting → link'.Awaiting)
  known : ∀ ch : Nat, c'.links[ch]? = none → c.links[ch]? = none

namespace Calm

theorem refl (c : State) : Calm c c where
  drivers := rfl
  unread _ same := same
  links _ link found program := ⟨link, found, program, fun _ same => same⟩
  known _ absent := absent

/-- Only the coordinator's tables and the ledger change. -/
theorem of_same (links : c'.links = c.links) (drivers : c'.drivers = c.drivers)
    (grows : ∀ ch : Nat, c'.coordinator.connections[ch]? = none →
      c.coordinator.connections[ch]? = none) : Calm c c' where
  drivers := drivers
  unread ch unread :=
    ⟨grows ch unread.connection, drivers ▸ unread.driver⟩
  links _ link found program :=
    ⟨link, links ▸ found, program, fun _ same => same⟩
  known _ absent := links ▸ absent

/-- A link changes. -/
theorem insert {before : Link} (found : c.links[ch]? = some before)
    (after : Link)
    (program : after.process.isSome = true → before.process.isSome = true)
    (awaits : Unread c ch → before.Awaiting → after.process.isSome = true →
      after.Awaiting) (ledger : Ledger) :
    Calm c { c with links := c.links.insert ch after, ledger := ledger } where
  drivers := rfl
  unread _ unread := ⟨unread.connection, unread.driver⟩
  links := by
    intro other link' found' isProgram
    dsimp only at found'
    rw [getElem?_insert] at found'
    split at found'
    · next here =>
        subst here
        cases found'
        refine ⟨before, found, program isProgram, ?_⟩
        intro unread awaiting
        exact awaits ⟨unread.connection, unread.driver⟩ awaiting isProgram
    · exact ⟨link', found', isProgram, fun _ same => same⟩
  known := by
    intro other absent
    dsimp only at absent
    rw [getElem?_insert] at absent
    split at absent
    · cases absent
    · exact absent

theorem reply (c : State) (ch : Nat) (frame : FrameMessage) :
    Calm c (c.reply ch frame) where
  drivers := rfl
  unread _ unread := ⟨unread.connection, unread.driver⟩
  links := by
    intro other link' found program
    obtain ⟨link, before, ⟨_, rfl⟩ | ⟨_, rfl⟩⟩ :=
      getElem?_modify_cases found
    · refine ⟨link, before, ?_, ?_⟩
      · split at program <;> exact program
      · intro _ awaiting
        split <;> exact awaiting
    · exact ⟨link', before, program, fun _ same => same⟩
  known := by
    intro other absent
    unfold State.reply at absent
    dsimp only at absent
    rw [getElem?_modify] at absent
    split at absent
    · next here =>
        subst here
        exact Option.map_eq_none_iff.mp absent
    · exact absent

theorem close (c : State) (ch : Nat) : Calm c (c.close ch) := by
  unfold State.close
  cases found : c.links[ch]? with
  | none => exact refl c
  | some link =>
      refine insert found _ ?_ ?_ _
      · exact fun program => program
      · exact fun _ _ _ => .inl ⟨rfl, rfl⟩

theorem disconnect (c : State) (ch : Nat) : Calm c (c.disconnect ch) := by
  unfold State.disconnect
  cases found : c.links[ch]? with
  | none => exact refl c
  | some link =>
      refine insert found _ ?_ ?_ _
      · exact fun program => program
      · exact fun _ _ _ => .inl ⟨rfl, rfl⟩

end Calm

theorem connections_thread {event : Coordinator.Event}
    (threads : isThread event = true) {s : Coordinator.State} {ch : Nat}
    (absent : (Coordinator.step policy s event).connections[ch]? = none) :
    s.connections[ch]? = none := by
  have kept : ∀ (other : Nat) phase,
      (s.setPhase other phase).connections[ch]? = none →
        s.connections[ch]? = none := by
    intro other phase absent
    unfold Coordinator.State.setPhase at absent
    dsimp only at absent
    rw [getElem?_modify] at absent
    split at absent
    · exact Option.map_eq_none_iff.mp absent
    · exact absent
  cases event with
  | accept | serve => cases threads
  | leave other =>
      dsimp only [Coordinator.step] at absent
      split at absent
      · exact absent
      · split at absent
        · exact absent
        · exact kept other .closed absent
  | record other | register other | fail other | erase other
  | shutdown other =>
      dsimp only [Coordinator.step] at absent
      split at absent
      · exact absent
      · exact kept other _ absent

namespace Roles

theorem fresh : Roles {} :=
  ⟨everywhere_empty, fun _ _ => rfl⟩

theorem calm (roles : Roles c) (calm : Calm c c') : Roles c' := by
  constructor
  · intro ch link' found program
    obtain ⟨link, before, isProgram, awaits⟩ :=
      calm.links ch link' found program
    have served := roles.served ch link before isProgram
    constructor
    · rw [calm.drivers]
      exact served.driver
    · intro unread
      exact awaits unread (served.first (calm.unread ch unread))
  · intro ch absent
    rw [calm.drivers]
    exact roles.known ch (calm.known ch absent)

/-- A thread that is not the one of a worker program moves on, or ends. -/
theorem setDriver (roles : Roles c) {phase : DriverPhase}
    (known : c.links[ch]? ≠ none)
    (allowed : phase = .closed ∨ ∀ link, c.links[ch]? = some link →
      link.process.isSome = true → False) :
    Roles (c.setDriver ch phase) := by
  constructor
  · intro other link found program
    have served := roles.served other link found program
    constructor
    · intro current at_other
      unfold State.setDriver at at_other
      dsimp only at at_other
      rw [getElem?_insert] at at_other
      split at at_other
      · next here =>
          subst here
          cases at_other
          rcases allowed with closed | noProgram
          · exact closed
          · exact (noProgram link found program).elim
      · exact served.driver current at_other
    · intro unread
      have none := unread.driver
      unfold State.setDriver at none
      dsimp only at none
      rw [getElem?_insert] at none
      split at none
      · cases none
      · exact served.first ⟨unread.connection, none⟩
  · intro other absent
    unfold State.setDriver
    dsimp only
    rw [getElem?_insert]
    split
    · next here =>
        subst here
        exact absurd absent known
    · exact roles.known other absent

/-- A thread that runs is not the one of a worker program. -/
theorem noProgram (roles : Roles c) {phase : DriverPhase}
    (found : c.drivers[ch]? = some phase) (runs : phase ≠ .closed) {link : Link}
    (at_ch : c.links[ch]? = some link)
    (program : link.process.isSome = true) : False :=
  runs ((roles.served ch link at_ch program).driver phase found)

theorem link_ne_none (roles : Roles c) {phase : DriverPhase}
    (found : c.drivers[ch]? = some phase) : c.links[ch]? ≠ none := by
  intro absent
  rw [roles.known ch absent] at found
  cases found

theorem connected (roles : Roles c) (absent : c.links[ch]? = none)
    {link : Link} (awaiting : link.process.isSome = true → link.Awaiting) :
    Roles { c with links := c.links.insert ch link } := by
  constructor
  · intro other link' found program
    dsimp only at found
    rw [getElem?_insert] at found
    split at found
    · next here =>
        subst here
        cases found
        constructor
        · intro phase at_ch
          exact absurd absent (roles.link_ne_none at_ch)
        · exact fun _ => awaiting program
    · have served := roles.served other link' found program
      exact ⟨served.driver, fun unread =>
        served.first ⟨unread.connection, unread.driver⟩⟩
  · intro other absent'
    dsimp only at absent'
    rw [getElem?_insert] at absent'
    split at absent'
    · cases absent'
    · exact roles.known other absent'

/-- The first frame of a worker program is for no driver's thread. -/
theorem noProgram_of_take (roles : Roles c) {link : Link}
    (found : c.links[ch]? = some link) {frame : FrameMessage}
    {rest : List FrameMessage} (next : link.up = frame :: rest)
    (reader : c.drivers[ch]? = some .receiving ∨
      Unread c ch ∧ frame.type ≠ .registerWorker) :
    ¬ link.process.isSome = true := by
  intro program
  rcases reader with receiving | ⟨unread, other⟩
  · exact roles.noProgram receiving nofun found program
  · obtain ⟨empty, _⟩ | ⟨frame', rest', first, registers⟩ :=
      (roles.served ch link found program).first unread
    · rw [next] at empty
      cases empty
    · rw [next] at first
      cases first
      exact other registers

theorem reply (roles : Roles c) (ch : Nat) (frame : FrameMessage) :
    Roles (c.reply ch frame) :=
  roles.calm (Calm.reply c ch frame)

theorem complete (roles : Roles c) (policy : BatchPolicy) (ch : Nat)
    (completion : BatchCompletion) (now : TimePoint) :
    Roles (c.complete policy ch completion now) := by
  have served : Roles (c.serve policy ⟨.complete completion now, rfl⟩) :=
    roles.calm (Calm.of_same rfl rfl fun _ absent => absent)
  unfold State.complete State.acknowledge
  dsimp only
  split
  · exact served.reply ch _
  · exact served.reply ch _

/-- The next frame is read at a connection that is not unread. -/
theorem popUp (roles : Roles c) {link : Link} (found : c.links[ch]? = some link)
    (rest : List FrameMessage)
    (read : Unread c ch → ¬ link.process.isSome = true) :
    Roles (c.popUp ch link rest) := by
  apply roles.calm (Calm.insert found _ _ _ c.ledger)
  · exact fun program => program
  · intro unread _ program
    exact absurd program (read unread)

theorem sendTo (roles : Roles c) (channel : Option Nat)
    (exec : BatchExecution) : Roles (c.sendTo channel exec) := by
  unfold State.sendTo
  dsimp only
  split
  · exact roles.calm (Calm.of_same rfl rfl fun _ absent => absent)
  · next ch =>
      have sent := roles.reply ch (dispatchFrame exec)
      split
      · exact sent
      · exact sent.calm (Calm.of_same rfl rfl fun _ absent => absent)

theorem rule (policy : BatchPolicy) (allowed : FrameMessage → Prop)
    (Given : State → Prop) : Rule policy allowed Given Roles where
  start _ _ _ _ _ roles absent :=
    roles.connected absent fun _ => .inr ⟨_, _, rfl, rfl⟩
  connect _ _ _ roles absent := roles.connected absent nofun
  send c ch link frame _ roles found none _ := by
    apply roles.calm (Calm.insert found _ _ _ c.ledger)
    · exact fun program => program
    · intro _ _ program
      dsimp only at program
      rw [none] at program
      cases program
  disconnect c ch _ roles := roles.calm (Calm.disconnect c ch)
  close c ch _ roles := roles.calm (Calm.close c ch)
  closeDriver c ch _ roles present _ := by
    have closed := roles.calm (Calm.close c ch)
    apply closed.setDriver _ (.inl rfl)
    intro absent
    have absent := (Calm.close c ch).known ch absent
    rcases present with link | driver
    · rw [absent] at link
      cases link
    · rw [roles.known ch absent] at driver
      cases driver
  reply c ch frame _ roles _ := roles.calm (Calm.reply c ch frame)
  serve _ _ _ roles _ :=
    roles.calm (Calm.of_same rfl rfl fun _ absent => absent)
  thread _ _ _ roles threads :=
    roles.calm (Calm.of_same rfl rfl fun _ => connections_thread threads)
  stop _ _ roles := roles.calm (Calm.of_same rfl rfl fun _ absent => absent)
  accept c ch link frame rest k _ roles unread found _ _ := by
    have accepted : Roles { c with
        coordinator := { c.coordinator with
          connections := c.coordinator.connections.insert ch k } } := by
      refine roles.calm (Calm.of_same rfl rfl fun other absent => ?_)
      dsimp only at absent
      rw [getElem?_insert] at absent
      split at absent
      · cases absent
      · exact absent
    apply accepted.popUp found rest
    intro unread
    have absent := unread.connection
    dsimp only at absent
    rw [getElem?_insert, if_pos rfl] at absent
    cases absent
  take c ch link frame rest _ roles found next reader := by
    have noProgram := roles.noProgram_of_take found next reader
    have popped := roles.popUp found rest fun _ => noProgram
    have at_ch : (c.popUp ch link rest).links[ch]? =
        some { link with up := rest } := by
      unfold State.popUp
      rw [getElem?_insert, if_pos rfl]
    apply popped.setDriver
    · rw [at_ch]
      exact nofun
    · refine .inr fun link' found' program => ?_
      rw [at_ch] at found'
      cases found'
      exact noProgram program
  skip c ch link frame rest k _ roles connection found _ _ := by
    apply roles.popUp found rest
    intro unread
    rw [unread.connection] at connection
    cases connection
  report c ch link frame rest k completion now _ roles connection found next
      read program := by
    have popped : Roles (c.popUp ch link rest) := by
      apply roles.popUp found rest
      intro unread
      rw [unread.connection] at connection
      cases connection
    have completed := popped.complete policy ch completion now
    unfold State.book
    split
    · exact completed.calm (Calm.of_same rfl rfl fun _ absent => absent)
    · exact completed.calm (Calm.of_same rfl rfl fun _ absent => absent)
  unbooked c ch link frame rest k completion now _ roles connection found next
      read none := by
    apply Roles.complete
    apply roles.popUp found rest
    intro _
    rw [none]
    exact Bool.false_ne_true
  handled c ch frame completion now _ roles _ _ :=
    roles.complete policy ch completion now
  move c ch phase phase' _ roles found free _ := by
    apply roles.setDriver (roles.link_ne_none found)
    refine .inr fun link => roles.noProgram found ?_
    rintro rfl
    cases free
  prepare c ch work bid worker slot boot now exec fabric _ roles found _ := by
    have prepared : Roles { c with
        coordinator := { c.coordinator with fabric := fabric }
        ledger.prepared := c.ledger.prepared ++ [exec.batch] } :=
      roles.calm (Calm.of_same rfl rfl fun _ absent => absent)
    exact prepared.setDriver (roles.link_ne_none found)
      (.inr fun _ => roles.noProgram found nofun)
  sendTo c ch work channel exec _ roles found := by
    have sent := roles.sendTo channel exec
    rw [← State.drivers_sendTo channel exec] at found
    exact sent.setDriver (sent.link_ne_none found)
      (.inr fun _ => sent.noProgram found nofun)
  carryOut c ch link p frame rest exec _ roles found process _ _ := by
    have carried := fun ledger => roles.calm (Calm.insert found { link with
        down := rest
        up :=
          if link.carries (completeFrame (report p p.executor exec)) then
            link.up ++ [completeFrame (report p p.executor exec)]
          else link.up }
      (fun program => program) (fun _ awaiting _ => awaiting.report _) ledger)
    unfold carryOut
    dsimp only
    split
    · exact carried _
    · exact carried _
  ignore c ch link p running _ roles found process idle := by
    apply roles.calm (Calm.insert found _ _ _ c.ledger)
    · intro _
      rw [process]
      rfl
    · exact fun _ awaiting _ => awaiting

end Roles

end BatchFabric.Cluster
