import BatchFabric.Safety.WellFormed

namespace BatchFabric

open OrderedMap

/-! What recording outcomes leaves alone: batches keep everything but their
outcome tables, and nothing is registered, ordered or created. -/

/-- A batch record without its outcome tables. -/
def BatchRec.listing (b : BatchRec) : BatchRec :=
  { b with outcomes := ∅, memberResults := ∅ }

theorem BatchRec.listing_conclude (b : BatchRec) (mc : MemberCompletion) :
    (b.conclude mc).listing = b.listing := by
  unfold BatchRec.conclude
  dsimp only
  split <;> rfl

section Listing

variable {b b' : BatchRec}

theorem BatchRec.state_of_listing (same : b'.listing = b.listing) :
    b'.state = b.state := by
  have read : b'.listing.state = b.listing.state := by
    rw [same]
  exact read

theorem BatchRec.members_of_listing (same : b'.listing = b.listing) :
    b'.members = b.members := by
  have read : b'.listing.members = b.listing.members := by
    rw [same]
  exact read

end Listing

namespace Impl

structure OutcomeFrame (s s' : Impl) : Prop where
  listings : ∀ bid : BatchId,
    (s'.batches[bid]?).map BatchRec.listing =
      (s.batches[bid]?).map BatchRec.listing
  registry : s'.formingByKey = s.formingByKey
  order : s'.sealedOrder = s.sealedOrder
  workers : s'.workers = s.workers
  epoch : s'.epoch = s.epoch
  nextBatch : s'.nextBatch = s.nextBatch

namespace OutcomeFrame

theorem refl (s : Impl) : OutcomeFrame s s :=
  ⟨fun _ => rfl, rfl, rfl, rfl, rfl, rfl⟩

theorem trans {first second third : Impl}
    (earlier : OutcomeFrame first second)
    (later : OutcomeFrame second third) : OutcomeFrame first third where
  listings bid := (later.listings bid).trans (earlier.listings bid)
  registry := later.registry.trans earlier.registry
  order := later.order.trans earlier.order
  workers := later.workers.trans earlier.workers
  epoch := later.epoch.trans earlier.epoch
  nextBatch := later.nextBatch.trans earlier.nextBatch

/-- Whatever is read off a batch besides its outcomes is unchanged. -/
theorem view {s s' : Impl} (frame : OutcomeFrame s s') {μ : Type}
    (read : BatchRec → μ) (blind : ∀ b, read b.listing = read b)
    (bid : BatchId) :
    (s'.batches[bid]?).map read = (s.batches[bid]?).map read := by
  have same := congrArg (Option.map read) (frame.listings bid)
  simp only [Option.map_map] at same
  have composed : read ∘ BatchRec.listing = read := funext blind
  rwa [composed] at same

/-- A batch found afterwards was there before, with the same listing. -/
theorem found_before {s s' : Impl} (frame : OutcomeFrame s s')
    {bid : BatchId} {b' : BatchRec} (found : s'.batches[bid]? = some b') :
    ∃ b, s.batches[bid]? = some b ∧ b'.listing = b.listing :=
  exists_of_map_eq (frame.listings bid) found

/-- A batch there before is found afterwards, with the same listing. -/
theorem found_after {s s' : Impl} (frame : OutcomeFrame s s')
    {bid : BatchId} {b : BatchRec} (found : s.batches[bid]? = some b) :
    ∃ b', s'.batches[bid]? = some b' ∧ b.listing = b'.listing :=
  exists_of_map_eq (frame.listings bid).symm found

theorem conclude (s : Impl) (r : RequestRec) (mc : MemberCompletion)
    (state : RequestState) (now : TimePoint) (fairness : FairnessController)
    (stats : BatchStats) :
    OutcomeFrame s { s.conclude r mc state now with
      fairness := fairness, stats := stats } where
  listings := map_getElem?_modify
    (fun b => BatchRec.listing_conclude b mc) s.batches r.batch
  registry := rfl
  order := rfl
  workers := rfl
  epoch := rfl
  nextBatch := rfl

theorem requeue (s : Impl) (id : RequestId) (r : RequestRec)
    (number : UInt32) : OutcomeFrame s (s.requeue id r number) :=
  ⟨fun _ => rfl, rfl, rfl, rfl, rfl, rfl⟩

theorem applyMemberOutcome (policy : BatchPolicy) (now : TimePoint)
    (s : Impl) (mc : MemberCompletion) :
    OutcomeFrame s (s.applyMemberOutcome policy now mc) := by
  obtain ⟨stats, counted⟩ | ⟨r, a, state, fairness, stats, _, _, _,
      ended | ⟨_, _, _, requeued⟩⟩ :=
    applyMemberOutcome_cases policy now s mc
  · rw [counted]
    exact ⟨fun _ => rfl, rfl, rfl, rfl, rfl, rfl⟩
  · rw [ended]
    exact conclude s r mc state now fairness stats
  · rw [requeued]
    exact (conclude s r mc state now fairness stats).trans
      (requeue _ mc.request r _)

theorem completeMember (policy : BatchPolicy) (now : TimePoint) (s : Impl)
    (mc : MemberCompletion) :
    OutcomeFrame s (s.completeMember policy now mc) := by
  obtain ⟨stale, counted⟩ | ⟨_, _, _, _, _, _, applied⟩ :=
    completeMember_cases policy now s mc
  · rw [counted]
    exact ⟨fun _ => rfl, rfl, rfl, rfl, rfl, rfl⟩
  · rw [applied]
    exact applyMemberOutcome policy now s mc

theorem failMember (policy : BatchPolicy) (now : TimePoint) (err : Error)
    (s : Impl) (m : RequestId) :
    OutcomeFrame s (s.failMember policy now err m) := by
  obtain unchanged | ⟨_, mc, _, _, _, _, applied⟩ :=
    failMember_cases policy now err s m
  · rw [unchanged]
    exact refl s
  · rw [applied]
    exact applyMemberOutcome policy now s mc

theorem completeMembers (policy : BatchPolicy) (now : TimePoint) (s : Impl)
    (members : List MemberCompletion) :
    OutcomeFrame s
      (Transition.run (Impl.completeMember policy now) s members) :=
  Transition.run_invariant (OutcomeFrame s)
    (fun current mc _ frame =>
      frame.trans (completeMember policy now current mc)) (refl s)

theorem failMembers (policy : BatchPolicy) (now : TimePoint) (err : Error)
    (s : Impl) (members : List RequestId) :
    OutcomeFrame s
      (Transition.run (Impl.failMember policy now err) s members) :=
  Transition.run_invariant (OutcomeFrame s)
    (fun current m _ frame =>
      frame.trans (failMember policy now err current m)) (refl s)

end OutcomeFrame

end Impl

end BatchFabric
