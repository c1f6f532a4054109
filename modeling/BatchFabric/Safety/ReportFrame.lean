import BatchFabric.Safety.ReportEffect
import BatchFabric.Scheduler.KnownKeys

namespace BatchFabric.Impl

open OrderedMap

/-! What a completion report leaves alone. -/

/-- The members of a batch, none when there is no such batch. -/
def membersOf (s : Impl) (bid : BatchId) : List RequestId :=
  match s.batches[bid]? with
  | none => []
  | some b => b.members

/-- Every request outside the list keeps its record, its attempts, its places
in the waiting index and whatever a batch has recorded of it. -/
def FramesOutside (s s' : Impl) (members : List RequestId) : Prop :=
  ∀ id, id ∉ members → Untouched s s' id

/-- Closing a batch touches no request. -/
theorem untouched_finishBatch (s : Impl) (bid : BatchId) (worker : WorkerId)
    (now : TimePoint) (id : RequestId) :
    Untouched s (s.finishBatch bid worker now) id := by
  obtain unchanged | ⟨b, stats, workers, _, ⟨_, ended⟩ | ⟨_, partly⟩⟩ :=
    finishBatch_cases s bid worker now
  · rw [unchanged]
    exact .refl s id
  · rw [ended]
    exact ⟨rfl, fun _ _ _ _ => rfl, fun _ => rfl,
      map_getElem?_modify (fun _ => by rfl) s.batches bid⟩
  · rw [partly]
    exact ⟨rfl, fun _ _ _ _ => rfl, fun _ => rfl,
      map_getElem?_modify (fun _ => by rfl) s.batches bid⟩

section Report

variable {s : Impl} (wellFormed : WellFormed s) (owns : s.OwnsAttempts)
  {policy : BatchPolicy} {comp : BatchCompletion} {now : TimePoint}

include wellFormed owns

/-- A request is touched by an accepted report exactly when one of its records
takes the request up. -/
theorem untouched_doComplete_iff {b : BatchRec} (accepted : s.Accepts comp b)
    (id : RequestId) :
    Untouched s (s.doComplete policy comp now).2 id ↔
      ∀ mc ∈ comp.members, mc.request = id → s.takesUp mc = false := by
  have result : (s.doComplete policy comp now).2 =
      (Transition.run (completeMember policy now) s comp.members).finishBatch
        comp.batch comp.worker now := by
    rw [doComplete_of_accepts accepted policy now]
  rw [result]
  constructor
  · rintro untouched mc member rfl
    cases taken : s.takesUp mc with
    | false => rfl
    | true =>
        obtain ⟨r, found, unsettled⟩ := unsettled_of_takesUp owns taken
        have moved :=
          moved_completeMembers wellFormed owns member taken policy now
        have closed := untouched_finishBatch
          (Transition.run (completeMember policy now) s comp.members)
          comp.batch comp.worker now mc.request
        exact absurd (closed.request.symm.trans untouched.request)
          (moved.changed owns found unsettled)
  · intro untaken
    exact (untouched_completeMembers wellFormed owns untaken policy now).trans
      (untouched_finishBatch _ comp.batch comp.worker now id)

end Report

/-- An accepted report leaves every request outside its batch as it was,
exactly when each of its records that is taken up names a member. -/
theorem framesOutside_iff (policy : BatchPolicy) (ops : List Op)
    (comp : BatchCompletion) (now : TimePoint)
    (accepted : ((run policy ops).doComplete policy comp now).1 = .ok ()) :
    FramesOutside (run policy ops)
        ((run policy ops).doComplete policy comp now).2
        ((run policy ops).membersOf comp.batch) ↔
      ∀ mc ∈ comp.members, (run policy ops).takesUp mc = true →
        mc.request ∈ (run policy ops).membersOf comp.batch := by
  have reachable := reachable_run policy ops
  have wellFormed := wellFormed_of_reachable reachable
  have owns := ownsAttempts_of_reachable reachable
  obtain ⟨err, stale, refused⟩ | ⟨b, accepts, _⟩ :=
    doComplete_cases policy (run policy ops) comp now
  · rw [refused] at accepted
    cases accepted
  · unfold FramesOutside
    simp only [untouched_doComplete_iff wellFormed owns accepts]
    constructor
    · intro untaken mc member taken
      by_contra outside
      rw [untaken mc.request outside mc member rfl] at taken
      cases taken
    · rintro inside id outside mc member rfl
      cases taken : (run policy ops).takesUp mc with
      | false => rfl
      | true => exact absurd (inside mc member taken) outside

/-- A batch of one request is reported while another request waits. The report
names both, the second under an attempt it never had. -/
theorem framesOutside_of_own_member :
    let s := run {} [
      .submit minimalRequest 0, .tick [] 1,
      .prepareDispatch { value := 1 } .null .null 2,
      .submit minimalRequest 3]
    let comp : BatchCompletion := {
      epoch := { value := 1 }, generation := { value := 1 }
      batch := { value := 1 }
      members := [
        { request := { value := 1 }, attempt := { value := 1 } },
        { request := { value := 2 }, attempt := { value := 1 } }] }
    FramesOutside s (s.doComplete {} comp 4).2 (s.membersOf comp.batch) :=
  (framesOutside_iff _ _ _ _ (by
    rw [run_eq_runKnown .minimal]
    decide +kernel)).mpr (by
    rw [run_eq_runKnown .minimal]
    decide +kernel)

/-- The report of a batch of one request completes a second request that waits
in no batch at all. -/
theorem not_framesOutside_of_waiting :
    ¬ ∀ (policy : BatchPolicy) (ops : List Op) (comp : BatchCompletion)
        (now : TimePoint),
      ((run policy ops).doComplete policy comp now).1 = .ok () →
        FramesOutside (run policy ops)
          ((run policy ops).doComplete policy comp now).2
          ((run policy ops).membersOf comp.batch) := by
  intro frames
  let ops : List Op := [
    .submit minimalRequest 0, .tick [] 1,
    .prepareDispatch { value := 1 } .null .null 2,
    .submit minimalRequest 3]
  let comp : BatchCompletion := {
    epoch := { value := 1 }, generation := { value := 1 }
    batch := { value := 1 }
    members := [{ request := { value := 2 }, attempt := { value := 2 } }] }
  have accepted : ((run {} ops).doComplete {} comp 4).1 = .ok () := by
    rw [run_eq_runKnown .minimal]
    decide +kernel
  have outside : ({ value := 2 } : RequestId) ∉
      (run {} ops).membersOf comp.batch := by
    rw [run_eq_runKnown .minimal]
    decide +kernel
  have same := (frames {} ops comp 4 accepted { value := 2 } outside).request
  have states := congrArg (Option.map RequestRec.state) same
  revert states
  rw [run_eq_runKnown .minimal]
  decide +kernel

end BatchFabric.Impl
