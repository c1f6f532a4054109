import BatchFabric.Scheduler.Effects

/-! Concrete runs hash the same descriptor at every submission. Here the keys
computed once are looked up instead, and the step is shown to be the same. -/

namespace BatchFabric

/-- Descriptors together with their keys. -/
structure KnownKeys where
  entries : List (ModelDescriptor × CompatibilityKey) := []
  computed : ∀ entry ∈ entries, CompatibilityKey.build entry.1 = entry.2 := by
    simp

namespace KnownKeys

def keyOf (known : KnownKeys) (d : ModelDescriptor) : CompatibilityKey :=
  match known.entries.find? (·.1 == d) with
  | some entry => entry.2
  | none => CompatibilityKey.build d

theorem keyOf_eq (known : KnownKeys) (d : ModelDescriptor) :
    known.keyOf d = CompatibilityKey.build d := by
  unfold keyOf
  split
  · next entry found =>
      have matched := List.find?_some found
      have same : entry.1 = d := eq_of_beq matched
      rw [← known.computed entry (List.mem_of_find?_eq_some found), same]
  · rfl

theorem separate (known : KnownKeys) {d d' : ModelDescriptor}
    (different : known.keyOf d ≠ known.keyOf d') :
    Sha256.digest (CompatibilityKey.preimage d) ≠
      Sha256.digest (CompatibilityKey.preimage d') := by
  intro digests
  apply different
  rw [known.keyOf_eq, known.keyOf_eq]
  exact CompatibilityKey.eq_of_digest_eq digests

def add (known : KnownKeys) (d : ModelDescriptor) (key : CompatibilityKey)
    (computed : CompatibilityKey.build d = key) : KnownKeys where
  entries := (d, key) :: known.entries
  computed := List.forall_mem_cons.mpr ⟨computed, known.computed⟩

/-- The key of the minimal request. -/
def minimal : KnownKeys :=
  add {} minimalRequest.descriptor {
    digest := #v[162, 125, 141, 231, 119, 212, 217, 122, 119, 104, 140, 149,
      190, 189, 91, 138, 62, 14, 74, 126, 2, 7, 99, 171, 66, 196, 170, 55, 132,
      103, 237, 10] } (by decide +kernel)

/-- The minimal request's model in its other phase, with an extension. -/
def otherModel : ModelDescriptor :=
  { minimalRequest.descriptor with phase := .decode, extensions := [{}] }

def twoModels : KnownKeys :=
  minimal.add otherModel {
    digest := #v[22, 49, 37, 124, 148, 3, 131, 168, 243, 210, 161, 137, 127,
      29, 156, 236, 109, 252, 198, 201, 203, 230, 18, 131, 144, 114, 90, 100,
      191, 129, 145, 10] } (by decide +kernel)

end KnownKeys

namespace Impl

/-- A submission that takes the key from the table. -/
def submitKnown (known : KnownKeys) (policy : BatchPolicy) (s : Impl)
    (metadata : RequestMetadata) (now : TimePoint) : Impl :=
  let key := known.keyOf metadata.descriptor
  let rid : RequestId := { value := s.nextRequest }
  let submitted := s.doSubmit policy metadata now
  if metadata.descriptor.model.isEmpty ||
      metadata.descriptor.revision.isEmpty then
    submitted.2
  else
    { submitted.2 with
      requests := submitted.2.requests.modify rid fun r => { r with key := key }
      waitingIndex :=
        if submitted.1.admission = .admitted then s.waitingIndex.add key rid
        else s.waitingIndex }

theorem modify_createRequest (s : Impl) (metadata : RequestMetadata)
    (now : TimePoint) (state attemptState : RequestState)
    (outcome : CompletionStatus) (inWaiting : Bool) :
    (s.createRequest metadata now state attemptState outcome
        inWaiting).requests.modify { value := s.nextRequest } (fun r =>
          { r with key := CompatibilityKey.build metadata.descriptor }) =
      (s.createRequest metadata now state attemptState outcome
        inWaiting).requests := by
  apply Std.ExtTreeMap.ext_getElem?
  intro id
  unfold createRequest
  rw [OrderedMap.getElem?_modify]
  split
  · next same =>
      subst same
      rw [OrderedMap.getElem?_insert, if_pos rfl]
      rfl
  · rfl

theorem submitKnown_eq (known : KnownKeys) (policy : BatchPolicy) (s : Impl)
    (metadata : RequestMetadata) (now : TimePoint) :
    s.submitKnown known policy metadata now =
      (s.doSubmit policy metadata now).2 := by
  unfold submitKnown
  dsimp only
  rw [known.keyOf_eq]
  unfold doSubmit
  dsimp only
  split
  · rfl
  · split
    · rw [modify_createRequest]
      rfl
    · split
      · rw [modify_createRequest]
        rfl
      · split
        · rw [modify_createRequest]
          rfl
        · rw [modify_createRequest]
          rfl

theorem ok_of_toOption {ε α : Type} {answer : Except ε α} {value : α}
    (answered : answer.toOption = some value) : answer = .ok value := by
  cases answer with
  | error err => cases answered
  | ok value' => exact congrArg Except.ok (Option.some.inj answered)

end Impl

/-- The step that looks keys up. -/
def stepKnown (known : KnownKeys) (policy : BatchPolicy) (s : Impl) :
    Op → Impl
  | .submit metadata now => s.submitKnown known policy metadata now
  | op => step policy s op

theorem step_eq_stepKnown (known : KnownKeys) (policy : BatchPolicy) :
    step policy = stepKnown known policy := by
  funext s op
  cases op with
  | submit metadata now => exact (s.submitKnown_eq known policy metadata now).symm
  | _ => rfl

theorem run_eq_runKnown (known : KnownKeys) (policy : BatchPolicy)
    (ops : List Op) :
    run policy ops =
      Transition.run (stepKnown known policy) Impl.fresh ops := by
  unfold run
  rw [step_eq_stepKnown known]

end BatchFabric
