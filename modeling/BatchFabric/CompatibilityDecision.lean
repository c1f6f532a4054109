import BatchFabric.Preimage
import BatchFabric.Scheduler.KnownKeys

/-! The explained compatibility decision, and where it agrees with the key. -/

namespace BatchFabric

inductive CompatibilityDecision
  | compatible
  | incompatibleRevision
  | incompatibleAdapter
  | incompatiblePhase
  | incompatibleShape
  | incompatibleExecutor
  | incompatibleDtype
  | incompatibleBackend
  | incompatibleDevice
  | incompatibleExecutionMode
  | incompatibleSampling
  | incompatibleExtension
  | incompatibleDeadline
  | incompatibleModel
  | compatibleDeferred
  deriving DecidableEq, Repr

/-- The first incompatibility found, field by field. -/
def evaluateCompatibility (a b : ModelDescriptor) : CompatibilityDecision :=
  if a.model ≠ b.model then .incompatibleModel
  else if a.revision ≠ b.revision then .incompatibleRevision
  else if a.adapter ≠ b.adapter then .incompatibleAdapter
  else if a.phase ≠ b.phase then .incompatiblePhase
  else if a.dtype ≠ b.dtype then .incompatibleDtype
  else if a.backend ≠ b.backend then .incompatibleBackend
  else if a.executionMode ≠ b.executionMode then .incompatibleExecutionMode
  else if a.device ≠ b.device then .incompatibleDevice
  else if a.shape ≠ b.shape then .incompatibleShape
  else if a.samplingSemantics ≠ b.samplingSemantics then .incompatibleSampling
  else if a.extensions ≠ b.extensions then .incompatibleExtension
  else .compatible

/-- A field check is passed by equal fields only. -/
theorem passes_iff {α : Type} [DecidableEq α] {left right : α}
    {reason rest : CompatibilityDecision} (refuses : reason ≠ .compatible) :
    (if left ≠ right then reason else rest) = .compatible ↔
      left = right ∧ rest = .compatible := by
  by_cases same : left = right
  · simp [same]
  · simp [same, refuses]

/-- The decision reads every field but the tokenizer. -/
theorem evaluateCompatibility_iff (a b : ModelDescriptor) :
    evaluateCompatibility a b = .compatible ↔
      { a with tokenizer := b.tokenizer } = b := by
  unfold evaluateCompatibility
  simp (disch := decide) only [passes_iff]
  constructor
  · rintro ⟨model, revision, adapter, phase, dtype, backend, mode, device,
      shape, sampling, extensions, _⟩
    cases a
    cases b
    dsimp only at *
    subst model revision adapter phase dtype backend mode device shape
      sampling extensions
    rfl
  · intro same
    rw [← same]
    exact ⟨rfl, rfl, rfl, rfl, rfl, rfl, rfl, rfl, rfl, rfl, rfl, trivial⟩

/-- Two descriptors are compatible exactly when their keys are equal. -/
def DecisionsAgree (a b : ModelDescriptor) : Prop :=
  evaluateCompatibility a b = .compatible ↔
    CompatibilityKey.build a = CompatibilityKey.build b

section Agreement

variable {a b : ModelDescriptor}

theorem build_eq_iff (fewA : a.extensions.length < 2 ^ 32)
    (fewB : b.extensions.length < 2 ^ 32)
    (collisionFree : Sha256.digest (CompatibilityKey.preimage a) =
        Sha256.digest (CompatibilityKey.preimage b) →
      CompatibilityKey.preimage a = CompatibilityKey.preimage b) :
    CompatibilityKey.build a = CompatibilityKey.build b ↔ a = b := by
  constructor
  · intro keys
    have digests : (CompatibilityKey.build a).digest =
        (CompatibilityKey.build b).digest := congrArg _ keys
    exact CompatibilityKey.preimage_injective fewA fewB (collisionFree digests)
  · rintro rfl
    rfl

/-- The bytes hashed for two keys differ wherever the descriptors do, and so do
the keys where these bytes do not collide. -/
theorem keyBytes_faithful (fewA : a.extensions.length < 2 ^ 32)
    (fewB : b.extensions.length < 2 ^ 32) :
    (CompatibilityKey.preimage a = CompatibilityKey.preimage b ↔ a = b) ∧
      ((Sha256.digest (CompatibilityKey.preimage a) =
          Sha256.digest (CompatibilityKey.preimage b) →
        CompatibilityKey.preimage a = CompatibilityKey.preimage b) →
      (CompatibilityKey.build a = CompatibilityKey.build b ↔ a = b)) := by
  refine ⟨⟨CompatibilityKey.preimage_injective fewA fewB, ?_⟩,
    build_eq_iff fewA fewB⟩
  rintro rfl
  rfl

/-- A model name that ends like the start of the revision. -/
theorem keyBytes_faithful_of_imitation :
    (CompatibilityKey.preimage { model := .ofAscii "ma" } =
        CompatibilityKey.preimage
          { model := .ofAscii "m", revision := .ofAscii "a" } ↔
      ({ model := .ofAscii "ma" } : ModelDescriptor) =
        { model := .ofAscii "m", revision := .ofAscii "a" }) :=
  (keyBytes_faithful (by decide) (by decide)).1

/-- The decisions agree on all descriptors but those that differ in the
tokenizer alone. -/
theorem decisionsAgree_iff (fewA : a.extensions.length < 2 ^ 32)
    (fewB : b.extensions.length < 2 ^ 32)
    (collisionFree : Sha256.digest (CompatibilityKey.preimage a) =
        Sha256.digest (CompatibilityKey.preimage b) →
      CompatibilityKey.preimage a = CompatibilityKey.preimage b) :
    DecisionsAgree a b ↔
      ¬ (a.tokenizer ≠ b.tokenizer ∧
        { a with tokenizer := b.tokenizer } = b) := by
  unfold DecisionsAgree
  rw [evaluateCompatibility_iff, build_eq_iff fewA fewB collisionFree]
  constructor
  · rintro agree ⟨different, alike⟩
    have equal := agree.mp alike
    exact different (by rw [equal])
  · intro excluded
    constructor
    · intro alike
      by_cases same : a.tokenizer = b.tokenizer
      · rw [← same] at alike
        exact alike
      · exact absurd ⟨same, alike⟩ excluded
    · rintro rfl
      rfl

end Agreement

/-- Two models that differ in phase and extensions, and in their keys. -/
theorem decisionsAgree_of_twoModels :
    DecisionsAgree minimalRequest.descriptor KnownKeys.otherModel :=
  (decisionsAgree_iff (by decide) (by decide) (fun digests =>
    absurd digests (KnownKeys.twoModels.separate (by decide +kernel)))).mpr
    (by decide +kernel)

/-- The minimal request's model under some tokenizer. -/
def tokenizedModel : ModelDescriptor :=
  { minimalRequest.descriptor with tokenizer := { bytes := [116] } }

def tokenizedKeys : KnownKeys :=
  KnownKeys.minimal.add tokenizedModel {
    digest := #v[5, 156, 202, 229, 24, 252, 71, 236, 68, 106, 185, 22, 164, 20,
      204, 243, 128, 158, 9, 99, 21, 232, 79, 218, 120, 141, 36, 196, 177, 68,
      66, 121] } (by decide +kernel)

/-- Two descriptors that differ in the tokenizer are found compatible, though
their keys differ. -/
theorem not_decisionsAgree_of_tokenizer :
    ¬ ∀ a b : ModelDescriptor, a.extensions.length < 2 ^ 32 →
      b.extensions.length < 2 ^ 32 →
      (Sha256.digest (CompatibilityKey.preimage a) =
          Sha256.digest (CompatibilityKey.preimage b) →
        CompatibilityKey.preimage a = CompatibilityKey.preimage b) →
      DecisionsAgree a b := by
  intro agree
  have different : Sha256.digest
      (CompatibilityKey.preimage minimalRequest.descriptor) ≠
        Sha256.digest (CompatibilityKey.preimage tokenizedModel) :=
    tokenizedKeys.separate (by decide +kernel)
  have decided : evaluateCompatibility minimalRequest.descriptor
      tokenizedModel = .compatible := by
    decide
  have keys := (agree minimalRequest.descriptor tokenizedModel (by decide)
    (by decide) fun digests => absurd digests different).mp decided
  exact different (congrArg CompatibilityKey.digest keys)

end BatchFabric
