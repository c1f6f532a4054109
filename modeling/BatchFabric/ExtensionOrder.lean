import BatchFabric.CompatibilityDecision
import BatchFabric.Scheduler.Effects

/-! Whether the order in which extensions are listed matters. -/

namespace BatchFabric

theorem Impl.doSubmit_of_admitted {policy : BatchPolicy} {s : Impl}
    {metadata : RequestMetadata} {now : TimePoint}
    (admits : (s.doSubmit policy metadata now).1.admission = .admitted) :
    (s.doSubmit policy metadata now).1.request = { value := s.nextRequest } ∧
      (s.doSubmit policy metadata now).2.waitingIndex =
        s.waitingIndex.add (CompatibilityKey.build metadata.descriptor)
          { value := s.nextRequest } := by
  unfold doSubmit at admits ⊢
  dsimp only at admits ⊢
  split at admits
  · cases admits
  · split at admits
    · cases admits
    · split at admits
      · cases admits
      · split at admits
        · cases admits
        · simp only [*]
          exact ⟨rfl, rfl⟩

/-- Requests with these descriptors are treated as of one kind: their keys are
equal, they are found compatible, and once admitted they wait in one bucket. -/
structure TreatedAlike (a b : ModelDescriptor) : Prop where
  keys : CompatibilityKey.build a = CompatibilityKey.build b
  compatible : evaluateCompatibility a b = .compatible
  bucket : ∀ (policy : BatchPolicy) (s : Impl) (first second : RequestMetadata)
    (now later : TimePoint), Reachable policy s → first.descriptor = a →
    second.descriptor = b →
    let once := s.doSubmit policy first now
    let twice := once.2.doSubmit policy second later
    once.1.admission = .admitted → twice.1.admission = .admitted →
    ∃ key, once.1.request ∈ twice.2.bucket key ∧
      twice.1.request ∈ twice.2.bucket key

theorem TreatedAlike.refl (a : ModelDescriptor) : TreatedAlike a a where
  keys := rfl
  compatible := (evaluateCompatibility_iff a a).mpr rfl
  bucket := by
    intro policy s first second now later _ isFirst isSecond once twice
      admits admits'
    obtain ⟨id, index⟩ := Impl.doSubmit_of_admitted admits
    obtain ⟨id', index'⟩ := Impl.doSubmit_of_admitted admits'
    refine ⟨CompatibilityKey.build a, ?_, ?_⟩
    · unfold Impl.bucket
      rw [index', index, id, isFirst, isSecond]
      simp
    · unfold Impl.bucket
      rw [index', id', isSecond]
      simp

/-- Extensions in another order are treated alike only where the lists are the
same all the same. -/
theorem treatedAlike_permuted_iff (d : ModelDescriptor)
    {extensions : List ByteString}
    (permuted : extensions.Perm d.extensions) :
    TreatedAlike d { d with extensions := extensions } ↔
      extensions = d.extensions := by
  constructor
  · intro alike
    have same := (evaluateCompatibility_iff _ _).mp alike.compatible
    exact (congrArg (·.extensions) same).symm
  · rintro rfl
    exact TreatedAlike.refl d

theorem treatedAlike_of_repeated :
    TreatedAlike { extensions := [.ofAscii "a", .ofAscii "a"] }
      { extensions := [.ofAscii "a", .ofAscii "a"] } :=
  (treatedAlike_permuted_iff { extensions := [.ofAscii "a", .ofAscii "a"] }
    (.swap _ _ [])).mpr rfl

/-- Two different extensions the other way round. -/
theorem not_treatedAlike_of_swapped :
    ¬ ∀ (d : ModelDescriptor) (extensions : List ByteString),
      extensions.Perm d.extensions →
        TreatedAlike d { d with extensions := extensions } := by
  intro alike
  have decided := (alike { extensions := [.ofAscii "a", .ofAscii "b"] }
    [.ofAscii "b", .ofAscii "a"] (.swap _ _ [])).compatible
  exact absurd decided (by decide)

end BatchFabric
