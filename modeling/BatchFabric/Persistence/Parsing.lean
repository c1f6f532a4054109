import BatchFabric.Persistence.Reading

/-! Which byte strings the loader accepts, and as what. -/

namespace BatchFabric

open Decoding

namespace PersistenceStore

/-- No request is a member of two active batches. -/
def ActiveOnce (batches : List PersistedBatch) : Prop :=
  ∀ a ∈ batches, ∀ b ∈ batches, isBatchTerminal a.state = false →
    isBatchTerminal b.state = false →
      ∀ m ∈ a.members, m ∈ b.members → a.id = b.id

instance (batches : List PersistedBatch) : Decidable (ActiveOnce batches) := by
  unfold ActiveOnce
  infer_instance

/-- The memberships in active batches, in the order they are looked at. -/
def activeClaims (batches : List PersistedBatch) :
    List (RequestId × BatchId) :=
  batches.flatMap fun b =>
    if isBatchTerminal b.state then [] else b.members.map fun m => (m, b.id)

def claim (activeMember : Map RequestId BatchId)
    (pair : RequestId × BatchId) : Except Error (Map RequestId BatchId) :=
  claimMember pair.2 activeMember pair.1

theorem foldlM_claimMembers (batches : List PersistedBatch)
    (activeMember : Map RequestId BatchId) :
    batches.foldlM claimMembers activeMember =
      (activeClaims batches).foldlM claim activeMember := by
  induction batches generalizing activeMember with
  | nil => rfl
  | cons b batches induction =>
      have claims : claimMembers activeMember b =
          (if isBatchTerminal b.state then []
            else b.members.map fun m => (m, b.id)).foldlM claim
              activeMember := by
        unfold claimMembers
        split
        · rfl
        · rw [List.foldlM_map]
          rfl
      have unfolded : activeClaims (b :: batches) =
          (if isBatchTerminal b.state then []
            else b.members.map fun m => (m, b.id)) ++
              activeClaims batches := rfl
      rw [unfolded, List.foldlM_append, List.foldlM_cons, claims]
      congr
      funext claimed
      exact induction claimed

/-- The claims can all be made when none contradicts an earlier one. -/
theorem claims_iff (pairs : List (RequestId × BatchId))
    (activeMember : Map RequestId BatchId) :
    (∃ claimed, pairs.foldlM claim activeMember = .ok claimed) ↔
      (∀ pair ∈ pairs, ∀ b, activeMember[pair.1]? = some b → b = pair.2) ∧
        ∀ left ∈ pairs, ∀ right ∈ pairs,
          left.1 = right.1 → left.2 = right.2 := by
  induction pairs generalizing activeMember with
  | nil =>
      simp only [List.not_mem_nil, false_implies, implies_true, and_self,
        iff_true]
      exact ⟨activeMember, rfl⟩
  | cons pair pairs induction =>
      by_cases free : ∀ b, activeMember[pair.1]? = some b → b = pair.2
      · have claimed : claim activeMember pair =
            .ok (activeMember.insert pair.1 pair.2) := by
          unfold claim claimMember
          cases found : activeMember[pair.1]? with
          | none => rfl
          | some b => simp [free b found]
        have next : (pair :: pairs).foldlM claim activeMember =
            pairs.foldlM claim (activeMember.insert pair.1 pair.2) := by
          rw [List.foldlM_cons, claimed]
          rfl
        rw [next, induction]
        simp only [OrderedMap.getElem?_insert]
        constructor
        · rintro ⟨fits, consistent⟩
          have agree : ∀ other ∈ pairs, pair.1 = other.1 →
              pair.2 = other.2 := by
            intro other member same
            exact fits other member pair.2 (if_pos same)
          refine ⟨?_, ?_⟩
          · rintro other member b found
            rcases List.mem_cons.mp member with rfl | later
            · exact free b found
            · by_cases same : pair.1 = other.1
              · rw [← agree other later same]
                exact free b (by rw [same, found])
              · exact fits other later b (by rw [if_neg same, found])
          · intro left leftMember right rightMember same
            rcases List.mem_cons.mp leftMember with rfl | leftLater <;>
              rcases List.mem_cons.mp rightMember with rfl | rightLater
            · rfl
            · exact agree right rightLater same
            · exact (agree left leftLater same.symm).symm
            · exact consistent left leftLater right rightLater same
        · rintro ⟨fits, consistent⟩
          refine ⟨?_, ?_⟩
          · intro other member b found
            by_cases same : pair.1 = other.1
            · rw [if_pos same, Option.some.injEq] at found
              rw [← found]
              exact consistent pair List.mem_cons_self other
                (List.mem_cons_of_mem _ member) same
            · rw [if_neg same] at found
              exact fits other (List.mem_cons_of_mem _ member) b found
          · intro left leftMember right rightMember
            exact consistent left (List.mem_cons_of_mem _ leftMember) right
              (List.mem_cons_of_mem _ rightMember)
      · constructor
        · rintro ⟨claimed, made⟩
          obtain ⟨b, taken⟩ := not_forall.mp free
          obtain ⟨found, different⟩ := Classical.not_imp.mp taken
          have failed : claim activeMember pair =
              .error (corrupt "request in two active batches") := by
            unfold claim claimMember
            simp only [found]
            rw [if_pos different]
          rw [List.foldlM_cons, failed] at made
          cases made
        · exact fun fits => absurd (fits.1 pair List.mem_cons_self) free

theorem activeOnce_iff (batches : List PersistedBatch) :
    (∃ claimed, batches.foldlM claimMembers ∅ = .ok claimed) ↔
      ActiveOnce batches := by
  rw [foldlM_claimMembers, claims_iff]
  have claimed (pair : RequestId × BatchId) :
      pair ∈ activeClaims batches ↔ ∃ b ∈ batches,
        isBatchTerminal b.state = false ∧ pair.1 ∈ b.members ∧
          b.id = pair.2 := by
    unfold activeClaims
    rw [List.mem_flatMap]
    apply exists_congr
    intro b
    apply and_congr_right
    intro _
    split
    · next terminal => simp [terminal]
    · next active =>
        rw [Bool.not_eq_true] at active
        simp [active, Prod.ext_iff]
  constructor
  · rintro ⟨-, consistent⟩ a inA b inB activeA activeB m memberA memberB
    exact consistent (m, a.id)
      ((claimed _).mpr ⟨a, inA, activeA, memberA, rfl⟩) (m, b.id)
      ((claimed _).mpr ⟨b, inB, activeB, memberB, rfl⟩) rfl
  · intro once
    refine ⟨?_, ?_⟩
    · intro pair _ b found
      simp at found
    · rintro ⟨m, idA⟩ left ⟨_, idB⟩ right rfl
      obtain ⟨a, inA, activeA, memberA, rfl⟩ := (claimed _).mp left
      obtain ⟨b, inB, activeB, memberB, rfl⟩ := (claimed _).mp right
      exact once a inA b inB activeA activeB m memberA memberB

theorem length_fileLayout (file : StateFile) :
    12 ≤ (fileLayout file).length := by
  have header : fileLayout file =
      ByteWriter.u32 kMagic ++ (ByteWriter.u32 kFormatVersion ++
        (ByteWriter.id file.epoch ++ ((fileLayout file).drop 16))) := rfl
  rw [header]
  simp only [List.length_append]
  have word (v : UInt32) : (ByteWriter.u32 v).length = 4 := rfl
  have long (v : UInt64) : (ByteWriter.u64 v).length = 8 := rfl
  rw [word, word, ByteWriter.id, long]
  omega

/-- The loader accepts the layouts of the readable files with no request in
two active batches, each followed by its checksum. -/
theorem parse_iff (bytes : List UInt8) (rt : PersistedRuntime) :
    parse bytes = .ok rt ↔
      ∃ file, ReadableFile file ∧ ActiveOnce file.batches ∧
        file.runtime = rt ∧
        bytes = fileLayout file ++
          ByteWriter.digest (Sha256.digest (fileLayout file)) := by
  have digestLength (d : Digest) : (ByteWriter.digest d).length = 32 := by
    simp [ByteWriter.digest]
  unfold parse
  constructor
  · intro accepted
    split at accepted
    · cases accepted
    · next long =>
        dsimp only at accepted
        split at accepted
        · cases accepted
        · next sum =>
            cases read : readFile bytes with
            | error error =>
                rw [read] at accepted
                cases accepted
            | ok out =>
                rw [read] at accepted
                obtain ⟨file, rest⟩ := out
                cases claims : file.batches.foldlM claimMembers ∅ with
                | error error =>
                    simp only [bind, Except.bind, claims] at accepted
                    cases accepted
                | ok claimed =>
                    simp only [bind, Except.bind, claims] at accepted
                    split at accepted
                    · cases accepted
                    · next ended =>
                        rw [not_not] at ended sum
                        obtain ⟨readable, rfl⟩ :=
                          (decodes_readFile bytes file rest).mp read
                        refine ⟨file, readable,
                          (activeOnce_iff _).mp ⟨claimed, claims⟩,
                          Except.ok.inj accepted, ?_⟩
                        rw [List.length_append, ended, Nat.add_sub_cancel,
                          List.take_left, List.drop_left] at sum
                        rw [ByteWriter.digest, sum]
  · rintro ⟨file, readable, once, rfl, rfl⟩
    have size := length_fileLayout file
    obtain ⟨claimed, claims⟩ := (activeOnce_iff file.batches).mpr once
    have read := (decodes_readFile _ file
      (ByteWriter.digest (Sha256.digest (fileLayout file)))).mpr
        ⟨readable, rfl⟩
    have sum : ¬((Sha256.digest (fileLayout file)).toList ≠
        ByteWriter.digest (Sha256.digest (fileLayout file))) :=
      not_not.mpr rfl
    rw [if_neg (by rw [List.length_append, digestLength]; omega)]
    dsimp only
    rw [List.length_append, digestLength, Nat.add_sub_cancel,
      List.take_left, List.drop_left, if_neg sum, read]
    simp only [bind, Except.bind, claims]
    rw [if_neg (by rw [digestLength]; decide)]

end PersistenceStore

end BatchFabric
