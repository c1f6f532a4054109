import BatchFabric.Safety.ContentRule
import BatchFabric.Safety.FormingClock

namespace BatchFabric

open OrderedMap

/-! The totals that a batch carries are those of its members, also where they
wrap. -/

/-- What one request adds to a batch. -/
def RequestMetadata.amounts (metadata : RequestMetadata) : BatchAccum where
  count := 1
  inputTokens := metadata.tokens.input
  outputTokens := metadata.tokens.output
  work := metadata.work.value
  memory := metadata.memoryBytes

def BatchAccum.add (first second : BatchAccum) : BatchAccum where
  count := first.count + second.count
  inputTokens := first.inputTokens + second.inputTokens
  outputTokens := first.outputTokens + second.outputTokens
  work := first.work + second.work
  memory := first.memory + second.memory

section Accum

variable {requests : Map RequestId RequestRec}

theorem accumOf_concat {m : RequestId} {r : RequestRec}
    (found : requests[m]? = some r) (members : List RequestId) :
    accumOf requests (members ++ [m]) =
      (accumOf requests members).add r.metadata.amounts := by
  unfold accumOf
  rw [List.foldl_append, List.foldl_cons, found]
  rfl

theorem count_accumOf {members : List RequestId}
    (known : ∀ m ∈ members, ∃ r, requests[m]? = some r) :
    (accumOf requests members).count = UInt32.ofNat members.length := by
  induction members using List.reverseRecOn with
  | nil => rfl
  | append_singleton members m induction =>
      obtain ⟨r, found⟩ :=
        known m (List.mem_append_right members (List.mem_singleton_self m))
      rw [accumOf_concat found]
      show (accumOf requests members).count + 1 = _
      rw [induction fun m' member => known m' (List.mem_append_left _ member),
        List.length_append, UInt32.ofNat_add]
      rfl

theorem count_accumOf_le (members : List RequestId) :
    (accumOf requests members).count.toNat ≤ members.length := by
  induction members using List.reverseRecOn with
  | nil => exact Nat.le_refl 0
  | append_singleton members m induction =>
      rw [List.length_append, List.length_singleton]
      cases found : requests[m]? with
      | none =>
          have skipped : accumOf requests (members ++ [m]) =
              accumOf requests members := by
            unfold accumOf
            rw [List.foldl_append, List.foldl_cons, found]
            rfl
          rw [skipped]
          exact Nat.le_succ_of_le induction
      | some r =>
          rw [accumOf_concat found]
          show ((accumOf requests members).count + 1).toNat ≤ _
          rw [UInt32.toNat_add]
          exact Nat.le_trans (Nat.mod_le _ _) (Nat.succ_le_succ induction)

end Accum

namespace Impl

/-- Every batch carries the totals of its members. -/
def Totalled (s : Impl) : Prop :=
  Everywhere s.batches fun _ b => b.accum = accumOf s.requests b.members

theorem totalsRule (policy : BatchPolicy) :
    ContentRule policy (fun _ _ => true) fun requests b =>
      b.accum = accumOf requests b.members where
  congr members accum _ same totals := by
    rw [accum, members, totals]
    exact (accumOf_congr_on same).symm
  empty _ _ none zero := by
    rw [none, zero]
    rfl
  join s bid _ pick _ b r wellFormed placing totals := by
    show _ = accumOf s.requests (b.members ++ [pick])
    rw [accumOf_concat placing.request, ← totals]
    unfold BatchRec.addMember BatchAccum.add
    dsimp only
    congr 1
    rw [totals, count_accumOf fun _ member =>
        wellFormed.found_member placing.batch member,
      List.length_append, UInt32.ofNat_add]
    rfl
  part _ _ _ _ _ totals _ := totals
  absorb _ _ _ _ _ _ _ _ _ _ _ _ _ totals _ := totals

theorem totalled_of_reachable {policy : BatchPolicy} {s : Impl}
    (reachable : Reachable policy s) : s.Totalled :=
  (totalsRule policy).of_reachable reachable

end Impl

end BatchFabric
