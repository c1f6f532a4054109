import BatchFabric.Safety.EmptySeal
import BatchFabric.Safety.Offers

namespace BatchFabric.Impl

open OrderedMap

/-! The picks for a key, in a state in which other batches have been opened
already. -/

/-- The totals leave room for what is still to be placed. -/
def Room (policy : BatchPolicy) (now : TimePoint) (s u : Impl)
    (remaining : List RequestId) : Prop :=
  ∀ t, (FairnessController.amount u.fairness.outstanding t).toNat +
      s.workOf remaining t ≤
    (FairnessController.amount s.fairness.outstanding t).toNat +
      s.workOf (s.allOffers policy now) t

/-- The candidates are as they were, and so are the totals of the tenants held
back. -/
structure Filling (policy : BatchPolicy) (now : TimePoint) (s u : Impl)
    (cands others : List RequestId) : Prop where
  fixed : SameFixed s.requests u.requests
  seen : ∀ id ∈ cands, (u.requests[id]?).map RequestRec.seen =
    (s.requests[id]?).map RequestRec.seen
  held : ∀ t, s.capped policy t = true →
    FairnessController.amount u.fairness.outstanding t =
      FairnessController.amount s.fairness.outstanding t
  room : Room policy now s u
    ((cands.filter (s.placeable policy now)).dedup ++ others)

section Capped

variable {policy : BatchPolicy} {s u : Impl}

theorem capped_congr {t : TenantId}
    (same : FairnessController.amount u.fairness.outstanding t =
      FairnessController.amount s.fairness.outstanding t) :
    u.capped policy t = s.capped policy t := by
  unfold capped FairnessController.atOutstandingCap
  rw [same]

theorem not_capped_of_fillable {b : BatchRec} {now : TimePoint}
    {id : RequestId} (fillable : u.fillable policy b now id = true) :
    u.capped policy (u.tenantOf id) = false := by
  unfold Impl.fillable at fillable
  unfold capped tenantOf
  cases found : u.requests[id]? with
  | none => simp [found] at fillable
  | some r =>
      rw [found] at fillable
      simp only [passes_iff_not, Bool.not_eq_true] at fillable
      exact fillable.2.2.1

theorem onOffer_congr {now : TimePoint} {id : RequestId}
    (seen : (u.requests[id]?).map RequestRec.seen =
      (s.requests[id]?).map RequestRec.seen) :
    u.onOffer now id = s.onOffer now id := by
  unfold onOffer
  rcases found_of_seen seen with
    ⟨none, none'⟩ | ⟨r, r', found, found', metadata, _, _, state⟩
  · rw [none, none']
  · rw [found, found']
    dsimp only
    rw [metadata, state]

end Capped

namespace Filling

variable {policy : BatchPolicy} {now : TimePoint} {s u : Impl}
  {cands others : List RequestId} {bid : BatchId} {key : CompatibilityKey}
  {id pick : RequestId}

/-- What may join the batch could be placed from the start. -/
theorem placeable (filling : Filling policy now s u cands others)
    {b : BatchRec} (candidate : id ∈ cands)
    (fillable : u.fillable policy b now id = true) :
    s.placeable policy now id = true := by
  unfold Impl.placeable
  have offered := onOffer_of_fillable fillable
  rw [onOffer_congr (filling.seen id candidate)] at offered
  have free := not_capped_of_fillable fillable
  rw [tenantOf_congr filling.fixed] at free
  cases capped : s.capped policy (s.tenantOf id) with
  | false => simp [offered]
  | true =>
      rw [capped_congr (filling.held _ capped), capped] at free
      cases free

/-- The tenants held back are the same, while there is room. -/
theorem capped (filling : Filling policy now s u cands others)
    (unregistered : s.formingByKey.contains key = false)
    (queued : ∀ id ∈ cands, id ∈ s.bucket key)
    (below : s.BelowCaps policy now key) (candidate : id ∈ cands)
    (offered : s.onOffer now id = true) :
    u.capped policy (s.tenantOf id) = s.capped policy (s.tenantOf id) := by
  cases before : s.capped policy (s.tenantOf id) with
  | true => rw [capped_congr (filling.held _ before), before]
  | false =>
      have placeable : s.placeable policy now id = true := by
        unfold Impl.placeable
        rw [offered, before]
        rfl
      have listed : id ∈ s.offers policy now key := by
        unfold offers
        rw [if_neg (by simp [unregistered])]
        exact List.mem_dedup.mpr
          (List.mem_filter.mpr ⟨queued id candidate, placeable⟩)
      have remaining : [id].Subperm
          ((cands.filter (s.placeable policy now)).dedup ++ others) := by
        apply List.Sublist.subperm
        rw [List.singleton_sublist]
        exact List.mem_append_left _ (List.mem_dedup.mpr
          (List.mem_filter.mpr ⟨candidate, placeable⟩))
      have fits := filling.room (s.tenantOf id)
      have least := workOf_le_of_subperm (s := s) remaining (s.tenantOf id)
      rw [workOf_singleton, if_pos rfl] at least
      apply Bool.eq_false_iff.mpr
      intro reached
      unfold Impl.capped FairnessController.atOutstandingCap at reached
      rw [Bool.and_eq_true] at reached
      obtain ⟨enabled, reached⟩ := reached
      by_cases unlimited : policy.fairness.maxOutstandingPerTenant = 0
      · simp [unlimited] at reached
      · rw [if_neg unlimited, decide_eq_true_iff, ge_iff_le,
          UInt64.le_iff_toNat_le, UInt32.toNat_toUInt64] at reached
        have free := below enabled unlimited id listed
        omega

/-- One round of filling. -/
theorem place (filling : Filling policy now s u cands others)
    (picked : u.fillPick policy bid cands now = some pick) :
    Filling policy now s (u.place bid key pick) (cands.filter (· ≠ pick))
      others := by
  obtain ⟨b, _, candidate, fillable⟩ := fillPick_cases picked
  have placeable := filling.placeable candidate fillable
  have noted : noteRequest u.requests = noteRequest s.requests :=
    noteRequest_congr filling.fixed
  obtain ⟨r, found, _⟩ := fillable_cases fillable
  have kept : SameFixed u.requests (u.place bid key pick).requests := by
    rw [place_eq found]
    exact map_getElem?_modify (fun _ => by rfl) u.requests pick
  constructor
  · exact filling.fixed.trans kept
  · intro id remains
    obtain ⟨listed, other⟩ := List.mem_filter.mp remains
    rw [getElem?_place_of_ne bid key u (of_decide_eq_true other)]
    exact filling.seen id listed
  · intro t capped
    rw [fairness_place, noted, ← filling.held t capped]
    refine (noteRequest_other (s := s) u.fairness ?_).2
    rintro rfl
    unfold Impl.placeable at placeable
    simp [capped] at placeable
  · intro t
    have split : ((cands.filter (s.placeable policy now)).dedup ++
        others).Perm ([pick] ++
          (((cands.filter (· ≠ pick)).filter
            (s.placeable policy now)).dedup ++ others)) := by
      rw [← List.append_assoc]
      apply List.Perm.append_right
      apply (List.perm_ext_iff_of_nodup (List.nodup_dedup _) ?_).mpr
      · intro id
        by_cases same : id = pick
        · subst same
          simp [candidate, placeable]
        · simp [same]
      · rw [List.singleton_append, List.nodup_cons]
        refine ⟨?_, List.nodup_dedup _⟩
        simp
    have before := filling.room t
    rw [workOf_perm split.symm.symm, workOf_append] at before
    rw [fairness_place, noted]
    have added := amount_noteRequest_le (s := s) u.fairness pick t
    omega

theorem placeable_of_fillPicks
    (filling : Filling policy now s u cands others) (fuel : Nat)
    (placed : id ∈ fillPicks policy bid key now fuel u cands) :
    s.placeable policy now id = true := by
  induction fuel generalizing u cands with
  | zero => cases placed
  | succ fuel induction =>
      unfold fillPicks at placed
      cases picked : u.fillPick policy bid cands now with
      | none =>
          rw [picked] at placed
          cases placed
      | some pick =>
          rw [picked] at placed
          rcases List.mem_cons.mp placed with rfl | later
          · obtain ⟨b, _, candidate, fillable⟩ := fillPick_cases picked
            exact filling.placeable candidate fillable
          · exact induction (filling.place picked) later

end Filling

/-! The same picks in the same order. -/

/-- The totals do not tell which tenant comes next under the key. -/
def SamePicks (policy : BatchPolicy) (s : Impl) (now : TimePoint)
    (key : CompatibilityKey) : Prop :=
  s.SharesNoTenant policy now key ∨
    s.BelowCaps policy now key ∧ s.OneTenant policy now key

/-- The tenants with something to place under the key have the totals they
had. -/
def SameTotals (policy : BatchPolicy) (now : TimePoint) (s u : Impl)
    (key : CompatibilityKey) : Prop :=
  ∀ id ∈ s.offers policy now key,
    FairnessController.amount u.fairness.served (s.tenantOf id) =
        FairnessController.amount s.fairness.served (s.tenantOf id) ∧
      FairnessController.amount u.fairness.outstanding (s.tenantOf id) =
        FairnessController.amount s.fairness.outstanding (s.tenantOf id)

/-- Two runs of the filling loop have come equally far. -/
structure Alongside (policy : BatchPolicy) (now : TimePoint) (s : Impl)
    (key : CompatibilityKey) (bid bid' : BatchId)
    (others others' : List RequestId) (u : Impl) (cands : List RequestId)
    (u' : Impl) (cands' : List RequestId) : Prop where
  here : Filling policy now s u cands others
  there : Filling policy now s u' cands others'
  same : cands' = cands
  queued : ∀ id ∈ cands, id ∈ s.bucket key
  batch : ∃ b b', u.batches[bid]? = some b ∧ u'.batches[bid']? = some b' ∧
    b'.accum = b.accum ∧ b'.members = b.members
  totals : s.SharesNoTenant policy now key → ∀ id ∈ s.offers policy now key,
    FairnessController.amount u'.fairness.served (s.tenantOf id) =
        FairnessController.amount u.fairness.served (s.tenantOf id) ∧
      FairnessController.amount u'.fairness.outstanding (s.tenantOf id) =
        FairnessController.amount u.fairness.outstanding (s.tenantOf id)

theorem mem_offers {policy : BatchPolicy} {now : TimePoint} {s : Impl}
    {key : CompatibilityKey} {id : RequestId}
    (unregistered : s.formingByKey.contains key = false)
    (queued : id ∈ s.bucket key)
    (placeable : s.placeable policy now id = true) :
    id ∈ s.offers policy now key := by
  unfold offers
  rw [if_neg (by simp [unregistered])]
  exact List.mem_dedup.mpr (List.mem_filter.mpr ⟨queued, placeable⟩)

/-- A choice among tenants reads what each was served. -/
theorem selectNext_congr {fairness fairness' : FairnessController}
    {policy : FairnessPolicy} {candidates : List TenantId}
    (served : ∀ t ∈ candidates,
      FairnessController.amount fairness'.served t =
        FairnessController.amount fairness.served t) :
    fairness'.selectNext policy candidates =
      fairness.selectNext policy candidates := by
  by_cases none : candidates = []
  · rw [none]
    rfl
  · have rank : ∀ t ∈ candidates,
        fairness'.rank policy t = fairness.rank policy t := by
      intro t member
      unfold FairnessController.rank FairnessController.share
      rw [served t member]
    have member := fairness.selectNext_mem policy none
    have member' := fairness'.selectNext_mem policy none
    apply fairness.eq_of_rank_le policy
    · rw [← rank _ member', ← rank _ member]
      exact fairness'.rank_selectNext_le policy member
    · exact fairness.rank_selectNext_le policy member'

/-- Nor does it matter what one candidate alone was served. -/
theorem selectNext_of_one {fairness fairness' : FairnessController}
    {policy : FairnessPolicy} {candidates : List TenantId}
    (one : ∀ t ∈ candidates, ∀ t' ∈ candidates, t' = t) :
    fairness'.selectNext policy candidates =
      fairness.selectNext policy candidates := by
  by_cases none : candidates = []
  · rw [none]
    rfl
  · exact one _ (fairness.selectNext_mem policy none) _
      (fairness'.selectNext_mem policy none)

theorem mem_keys_groupBy {keyOf : RequestId → TenantId}
    {items : List RequestId} {t : TenantId}
    (listed : t ∈ (groupBy keyOf items).keys) :
    ∃ item ∈ items, keyOf item = t := by
  rw [Std.ExtTreeMap.mem_keys, Std.ExtTreeMap.mem_iff_isSome_getElem?]
    at listed
  obtain ⟨group, found⟩ := Option.isSome_iff_exists.mp listed
  obtain ⟨nonempty, members⟩ := mem_of_getElem?_groupBy found
  obtain ⟨item, member⟩ := List.exists_mem_of_ne_nil group nonempty
  exact ⟨item, members item member⟩

namespace Alongside

variable {policy : BatchPolicy} {now : TimePoint} {s : Impl}
  {key : CompatibilityKey} {bid bid' : BatchId}
  {others others' : List RequestId} {u u' : Impl}
  {cands cands' : List RequestId}

theorem fixed (alongside : Alongside policy now s key bid bid' others others'
    u cands u' cands') : SameFixed u.requests u'.requests :=
  alongside.here.fixed.symm.trans alongside.there.fixed

theorem agree (unregistered : s.formingByKey.contains key = false)
    (free : s.SamePicks policy now key)
    (alongside : Alongside policy now s key bid bid' others others' u cands u'
      cands') :
    u'.fillPick policy bid' cands' now = u.fillPick policy bid cands now := by
  obtain ⟨b, b', found, found', accum, members⟩ := alongside.batch
  have fixed := alongside.fixed
  have tenants := tenantOf_congr alongside.here.fixed
  have seen : ∀ id ∈ cands, (u'.requests[id]?).map RequestRec.seen =
      (u.requests[id]?).map RequestRec.seen := fun id member =>
    (alongside.there.seen id member).trans
      (alongside.here.seen id member).symm
  have capped : ∀ id ∈ cands, s.onOffer now id = true →
      u'.capped policy (s.tenantOf id) = u.capped policy (s.tenantOf id) := by
    intro id member offered
    rcases free with apart | ⟨below, _⟩
    · cases before : s.capped policy (s.tenantOf id) with
      | true =>
          rw [capped_congr (alongside.there.held _ before),
            capped_congr (alongside.here.held _ before)]
      | false =>
          apply capped_congr
          refine (alongside.totals apart id (mem_offers unregistered
            (alongside.queued id member) ?_)).2
          unfold placeable
          rw [offered, before]
          rfl
    · rw [alongside.there.capped unregistered alongside.queued below member
          offered,
        alongside.here.capped unregistered alongside.queued below member
          offered]
  rw [alongside.same]
  apply fillPick_congr fixed
  · rw [found, found']
    apply Option.Rel.some
    intro id member
    apply fillable_congr fixed (seen id member) accum (by rw [members])
    intro offered enabled
    rw [onOffer_congr (alongside.here.seen id member)] at offered
    have same := capped id member offered
    unfold Impl.capped at same
    rw [enabled, Bool.true_and, Bool.true_and] at same
    rw [tenants]
    exact same
  · intro b₀ found₀
    have listed : ∀ t ∈ (groupBy u.tenantOf
        (cands.filter (u.fillable policy b₀ now))).keys,
        ∃ id ∈ s.offers policy now key, s.tenantOf id = t := by
      intro t member
      obtain ⟨id, filtered, tenant⟩ := mem_keys_groupBy member
      obtain ⟨candidate, fillable⟩ := List.mem_filter.mp filtered
      rw [tenants] at tenant
      exact ⟨id, mem_offers unregistered (alongside.queued id candidate)
        (alongside.here.placeable candidate fillable), tenant⟩
    rcases free with apart | ⟨_, one⟩
    · apply selectNext_congr
      intro t member
      obtain ⟨id, offered, rfl⟩ := listed t member
      exact (alongside.totals apart id offered).1
    · apply selectNext_of_one
      intro t member t' member'
      obtain ⟨id, offered, rfl⟩ := listed t member
      obtain ⟨id', offered', rfl⟩ := listed t' member'
      exact one id offered id' offered'

theorem place (unregistered : s.formingByKey.contains key = false)
    (free : s.SamePicks policy now key)
    (alongside : Alongside policy now s key bid bid' others others' u cands u'
      cands') {pick : RequestId}
    (picked : u.fillPick policy bid cands now = some pick) :
    Alongside policy now s key bid bid' others others'
      (u.place bid key pick) (cands.filter (· ≠ pick))
      (u'.place bid' key pick) (cands'.filter (· ≠ pick)) := by
  have picked' := (alongside.agree unregistered free).trans picked
  rw [alongside.same] at picked'
  obtain ⟨b, b', found, found', accum, members⟩ := alongside.batch
  obtain ⟨_, _, _, fillable⟩ := fillPick_cases picked
  obtain ⟨r, request, _⟩ := fillable_cases fillable
  obtain ⟨r', request', metadata⟩ : ∃ r', u'.requests[pick]? = some r' ∧
      r'.metadata = r.metadata := by
    rcases alongside.fixed.found pick with
      ⟨missing, _⟩ | ⟨q, r', at_u, at_u', same⟩
    · rw [request] at missing
      cases missing
    · rw [request] at at_u
      cases at_u
      exact ⟨r', at_u', same.1⟩
  exact {
    here := alongside.here.place picked
    there := alongside.there.place picked'
    same := by rw [alongside.same]
    queued := fun id member =>
      alongside.queued id (List.mem_of_mem_filter member)
    batch := by
      refine ⟨b.addMember pick r.metadata, b'.addMember pick r'.metadata, ?_,
        ?_, ?_, ?_⟩
      · rw [place_eq request]
        dsimp only
        rw [getElem?_modify, if_pos rfl, found]
        rfl
      · rw [place_eq request']
        dsimp only
        rw [getElem?_modify, if_pos rfl, found']
        rfl
      · unfold BatchRec.addMember
        dsimp only
        rw [accum, members, metadata]
      · unfold BatchRec.addMember
        dsimp only
        rw [members]
    totals := by
      intro apart id offered
      have before := alongside.totals apart id offered
      rw [fairness_place, fairness_place,
        noteRequest_congr alongside.here.fixed,
        noteRequest_congr alongside.there.fixed]
      by_cases same : s.tenantOf pick = s.tenantOf id
      · unfold noteRequest
        cases s.requests[pick]? with
        | none => exact before
        | some q =>
            unfold FairnessController.notePlaced
            dsimp only
            simp only [FairnessController.amount_insert]
            by_cases own : q.metadata.tenant = s.tenantOf id
            · rw [own, if_pos rfl, if_pos rfl, if_pos rfl, if_pos rfl,
                before.1, before.2]
              exact ⟨rfl, rfl⟩
            · rw [if_neg own, if_neg own, if_neg own, if_neg own]
              exact before
      · have here := noteRequest_other (s := s) u.fairness same
        have there := noteRequest_other (s := s) u'.fairness same
        rw [here.1, here.2, there.1, there.2]
        exact before }

theorem fillPicks (unregistered : s.formingByKey.contains key = false)
    (free : s.SamePicks policy now key)
    (alongside : Alongside policy now s key bid bid' others others' u cands u'
      cands') (fuel : Nat) :
    Impl.fillPicks policy bid' key now fuel u' cands' =
      Impl.fillPicks policy bid key now fuel u cands :=
  fillPicks_lockstep
    (fun _ _ _ _ (alongside : Alongside policy now s key bid bid' others
      others' _ _ _ _) => alongside.agree unregistered free)
    (fun _ _ _ _ _ alongside picked =>
      alongside.place unregistered free picked) fuel alongside

end Alongside

/-! All requests on offer placed in one batch. -/

/-- What is in the batch and what is still to come is what was on offer. -/
structure Collecting (policy : BatchPolicy) (now : TimePoint) (s : Impl)
    (key : CompatibilityKey) (bid : BatchId) (others : List RequestId)
    (u : Impl) (cands done : List RequestId) : Prop where
  filling : Filling policy now s u cands others
  queued : ∀ id ∈ cands, id ∈ s.bucket key
  batch : ∃ b, u.batches[bid]? = some b ∧ b.members = done ∧
    b.accum = accumOf s.requests done
  known : ∀ id ∈ done, (s.requests[id]?).isSome = true
  whole : (done ++ (cands.filter (s.placeable policy now)).dedup).Perm
    (s.offers policy now key)

theorem amounts_toCandidate (d : Dimension) (r : RequestRec)
    (id : RequestId) :
    d.used (r.toCandidate id).amounts = d.amount r.metadata := by
  cases d <;> rfl

namespace HoldsAll

variable {policy : BatchPolicy} {requests : Map RequestId RequestRec}
  {members done : List RequestId} {id : RequestId} {r : RequestRec}

/-- Another member of the list fits. -/
theorem fits (holds : HoldsAll policy requests members)
    (part : (done ++ [id]).Subperm members) (found : requests[id]? = some r)
    {b : BatchRec} (accum : b.accum = accumOf requests done) :
    BatchFormer.fits b.toFormerBatch (r.toCandidate id)
      policy.constraints.budget = true := by
  unfold BatchFormer.fits BatchRec.toFormerBatch
  dsimp only
  rw [allowsAdd_iff]
  intro d limited
  obtain ⟨listed, permuted, sublist⟩ := part
  have total : d.total requests listed = d.total requests (done ++ [id]) := by
    unfold Dimension.total
    exact (permuted.map _).sum_eq
  have fewer : d.total requests listed ≤ d.total requests members :=
    d.total_le_of_sublist sublist
  have within := holds.budget d limited
  rw [total, d.total_append, d.total_singleton found] at fewer
  rw [amounts_toCandidate, accum, used_accumOf]
  calc (d.total requests done % d.modulus + d.amount r.metadata) % 2 ^ 64
      ≤ d.total requests done % d.modulus + d.amount r.metadata :=
        Nat.mod_le _ _
    _ ≤ d.total requests done + d.amount r.metadata :=
        Nat.add_le_add_right (Nat.mod_le _ _) _
    _ ≤ d.limit policy.constraints.budget := fewer.trans within

/-- Its tenant may have another member. -/
theorem below (holds : HoldsAll policy requests members)
    (part : (done ++ [id]).Subperm members) (found : requests[id]? = some r)
    (limited : policy.fairness.maxContributionPerBatch ≠ 0) :
    contribution requests done r.metadata.tenant <
      policy.fairness.maxContributionPerBatch.toNat := by
  obtain ⟨listed, permuted, sublist⟩ := part
  have fewer : contribution requests listed r.metadata.tenant ≤
      contribution requests members r.metadata.tenant :=
    contribution_le_of_sublist sublist r.metadata.tenant
  have count : contribution requests listed r.metadata.tenant =
      contribution requests (done ++ [id]) r.metadata.tenant :=
    permuted.countP_eq _
  have within := holds.tenants limited r.metadata.tenant
  rw [count, contribution_append, contribution_singleton found,
    if_pos rfl] at fewer
  omega

end HoldsAll

namespace Collecting

variable {policy : BatchPolicy} {now : TimePoint} {s : Impl}
  {key : CompatibilityKey} {bid : BatchId} {others : List RequestId}
  {u : Impl} {cands done : List RequestId} {id pick : RequestId}

theorem fillable (unregistered : s.formingByKey.contains key = false)
    (below : s.BelowCaps policy now key)
    (holds : HoldsAll policy s.requests (s.offers policy now key))
    (collecting : Collecting policy now s key bid others u cands done)
    (candidate : id ∈ cands) (placeable : s.placeable policy now id = true)
    {b : BatchRec} (found : u.batches[bid]? = some b) :
    u.fillable policy b now id = true := by
  obtain ⟨b', found', members, accum⟩ := collecting.batch
  rw [found] at found'
  cases found'
  have part : (done ++ [id]).Subperm (s.offers policy now key) := by
    apply List.Subperm.trans _ collecting.whole.subperm
    apply List.Sublist.subperm
    apply List.Sublist.append_left
    rw [List.singleton_sublist]
    exact List.mem_dedup.mpr (List.mem_filter.mpr ⟨candidate, placeable⟩)
  unfold Impl.placeable at placeable
  rw [Bool.and_eq_true, Bool.not_eq_true'] at placeable
  obtain ⟨offered, free⟩ := placeable
  have open' := collecting.filling.capped unregistered collecting.queued below
    candidate offered
  rw [free] at open'
  have stillOffered : u.onOffer now id = s.onOffer now id :=
    onOffer_congr (collecting.filling.seen id candidate)
  rw [offered] at stillOffered
  rcases found_of_seen (collecting.filling.seen id candidate) with
    ⟨missing, _⟩ | ⟨r, r', request, request', metadata, _⟩
  · unfold onOffer at offered
    rw [missing] at offered
    cases offered
  · have tenant : s.tenantOf id = r'.metadata.tenant := by
      unfold tenantOf
      rw [request, metadata]
    have fits := holds.fits part request (b := b) accum
    have within := holds.below part request
    unfold onOffer at stillOffered
    rw [request'] at stillOffered
    dsimp only at stillOffered
    rw [Bool.and_eq_true, Bool.not_eq_true'] at stillOffered
    obtain ⟨waiting, live⟩ := stillOffered
    unfold Impl.fillable
    rw [request']
    dsimp only
    rw [waiting, live, if_neg (by simp), if_neg (by simp)]
    rw [tenant] at open'
    unfold Impl.capped at open'
    rw [open', if_neg (by simp)]
    have counted : (policy.fairness.maxContributionPerBatch != 0 &&
        decide (u.countTenant b r'.metadata.tenant ≥
          policy.fairness.maxContributionPerBatch)) = false := by
      by_cases unlimited : policy.fairness.maxContributionPerBatch = 0
      · simp [unlimited]
      · have low := within unlimited
        rw [Bool.and_eq_false_iff]
        apply Or.inr
        apply decide_eq_false
        rw [ge_iff_le, UInt32.le_iff_toNat_le, countTenant_congr (s := s)
          collecting.filling.fixed (List.Perm.refl b.members), metadata]
        have count : (s.countTenant b r.metadata.tenant).toNat ≤
            contribution s.requests done r.metadata.tenant := by
          unfold countTenant contribution
          rw [members, UInt32.toNat_ofNat']
          exact Nat.mod_le _ _
        omega
    rw [counted, if_neg (by simp)]
    unfold BatchFormer.fits BatchFormer.Candidate.amounts
      RequestRec.toCandidate at fits ⊢
    rw [metadata]
    exact fits

theorem place (collecting : Collecting policy now s key bid others u cands
      done) (picked : u.fillPick policy bid cands now = some pick) :
    Collecting policy now s key bid others (u.place bid key pick)
      (cands.filter (· ≠ pick)) (done ++ [pick]) := by
  obtain ⟨b, found, members, accum⟩ := collecting.batch
  obtain ⟨_, _, candidate, fillable⟩ := fillPick_cases picked
  have placeable := collecting.filling.placeable candidate fillable
  obtain ⟨r', request', _⟩ := fillable_cases fillable
  obtain ⟨r, request, metadata, _⟩ :=
    collecting.filling.fixed.found_before request'
  exact {
    filling := collecting.filling.place picked
    queued := fun id member =>
      collecting.queued id (List.mem_of_mem_filter member)
    batch := by
      refine ⟨b.addMember pick r'.metadata, ?_, ?_, ?_⟩
      · rw [place_eq request']
        dsimp only
        rw [getElem?_modify, if_pos rfl, found]
        rfl
      · show b.members ++ [pick] = _
        rw [members]
      · rw [accumOf_concat request, ← accum, metadata]
        unfold BatchRec.addMember BatchAccum.add
        dsimp only
        congr 1
        rw [accum, count_accumOf, members, List.length_append,
          UInt32.ofNat_add]
        · rfl
        · intro id member
          exact Option.isSome_iff_exists.mp (collecting.known id member)
    known := by
      intro id member
      rcases List.mem_append.mp member with before | last
      · exact collecting.known id before
      · rw [List.mem_singleton.mp last, request]
        rfl
    whole := by
      apply List.Perm.trans _ collecting.whole
      rw [List.append_assoc]
      apply List.Perm.append_left
      apply (List.perm_ext_iff_of_nodup ?_ (List.nodup_dedup _)).mpr
      · intro id
        by_cases same : id = pick
        · subst same
          simp [candidate, placeable]
        · simp [same]
      · rw [List.singleton_append, List.nodup_cons]
        refine ⟨?_, List.nodup_dedup _⟩
        simp }

theorem fillPicks (unregistered : s.formingByKey.contains key = false)
    (below : s.BelowCaps policy now key)
    (holds : HoldsAll policy s.requests (s.offers policy now key))
    (collecting : Collecting policy now s key bid others u cands done)
    {fuel : Nat} (enough : cands.length ≤ fuel) :
    (done ++ Impl.fillPicks policy bid key now fuel u cands).Perm
      (s.offers policy now key) := by
  induction fuel generalizing u cands done with
  | zero =>
      have whole := collecting.whole
      rw [List.eq_nil_of_length_eq_zero (Nat.le_zero.mp enough)] at whole
      exact whole
  | succ fuel induction =>
      unfold Impl.fillPicks
      cases picked : u.fillPick policy bid cands now with
      | none =>
          obtain ⟨b, found, _⟩ := collecting.batch
          have nothing : cands.filter (s.placeable policy now) = [] := by
            rw [List.filter_eq_nil_iff]
            intro id candidate placeable
            have some := fillPick_isSome found candidate
              (collecting.fillable unregistered below holds candidate
                placeable found)
            rw [picked] at some
            cases some
          have whole := collecting.whole
          rw [nothing] at whole
          exact whole
      | some pick =>
          obtain ⟨_, _, candidate, _⟩ := fillPick_cases picked
          have rest := induction (collecting.place picked) (by
            have shorter : (cands.filter (· ≠ pick)).length < cands.length :=
              List.length_filter_lt_length_iff_exists.mpr
                ⟨pick, candidate, by simp⟩
            omega)
          rw [List.append_assoc] at rest
          exact rest

end Collecting

end BatchFabric.Impl
