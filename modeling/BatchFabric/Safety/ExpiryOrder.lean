import BatchFabric.Library.Renaming
import BatchFabric.Safety.Expiry

namespace BatchFabric.Impl

open OrderedMap

/-! An expiry leaves one state, in whatever order the buckets come. -/

theorem enumerate_perm (index : CompatibilityIndex)
    (order order' : List CompatibilityKey) :
    (index.enumerate order).Perm (index.enumerate order') :=
  (List.perm_insertionSort _ _).trans (List.perm_insertionSort _ _).symm

section Commuting

variable {s : Impl} {id : RequestId} {r : RequestRec}

theorem expireWaiting_missing (missing : s.requests[id]? = none)
    (now : TimePoint) : expireWaiting now s id = s := by
  unfold expireWaiting
  rw [missing]

theorem expireWaiting_ended (found : s.requests[id]? = some r)
    (ended : isRequestTerminal r.state = true) (now : TimePoint) :
    expireWaiting now s id =
      { s with waitingIndex := s.waitingIndex.remove r.key id } := by
  unfold expireWaiting completeRequestTerminal
  simp [found, ended]

theorem expireWaiting_live (found : s.requests[id]? = some r)
    (live : isRequestTerminal r.state = false) (now : TimePoint) :
    expireWaiting now s id =
      { s with
        waitingIndex := s.waitingIndex.remove r.key id
        requests := s.requests.modify id fun r =>
          { r with state := .expired, inWaiting := false }
        attempts := s.attempts.modify r.currentAttempt fun a =>
          a.finish .expired .expired now
        stats.expired := s.stats.expired + 1 } := by
  unfold expireWaiting completeRequestTerminal
  simp [found, live]

theorem expireWaiting_comm (now : TimePoint) (s : Impl) (x y : RequestId) :
    expireWaiting now (expireWaiting now s x) y =
      expireWaiting now (expireWaiting now s y) x := by
  by_cases same : x = y
  · rw [same]
  have laterY := expireWaiting_other same s now
  have laterX := expireWaiting_other (Ne.symm same) s now
  cases foundX : s.requests[x]? with
  | none =>
      rw [foundX] at laterX
      rw [expireWaiting_missing foundX, expireWaiting_missing laterX]
  | some r =>
      cases foundY : s.requests[y]? with
      | none =>
          rw [foundY] at laterY
          rw [expireWaiting_missing foundY, expireWaiting_missing laterY]
      | some q =>
          rw [foundX] at laterX
          rw [foundY] at laterY
          have removed := CompatibilityIndex.remove_comm s.waitingIndex r.key
            q.key x y
          cases endedX : isRequestTerminal r.state with
          | true =>
              rw [expireWaiting_ended laterX endedX]
              cases endedY : isRequestTerminal q.state with
              | true =>
                  rw [expireWaiting_ended laterY endedY,
                    expireWaiting_ended foundX endedX,
                    expireWaiting_ended foundY endedY, removed]
              | false =>
                  rw [expireWaiting_live laterY endedY,
                    expireWaiting_ended foundX endedX,
                    expireWaiting_live foundY endedY, removed]
          | false =>
              rw [expireWaiting_live laterX endedX]
              cases endedY : isRequestTerminal q.state with
              | true =>
                  rw [expireWaiting_ended laterY endedY,
                    expireWaiting_live foundX endedX,
                    expireWaiting_ended foundY endedY, removed]
              | false =>
                  rw [expireWaiting_live laterY endedY,
                    expireWaiting_live foundX endedX,
                    expireWaiting_live foundY endedY, removed,
                    modify_comm s.requests x y fun _ => rfl,
                    modify_comm s.attempts r.currentAttempt q.currentAttempt
                      fun _ => rfl]

end Commuting

theorem expireLocked_order (policy : BatchPolicy) (s : Impl)
    (order order' : List CompatibilityKey) (now : TimePoint) :
    s.expireLocked policy order now = s.expireLocked policy order' now := by
  have expired : s.queuesExpired order now = s.queuesExpired order' now := by
    have permuted : (s.expiredWaiting order now).Perm
        (s.expiredWaiting order' now) :=
      (enumerate_perm s.waitingIndex order order').flatMap_right _
    apply permuted.foldl_eq'
    intro x _ y _ current
    exact expireWaiting_comm now current x y
  rw [expireLocked_eq, expireLocked_eq, expired]

end BatchFabric.Impl
