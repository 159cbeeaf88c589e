import Wayring.Transport.FdStream

/-!
# Received rights

The descriptors of received control records go to a queue all together, or are
closed.
-/

namespace Wayring
namespace Ancillary

variable [Native] {queue : FdQueue} {fds : SharedFds} {items : List Fd}
  {chain : List Nat}

/-- The descriptors of all well-formed records from the start on. -/
def rightsOf (control : List UInt8) : List Fd :=
  (RightsIterator.collect control).1

/-- Taking received descriptors in: all of them are appended, or all of them
are closed and the queue stays as it was. -/
theorem enqueueRights_spec
    {control : List UInt8} {room : Nat}
    (stores : queue.Stores fds items chain)
    (wellFormed : fds.WellFormed) :
    let outcome := enqueueRights control queue fds room
    match outcome.1 with
    | .error _ => outcome.2.1 = rightsOf control ∧ outcome.2.2.1 = queue ∧
        queue.Stores outcome.2.2.2 items chain ∧
        FdQueue.Step fds outcome.2.2.2 chain chain
    | .ok count => ∃ chainNow,
        (RightsIterator.collect control).2 = .ok () ∧
        count = (rightsOf control).length ∧
        outcome.2.1 = [] ∧
        outcome.2.2.1.Stores outcome.2.2.2 (items ++ rightsOf control)
          chainNow ∧
        FdQueue.Step fds outcome.2.2.2 chain chainNow ∧
        outcome.2.2.1.budget = queue.budget := by
  intro outcome
  cases collected : RightsIterator.collect control with
  | mk rights result =>
      have same : rightsOf control = rights := by rw [rightsOf, collected]
      have closed : closeRights control = rights := by
        rw [closeRights, collected]
      rw [same]
      cases result with
      | error cause =>
          have outcomeEq : outcome = (.error cause, rights, queue, fds) := by
            simp only [outcome, enqueueRights, collected, closed]
          rw [outcomeEq]
          exact ⟨rfl, rfl, stores, .refl wellFormed _⟩
      | ok _ =>
          by_cases none : rights.length = 0
          · have outcomeEq : outcome = (.ok 0, [], queue, fds) := by
              simp only [outcome, enqueueRights, collected, if_pos none]
            have noRights : rights = [] := List.length_eq_zero_iff.mp none
            subst noRights
            rw [outcomeEq]
            exact ⟨chain, rfl, rfl, rfl, by simpa using stores,
              .refl wellFormed _, rfl⟩
          · obtain ⟨step, storesNow, _, _, enough⟩ :=
              @FdQueue.ensureCapacity_spec queue fds items chain rights.length
                room stores wellFormed
            cases ensured : queue.ensureCapacity fds rights.length room with
            | mk answer grown =>
                rw [ensured] at step storesNow enough
                simp only at step storesNow enough
                cases answer with
                | error cause =>
                    have outcomeEq : outcome =
                        (.error cause, rights, queue, grown) := by
                      simp only [outcome, enqueueRights, collected,
                        if_neg none, ensured, closed]
                    rw [outcomeEq]
                    exact ⟨rfl, rfl, storesNow, step⟩
                | ok _ =>
                    obtain ⟨fits, available⟩ := enough rfl
                    obtain ⟨next, after, chainNow, appended, storesLast,
                      stepLast, budget, _⟩ := FdQueue.appendAll_spec storesNow
                      step.wellFormed fits available
                    have outcomeEq : outcome =
                        (.ok rights.length, [], next, after) := by
                      simp only [outcome, enqueueRights, collected,
                        if_neg none, ensured, appended]
                    rw [outcomeEq]
                    exact ⟨chainNow, rfl, rfl, rfl, storesLast,
                      step.trans stepLast, budget⟩

omit [Native] in
/-- Discarding closes descriptors from the front, or fails without an
effect. -/
theorem discard_spec
    {count : Nat}
    (stores : queue.Stores fds items chain)
    (wellFormed : fds.WellFormed) :
    let outcome := queue.discard fds count
    match outcome.1 with
    | .error _ => outcome.2 = (queue, fds)
    | .ok closed => closed = items.take count ∧
        outcome.2.1.Stores outcome.2.2 (items.drop count) (chain.drop count) ∧
        FdQueue.Step fds outcome.2.2 chain (chain.drop count) ∧
        outcome.2.1.budget = queue.budget := by
  intro outcome
  by_cases short : queue.count < count
  · have same : outcome = (.error .empty, queue, fds) := by
      simp only [outcome, FdQueue.discard, if_pos short]
    rw [same]
  · obtain ⟨next, after, closed, storesNow, step, budget, _⟩ :=
      FdQueue.popAndClose_spec stores wellFormed
        (show count ≤ items.length by rw [← stores.count]; omega)
    have same : outcome = (.ok (items.take count), next, after) := by
      simp only [outcome, FdQueue.discard, if_neg short, closed]
    rw [same]
    exact ⟨rfl, storesNow, step, budget⟩

end Ancillary
end Wayring
