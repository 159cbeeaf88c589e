import Wayring.Codec.Signature
import Wayring.Transport.FdStream

/-!
# Descriptors of decoded messages

A decoder pops the descriptors of its message from the front of a queue, in the
order of the arguments, or leaves the queue as it was.
-/

namespace Wayring
namespace Codec

variable {queue : FdQueue} {fds : SharedFds} {items : List Fd}
  {chain : List Nat} {signature : Signature}

theorem fdCount_fd (rest : Signature) :
    fdCount (.fd :: rest) = fdCount rest + 1 := by
  simp [fdCount]

theorem fdCount_other
    {type : ArgumentType}
    (other : type ≠ .fd)
    (rest : Signature) : fdCount (type :: rest) = fdCount rest := by
  simp [fdCount, other]

theorem Payload.fds_other
    {type : ArgumentType}
    (other : type ≠ .fd)
    {rest : Signature}
    (payload : Payload (type :: rest)) :
    Payload.fds (type :: rest) payload = Payload.fds rest payload.2 := by
  cases type <;> first | rfl | exact absurd rfl other

/-- Completing other arguments pops nothing. -/
theorem popField_other
    {type : ArgumentType}
    (other : type ≠ .fd)
    (value : type.Read) (queue : FdQueue) (fds : SharedFds) :
    ∃ field, popField type value queue fds = (.ok field, queue, fds) := by
  cases type with
  | fd => exact absurd rfl other
  | _ => exact ⟨_, rfl⟩

/-- With enough descriptors queued, every argument gets its own. -/
theorem popFields_spec
    {values : Decoded signature}
    (stores : queue.Stores fds items chain)
    (wellFormed : fds.WellFormed)
    (enough : fdCount signature ≤ items.length) :
    ∃ payload next after,
      popFields signature values queue fds = (.ok payload, next, after) ∧
      Payload.fds signature payload = items.take (fdCount signature) ∧
      next.Stores after (items.drop (fdCount signature))
        (chain.drop (fdCount signature)) ∧
      FdQueue.Step fds after chain (chain.drop (fdCount signature)) ∧
      next.budget = queue.budget := by
  induction signature generalizing queue fds items chain with
  | nil =>
      exact ⟨(), queue, fds, rfl, rfl, stores, .refl wellFormed _, rfl⟩
  | cons type rest pop_ih =>
      by_cases descriptor : type = .fd
      · subst descriptor
        rw [fdCount_fd] at enough ⊢
        cases items with
        | nil => simp at enough
        | cons fd items =>
            obtain ⟨next, after, popped, storesNow, step, budget, _⟩ :=
              FdQueue.pop_spec stores wellFormed
            obtain ⟨payload, last, final, rested, same, storesLast, more,
              budgetLast⟩ := @pop_ih next after items chain.tail values.2
              storesNow step.wellFormed (by simpa using enough)
            rw [List.drop_tail] at storesLast more
            refine ⟨(fd, payload), last, final, ?_, ?_, storesLast,
              step.trans more, budgetLast.trans budget⟩
            · simp only [popFields, popField, popped, rested, Except.map]
            · rw [List.take_succ_cons, ← same]
              rfl
      · rw [fdCount_other descriptor] at enough ⊢
        obtain ⟨field, kept⟩ := popField_other descriptor values.1 queue fds
        obtain ⟨payload, last, final, rested, same, storesLast, more,
          budget⟩ := @pop_ih queue fds items chain values.2 stores wellFormed
          enough
        refine ⟨(field, payload), last, final, ?_, ?_, storesLast, more,
          budget⟩
        · simp only [popFields, kept, rested, Except.map]
        · exact (Payload.fds_other descriptor _).trans same

/-- Decoding succeeds with the first descriptors of the queue, or leaves the
queue as it was. -/
theorem decode_spec
    [Native]
    {validation : Validation} {bytes : List UInt8}
    (stores : queue.Stores fds items chain)
    (wellFormed : fds.WellFormed) :
    let outcome := decode signature validation bytes queue fds
    match outcome.1 with
    | .error _ => outcome.2 = (queue, fds)
    | .ok payload => fdCount signature ≤ items.length ∧
        Payload.fds signature payload = items.take (fdCount signature) ∧
        outcome.2.1.Stores outcome.2.2 (items.drop (fdCount signature))
          (chain.drop (fdCount signature)) ∧
        FdQueue.Step fds outcome.2.2 chain (chain.drop (fdCount signature)) ∧
        outcome.2.1.budget = queue.budget := by
  intro outcome
  cases result : read signature validation bytes with
  | error cause =>
      have same : outcome = (.error cause, queue, fds) := by
        simp only [outcome, decode, result]
      rw [same]
  | ok values =>
      by_cases short : 0 < fdCount signature ∧ queue.count < fdCount signature
      · have same : outcome = (.error .empty, queue, fds) := by
          simp only [outcome, decode, result, if_pos short]
        rw [same]
      · have enough : fdCount signature ≤ items.length := by
          rw [← stores.count]
          omega
        obtain ⟨payload, next, after, popped, spec⟩ :=
          @popFields_spec queue fds items chain signature values stores
            wellFormed enough
        have same : outcome = (.ok payload, next, after) := by
          simp only [outcome, decode, result, if_neg short, popped]
        rw [same]
        exact ⟨enough, spec⟩

end Codec
end Wayring
