import Wayring.Codec.Signature
import Wayring.Transport.QueueStream

/-!
# Encoding

A message is put on a queue as a whole: its header, its arguments, and its
descriptors.  A message that does not fit leaves the queue as it was.
-/

namespace Wayring
namespace Codec

open Tx.Queue (Stores Reserving Enqueued)
open Storage (Step)

variable {queue : Tx.Queue} {storage : Storage} {bytes written : List UInt8}
  {fds : List Fd} {chain newChain fdChain : List Nat}
  {reservation : Tx.Reservation}

/-- Pieces are written one behind the other, as far as they fit. -/
theorem writeAll_spec
    (reserving : Reserving queue storage reservation bytes written fds chain
      newChain fdChain)
    (wellFormed : storage.WellFormed)
    (pieces : List (List UInt8)) :
    let outcome := writeAll pieces reservation storage.blocks
    let after := { storage with blocks := outcome.2.2 }
    Step storage after (chain ++ newChain) (chain ++ newChain) fdChain
        fdChain ∧
      outcome.2.1.byteCount = reservation.byteCount ∧
      ∃ writtenNow,
        Reserving queue after outcome.2.1 bytes writtenNow fds chain newChain
          fdChain ∧
        match outcome.1 with
        | .error cause => cause = .reservationOverflow ∧
            reservation.byteCount < written.length + pieces.flatten.length
        | .ok _ => writtenNow = written ++ pieces.flatten := by
  induction pieces generalizing storage reservation written with
  | nil =>
      exact ⟨Step.refl wellFormed _ _, rfl, written, reserving,
        (List.append_nil _).symm⟩
  | cons piece pieces write_ih =>
      obtain ⟨step, byteCount, result⟩ := reserving.write piece wellFormed
      unfold writeAll
      generalize reservation.write storage.blocks piece = outcome
        at step byteCount result ⊢
      obtain ⟨result', next, blocks⟩ := outcome
      cases result' with
      | error cause =>
          obtain ⟨overflow, exceeds, same⟩ := result
          cases same
          refine ⟨step, rfl, written, reserving, overflow, ?_⟩
          rw [List.flatten_cons, List.length_append]
          exact exceeds.trans_le (by omega)
      | ok _ =>
          obtain ⟨_, reservingNow⟩ := result
          obtain ⟨later, laterCount, writtenNow, last, outcome⟩ :=
            write_ih reservingNow step.wellFormed
          refine ⟨step.trans later, laterCount.trans byteCount, writtenNow, last,
            ?_⟩
          simp only at outcome byteCount ⊢
          generalize (writeAll pieces next blocks).1 = result at outcome ⊢
          cases result with
          | error cause =>
              refine ⟨outcome.1, ?_⟩
              have exceeds := outcome.2
              rw [byteCount, List.length_append] at exceeds
              rw [List.flatten_cons, List.length_append]
              omega
          | ok _ => rw [outcome, List.flatten_cons, List.append_assoc]

variable [Native]

/-- A reserved message is queued as a whole, or stays reserved. -/
theorem fill_spec
    {header : Wire.Header} {pieces : List (List UInt8)} {added : List Fd}
    {room : Nat}
    (reserving : Reserving queue storage reservation bytes [] fds chain
      newChain fdChain)
    (wellFormed : storage.WellFormed) :
    let outcome := fill reservation queue storage header pieces added room
    match outcome.1 with
    | .error _ => outcome.2.2.1 = queue ∧ ∃ writtenNow,
        Reserving queue outcome.2.2.2 outcome.2.1 bytes writtenNow fds chain
          newChain fdChain ∧
        Step storage outcome.2.2.2 (chain ++ newChain) (chain ++ newChain)
          fdChain fdChain
    | .ok _ => ∃ headerBytes fdChainNow,
        header.encode = .ok headerBytes ∧
        (headerBytes ++ pieces.flatten).length = reservation.byteCount ∧
        Stores outcome.2.2.1 outcome.2.2.2
          (bytes ++ (headerBytes ++ pieces.flatten)) (fds ++ added)
          (chain ++ newChain) fdChainNow ∧
        Step storage outcome.2.2.2 (chain ++ newChain) (chain ++ newChain)
          fdChain fdChainNow ∧
        outcome.2.2.1.byteBudget = queue.byteBudget ∧
        outcome.2.2.1.descriptors.budget = queue.descriptors.budget ∧
        outcome.2.2.1.active = queue.active ∧
        outcome.2.2.1.headOffset = queue.headOffset := by
  intro outcome
  cases encoded : header.encode with
  | error cause =>
      have same : outcome = (.error cause, reservation, queue, storage) := by
        simp only [outcome, fill, encoded]
      rw [same]
      exact ⟨rfl, [], reserving, Step.refl wellFormed _ _⟩
  | ok headerBytes =>
      obtain ⟨step, byteCount, writtenNow, reservingNow, result⟩ :=
        writeAll_spec reserving wellFormed (headerBytes :: pieces)
      generalize wrote : writeAll (headerBytes :: pieces) reservation
        storage.blocks = outcome' at step byteCount reservingNow result
      obtain ⟨result', next, blocks⟩ := outcome'
      cases result' with
      | error cause =>
          have same : outcome =
              (.error cause, next, queue, { storage with blocks }) := by
            simp only [outcome, fill, encoded, wrote]
          rw [same]
          exact ⟨rfl, writtenNow, reservingNow, step⟩
      | ok _ =>
          simp only at result byteCount reservingNow step
          subst result
          have same : outcome =
              next.commit queue { storage with blocks } added room := by
            simp only [outcome, fill, encoded, wrote]
          rw [same]
          have committed := reservingNow.commit added room step.wellFormed
          generalize next.commit queue { storage with blocks } added room =
            commit at committed ⊢
          obtain ⟨result', last, queueNow, after⟩ := commit
          cases result' with
          | error cause =>
              obtain ⟨_, rfl, rfl, reservingLast, later⟩ := committed
              exact ⟨rfl, _, reservingLast, step.trans later⟩
          | ok _ =>
              obtain ⟨fdChainNow, complete, _, _, stores, later, budgets⟩ :=
                committed
              exact ⟨headerBytes, fdChainNow, rfl, complete.trans byteCount,
                stores, step.trans later, budgets⟩

/-- The bytes of a message. -/
def frame
    (signature : Signature)
    (headerBytes : List UInt8)
    (payload : Payload signature) : List UInt8 :=
  headerBytes ++ (encodeFields signature payload).flatten

/-- A message is queued as a whole, or the queue stays as it was. -/
theorem encode_spec
    {signature : Signature} {opcode : Nat} {objectId : UInt32}
    {payload : Payload signature} {room : Tx.Room}
    (stores : Stores queue storage bytes fds chain fdChain)
    (wellFormed : storage.WellFormed) :
    let outcome := encode signature opcode queue storage objectId payload room
    match outcome.1 with
    | .error _ => outcome.2.1 = queue ∧
        Stores queue outcome.2.2 bytes fds chain fdChain ∧
        Step storage outcome.2.2 chain chain fdChain fdChain
    | .ok _ => ∃ size headerBytes more fdChainNow,
        messageSize signature payload = .ok size ∧
        Wire.Header.encode { objectId := objectId.toNat, opcode, size } =
          .ok headerBytes ∧
        (frame signature headerBytes payload).length = size ∧
        Enqueued queue outcome.2.1 storage outcome.2.2 bytes
          (frame signature headerBytes payload) fds
          (Payload.fds signature payload) chain more fdChain fdChainNow := by
  intro outcome
  by_cases null : objectId = 0
  · have same : outcome = (.error .nullSender, queue, storage) := by
      simp only [outcome, encode, if_pos null]
    rw [same]
    exact ⟨rfl, stores, Step.refl wellFormed _ _⟩
  cases sized : messageSize signature payload with
  | error cause =>
      have same : outcome = (.error cause, queue, storage) := by
        simp only [outcome, encode, if_neg null, sized]
      rw [same]
      exact ⟨rfl, stores, Step.refl wellFormed _ _⟩
  | ok size =>
      have reserved := @Tx.Queue.reserve_stores queue storage bytes fds chain
        fdChain size room.blocks stores wellFormed
      generalize reserve : queue.reserve storage.blocks size room.blocks =
        reserveOutcome at reserved
      obtain ⟨result, opened, blocks⟩ := reserveOutcome
      cases result with
      | error cause =>
          obtain ⟨_, rfl, storesNow, step⟩ := reserved
          have same : outcome =
              (.error cause, opened, { storage with blocks }) := by
            simp only [outcome, encode, if_neg null, sized, reserve]
          rw [same]
          exact ⟨rfl, storesNow, step⟩
      | ok reservation =>
          obtain ⟨newChain, rfl, byteCount, reserving, step⟩ := reserved
          have filled := @fill_spec _ _ _ _ _ _ _ _ _
            { objectId := objectId.toNat, opcode, size }
            (encodeFields signature payload) (Payload.fds signature payload)
            room.fds reserving step.wellFormed
          generalize fillEq : fill reservation
            { queue with reservationActive := true } { storage with blocks }
            { objectId := objectId.toNat, opcode, size }
            (encodeFields signature payload) (Payload.fds signature payload)
            room.fds = fillOutcome at filled
          obtain ⟨result, next, queueNow, after⟩ := fillOutcome
          cases result with
          | error cause =>
              obtain ⟨rfl, writtenNow, reservingNow, later⟩ := filled
              obtain ⟨blocksNow, aborted, storesNow, last⟩ :=
                reservingNow.abort later.wellFormed
              have restored :
                  ({ queue with reservationActive := false } : Tx.Queue) =
                    queue := by
                rw [← stores.settled]
              have same : outcome =
                  (.error cause, queue, { after with blocks := blocksNow }) := by
                simp only [outcome, encode, if_neg null, sized, reserve,
                  fillEq, aborted]
                rw [restored]
              rw [same]
              simp only at storesNow
              rw [restored] at storesNow
              exact ⟨rfl, storesNow, (step.trans later).trans last⟩
          | ok _ =>
              obtain ⟨headerBytes, fdChainNow, encoded, length, storesNow, later,
                byteBudget, descriptorBudget, active, headOffset⟩ := filled
              have same : outcome = (.ok (), queueNow, after) := by
                simp only [outcome, encode, if_neg null, sized, reserve, fillEq]
              rw [same]
              exact ⟨size, headerBytes, newChain, fdChainNow, rfl, encoded,
                length.trans byteCount,
                { stores := storesNow
                  step := step.trans later
                  byteBudget, descriptorBudget, active, headOffset }⟩

/-- No message is put on a queue while a reservation is unfinished. -/
theorem encode_unsettled
    {queue : Tx.Queue} {storage : Storage} {signature : Signature}
    (opcode : Nat)
    (objectId : UInt32)
    (payload : Payload signature)
    (room : Tx.Room)
    (unsettled : queue.reservationActive = true) :
    ∃ cause, encode signature opcode queue storage objectId payload room =
      (.error cause, queue, storage) := by
  simp only [encode]
  split_ifs
  · exact ⟨_, rfl⟩
  cases messageSize signature payload with
  | error cause => exact ⟨_, rfl⟩
  | ok size =>
      simp only [Tx.Queue.reserve_unsettled storage.blocks size room.blocks
        unsettled]
      exact ⟨_, rfl⟩

/-- The bytes of a message. -/
def message
    (signature : Signature)
    (opcode : Nat)
    (objectId : UInt32)
    (payload : Payload signature) : Except Error (List UInt8) := do
  let size ← messageSize signature payload
  let header ← Wire.Header.encode { objectId := objectId.toNat, opcode, size }
  .ok (frame signature header payload)

/-- The queue holds what it held, or one more message. -/
theorem encode_whole
    {signature : Signature} {opcode : Nat} {objectId : UInt32}
    {payload : Payload signature} {room : Tx.Room}
    (stores : Stores queue storage bytes fds chain fdChain)
    (wellFormed : storage.WellFormed) :
    let outcome := encode signature opcode queue storage objectId payload room
    outcome.2.2.WellFormed ∧
      match outcome.1 with
      | .error _ => outcome.2.1 = queue ∧
          Stores queue outcome.2.2 bytes fds chain fdChain
      | .ok _ => ∃ text chainNow fdChainNow,
          message signature opcode objectId payload = .ok text ∧
            Stores outcome.2.1 outcome.2.2 (bytes ++ text)
              (fds ++ Payload.fds signature payload) chainNow fdChainNow := by
  have spec := @encode_spec _ _ _ _ _ _ _ signature opcode objectId payload room
    stores wellFormed
  simp only at spec ⊢
  generalize encode signature opcode queue storage objectId payload room =
    outcome at spec ⊢
  obtain ⟨result, queueNow, storageNow⟩ := outcome
  cases result with
  | error cause =>
      obtain ⟨same, storesNow, step⟩ := spec
      exact ⟨step.wellFormed, same, storesNow⟩
  | ok _ =>
      obtain ⟨size, headerBytes, more, fdChainNow, sized, headed, _, enqueued⟩ :=
        spec
      refine ⟨enqueued.step.wellFormed, frame signature headerBytes payload, _, _,
        ?_, enqueued.stores⟩
      simp only [message, sized, headed, bind, Except.bind]

end Codec
end Wayring
