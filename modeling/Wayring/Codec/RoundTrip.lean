import Wayring.Codec.Frames
import Wayring.Transport.DirectEncoding

/-!
# Round trips

A message that is encoded is decoded again: its header by the framer, its
arguments by the decoder of its signature, and its descriptors from the front of
the receiver's queue.
-/

namespace Wayring
namespace Codec

/-! ## Queued messages -/

section Queueing

open Tx.Queue (Stores Reserving)

variable [Native] {queue : Tx.Queue} {storage : Storage} {bytes : List UInt8}
  {fds : List Fd} {chain newChain fdChain : List Nat} {signature : Signature}
  {opcode size : Nat} {objectId : UInt32} {payload : Payload signature}
  {room : Tx.Room} {reservation : Tx.Reservation}

/-- A reserved message of the right length is queued if there is room for its
descriptors. -/
theorem fill_ok_iff
    {header : Wire.Header} {headerBytes : List UInt8}
    {pieces : List (List UInt8)} {added : List Fd} {fdRoom : Nat}
    (reserving : Reserving queue storage reservation bytes [] fds chain
      newChain fdChain)
    (wellFormed : storage.WellFormed)
    (headed : header.encode = .ok headerBytes)
    (complete : headerBytes.length + pieces.flatten.length =
      reservation.byteCount) :
    (fill reservation queue storage header pieces added fdRoom).1 = .ok () ↔
      (queue.descriptors.ensureCapacity storage.fds added.length fdRoom).1 =
        .ok () := by
  obtain ⟨step, sameCount, written, reservingNow, result⟩ :=
    writeAll_spec reserving wellFormed (headerBytes :: pieces)
  simp only [fill, headed]
  generalize writeAll (headerBytes :: pieces) reservation storage.blocks =
    outcome at step sameCount reservingNow result ⊢
  obtain ⟨answer, reservationNow, blocks⟩ := outcome
  cases answer with
  | error cause =>
      obtain ⟨_, exceeds⟩ := result
      rw [List.length_nil, List.flatten_cons, List.length_append] at exceeds
      omega
  | ok _ =>
      simp only at result sameCount reservingNow step ⊢
      have whole : written.length = reservationNow.byteCount := by
        rw [result, List.nil_append, List.flatten_cons, List.length_append,
          sameCount, complete]
      have fd_iff := @Tx.Queue.descriptorRoom_ok_iff fds added fdChain fdRoom
        storage.fds queue.descriptors reserving.descriptors wellFormed.fds
      generalize ensured : (if added.length ≠ 0 then
          queue.descriptors.ensureCapacity storage.fds added.length fdRoom
        else (.ok (), storage.fds)) = answer at fd_iff
      obtain ⟨fdResult, fdsNow⟩ := answer
      rw [← fd_iff]
      cases fdResult with
      | error cause =>
          rw [reservingNow.commit_refused whole ensured]
      | ok _ =>
          obtain ⟨last, next, after, fdChainNow, committed, _⟩ :=
            reservingNow.commit_granted step.wellFormed whole ensured
          rw [committed]

/-- A message is queued if it has a sender and a size, and if the queue has
room for it. -/
theorem encode_ok_iff
    (stores : Stores queue storage bytes fds chain fdChain)
    (wellFormed : storage.WellFormed) :
    (encode signature opcode queue storage objectId payload room).1 =
        .ok () ↔
      objectId ≠ 0 ∧ ∃ size, messageSize signature payload = .ok size ∧
        queue.Admits storage size (Payload.fds signature payload).length
          room := by
  by_cases null : objectId = 0
  · simp [encode, null]
  cases sized : messageSize signature payload with
  | error cause => simp [encode, null, sized]
  | ok size =>
      simp only [Except.ok.injEq, exists_eq_left', ne_eq, null,
        not_false_eq_true, true_and, encode, sized, if_false]
      have reserve_iff := @Tx.Queue.reserve_ok_iff queue storage bytes fds
        chain fdChain size room.blocks stores wellFormed (messageSize_pos sized)
      have reserved := @Tx.Queue.reserve_stores queue storage bytes fds chain
        fdChain size room.blocks stores wellFormed
      generalize queue.reserve storage.blocks size room.blocks = outcome
        at reserve_iff reserved ⊢
      obtain ⟨answer, opened, blocks⟩ := outcome
      cases answer with
      | error cause =>
          simp only [reduceCtorEq, exists_false, false_iff] at reserve_iff ⊢
          exact fun admits => reserve_iff ⟨admits.1, admits.2.2⟩
      | ok reservation =>
          obtain ⟨budget, available⟩ := reserve_iff.mp ⟨_, rfl⟩
          obtain ⟨newChain, rfl, byteCount, reserving, step⟩ := reserved
          have whole := (messageSize_eq sized).1
          have filled_iff := @fill_ok_iff _ _ _ _ _ _ _ _ reservation
            { objectId := objectId.toNat, opcode, size } _
            (encodeFields signature payload) (Payload.fds signature payload)
            room.fds reserving step.wellFormed (header_encode sized opcode null)
            (by
              rw [List.length_append, length_word, length_word, byteCount,
                whole]
              rfl)
          simp only
          generalize fill reservation
            { queue with reservationActive := true } { storage with blocks }
            { objectId := objectId.toNat, opcode, size }
            (encodeFields signature payload) (Payload.fds signature payload)
            room.fds = outcome at filled_iff ⊢
          obtain ⟨answer, last, next, after⟩ := outcome
          have admits_iff : queue.Admits storage size
              (Payload.fds signature payload).length room ↔
              (queue.descriptors.ensureCapacity storage.fds
                (Payload.fds signature payload).length room.fds).1 = .ok () :=
            ⟨fun admits => admits.2.1, fun enough => ⟨budget, enough, available⟩⟩
          rw [admits_iff]
          cases answer with
          | error cause => exact filled_iff
          | ok _ => exact filled_iff

/-- What is queued is a frame of the size that was announced, in whole words,
that a framer takes off the front of any bytes. -/
theorem encode_delivers
    (stores : Stores queue storage bytes fds chain fdChain)
    (wellFormed : storage.WellFormed)
    (opcodeBelow : opcode < 2 ^ 16)
    (success : (encode signature opcode queue storage objectId payload room).1 =
      .ok ()) :
    let outcome := encode signature opcode queue storage objectId payload room
    ∃ frame contentsNow,
      outcome.2.1.contents outcome.2.2 = .ok contentsNow ∧
      contentsNow.bytes = bytes ++ frame ∧
      contentsNow.descriptors = fds ++ Payload.fds signature payload ∧
      messageSize signature payload = .ok frame.length ∧
      frame.length % 4 = 0 ∧ frame.length ≤ Wire.maxMessageLen ∧
      ∀ rest, Wire.Message.decode (frame ++ rest) = .ok (some
        { header :=
            { objectId := objectId.toNat, opcode, size := frame.length }
          payload := (encodeFields signature payload).flatten }) := by
  intro outcome
  have spec := @encode_spec queue storage bytes fds chain fdChain _ signature
    opcode objectId payload room stores wellFormed
  obtain ⟨named, _⟩ := (encode_ok_iff stores wellFormed).mp success
  simp only at spec
  rw [success] at spec
  obtain ⟨size, headerBytes, more, fdChainNow, sized, headed, length,
    enqueued⟩ := spec
  refine ⟨frame signature headerBytes payload, _,
    enqueued.stores.contents_eq enqueued.step.wellFormed, rfl, rfl, ?_, ?_,
    ?_, fun rest => ?_⟩
  · rw [length, sized]
  · rw [length, (messageSize_spells sized).1]
  · rw [length]
    exact (messageSize_eq sized).2
  · rw [length]
    exact decode_frame sized named opcodeBelow headed rest

end Queueing

/-! ## Messages that arrive -/

section Arriving

variable [Native] {signature : Signature} {bytes : List UInt8}

/-- Bytes spell at most one message. -/
theorem Spells.unique
    {values other : Decoded signature}
    (spells : Spells signature values bytes)
    (otherSpells : Spells signature other bytes) : values = other := by
  have reads := decodeFields_reads signature { remaining := bytes }
  have first := (reads values { remaining := [] }).mpr
    ⟨bytes, (List.append_nil _).symm, spells⟩
  have second := (reads other { remaining := [] }).mpr
    ⟨bytes, (List.append_nil _).symm, otherSpells⟩
  exact (Prod.mk.inj (Except.ok.inj (first.symm.trans second))).1

/-- An object that must not be null is not. -/
def ArgumentType.Named : (type : ArgumentType) → type.Read → Prop
  | .object _ false, id =>
      let id : UInt32 := id
      id ≠ 0
  | _, _ => True

/-- No object of a message is null that must not be.  A decoder of events reads
an object that is gone as null. -/
def Decoded.Named : (signature : Signature) → Decoded signature → Prop
  | [], _ => True
  | type :: rest, values =>
      type.Named values.1 ∧ Decoded.Named rest values.2

/-- What a decoder accepts, it accepts again, and as many bytes spell it. -/
theorem Accepts.again
    {lookup : Lookup} {type : ArgumentType} {spelled value : type.Read}
    (accepts : Accepts lookup type spelled value)
    (denotes : Denotes type spelled bytes)
    (named : type.Named value) :
    Accepts lookup type value value ∧
      ∃ again, Denotes type value again ∧ again.length = bytes.length := by
  cases type with
  | object interface allowNull =>
      cases allowNull with
      | true =>
          change Option UInt32 at spelled value
          cases spelled with
          | none =>
              cases (accepts : value = none)
              exact ⟨rfl, bytes, denotes, rfl⟩
          | some id =>
              have permits : lookup.Permits interface id value := accepts
              cases permits with
              | plain => exact ⟨.plain, bytes, denotes, rfl⟩
              | request found live declared =>
                  exact ⟨.request found live declared, bytes, denotes, rfl⟩
              | shared found declared =>
                  exact ⟨.shared found declared, bytes, denotes, rfl⟩
              | event found live declared =>
                  exact ⟨.event found live declared, bytes, denotes, rfl⟩
              | tombstone =>
                  have length : bytes.length = 4 := denotes.2.1
                  exact ⟨rfl, (writeU32 0).flatten, word_writeU32 0,
                    (word_writeU32 0).1.trans length.symm⟩
      | false =>
          obtain ⟨permitted, permits, rfl⟩ := accepts
          cases permits with
          | plain => exact ⟨⟨_, .plain, rfl⟩, bytes, denotes, rfl⟩
          | request found live declared =>
              exact ⟨⟨_, .request found live declared, rfl⟩, bytes, denotes, rfl⟩
          | shared found declared =>
              exact ⟨⟨_, .shared found declared, rfl⟩, bytes, denotes, rfl⟩
          | event found live declared =>
              exact ⟨⟨_, .event found live declared, rfl⟩, bytes, denotes, rfl⟩
          | tombstone => exact absurd rfl (show (0 : UInt32) ≠ 0 from named)
  | _ =>
      cases accepts
      exact ⟨rfl, bytes, denotes, rfl⟩

/-- Arguments that were accepted are accepted when they are spelled again. -/
theorem AcceptsAll.again
    {lookup : Lookup} {spelled values : Decoded signature}
    (accepts : AcceptsAll lookup signature spelled values)
    (spells : Spells signature spelled bytes)
    (named : Decoded.Named signature values) :
    AcceptsAll lookup signature values values ∧
      ∃ again, Spells signature values again ∧ again.length = bytes.length := by
  induction signature generalizing bytes with
  | nil => exact ⟨trivial, bytes, spells, rfl⟩
  | cons type rest again_ih =>
      obtain ⟨argument, later, rfl, denotes, spellsLater⟩ := spells
      obtain ⟨acceptsNow, first, denotesNow, firstLength⟩ :=
        accepts.1.again denotes named.1
      obtain ⟨acceptsLater, second, spellsNow, secondLength⟩ :=
        again_ih accepts.2 spellsLater named.2
      refine ⟨⟨acceptsNow, acceptsLater⟩, first ++ second,
        ⟨first, second, rfl, denotesNow, spellsNow⟩, ?_⟩
      rw [List.length_append, List.length_append, firstLength, secondLength]

/-- Only the objects of an event can be gone. -/
theorem Accepts.unnamed
    {lookup : Lookup} {type : ArgumentType} {spelled value : type.Read}
    (accepts : Accepts lookup type spelled value)
    (denotes : Denotes type spelled bytes)
    (unnamed : ¬ type.Named value) :
    (∃ interface, type = .object interface false) ∧
      ∃ objects, lookup = .event objects ∧ ∃ id object,
        objects.table.get id = some object ∧ object.destroyed = true := by
  cases type with
  | object interface allowNull =>
      cases allowNull with
      | true => exact absurd (show True from trivial) unnamed
      | false =>
          refine ⟨⟨interface, rfl⟩, ?_⟩
          obtain ⟨permitted, permits, rfl⟩ := accepts
          cases permits with
          | plain | request | shared | event =>
              exact absurd (show (_ : UInt32) ≠ 0 from denotes.1) unnamed
          | tombstone found destroyed =>
              exact ⟨_, rfl, _, _, found, destroyed⟩
  | _ => exact absurd (show True from trivial) unnamed

/-- Arguments that name no object have no spelling of their own. -/
theorem AcceptsAll.unnamed
    {lookup : Lookup} {spelled values : Decoded signature}
    (accepts : AcceptsAll lookup signature spelled values)
    (spells : Spells signature spelled bytes)
    (unnamed : ¬ Decoded.Named signature values) :
    ∃ objects, lookup = .event objects ∧ ∃ id object,
      objects.table.get id = some object ∧ object.destroyed = true := by
  induction signature generalizing bytes with
  | nil => exact absurd trivial unnamed
  | cons type rest unnamed_ih =>
      obtain ⟨argument, later, rfl, denotes, spellsLater⟩ := spells
      by_cases first : type.Named values.1
      · exact unnamed_ih accepts.2 spellsLater fun named =>
          unnamed ⟨first, named⟩
      · exact (accepts.1.unnamed denotes first).2

/-- A payload with an object that must not be null has no size. -/
theorem AcceptsAll.payloadSize_error
    {lookup : Lookup} {spelled : Decoded signature}
    {payload : Payload signature} {size : Nat}
    (accepts : AcceptsAll lookup signature spelled
      (Payload.decoded signature payload))
    (spells : Spells signature spelled bytes)
    (fits : size + bytes.length ≤ Wire.maxMessageLen)
    (unnamed : ¬ Decoded.Named signature (Payload.decoded signature payload)) :
    payloadSize signature size payload = .error .nullObject := by
  induction signature generalizing size bytes with
  | nil => exact absurd trivial unnamed
  | cons type rest payload_ih =>
      obtain ⟨argument, later, rfl, denotes, spellsLater⟩ := spells
      rw [List.length_append] at fits
      unfold payloadSize
      by_cases first : type.Named (type.read payload.1)
      · obtain ⟨_, again, denotesNow, length⟩ := accepts.1.again denotes first
        have sized := (fieldSize_spelled denotesNow
          (show size + again.length ≤ Wire.maxMessageLen by omega)).1
        rw [sized]
        exact payload_ih accepts.2 spellsLater (by omega)
          fun named => unnamed ⟨first, named⟩
      · obtain ⟨⟨interface, rfl⟩, _⟩ := accepts.1.unnamed denotes first
        obtain ⟨id, values⟩ := payload
        have null : (id : UInt32) = (0 : UInt32) := not_not.mp first
        have refused : fieldSize (.object interface false) size id =
            .error .nullObject := if_pos null
        rw [refused]
        rfl

omit [Native] in
/-- Without objects to check against, everything is accepted. -/
theorem acceptsAll_plain
    (values : Decoded signature) :
    AcceptsAll .plain signature values values := by
  induction signature with
  | nil => trivial
  | cons type rest accepts_ih =>
      refine ⟨?_, accepts_ih values.2⟩
      obtain ⟨value, later⟩ := values
      cases type with
      | object interface allowNull =>
          cases allowNull with
          | true =>
              change Option UInt32 at value
              cases value with
              | none => rfl
              | some id => exact .plain
          | false => exact ⟨_, .plain, rfl⟩
      | _ => rfl

omit [Native] in
/-- The descriptors of a payload are as many as its signature says. -/
theorem Payload.length_fds
    (signature : Signature) (payload : Payload signature) :
    (Payload.fds signature payload).length = fdCount signature := by
  induction signature with
  | nil => rfl
  | cons type rest length_ih =>
      by_cases descriptor : type = .fd
      · subst descriptor
        rw [fdCount_fd, ← length_ih payload.2]
        rfl
      · rw [Payload.fds_other descriptor, fdCount_other descriptor, length_ih]

/-- What a decoder answers on bytes that spell a message, with its descriptors
at the front of the queue. -/
theorem decode_spelled
    {queue : FdQueue} {fds : SharedFds} {sent later : List Fd}
    {chain : List Nat} {spelled : Decoded signature}
    (lookup : Lookup)
    (stores : queue.Stores fds (sent ++ later) chain)
    (wellFormed : fds.WellFormed)
    (spells : Spells signature spelled bytes)
    (whole : sent.length = fdCount signature) :
    let answer := decode signature lookup.validation bytes queue fds
    (∀ payload, answer.1 = .ok payload ↔
      AcceptsAll lookup signature spelled
          (Payload.decoded signature payload) ∧
        Payload.fds signature payload = sent) ∧
      ∀ payload, answer.1 = .ok payload →
        answer.2.1.copyTo answer.2.2 answer.2.1.count = .ok later := by
  intro answer
  have front : (sent ++ later).take (fdCount signature) = sent := by
    rw [← whole, List.take_left]
  have behind : (sent ++ later).drop (fdCount signature) = later := by
    rw [← whole, List.drop_left]
  have enough : fdCount signature ≤ (sent ++ later).length := by
    rw [List.length_append]
    omega
  refine ⟨fun payload => ?_, fun payload accepted => ?_⟩
  · rw [decode_eq_ok_iff lookup stores wellFormed, front]
    constructor
    · rintro ⟨other, otherSpells, accepts, _, descriptors⟩
      cases otherSpells.unique spells
      exact ⟨accepts, descriptors⟩
    · rintro ⟨accepts, descriptors⟩
      exact ⟨spelled, spells, accepts, enough, descriptors⟩
  · have spec := @decode_spec queue fds _ chain signature _ lookup.validation
      bytes stores wellFormed
    simp only at spec
    rw [accepted, behind] at spec
    obtain ⟨_, _, storesNow, _⟩ := spec
    exact FdQueue.copyTo_spec storesNow storesNow.count.ge

end Arriving

end Codec

/-! ## Two ends of a connection -/

namespace Ownership

/-- What some calls lead to, from pools of any size. -/
inductive Reached [Native] : World → Prop
  | run
      {blockSize blockCount blockRoom capacity fdRoom : Nat}
      {blocks : SharedBlocks} {fds : SharedFds}
      (blocksReady : SharedBlocks.init blockSize blockCount blockRoom =
        .ok blocks)
      (fdsReady : SharedFds.init capacity fdRoom = .ok fds)
      (byteBudget descriptorBudget receiveBudget : Nat)
      (calls : List Call) :
      Reached (Ownership.run calls (.start { blocks, fds } byteBudget
        descriptorBudget receiveBudget)).2

variable [Native] {world : World}

/-- Reached worlds are sound. -/
theorem Reached.sound
    (reached : Reached world) : ∃ sent taken, Sound world sent taken := by
  obtain ⟨blocksReady, fdsReady, byteBudget, descriptorBudget, receiveBudget,
    calls⟩ := reached
  have wellFormed : Storage.WellFormed { blocks := _, fds := _ } :=
    ⟨(SharedBlocks.init_spec blocksReady).1, SharedFds.init_spec fdsReady⟩
  obtain ⟨sent, taken, sound, _⟩ := run_spec
    (.start wellFormed byteBudget descriptorBudget receiveBudget) calls
  exact ⟨sent, taken, sound⟩

/-- A transmit queue without a reservation. -/
theorem Reached.transmit
    {queue : Tx.Queue}
    (reached : Reached world)
    (transmit : world.transmit = some queue)
    (settled : queue.reservationActive = false) :
    ∃ bytes fds chain fdChain,
      queue.Stores world.storage bytes fds chain fdChain ∧
        world.storage.WellFormed := by
  obtain ⟨sent, taken, wellFormed, sentChain, takenChain, holds, _⟩ :=
    reached.sound
  cases holds with
  | gone gone => cases gone.symm.trans transmit
  | settled present stores =>
      cases present.symm.trans transmit
      exact ⟨_, _, _, _, stores, wellFormed⟩
  | reserving present current holds =>
      cases present.symm.trans transmit
      cases settled.symm.trans holds.unsettled

/-- A queue of received descriptors. -/
theorem Reached.received
    {queue : FdQueue} {items : List Fd}
    (reached : Reached world)
    (received : world.received = some queue)
    (holds : queue.copyTo world.storage.fds queue.count = .ok items) :
    ∃ chain, queue.Stores world.storage.fds items chain ∧
      world.storage.fds.WellFormed := by
  obtain ⟨sent, taken, wellFormed, sentChain, takenChain, _, present, _⟩ :=
    reached.sound
  cases present with
  | gone gone => cases gone.symm.trans received
  | present present stores =>
      cases present.symm.trans received
      cases (FdQueue.copyTo_spec stores stores.count.ge).symm.trans holds
      exact ⟨_, stores, wellFormed.fds⟩

end Ownership

namespace Codec

section Ends

variable [Native] {sender receiver : Ownership.World}
  {queue : Tx.Queue} {received : FdQueue} {contents : Tx.Contents}
  {arrived : List Fd}

/-- Between two ends in any state.  Nothing is queued before a reservation is
finished.  Then a message is queued exactly if it has a sender and a size, and
the queue has room; otherwise the queue holds what it held.  What is queued is a
frame of the size that was announced, in whole words and within the limit of a
message, and the descriptors of the message.  The receiver takes the frame off
the front of any bytes that follow it, and decodes its payload, with the
descriptors at the front of its queue, to what was encoded, up to null and
empty.  Checking objects does not change that. -/
theorem messages_round_trip
    (senderReached : Ownership.Reached sender)
    (transmit : sender.transmit = some queue)
    (holds : queue.contents sender.storage = .ok contents)
    (receiverReached : Ownership.Reached receiver)
    (present : receiver.received = some received)
    (takes : received.copyTo receiver.storage.fds received.count =
      .ok arrived)
    (signature : Signature)
    {opcode : Nat}
    (opcodeBelow : opcode < 2 ^ 16)
    (objectId : UInt32)
    (payload : Payload signature)
    (room : Tx.Room) :
    let outcome := encode signature opcode queue sender.storage objectId payload
      room
    (queue.reservationActive = true →
      outcome.1 ≠ .ok () ∧ outcome.2 = (queue, sender.storage)) ∧
    (queue.reservationActive = false →
      (outcome.1 = .ok () ↔
        objectId ≠ 0 ∧ ∃ size, messageSize signature payload = .ok size ∧
          queue.Admits sender.storage size
            (Payload.fds signature payload).length room) ∧
      (∀ cause, objectId ≠ 0 → messageSize signature payload = .error cause →
        outcome = (.error cause, queue, sender.storage)) ∧
      (∀ cause, outcome.1 = .error cause →
        outcome.2.1.contents outcome.2.2 = .ok contents) ∧
      (outcome.1 = .ok () → ∃ frame body contentsNow,
        outcome.2.1.contents outcome.2.2 = .ok contentsNow ∧
        contentsNow.bytes = contents.bytes ++ frame ∧
        contentsNow.descriptors =
          contents.descriptors ++ Payload.fds signature payload ∧
        messageSize signature payload = .ok frame.length ∧
        frame.length % 4 = 0 ∧ frame.length ≤ Wire.maxMessageLen ∧
        (∀ rest, Wire.Message.decode (frame ++ rest) = .ok (some
          { header :=
              { objectId := objectId.toNat, opcode, size := frame.length }
            payload := body })) ∧
        ∀ later, arrived = Payload.fds signature payload ++ later →
          (decode signature Lookup.plain.validation body received
            receiver.storage.fds).1 =
              .ok (Payload.canonical signature payload) ∧
          ∀ lookup : Lookup,
            let answer := decode signature lookup.validation body received
              receiver.storage.fds
            (∀ value, answer.1 = .ok value ↔
              AcceptsAll lookup signature
                  (Payload.decoded signature
                    (Payload.canonical signature payload))
                  (Payload.decoded signature value) ∧
                Payload.fds signature value = Payload.fds signature payload) ∧
            ∀ value, answer.1 = .ok value →
              answer.2.1.copyTo answer.2.2 answer.2.1.count = .ok later)) := by
  intro outcome
  refine ⟨fun unsettled => ?_, fun settled => ?_⟩
  · obtain ⟨cause, refused⟩ := @encode_unsettled _ _ sender.storage signature
      opcode objectId payload room unsettled
    simp only [outcome, refused]
    exact ⟨by simp, trivial⟩
  obtain ⟨bytes, fds, chain, fdChain, stores, wellFormed⟩ :=
    senderReached.transmit transmit settled
  have held := stores.contents_eq wellFormed
  cases held.symm.trans holds
  have spec := @encode_spec queue sender.storage bytes fds chain fdChain _
    signature opcode objectId payload room stores wellFormed
  refine ⟨encode_ok_iff stores wellFormed, fun cause named refused => ?_,
    fun cause failed => ?_, fun success => ?_⟩
  · simp only [outcome, encode, if_neg named, refused]
  · simp only at spec
    rw [show (encode signature opcode queue sender.storage objectId payload
      room).1 = _ from failed] at spec
    obtain ⟨same, storesNow, step⟩ := spec
    change outcome.2.1 = queue at same
    rw [same]
    exact storesNow.contents_eq step.wellFormed
  · obtain ⟨frame, contentsNow, contained, bytesNow, fdsNow, sized, aligned,
      within, framed⟩ :=
        encode_delivers stores wellFormed opcodeBelow success
    refine ⟨frame, _, contentsNow, contained, bytesNow, fdsNow, sized, aligned,
      within, framed, fun later atFront => ?_⟩
    subst atFront
    obtain ⟨takenChain, received, fdsWellFormed⟩ :=
      receiverReached.received present takes
    have decoded := fun lookup => decode_spelled lookup received
      fdsWellFormed (messageSize_spells sized).2
      (Payload.length_fds signature payload)
    exact ⟨((decoded .plain).1 _).mpr ⟨acceptsAll_plain _,
      Payload.fds_canonical signature payload⟩, decoded⟩

end Ends

section Sample

attribute [local instance] samplesNative

/-- A sender that has queued nothing. -/
def sampleSender : Ownership.World :=
  (Ownership.run [] (.start
    { blocks := Ownership.sampleBlocks, fds := Ownership.sampleFds } 16 4 4)).2

/-- An array that may be null, given as empty, and a descriptor. -/
def sampleSignature : Signature := [.array true, .fd]

/-- A null string and a descriptor. -/
def samplePayload : Payload sampleSignature :=
  ((some [], 9, ()) : Option (List UInt8) × Fd × Unit)

theorem sample_reached
    (calls : List Ownership.Call) :
    Ownership.Reached (Ownership.run calls (.start
      { blocks := Ownership.sampleBlocks, fds := Ownership.sampleFds } 16 4
        4)).2 :=
  @Ownership.Reached.run _ 4 2 2 4 4 Ownership.sampleBlocks Ownership.sampleFds
    rfl rfl 16 4 4 calls

theorem sample_takes :
    sampleQueue.copyTo sampleReceived.storage.fds sampleQueue.count =
      .ok [9, 10] := rfl

theorem messages_round_trip_sample :
    let outcome := encode sampleSignature 2 (Tx.Queue.init 16 4)
      sampleSender.storage 3 samplePayload { blocks := 4, fds := 4 }
    outcome.1 = .ok () ∧ ∃ body,
      (decode sampleSignature Lookup.plain.validation body sampleQueue
        sampleReceived.storage.fds).1 =
          .ok ((none, 9, ()) : Option (List UInt8) × Fd × Unit) := by
  obtain ⟨_, _, _, decodes⟩ := (messages_round_trip (sample_reached []) rfl
    rfl (sample_reached sampleReceipt) rfl sample_takes sampleSignature
    (show 2 < 2 ^ 16 by decide) 3 samplePayload { blocks := 4, fds := 4 }).2 rfl
  have success : (encode sampleSignature 2 (Tx.Queue.init 16 4)
      sampleSender.storage 3 samplePayload { blocks := 4, fds := 4 }).1 =
        .ok () := by decide +kernel
  obtain ⟨_, body, _, _, _, _, _, _, _, _, arrives⟩ := decodes success
  exact ⟨success, body, (arrives [10] rfl).1⟩

end Sample

section Again

variable [Native] {receiver : Ownership.World} {received : FdQueue}
  {arrived : List Fd}

/-- What was decoded is written and decoded to the same again, unless it lacks
an object that must not be null. -/
theorem decode_again
    {fds : SharedFds} {chain : List Nat}
    (stores : received.Stores fds arrived chain)
    (wellFormed : fds.WellFormed)
    (signature : Signature)
    (lookup : Lookup)
    {body : List UInt8}
    (fits : Wire.headerLen + body.length ≤ Wire.maxMessageLen)
    {payload : Payload signature}
    (decoded : (decode signature lookup.validation body received fds).1 =
      .ok payload) :
    let written := (encodeFields signature payload).flatten
    let named := Decoded.Named signature (Payload.decoded signature payload)
    (named →
      messageSize signature payload = .ok (Wire.headerLen + body.length) ∧
      written.length = body.length ∧
      Payload.canonical signature payload = payload ∧
      decode signature lookup.validation written received fds =
        decode signature lookup.validation body received fds) ∧
    (¬ named →
      messageSize signature payload = .error .nullObject ∧
      ∃ objects, lookup = .event objects ∧ ∃ id object,
        objects.table.get id = some object ∧ object.destroyed = true) := by
  intro written named
  obtain ⟨spelled, spells, accepts, enough, descriptors⟩ :=
    (decode_eq_ok_iff lookup stores wellFormed).mp decoded
  refine ⟨fun isNamed => ?_, fun unnamed => ?_⟩
  · obtain ⟨acceptsAgain, again, respelled, length⟩ :=
      accepts.again spells isNamed
    obtain ⟨sized, canonical⟩ := messageSize_spelled respelled
      (by rw [length]; exact fits)
    rw [length] at sized
    have spellsAgain := (messageSize_spells sized).2
    rw [canonical] at spellsAgain
    have whole : Wire.headerLen + body.length =
        Wire.headerLen + written.length := (messageSize_eq sized).1
    refine ⟨sized, by omega, canonical, ?_⟩
    have readBody : read signature lookup.validation body =
        .ok (Payload.decoded signature payload) :=
      read_eq_ok_iff.mpr
        ⟨_, spells, (validateFields_iff lookup).mpr accepts⟩
    have readWritten : read signature lookup.validation written =
        .ok (Payload.decoded signature payload) :=
      read_eq_ok_iff.mpr
        ⟨_, spellsAgain, (validateFields_iff lookup).mpr acceptsAgain⟩
    unfold decode
    rw [readBody, readWritten]
  · refine ⟨?_, accepts.unnamed spells unnamed⟩
    unfold messageSize
    rw [accepts.payloadSize_error spells fits unnamed]
    rfl

/-- A message that a receiver decoded has the size of the bytes it was decoded
from, and what is written for it is decoded to the same message again.  It is
otherwise only if an event names an object that is gone and must not be null:
then the message has no size. -/
theorem decoded_messages_encode_again
    (receiverReached : Ownership.Reached receiver)
    (present : receiver.received = some received)
    (takes : received.copyTo receiver.storage.fds received.count =
      .ok arrived)
    (signature : Signature)
    (lookup : Lookup)
    {body : List UInt8}
    (fits : Wire.headerLen + body.length ≤ Wire.maxMessageLen)
    {payload : Payload signature}
    (decoded : (decode signature lookup.validation body received
      receiver.storage.fds).1 = .ok payload) :
    let written := (encodeFields signature payload).flatten
    let named := Decoded.Named signature (Payload.decoded signature payload)
    (named →
      messageSize signature payload = .ok (Wire.headerLen + body.length) ∧
      written.length = body.length ∧
      Payload.canonical signature payload = payload ∧
      decode signature lookup.validation written received
          receiver.storage.fds =
        decode signature lookup.validation body received
          receiver.storage.fds) ∧
    (¬ named →
      messageSize signature payload = .error .nullObject ∧
      ∃ objects, lookup = .event objects ∧ ∃ id object,
        objects.table.get id = some object ∧ object.destroyed = true) := by
  obtain ⟨chain, stores, wellFormed⟩ := receiverReached.received present takes
  exact decode_again stores wellFormed signature lookup fits decoded

end Again

section Sample

attribute [local instance] samplesNative

/-- Objects of which one is gone. -/
def goneObjects : Except Error Namespace := do
  let objects ← Namespace.init 4 true
  let (_, objects) ← objects.insert 5
    { name := "wl_surface", version := 1, requests := [], events := [] } 1 none
    true
  .ok (objects.markDestroyed 5)

/-- A number and a descriptor are written as they were read.  An event that names
an object that is gone is not written if the object must not be null. -/
theorem decoded_messages_encode_again_sample :
    (let payload : Payload [.uint, .fd] := ((7, 9, ()) : UInt32 × Fd × Unit)
     messageSize [.uint, .fd] payload = .ok 12 ∧
       (encodeFields [.uint, .fd] payload).flatten.length = 4) ∧
      ∃ objects, goneObjects = .ok objects ∧
        let payload : Payload [.object none false] := ((0, ()) : UInt32 × Unit)
        (decode [.object none false] (Lookup.event objects).validation
          [5, 0, 0, 0] sampleQueue sampleReceived.storage.fds).1 =
            .ok payload ∧
        messageSize [.object none false] payload = .error .nullObject := by
  have decoded : (decode [.uint, .fd] Lookup.plain.validation [7, 0, 0, 0]
      sampleQueue sampleReceived.storage.fds).1 =
        .ok ((7, 9, ()) : UInt32 × Fd × Unit) := rfl
  obtain ⟨again, _⟩ := decoded_messages_encode_again
    (sample_reached sampleReceipt) rfl sample_takes [.uint, .fd] .plain
    (by decide) decoded
  obtain ⟨sized, length, _⟩ := again ⟨trivial, trivial, trivial⟩
  obtain ⟨objects, isGone⟩ : ∃ objects, goneObjects = .ok objects := ⟨_, rfl⟩
  have gone : (decode [.object none false]
      (Lookup.event objects).validation [5, 0, 0, 0] sampleQueue
      sampleReceived.storage.fds).1 =
        .ok (((0, ()) : UInt32 × Unit) : Payload [.object none false]) := by
    cases isGone
    rfl
  obtain ⟨_, otherwise⟩ := decoded_messages_encode_again
    (sample_reached sampleReceipt) rfl sample_takes [.object none false]
    (.event objects) (by decide) gone
  exact ⟨⟨sized, length⟩, objects, isGone, gone,
    (otherwise fun named => named.1 rfl).1⟩

end Sample

end Codec
end Wayring
