import Wayring.Transport.Fragmentation
import Wayring.Transport.Line

/-!
# From queue to queue

A sender and a receiver with a stream socket between them.  Bytes arrive in
order, cut anywhere, and descriptors in order and no later than the bytes of
their send.  The receiver then finds every message that was queued, with its
descriptors at the front of its own queue.
-/

namespace Wayring

open Parcel (itemsOf attachmentsOf Covers)

namespace Wire

variable [Native] {capacity : Nat} {bytes : List UInt8}
  {parcels : List (Parcel UInt8 Fd)}

/-- A text is one whole message. -/
def Frames (message : Message) (text : List UInt8) : Prop :=
  Message.decode text = .ok (some message) ∧
    message.header.size = text.length

/-- One whole message, that a framer of some capacity has room for. -/
def Whole (capacity : Nat) (text : List UInt8) : Prop :=
  (∃ message, Frames message text) ∧ text.length ≤ capacity

/-- Fewer bytes than a whole message has are an incomplete message. -/
theorem decode_partial
    {text : List UInt8}
    (whole : Whole capacity text)
    (isPrefix : bytes <+: text)
    (short : bytes.length < text.length) :
    Message.decode bytes = .ok none ∧
      ∀ header, Header.decode bytes = .ok (some header) →
        header.size ≤ capacity := by
  obtain ⟨⟨message, decoded, size⟩, fits⟩ := whole
  obtain ⟨more, rfl⟩ := isPrefix
  refine ⟨?_, fun header isHeader => ?_⟩
  · cases partly : Message.decode bytes with
    | error cause =>
        rw [Message.decode_append_error partly more] at decoded
        cases decoded
    | ok found =>
        cases found with
        | none => rfl
        | some other =>
            rw [Message.decode_append_some partly more] at decoded
            cases decoded
            have within := (Message.size_le partly).2
            omega
  · have enough := (Header.size_of_decode isHeader).2
    have same := (Header.decode_append enough more).trans isHeader
    rw [(Message.decode_eq_some_iff.mp decoded).1] at same
    cases same
    omega

/-- The front of a stream of whole messages is some of them, and an incomplete
one. -/
theorem frames_of_whole
    (whole : ∀ parcel ∈ parcels, Whole capacity parcel.items)
    (isPrefix : bytes <+: itemsOf parcels) :
    ∃ count messages tail,
      count ≤ parcels.length ∧
      frames bytes = (messages, .ok tail) ∧
      List.Forall₂ (fun message parcel => Frames message parcel.items)
        messages (parcels.take count) ∧
      bytes = itemsOf (parcels.take count) ++ tail ∧
      (∀ header, Header.decode tail = .ok (some header) →
        header.size ≤ capacity) ∧
      (bytes = itemsOf parcels → count = parcels.length) := by
  induction parcels generalizing bytes with
  | nil =>
      have empty : bytes = [] := List.prefix_nil.mp isPrefix
      subst empty
      refine ⟨0, [], [], le_rfl, rfl, .nil, rfl, fun header decoded => ?_,
        fun _ => rfl⟩
      cases decoded
  | cons parcel parcels frames_ih =>
      have first := whole parcel List.mem_cons_self
      rw [Parcel.itemsOf_cons] at isPrefix
      rcases Nat.lt_or_ge bytes.length parcel.items.length with short | enough
      · have within := List.prefix_of_prefix_length_le isPrefix
          (List.prefix_append _ _) short.le
        obtain ⟨incomplete, small⟩ := decode_partial first within short
        refine ⟨0, [], bytes, Nat.zero_le _, frames_of_none incomplete, .nil,
          rfl, small, ?_⟩
        rintro rfl
        simp at short
      · obtain ⟨rest, rfl⟩ := List.prefix_of_prefix_length_le
          (List.prefix_append parcel.items (itemsOf parcels)) isPrefix enough
        rw [List.prefix_append_right_inj] at isPrefix
        obtain ⟨⟨message, decoded, size⟩, _⟩ := first
        obtain ⟨count, messages, tail, within, framed, matched, bytes, small,
          all⟩ := frames_ih
            (fun other member => whole other (List.mem_cons_of_mem _ member))
            isPrefix
        refine ⟨count + 1, message :: messages, tail, by simpa using within, ?_,
          ?_, ?_, small, ?_⟩
        · rw [frames_of_some (Message.decode_append_some decoded rest), size,
            List.drop_left, framed]
        · rw [List.take_succ_cons]
          exact .cons ⟨decoded, size⟩ matched
        · rw [List.take_succ_cons, Parcel.itemsOf_cons, List.append_assoc,
            ← bytes]
        · intro same
          rw [Parcel.itemsOf_cons, List.append_cancel_left_eq] at same
          rw [all same, List.length_cons]

/-- A framer has room for the front of a stream of whole messages. -/
theorem roomy_of_whole
    (room : headerLen ≤ capacity)
    (whole : ∀ parcel ∈ parcels, Whole capacity parcel.items)
    (isPrefix : bytes <+: itemsOf parcels) : Framer.Roomy capacity bytes := by
  obtain ⟨count, messages, tail, _, framed, matched, _, small, _⟩ :=
    frames_of_whole whole isPrefix
  refine ⟨room, fun size declares => ?_⟩
  unfold declared at declares
  rw [framed] at declares
  rcases List.mem_append.mp declares with complete | last
  · obtain ⟨message, member, rfl⟩ := List.mem_map.mp complete
    obtain ⟨position, inside, rfl⟩ := List.getElem_of_mem member
    obtain ⟨sameLength, each⟩ := List.forall₂_iff_get.mp matched
    have framedHere := each position inside (sameLength ▸ inside)
    obtain ⟨_, size⟩ := framedHere
    simp only [List.get_eq_getElem] at size
    rw [size]
    exact (whole _ (List.mem_of_mem_take (List.getElem_mem _))).2
  · cases header : Header.decode tail with
    | error cause => simp [header] at last
    | ok found =>
        cases found with
        | none => simp [header] at last
        | some found =>
            simp only [header, List.mem_singleton] at last
            exact last ▸ small found header

end Wire

/-- A sender, and a receiver with what has arrived there so far. -/
structure Connection where
  line : Tx.Line
  feed : Framer.Feed
  queue : FdQueue
  fds : SharedFds
  chunks : List (List UInt8) := []
  arrived : List Fd := []
  popped : List Fd := []

namespace Connection

variable [Native]

/-- Both ends make calls, others use the pools of both ends, and the socket
delivers.  The control data of a receive is taken in before its bytes. -/
inductive Step (owner : Nat) : Connection → Connection → Prop
  | sender
      {connection : Connection} {line : Tx.Line}
      (stepped : Tx.Line.Step owner connection.line line) :
      Step owner connection { connection with line }
  | deliver
      {connection : Connection} {chunk control : List UInt8}
      {room count : Nat} {closed : List Fd} {queue : FdQueue} {fds : SharedFds}
      (unfailed : connection.feed.failed = none)
      (bytesInOrder : connection.chunks.flatten ++ chunk <+:
        itemsOf connection.line.sent)
      (rightsInOrder : connection.arrived ++ Ancillary.rightsOf control <+:
        attachmentsOf connection.line.sent)
      (inTime : Covers connection.line.sent
        (connection.chunks.flatten ++ chunk).length
        (connection.arrived ++ Ancillary.rightsOf control).length)
      (taken : Ancillary.enqueueRights control connection.queue connection.fds
        room = (.ok count, closed, queue, fds)) :
      Step owner connection
        { connection with
          feed :=
            { connection.feed with
              unread := connection.feed.unread ++ chunk
              drained := false }
          queue, fds
          chunks := connection.chunks ++ [chunk]
          arrived := connection.arrived ++ Ancillary.rightsOf control }
  | frame
      {connection : Connection} {room : Nat}
      (unfailed : connection.feed.failed = none)
      (waiting : connection.feed.drained = false)
      (finds : connection.feed.Finds room) :
      Step owner connection
        { connection with feed := connection.feed.call room }
  | pop
      {connection : Connection} {fd : Fd} {queue : FdQueue} {fds : SharedFds}
      (popped : connection.queue.pop connection.fds = (.ok fd, queue, fds)) :
      Step owner connection
        { connection with queue, fds, popped := connection.popped ++ [fd] }
  | discard
      {connection : Connection} {count : Nat} {closed : List Fd}
      {queue : FdQueue} {fds : SharedFds}
      (discarded : connection.queue.discard connection.fds count =
        (.ok closed, queue, fds)) :
      Step owner connection
        { connection with queue, fds, popped := connection.popped ++ closed }
  | otherBlocks
      {connection : Connection} {blocks : SharedBlocks}
      (wellFormed : connection.feed.blocks.WellFormed → blocks.WellFormed)
      (blockSize : blocks.blockSize = connection.feed.blocks.blockSize)
      (kept : ∀ index ∈ connection.feed.framer.held,
        blocks.pool.cell index = connection.feed.blocks.pool.cell index) :
      Step owner connection
        { connection with feed := { connection.feed with blocks } }
  | otherFds
      {connection : Connection} {fds : SharedFds}
      (wellFormed : fds.WellFormed)
      (kept : ∀ items chain,
        connection.queue.Stores connection.fds items chain →
          ∀ index ∈ chain,
            fds.pool.cell index = connection.fds.pool.cell index) :
      Step owner connection { connection with fds }

/-- A new sender and a new receiver, on pools of any state. -/
inductive Start (owner capacity : Nat) : Connection → Prop
  | init
      {line : Tx.Line} {framer : Framer} {blocks : SharedBlocks}
      {budget : Nat} {fds : SharedFds}
      (sends : Tx.Line.Start owner line)
      (frames : Framer.Starts framer blocks capacity)
      (wellFormed : fds.WellFormed) :
      Start owner capacity
        { line := line
          feed := { framer, blocks, coming := [] }
          queue := FdQueue.init budget
          fds }

/-- A connection that a start leads to. -/
def Reached (owner capacity : Nat) (connection : Connection) : Prop :=
  ∃ start, Start owner capacity start ∧
    Relation.ReflTransGen (Step owner) start connection

variable {owner capacity : Nat} {connection next : Connection}

/-- What has arrived is the front of what was sent, the framer has read the
bytes of it, and the descriptors of it are popped or queued. -/
structure Sound
    (owner capacity : Nat)
    (connection : Connection) : Prop where
  line : ∃ outbox entries sender,
    connection.line.Refines owner outbox entries sender
  feed : ∀ future, Framer.Feed.Run capacity (connection.chunks ++ future)
    { connection.feed with coming := future }
  coming : connection.feed.coming = []
  bytes : connection.chunks.flatten <+: itemsOf connection.line.sent
  rights : connection.arrived <+: attachmentsOf connection.line.sent
  inTime : Covers connection.line.sent connection.chunks.flatten.length
    connection.arrived.length
  queued : ∃ items chain, connection.queue.Stores connection.fds items chain ∧
    connection.popped ++ items = connection.arrived
  wellFormed : connection.fds.WellFormed

/-- A new connection is sound. -/
theorem Start.sound
    (start : Start owner capacity connection) :
    connection.Sound owner capacity := by
  cases start with
  | @init line framer blocks budget fds sends frames wellFormed =>
      obtain ⟨entries, sender, refines⟩ := sends.refines
      exact
        { line := ⟨_, entries, sender, refines⟩
          feed := fun future => ⟨framer, blocks, frames, .refl⟩
          coming := rfl
          bytes := List.nil_prefix
          rights := List.nil_prefix
          inTime := fun _ _ begun => absurd begun (Nat.not_lt_zero _)
          queued := ⟨[], [], .init fds budget, rfl⟩
          wellFormed := wellFormed }

/-- A step of the sender sends nothing, or one parcel more. -/
theorem sent_step
    {line lineNow : Tx.Line}
    (stepped : Tx.Line.Step owner line lineNow) :
    lineNow.sent = line.sent ∨
      ∃ parcel, lineNow.sent = line.sent ++ [parcel] := by
  cases stepped with
  | take => exact .inr ⟨_, rfl⟩
  | others | refused | puts | snapshot | begin | complete | failed =>
      exact .inl rfl

/-- Steps of the sender keep a connection sound. -/
theorem Sound.sender
    {line : Tx.Line}
    (sound : connection.Sound owner capacity)
    (stepped : Tx.Line.Step owner connection.line line) :
    Sound owner capacity { connection with line } := by
  obtain ⟨outbox, entries, sender, refines⟩ := sound.line
  obtain ⟨outboxNow, entriesNow, senderNow, now, _⟩ := refines.step stepped
  have more : connection.chunks.flatten <+: itemsOf line.sent ∧
      connection.arrived <+: attachmentsOf line.sent ∧
      Covers line.sent connection.chunks.flatten.length
        connection.arrived.length := by
    rcases sent_step stepped with same | ⟨parcel, more⟩
    · rw [same]
      exact ⟨sound.bytes, sound.rights, sound.inTime⟩
    · rw [more, Parcel.itemsOf_append, Parcel.attachmentsOf_append]
      exact ⟨sound.bytes.trans (List.prefix_append _ _),
        sound.rights.trans (List.prefix_append _ _),
        sound.inTime.concat sound.bytes.length_le parcel⟩
  exact
    { sound with
      line := ⟨_, _, _, now⟩
      bytes := more.1
      rights := more.2.1
      inTime := more.2.2 }

/-- A delivery keeps a connection sound. -/
theorem Sound.deliver
    {chunk control : List UInt8} {room count : Nat} {closed : List Fd}
    {queue : FdQueue} {fds : SharedFds}
    (sound : connection.Sound owner capacity)
    (unfailed : connection.feed.failed = none)
    (bytesInOrder : connection.chunks.flatten ++ chunk <+:
      itemsOf connection.line.sent)
    (rightsInOrder : connection.arrived ++ Ancillary.rightsOf control <+:
      attachmentsOf connection.line.sent)
    (inTime : Covers connection.line.sent
      (connection.chunks.flatten ++ chunk).length
      (connection.arrived ++ Ancillary.rightsOf control).length)
    (taken : Ancillary.enqueueRights control connection.queue connection.fds
      room = (.ok count, closed, queue, fds)) :
    Sound owner capacity
      { connection with
        feed :=
          { connection.feed with
            unread := connection.feed.unread ++ chunk
            drained := false }
        queue, fds
        chunks := connection.chunks ++ [chunk]
        arrived := connection.arrived ++ Ancillary.rightsOf control } := by
  obtain ⟨items, chain, stores, all⟩ := sound.queued
  have spec := @Ancillary.enqueueRights_spec _ connection.queue connection.fds
    items chain control room stores sound.wellFormed
  rw [taken] at spec
  obtain ⟨chainNow, _, _, _, storesNow, step, _⟩ := spec
  have flat : (connection.chunks ++ [chunk]).flatten =
      connection.chunks.flatten ++ chunk := by simp
  refine
    { line := sound.line
      feed := fun future => ?_
      coming := sound.coming
      bytes := by rw [flat]; exact bytesInOrder
      rights := rightsInOrder
      inTime := by rw [flat]; exact inTime
      queued := ⟨_, chainNow, storesNow, ?_⟩
      wellFormed := step.wellFormed }
  · obtain ⟨framer, blocks, starts, steps⟩ := sound.feed (chunk :: future)
    refine ⟨framer, blocks, starts, ?_⟩
    rw [List.append_assoc, List.singleton_append]
    have arrives : Framer.Feed.Step
        { connection.feed with coming := chunk :: future }
        { connection.feed with
          unread := connection.feed.unread ++ chunk
          coming := future
          drained := false } := .arrive unfailed rfl
    exact steps.tail arrives
  · simp only
    rw [← List.append_assoc, all]

/-- A call does not depend on what comes later. -/
theorem call_coming
    (feed : Framer.Feed)
    (future : List (List UInt8))
    (room : Nat) :
    Framer.Feed.call { feed with coming := future } room =
      { feed.call room with coming := future } := by
  unfold Framer.Feed.call
  simp only
  generalize feed.framer.next feed.blocks feed.unread room = outcome
  obtain ⟨answer, unread, framer, blocks⟩ := outcome
  rcases answer with cause | _ | message <;> rfl

/-- The framer does not change what comes. -/
theorem call_same_coming
    (feed : Framer.Feed) (room : Nat) :
    (feed.call room).coming = feed.coming := by
  unfold Framer.Feed.call
  generalize feed.framer.next feed.blocks feed.unread room = outcome
  obtain ⟨answer, unread, framer, blocks⟩ := outcome
  rcases answer with cause | _ | message <;> rfl

/-- Every step keeps a connection sound. -/
theorem Sound.step
    (sound : connection.Sound owner capacity)
    (stepped : Step owner connection next) : next.Sound owner capacity := by
  obtain ⟨items, chain, stores, all⟩ := sound.queued
  cases stepped with
  | sender stepped => exact sound.sender stepped
  | deliver unfailed bytesInOrder rightsInOrder inTime taken =>
      exact sound.deliver unfailed bytesInOrder rightsInOrder inTime taken
  | @frame room unfailed waiting finds =>
      refine
        { sound with
          feed := fun future => ?_
          coming := (call_same_coming connection.feed room).trans sound.coming }
      obtain ⟨framer, blocks, starts, steps⟩ := sound.feed future
      refine ⟨framer, blocks, starts, steps.tail ?_⟩
      have called := call_coming connection.feed future room
      rw [← called]
      exact .call unfailed waiting finds
  | pop popped =>
      cases items with
      | nil =>
          rw [FdQueue.pop_empty stores] at popped
          cases popped
      | cons fd items =>
          obtain ⟨after, fdsNow, isPopped, storesNow, step, _⟩ :=
            FdQueue.pop_spec stores sound.wellFormed
          cases isPopped.symm.trans popped
          exact
            { sound with
              queued := ⟨items, _, storesNow, by simpa using all⟩
              wellFormed := step.wellFormed }
  | @discard count closed queue fds discarded =>
      have spec := @Ancillary.discard_spec connection.queue connection.fds items
        chain count stores sound.wellFormed
      rw [discarded] at spec
      obtain ⟨rfl, storesNow, step, _⟩ := spec
      exact
        { sound with
          queued := ⟨_, _, storesNow, by
            simp only
            rw [List.append_assoc, List.take_append_drop]
            exact all⟩
          wellFormed := step.wellFormed }
  | otherBlocks wellFormed blockSize kept =>
      refine { sound with feed := fun future => ?_ }
      obtain ⟨framer, blocks, starts, steps⟩ := sound.feed future
      exact ⟨framer, blocks, starts,
        steps.tail (.others wellFormed blockSize kept)⟩
  | otherFds wellFormed kept =>
      exact
        { sound with
          queued := ⟨items, chain,
            ⟨stores.holds.congr (kept items chain stores), stores.count,
              stores.within⟩, all⟩
          wellFormed := wellFormed }

/-- Reached connections are sound. -/
theorem Reached.sound
    (reached : Reached owner capacity connection) :
    connection.Sound owner capacity := by
  obtain ⟨start, starts, ran⟩ := reached
  induction ran with
  | refl => exact starts.sound
  | tail _ stepped run_ih => exact run_ih.step stepped

/-! ## What the receiver finds -/

/-- The frames that are returned so far are the first of the messages that were
queued. -/
structure Delivers (connection : Connection) : Prop where
  unfailed : connection.feed.failed = none
  within : connection.feed.returned.length ≤ connection.line.accepted.length
  frames : List.Forall₂
    (fun message parcel => Wire.Frames message parcel.items)
    connection.feed.returned
    (connection.line.accepted.take connection.feed.returned.length)
  rights : ∃ items chain,
    connection.queue.Stores connection.fds items chain ∧
      connection.popped ++ items <+:
        attachmentsOf connection.line.accepted ∧
      ∀ count < connection.feed.returned.length, ∀ parcel,
        connection.line.accepted[count]? = some parcel →
        connection.popped =
          attachmentsOf (connection.line.accepted.take count) →
        parcel.attachments <+: items
  all : connection.feed.drained = true →
    connection.chunks.flatten = itemsOf connection.line.accepted →
    connection.feed.returned.length = connection.line.accepted.length ∧
      connection.feed.framer.buffered = []

/-- A sound connection delivers in order. -/
theorem Sound.delivers
    (sound : connection.Sound owner capacity)
    (room : Wire.headerLen ≤ capacity)
    (whole : ∀ parcel ∈ connection.line.accepted,
      Wire.Whole capacity parcel.items) : connection.Delivers := by
  obtain ⟨outbox, entries, sender, refines⟩ := sound.line
  obtain ⟨sentItems, sentRights⟩ := refines.sound.sent_begins
  rw [refines.accepted, refines.sent] at sentItems sentRights
  have bytes := sound.bytes.trans sentItems
  have rights := sound.rights.trans sentRights
  obtain ⟨count, messages, tail, within, framed, matched, split, _, whenAll⟩ :=
    Wire.frames_of_whole whole bytes
  have feedSound := (sound.feed []).sound
    (Wire.roomy_of_whole room whole bytes) (by rw [List.append_nil])
  have faithful := feedSound.faithful
  have returned : connection.feed.returned <+: messages := by
    have isPrefix := faithful.returned
    rw [framed] at isPrefix
    exact isPrefix
  have taken : connection.feed.returned =
      messages.take connection.feed.returned.length :=
    List.prefix_iff_eq_take.mp returned
  have sameLength := matched.length_eq
  rw [List.length_take, Nat.min_eq_left within] at sameLength
  have upTo : connection.feed.returned.length ≤ count :=
    sameLength ▸ returned.length_le
  have unfailed : connection.feed.failed = none := by
    cases failed : connection.feed.failed with
    | none => rfl
    | some cause =>
        have ends := faithful.finished (.inl (by simp [failed]))
        simp only [framed, failed] at ends
        cases ends
  refine
    { unfailed := unfailed
      within := upTo.trans within
      frames := ?_
      rights := ?_
      all := fun drained everything => ?_ }
  · have front := List.forall₂_take connection.feed.returned.length matched
    rwa [← taken, List.take_take, Nat.min_eq_left upTo] at front
  · obtain ⟨items, chain, stores, arrived⟩ := sound.queued
    refine ⟨items, chain, stores, arrived ▸ rights,
      fun position inside parcel isParcel popped => ?_⟩
    have covers : Covers connection.line.accepted
        connection.chunks.flatten.length connection.arrived.length := by
      have each := refines.sound.covers
      rw [refines.accepted, refines.sent] at each
      exact sound.inTime.recut each sound.bytes.length_le
    obtain ⟨inAccepted, isHere⟩ := List.getElem?_eq_some_iff.mp isParcel
    have nonempty : 0 < parcel.items.length := by
      obtain ⟨⟨message, decoded, _⟩, _⟩ :=
        whole parcel (isHere ▸ List.getElem_mem inAccepted)
      have size := Wire.Message.size_le decoded
      unfold Wire.headerLen at size
      omega
    have next : connection.line.accepted.take (position + 1) =
        connection.line.accepted.take position ++ [parcel] := by
      rw [List.take_add_one, isParcel]
      rfl
    have begun : (itemsOf (connection.line.accepted.take position)).length <
        connection.chunks.flatten.length := by
      have before : itemsOf (connection.line.accepted.take (position + 1)) <+:
          itemsOf (connection.line.accepted.take count) := by
        have inner := Parcel.itemsOf_take_begins
          (connection.line.accepted.take count) (position + 1)
        rwa [List.take_take, Nat.min_eq_left (by omega)] at inner
      have lengths := before.length_le
      rw [next, Parcel.itemsOf_append, List.length_append,
        Parcel.itemsOf_cons, Parcel.itemsOf_nil, List.append_nil] at lengths
      rw [split, List.length_append]
      omega
    have enough := covers position inAccepted begun
    have front := List.prefix_of_prefix_length_le
      (Parcel.attachmentsOf_take_begins connection.line.accepted (position + 1))
      rights enough
    rw [next, Parcel.attachmentsOf_append, Parcel.attachmentsOf_cons,
      Parcel.attachmentsOf_nil, List.append_nil, ← popped, ← arrived,
      List.prefix_append_right_inj] at front
    exact front
  · have ends := faithful.finished (.inr ⟨rfl, drained⟩)
    rw [framed] at ends
    simp only [unfailed, Prod.mk.injEq, Except.ok.injEq] at ends
    obtain ⟨rfl, rfl⟩ := ends
    have complete := whenAll everything
    subst complete
    rw [List.take_length] at split
    refine ⟨sameLength, ?_⟩
    rw [everything] at split
    simpa using split

/-- The messages that were put into a queue come out at the other end, in order
and each with its descriptors, whatever the two ends, others on their pools and
the socket do in between. -/
theorem queued_messages_arrive
    (reached : Reached owner capacity connection)
    (room : Wire.headerLen ≤ capacity)
    (whole : ∀ parcel ∈ connection.line.accepted,
      Wire.Whole capacity parcel.items) : connection.Delivers :=
  reached.sound.delivers room whole

/-! ## Reading to the end -/

/-- Some calls of the framer, with room for a block at each of them. -/
def reading (rooms : Nat → Nat) : Nat → Connection → Connection
  | 0, connection => connection
  | count + 1, connection =>
      let before := reading rooms count connection
      { before with feed := before.feed.call (rooms count) }

variable {rooms : Nat → Nat} {count : Nat}

/-- Calls of the framer leave the line as it is. -/
@[simp] theorem reading_line :
    (reading rooms count connection).line = connection.line := by
  induction count with
  | zero => rfl
  | succ count reading_ih => exact reading_ih

/-- Calls of the framer let nothing arrive. -/
@[simp] theorem reading_chunks :
    (reading rooms count connection).chunks = connection.chunks := by
  induction count with
  | zero => rfl
  | succ count reading_ih => exact reading_ih

/-- Every call is counted. -/
theorem call_calls (feed : Framer.Feed) (room : Nat) :
    (feed.call room).calls = feed.calls + 1 := by
  unfold Framer.Feed.call
  generalize feed.framer.next feed.blocks feed.unread room = outcome
  obtain ⟨answer, unread, framer, blocks⟩ := outcome
  rcases answer with cause | _ | message <;> rfl

/-- There are only so many calls. -/
theorem Sound.calls_le
    (sound : connection.Sound owner capacity)
    (room : Wire.headerLen ≤ capacity)
    (whole : ∀ parcel ∈ connection.line.accepted,
      Wire.Whole capacity parcel.items) :
    connection.feed.calls ≤
      2 * connection.chunks.length + connection.chunks.flatten.length + 1 := by
  obtain ⟨outbox, entries, sender, refines⟩ := sound.line
  have sentItems := refines.sound.sent_begins.1
  rw [refines.accepted, refines.sent] at sentItems
  have feedSound := (sound.feed []).sound
    (Wire.roomy_of_whole room whole (sound.bytes.trans sentItems))
    (by rw [List.append_nil])
  have counted := feedSound.calls
  simp only [List.append_nil] at counted
  omega

/-- Reading goes on while the framer is not drained. -/
theorem Reached.reading
    (reached : Reached owner capacity connection)
    (room : Wire.headerLen ≤ capacity)
    (whole : ∀ parcel ∈ connection.line.accepted,
      Wire.Whole capacity parcel.items)
    (finds : ∀ count, (reading rooms count connection).feed.drained = false →
      (reading rooms count connection).feed.Finds (rooms count))
    (waiting : ∀ earlier < count,
      (Connection.reading rooms earlier connection).feed.drained = false) :
    Reached owner capacity (Connection.reading rooms count connection) ∧
      (Connection.reading rooms count connection).feed.calls =
        connection.feed.calls + count := by
  induction count with
  | zero => exact ⟨reached, rfl⟩
  | succ count reading_ih =>
      obtain ⟨reachedNow, calls⟩ := reading_ih fun earlier before =>
        waiting earlier (Nat.lt_succ_of_lt before)
      have delivers := reachedNow.sound.delivers room (by
        rw [reading_line]
        exact whole)
      have open_ := waiting count (Nat.lt_succ_self count)
      obtain ⟨start, starts, ran⟩ := reachedNow
      refine ⟨⟨start, starts, ran.tail
        (.frame delivers.unfailed open_ (finds count open_))⟩, ?_⟩
      change ((Connection.reading rooms count connection).feed.call
        (rooms count)).calls = _
      rw [call_calls, calls, Nat.add_assoc]

/-- A receiver that takes in what arrived and then calls the framer until it has
no message left comes to an end.  On the way it gets the first of the messages
that were queued, each with its descriptors at the front of the queue when
those before it were popped, and all of them if all bytes have arrived. -/
theorem frames_come_with_their_descriptors
    (reached : Reached owner capacity connection)
    (room : Wire.headerLen ≤ capacity)
    (whole : ∀ parcel ∈ connection.line.accepted,
      Wire.Whole capacity parcel.items)
    (rooms : Nat → Nat)
    (finds : ∀ count, (reading rooms count connection).feed.drained = false →
      (reading rooms count connection).feed.Finds (rooms count)) :
    ∃ count,
      let read := reading rooms count connection
      read.feed.drained = true ∧
        (∀ earlier ≤ count, Delivers (reading rooms earlier connection)) ∧
        (connection.chunks.flatten = itemsOf connection.line.accepted →
          List.Forall₂
              (fun message parcel => Wire.Frames message parcel.items)
              read.feed.returned connection.line.accepted ∧
            read.feed.framer.buffered = []) := by
  have ends : ∃ count, (reading rooms count connection).feed.drained = true := by
    by_contra never
    have waiting : ∀ count,
        (reading rooms count connection).feed.drained = false := fun count =>
      Bool.eq_false_iff.mpr fun drained => never ⟨count, drained⟩
    let bound := 2 * connection.chunks.length +
      connection.chunks.flatten.length + 2
    obtain ⟨reachedNow, calls⟩ := reached.reading room whole finds
      fun earlier (_ : earlier < bound) => waiting earlier
    have within := reachedNow.sound.calls_le room (by
      rw [reading_line]
      exact whole)
    rw [reading_chunks, calls] at within
    omega
  have waiting : ∀ earlier < Nat.find ends,
      (reading rooms earlier connection).feed.drained = false :=
    fun earlier before => Bool.eq_false_iff.mpr (Nat.find_min ends before)
  have delivers : ∀ earlier ≤ Nat.find ends,
      Delivers (reading rooms earlier connection) := by
    intro earlier within
    obtain ⟨reachedNow, -⟩ := reached.reading room whole finds
      fun first (before : first < earlier) =>
        waiting first (Nat.lt_of_lt_of_le before within)
    refine reachedNow.sound.delivers room ?_
    rw [reading_line]
    exact whole
  refine ⟨Nat.find ends, Nat.find_spec ends, delivers, fun everything => ?_⟩
  have last := delivers _ (Nat.le_refl _)
  obtain ⟨all, rest⟩ := last.all (Nat.find_spec ends) (by
    rw [reading_line, reading_chunks]
    exact everything)
  have frames := last.frames
  rw [all, reading_line, List.take_length] at frames
  exact ⟨frames, rest⟩

end Connection

namespace Connection

section Sample

open Tx (World Line)

local instance endsNative : Native := ⟨.little⟩

/-- Blocks and descriptors of a sender. -/
def sendingStorage : Storage where
  blocks := ((SharedBlocks.init 8 4 4).toOption).getD { blockSize := 8 }
  fds := ((SharedFds.init 2 2).toOption).getD {}

/-- The world after a call of the first owner. -/
def worldAfter (world : World) (call : Tx.Call) : World :=
  ((Tx.step world 0 call).map Prod.snd).getD world

/-- A message of twelve bytes, with a descriptor. -/
def sentParcel : Parcel UInt8 Fd where
  items := [7, 0, 0, 0, 3, 0, 12, 0, 42, 0, 0, 0]
  attachments := [5]

/-- A message of eight bytes, with another descriptor. -/
def lastParcel : Parcel UInt8 Fd where
  items := [9, 0, 0, 0, 1, 0, 8, 0]
  attachments := [6]

/-- Queue a parcel. -/
def putParcel (parcel : Parcel UInt8 Fd) : Tx.Call :=
  .enqueue parcel.items parcel.attachments { blocks := 0, fds := 0 }

/-- A snapshot of the first message and of a half of the second one, with the
descriptors of both. -/
def sentSnapshot : Tx.Snapshot where
  first := { lease := ⟨3, 1, ()⟩, start := 0, stop := 8 }
  second := some { lease := ⟨2, 1, ()⟩, start := 0, stop := 8 }
  control := [24, 0, 0, 0, 0, 0, 0, 0, 1, 0, 0, 0, 1, 0, 0, 0, 5, 0, 0, 0, 6, 0,
    0, 0]
  descriptorCount := 2

/-- A snapshot of what is left after fourteen bytes. -/
def lastSnapshot : Tx.Snapshot where
  first := { lease := ⟨2, 1, ()⟩, start := 6, stop := 8 }
  second := some { lease := ⟨1, 1, ()⟩, start := 0, stop := 4 }
  control := []
  descriptorCount := 0

/-- The queue is open. -/
def openedWorld : World :=
  worldAfter (World.start sendingStorage) (.init 64 2)

/-- Both parcels are queued. -/
def queuedWorld : World :=
  worldAfter (worldAfter openedWorld (putParcel sentParcel))
    (putParcel lastParcel)

/-- A send of the first snapshot is in flight. -/
def sendingWorld : World := worldAfter queuedWorld (.begin sentSnapshot)

/-- Part of it was sent. -/
def completedWorld : World := worldAfter sendingWorld (.complete 14)

/-- The rest is in flight. -/
def lastWorld : World := worldAfter completedWorld (.begin lastSnapshot)

/-- What the kernel took of a snapshot. -/
def takenOf (world : World) (snapshot : Tx.Snapshot) (count : Nat) :
    Parcel UInt8 Fd where
  items := (snapshot.read world.storage.blocks).take count
  attachments := Ancillary.rightsOf snapshot.control

/-- Both messages are queued. -/
def queuedLine : Line where
  world := queuedWorld
  accepted := [sentParcel, lastParcel]

/-- The kernel took fourteen bytes. -/
def takenLine : Line where
  world := sendingWorld
  fresh := [sentSnapshot]
  flight := some sentSnapshot
  taken := some 14
  accepted := [sentParcel, lastParcel]
  sent := [takenOf sendingWorld sentSnapshot 14]

/-- The line after the first completion. -/
def completedLine : Line where
  world := completedWorld
  accepted := [sentParcel, lastParcel]
  sent := [takenOf sendingWorld sentSnapshot 14]

/-- The kernel took the rest. -/
def sentLine : Line where
  world := lastWorld
  fresh := [lastSnapshot]
  flight := some lastSnapshot
  taken := some 6
  accepted := [sentParcel, lastParcel]
  sent := [takenOf sendingWorld sentSnapshot 14, takenOf lastWorld lastSnapshot 6]

/-- Both messages can be queued. -/
theorem queuedLine_reached :
    Relation.ReflTransGen (Line.Step 0) { world := openedWorld } queuedLine := by
  have first : Line.Step 0 { world := openedWorld }
      { world := worldAfter openedWorld (putParcel sentParcel)
        accepted := [sentParcel] } :=
    @Line.Step.puts _ 0 { world := openedWorld } (putParcel sentParcel) _ []
      [sentParcel] rfl rfl
  have second : Line.Step 0
      { world := worldAfter openedWorld (putParcel sentParcel)
        accepted := [sentParcel] } queuedLine :=
    @Line.Step.puts _ 0
      { world := worldAfter openedWorld (putParcel sentParcel)
        accepted := [sentParcel] } (putParcel lastParcel) queuedWorld []
      [lastParcel] rfl rfl
  exact (Relation.ReflTransGen.single first).tail second

/-- A snapshot is sent, and the kernel takes a part of it. -/
theorem send_reached
    {line : Line} {sender : Tx.Sender} {snapshot : Tx.Snapshot}
    {world : World} {count : Nat}
    (isSender : line.world.senders 0 = some sender)
    (taken : sender.queue.snapshot line.world.storage 2 64 = .ok snapshot)
    (untaken : line.taken = none)
    (stepped : Tx.step line.world 0 (.begin snapshot) = some (.ok (), world))
    (positive : 0 < count)
    (within : count ≤ snapshot.byteCount) :
    Relation.ReflTransGen (Line.Step 0) line
      { line with
        world
        fresh := line.fresh ++ [snapshot]
        flight := some snapshot
        taken := some count
        sent := line.sent ++ [takenOf world snapshot count] } := by
  have takes : Line.Step 0 line
      { line with fresh := line.fresh ++ [snapshot] } :=
    .snapshot isSender taken
  have begins : Line.Step 0
      { line with fresh := line.fresh ++ [snapshot] }
      { line with
        world
        fresh := line.fresh ++ [snapshot]
        flight := some snapshot } :=
    .begin (by simp) stepped
  have ends : Line.Step 0
      { line with
        world
        fresh := line.fresh ++ [snapshot]
        flight := some snapshot }
      { line with
        world
        fresh := line.fresh ++ [snapshot]
        flight := some snapshot
        taken := some count
        sent := line.sent ++ [takenOf world snapshot count] } :=
    .take rfl untaken positive within
  exact ((Relation.ReflTransGen.single takes).tail begins).tail ends

/-- Both messages can be sent. -/
theorem sentLine_reached :
    Relation.ReflTransGen (Line.Step 0) { world := openedWorld } sentLine := by
  have first : Relation.ReflTransGen (Line.Step 0) queuedLine takenLine :=
    @send_reached queuedLine _ sentSnapshot sendingWorld 14 rfl rfl rfl rfl
      (by decide) (by decide)
  have completes : Line.Step 0 takenLine completedLine :=
    @Line.Step.complete _ 0 takenLine 14 completedWorld rfl rfl
  have second : Relation.ReflTransGen (Line.Step 0) completedLine sentLine :=
    @send_reached completedLine _ lastSnapshot lastWorld 6 rfl rfl rfl rfl
      (by decide) (by decide)
  exact ((queuedLine_reached.trans first).tail completes).trans second

/-- A receiver that has read nothing. -/
def emptyReceiver (line : Line) : Connection where
  line
  feed := { framer := Framer.init 12, blocks := { blockSize := 8 }, coming := [] }
  queue := FdQueue.init 2
  fds := sendingStorage.fds

/-- What the first receive leaves: ten bytes, and both descriptors. -/
def firstPart : Connection :=
  let taken := Ancillary.enqueueRights sentSnapshot.control (FdQueue.init 2)
    sendingStorage.fds 0
  { emptyReceiver sentLine with
    feed :=
      { (emptyReceiver sentLine).feed with
        unread := sentParcel.items.take 10 }
    queue := taken.2.2.1
    fds := taken.2.2.2
    chunks := [sentParcel.items.take 10]
    arrived := [5, 6] }

/-- The receiver has read part of a message. -/
def waiting : Connection :=
  { firstPart with feed := firstPart.feed.call 0 }

/-- What the second receive leaves. -/
def secondPart : Connection :=
  { waiting with
    feed :=
      { waiting.feed with
        unread := sentParcel.items.drop 10 ++ lastParcel.items
        drained := false }
    chunks :=
      [sentParcel.items.take 10, sentParcel.items.drop 10 ++ lastParcel.items] }

/-- The first message is read, and its descriptor popped. -/
def oneRead : Connection :=
  { secondPart with feed := secondPart.feed.call 0 }

/-- The descriptor of the first message was taken. -/
def onePopped : Connection :=
  let popped := oneRead.queue.pop oneRead.fds
  { oneRead with
    queue := popped.2.1
    fds := popped.2.2
    popped := [5] }

/-- Both messages were read. -/
def bothRead : Connection :=
  { onePopped with feed := onePopped.feed.call 0 }

/-- A short message needs no block. -/
theorem sample_finds
    {feed : Framer.Feed} {header : Wire.Header}
    (decoded : Wire.Header.decode (feed.framer.buffered ++ feed.unread) =
      .ok (some header))
    (short : header.size ≤ inlineScratchSize) : feed.Finds 0 := by
  rintro - ⟨other, isOther, above⟩
  cases decoded.symm.trans isOther
  exact absurd above (Nat.not_lt.mpr short)

/-- Two messages are queued, sent in two parts, and received in two other parts,
the first of which was read. -/
theorem secondPart_reached : Reached 0 12 secondPart := by
  have blocksReady : SharedBlocks.init 8 4 4 = .ok sendingStorage.blocks := rfl
  have fdsReady : SharedFds.init 2 2 = .ok sendingStorage.fds := rfl
  have starts : Start 0 12 (emptyReceiver { world := openedWorld }) :=
    .init
      (@Line.Start.init _ 0 8 4 4 2 2 64 2 _ _ [] [] _ _ blocksReady fdsReady
        rfl rfl)
      (.plain 12 { blockSize := 8 }) (SharedFds.init_spec fdsReady)
  have sends : Relation.ReflTransGen (Step 0)
      (emptyReceiver { world := openedWorld }) (emptyReceiver sentLine) :=
    sentLine_reached.lift emptyReceiver fun _ _ stepped =>
      show Step 0 (emptyReceiver _) (emptyReceiver _) from .sender stepped
  have inTime : ∀ count, Covers sentLine.sent count 2 := fun count =>
    Parcel.covers_all sentLine.sent count
  have receives : Step 0 (emptyReceiver sentLine) firstPart :=
    @Step.deliver _ 0 (emptyReceiver sentLine) (sentParcel.items.take 10)
      sentSnapshot.control 0 2 [] _ _ rfl
      (by exact ⟨sentParcel.items.drop 10 ++ lastParcel.items, rfl⟩)
      (by exact ⟨[], rfl⟩) (inTime _) rfl
  have waits : Step 0 firstPart waiting :=
    .frame rfl rfl (@sample_finds firstPart.feed
      { objectId := 7, opcode := 3, size := 12 } rfl (by decide))
  have continues : Step 0 waiting secondPart :=
    @Step.deliver _ 0 waiting (sentParcel.items.drop 10 ++ lastParcel.items) []
      0 0 [] _ _ rfl (by exact ⟨[], rfl⟩) (by exact ⟨[], rfl⟩) (inTime _) rfl
  exact ⟨_, starts, ((sends.tail receives).tail waits).tail continues⟩

/-- Both messages are whole and fit. -/
theorem sample_whole (parcel : Parcel UInt8 Fd)
    (member : parcel ∈ [sentParcel, lastParcel]) :
    Wire.Whole 12 parcel.items := by
  rcases List.mem_pair.mp member with rfl | rfl
  · exact ⟨⟨_, rfl, rfl⟩, by decide⟩
  · exact ⟨⟨_, rfl, rfl⟩, by decide⟩

/-- The messages are read, the second one after the descriptor of the first was
popped. -/
theorem queued_messages_arrive_sample :
    ∃ connection, Reached 0 12 connection ∧
      connection.line.accepted = [sentParcel, lastParcel] ∧
      connection.popped = [5] ∧
      connection.feed.returned.length = 2 ∧ connection.Delivers := by
  obtain ⟨start, starts, ran⟩ := secondPart_reached
  have reads : Step 0 secondPart oneRead :=
    .frame rfl rfl (@sample_finds secondPart.feed
      { objectId := 7, opcode := 3, size := 12 } rfl (by decide))
  have pops : Step 0 oneRead onePopped := @Step.pop _ 0 oneRead 5 _ _ rfl
  have readsLast : Step 0 onePopped bothRead :=
    .frame rfl rfl (@sample_finds onePopped.feed
      { objectId := 9, opcode := 1, size := 8 } rfl (by decide))
  have reached : Reached 0 12 bothRead :=
    ⟨start, starts, ((ran.tail reads).tail pops).tail readsLast⟩
  exact ⟨bothRead, reached, rfl, rfl, rfl,
    queued_messages_arrive reached (by decide) sample_whole⟩

/-- A framer that has no message left finds none when it is asked again. -/
theorem sample_drained
    {count : Nat}
    (drained : (reading (fun _ => 0) count secondPart).feed.drained = true)
    (more : Nat) :
    (reading (fun _ => 0) (count + more) secondPart).feed.drained = true := by
  induction more with
  | zero => exact drained
  | succ more drained_ih =>
      change ((reading (fun _ => 0) (count + more) secondPart).feed.call
        0).drained = true
      unfold Framer.Feed.call
      generalize Framer.next _ _ _ _ = outcome
      obtain ⟨answer, unread, framer, blocks⟩ := outcome
      rcases answer with cause | _ | message
      · exact drained_ih
      · rfl
      · exact drained_ih

/-- Both messages are read one after the other, up to the end of what came. -/
theorem frames_come_with_their_descriptors_sample :
    ∃ count,
      let read := reading (fun _ => 0) count secondPart
      read.feed.drained = true ∧ read.Delivers ∧
        read.feed.returned.length = 2 ∧ read.feed.framer.buffered = [] := by
  have finds : ∀ count,
      (reading (fun _ => 0) count secondPart).feed.drained = false →
        (reading (fun _ => 0) count secondPart).feed.Finds 0 := by
    intro count open_
    rcases count with _ | _ | _ | count
    · exact @sample_finds secondPart.feed
        { objectId := 7, opcode := 3, size := 12 } rfl (by decide)
    · exact @sample_finds oneRead.feed
        { objectId := 9, opcode := 1, size := 8 } rfl (by decide)
    · rintro - ⟨header, decoded, -⟩
      cases decoded
    · have drained := @sample_drained 3 rfl count
      rw [Nat.add_comm] at drained
      cases drained.symm.trans open_
  obtain ⟨count, drained, delivers, ends⟩ := frames_come_with_their_descriptors
    secondPart_reached (by decide) sample_whole (fun _ => 0) finds
  obtain ⟨frames, rest⟩ := ends rfl
  exact ⟨count, drained, delivers count (Nat.le_refl _), frames.length_eq, rest⟩

end Sample

end Connection
end Wayring
