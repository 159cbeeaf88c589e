import Wayring.Foundation.Outbox
import Wayring.Transport.Snapshots

/-!
# Sending

The transmit queue of one owner, among those of others on the same pools, and
the kernel that takes bytes and descriptors from it.  Together they are an
outbox: what the kernel gets is what was put into the queue, in order.
-/

namespace Wayring
namespace Tx

variable [Native]

/-- A queue with what was put into it, the snapshots of it since a send was
completed, and what the kernel took. -/
structure Line where
  world : World
  written : List UInt8 := []
  fresh : List Snapshot := []
  flight : Option Snapshot := none
  taken : Option Nat := none
  accepted : List (Parcel UInt8 Fd) := []
  sent : List (Parcel UInt8 Fd) := []

/-- What is written of a message after a call that succeeds, and the messages
that the call puts into the queue. -/
def Call.puts (written : List UInt8) :
    Call → Option (List UInt8 × List (Parcel UInt8 Fd))
  | .enqueue bytes descriptors _ =>
      some (written, [{ items := bytes, attachments := descriptors }])
  | .ensureCapacity _ _ _ => some (written, [])
  | .reserve _ _ => some ([], [])
  | .write bytes => some (written ++ bytes, [])
  | .commit descriptors _ =>
      some (written, [{ items := written, attachments := descriptors }])
  | .abort => some (written, [])
  | _ => none

/-- The owner and others use their queues.  The kernel reads what a send
shows, when it likes, and the owner hears of it later. -/
inductive Line.Step (owner : Nat) : Line → Line → Prop
  | others
      {line : Line} {other : Nat} {call : Call} {result : Except Error Unit}
      {worldNow : World}
      (differs : owner ≠ other)
      (stepped : step line.world other call = some (result, worldNow)) :
      Step owner line { line with world := worldNow }
  | refused
      {line : Line} {call : Call} {cause : Error} {worldNow : World}
      (stepped : step line.world owner call =
        some (.error cause, worldNow)) :
      Step owner line { line with world := worldNow }
  | puts
      {line : Line} {call : Call} {worldNow : World} {written : List UInt8}
      {parcels : List (Parcel UInt8 Fd)}
      (puts : call.puts line.written = some (written, parcels))
      (stepped : step line.world owner call = some (.ok (), worldNow)) :
      Step owner line
        { line with
          world := worldNow
          written
          accepted := line.accepted ++ parcels }
  | snapshot
      {line : Line} {sender : Sender} {snapshot : Snapshot}
      {scratchLength controlLength : Nat}
      (isSender : line.world.senders owner = some sender)
      (taken : sender.queue.snapshot line.world.storage scratchLength
        controlLength = .ok snapshot) :
      Step owner line { line with fresh := line.fresh ++ [snapshot] }
  | begin
      {line : Line} {snapshot : Snapshot} {worldNow : World}
      (fresh : snapshot ∈ line.fresh)
      (stepped : step line.world owner (.begin snapshot) =
        some (.ok (), worldNow)) :
      Step owner line { line with world := worldNow, flight := some snapshot }
  | take
      {line : Line} {snapshot : Snapshot} {count : Nat}
      (flying : line.flight = some snapshot)
      (untaken : line.taken = none)
      (positive : 0 < count)
      (within : count ≤ snapshot.byteCount) :
      Step owner line
        { line with
          taken := some count
          sent := line.sent ++
            [{ items := (snapshot.read line.world.storage.blocks).take count
               attachments := Ancillary.rightsOf snapshot.control }] }
  | complete
      {line : Line} {count : Nat} {worldNow : World}
      (taken : line.taken = some count)
      (stepped : step line.world owner (.complete count) =
        some (.ok (), worldNow)) :
      Step owner line
        { line with
          world := worldNow
          fresh := []
          flight := none
          taken := none }
  | failed
      {line : Line} {worldNow : World}
      (untaken : line.taken = none)
      (stepped : step line.world owner .failed = some (.ok (), worldNow)) :
      Step owner line { line with world := worldNow, flight := none }

/-! ## What a queue carries -/

/-- What is queued, and what is written of a message. -/
inductive Carries (storage : Storage) (written : List UInt8) :
    Sender → Entries → List UInt8 → List Fd → Prop
  | settled
      {queue : Queue} {reservation : Option Reservation} {bytes : List UInt8}
      {items : List Fd} {chain fdChain : List Nat}
      (stores : queue.Stores storage bytes items chain fdChain)
      (finished : ∀ last, reservation = some last →
        last.finished = true ∧ last.newHead = none) :
      Carries storage written { queue, reservation } { chain, fdChain } bytes
        items
  | reserving
      {queue : Queue} {reservation : Reservation} {bytes : List UInt8}
      {items : List Fd} {chain reserved fdChain : List Nat}
      (holds : queue.Reserving storage reservation bytes written items chain
        reserved fdChain) :
      Carries storage written { queue, reservation := some reservation }
        { chain, reserved, fdChain } bytes items

variable {storage after : Storage} {written writtenNow bytes : List UInt8}
  {items : List Fd} {sender : Sender} {entries : Entries}

namespace Carries

omit [Native] in
/-- A sender keeps its storage. -/
theorem has
    (carries : Carries storage written sender entries bytes items) :
    Has storage (some sender) entries := by
  cases carries with
  | settled stores finished => exact .settled stores finished
  | reserving holds => exact .reserving holds

omit [Native] in
/-- The bytes of a sender are those of its chain. -/
theorem text
    (carries : Carries storage written sender entries bytes items) :
    ∃ contents, sender.queue.Text storage.blocks entries.chain contents
      bytes := by
  cases carries with
  | settled stores _ => exact stores.text
  | reserving holds =>
      obtain ⟨contents, _, writes⟩ := holds.writes
      exact ⟨contents, writes.text⟩

omit [Native] in
/-- Steps on other storage leave a sender alone. -/
theorem frame
    {owned ownedNow fdsOwned fdsOwnedNow : List Nat}
    (carries : Carries storage written sender entries bytes items)
    (step : Storage.Step storage after owned ownedNow fdsOwned fdsOwnedNow)
    (apart : ∀ index ∈ entries.blocks, index ∉ owned)
    (fdsApart : ∀ index ∈ entries.fdChain, index ∉ fdsOwned) :
    Carries after written sender entries bytes items := by
  cases carries with
  | settled stores finished =>
      exact .settled
        (stores.frame step
          (fun index member => apart index (List.mem_append_left _ member))
          fdsApart)
        finished
  | reserving holds => exact .reserving (holds.frame step apart fdsApart)

end Carries

/-- A call of an owner, by which messages are put into the queue. -/
structure Puts
    (storage : Storage)
    (sender : Sender)
    (entries : Entries)
    (bytes : List UInt8)
    (items : List Fd)
    (outcome : Outcome)
    (writtenNow : List UInt8)
    (parcels : List (Parcel UInt8 Fd))
    (senderNow : Sender)
    (entriesNow : Entries) : Prop where
  isSender : outcome.sender = some senderNow
  carries : Carries outcome.storage writtenNow senderNow entriesNow
    (bytes ++ Parcel.itemsOf parcels) (items ++ Parcel.attachmentsOf parcels)
  step : Storage.Step storage outcome.storage entries.blocks entriesNow.blocks
    entries.fdChain entriesNow.fdChain
  active : senderNow.queue.active = sender.queue.active
  headOffset : senderNow.queue.headOffset = sender.queue.headOffset
  chain : ∃ more, entriesNow.chain = entries.chain ++ more

omit [Native] in
/-- A call that puts nothing leaves the parcels alone. -/
theorem Puts.same
    (wellFormed : storage.WellFormed)
    (carries : Carries storage writtenNow sender entries bytes items) :
    Puts storage sender entries bytes items
      { result := .ok (), sender := some sender, storage } writtenNow [] sender
      entries where
  isSender := rfl
  carries := by simpa using carries
  step := .refl wellFormed _ _
  active := rfl
  headOffset := rfl
  chain := ⟨[], by simp⟩

section Calls

variable {outcome : Outcome} {parcels : List (Parcel UInt8 Fd)}

/-- A queued message is one more parcel. -/
theorem Carries.enqueue
    {new : List UInt8} {descriptors : List Fd} {room : Room}
    (carries : Carries storage written sender entries bytes items)
    (wellFormed : storage.WellFormed)
    (called : Sender.call storage (some sender)
      (.enqueue new descriptors room) = some outcome)
    (succeeds : outcome.result = .ok ()) :
    ∃ senderNow entriesNow,
      Puts storage sender entries bytes items outcome written
        [{ items := new, attachments := descriptors }] senderNow
        entriesNow := by
  cases carries with
  | settled stores finished =>
      rename_i queue reservation chain fdChain
      have spec := @Queue.enqueue_spec queue storage bytes items chain fdChain
        new descriptors room stores wellFormed
      generalize enqueued : queue.enqueue storage new descriptors room = answer
        at spec
      obtain ⟨result, next, storageNow⟩ := answer
      simp only [Sender.call, enqueued, Option.some.injEq] at called
      subst called
      cases succeeds
      obtain ⟨more, fdChainNow, spec⟩ := spec
      exact ⟨_, _,
        { isSender := rfl
          carries := .settled (by simpa using spec.stores) finished
          step := by simpa [Entries.blocks] using spec.step
          active := spec.active
          headOffset := spec.headOffset
          chain := ⟨more, rfl⟩ }⟩
  | reserving holds =>
      rename_i queue reservation chain reserved fdChain
      obtain ⟨cause, refused⟩ := @Queue.enqueue_unsettled queue storage new
        descriptors room holds.unsettled
      simp only [Sender.call, refused, Option.some.injEq] at called
      subst called
      cases succeeds

theorem Carries.ensureCapacity
    {byteCount descriptorCount : Nat} {room : Room}
    (carries : Carries storage written sender entries bytes items)
    (wellFormed : storage.WellFormed)
    (called : Sender.call storage (some sender)
      (.ensureCapacity byteCount descriptorCount room) = some outcome)
    (succeeds : outcome.result = .ok ()) :
    ∃ senderNow entriesNow,
      Puts storage sender entries bytes items outcome written [] senderNow
        entriesNow := by
  cases carries with
  | settled stores finished =>
      rename_i queue reservation chain fdChain
      obtain ⟨step, storesNow, _⟩ := @Queue.ensureCapacity_spec queue storage
        bytes items chain fdChain byteCount descriptorCount room stores
        wellFormed
      simp only [Sender.call, Option.some.injEq] at called
      subst called
      exact ⟨_, _,
        { isSender := rfl
          carries := .settled (by simpa using storesNow) finished
          step := by simpa [Entries.blocks] using step
          active := rfl
          headOffset := rfl
          chain := ⟨[], by simp⟩ }⟩
  | reserving holds =>
      simp only [Sender.call, Queue.ensureCapacity, holds.unsettled, if_true,
        Option.some.injEq] at called
      subst called
      cases succeeds

theorem Carries.reserve
    {byteCount room : Nat}
    (carries : Carries storage written sender entries bytes items)
    (wellFormed : storage.WellFormed)
    (called : Sender.call storage (some sender) (.reserve byteCount room) =
      some outcome)
    (succeeds : outcome.result = .ok ()) :
    ∃ senderNow entriesNow,
      Puts storage sender entries bytes items outcome [] [] senderNow
        entriesNow := by
  cases carries with
  | settled stores finished =>
      rename_i queue reservation chain fdChain
      have spec := @Queue.reserve_stores queue storage bytes items chain fdChain
        byteCount room stores wellFormed
      generalize reserved : queue.reserve storage.blocks byteCount room = answer
        at spec
      obtain ⟨result, next, blocks⟩ := answer
      cases result with
      | error cause =>
          simp only [Sender.call, reserved, Option.some.injEq] at called
          subst called
          cases succeeds
      | ok reservation =>
          simp only [Sender.call, reserved, Option.some.injEq] at called
          subst called
          obtain ⟨newChain, isNext, _, reserving, step⟩ := spec
          simp only at isNext
          subst isNext
          exact ⟨_, _,
            { isSender := rfl
              carries := .reserving (by simpa using reserving)
              step := by simpa [Entries.blocks] using step
              active := rfl
              headOffset := rfl
              chain := ⟨[], by simp⟩ }⟩
  | reserving holds =>
      simp only [Sender.call, Queue.reserve_unsettled storage.blocks byteCount
        room holds.unsettled, Option.some.injEq] at called
      subst called
      cases succeeds

/-- Writing adds to the reserved message. -/
theorem Carries.write
    {new : List UInt8}
    (carries : Carries storage written sender entries bytes items)
    (wellFormed : storage.WellFormed)
    (called : Sender.call storage (some sender) (.write new) = some outcome)
    (succeeds : outcome.result = .ok ()) :
    ∃ senderNow entriesNow,
      Puts storage sender entries bytes items outcome (written ++ new) []
        senderNow entriesNow := by
  cases carries with
  | settled stores finished =>
      rename_i queue reservation chain fdChain
      cases last : reservation with
      | none =>
          rw [last] at called
          cases called
      | some reservation =>
          subst last
          have refused := Reservation.write_finished storage.blocks new
            (finished reservation rfl).1
          simp only [Sender.call, refused, Option.some.injEq] at called
          subst called
          cases succeeds
  | reserving holds =>
      rename_i queue reservation chain reserved fdChain
      obtain ⟨step, _, spec⟩ := holds.write new wellFormed
      generalize wrote : reservation.write storage.blocks new = answer
        at spec step
      obtain ⟨result, next, blocks⟩ := answer
      simp only [Sender.call, wrote, Option.some.injEq] at called
      subst called
      cases succeeds
      exact ⟨_, _,
        { isSender := rfl
          carries := .reserving (by simpa using spec.2)
          step := step
          active := rfl
          headOffset := rfl
          chain := ⟨[], by simp⟩ }⟩

/-- A committed message is one more parcel. -/
theorem Carries.commit
    {descriptors : List Fd} {room : Nat}
    (carries : Carries storage written sender entries bytes items)
    (wellFormed : storage.WellFormed)
    (called : Sender.call storage (some sender) (.commit descriptors room) =
      some outcome)
    (succeeds : outcome.result = .ok ()) :
    ∃ senderNow entriesNow,
      Puts storage sender entries bytes items outcome written
        [{ items := written, attachments := descriptors }] senderNow
        entriesNow := by
  cases carries with
  | settled stores finished =>
      rename_i queue reservation chain fdChain
      cases last : reservation with
      | none =>
          rw [last] at called
          cases called
      | some reservation =>
          subst last
          have refused := Reservation.commit_finished queue storage descriptors
            room (finished reservation rfl).1
          simp only [Sender.call, refused, Option.some.injEq] at called
          subst called
          cases succeeds
  | reserving holds =>
      rename_i queue reservation chain reserved fdChain
      have spec := holds.commit descriptors room wellFormed
      generalize committed : reservation.commit queue storage descriptors room =
        answer at spec
      obtain ⟨result, reservationNow, next, storageNow⟩ := answer
      simp only [Sender.call, committed, Option.some.injEq] at called
      subst called
      cases succeeds
      obtain ⟨fdChainNow, _, finished, noHead, stores, step, _, _, active,
        headOffset⟩ := spec
      exact ⟨_, _,
        { isSender := rfl
          carries := .settled (by simpa using stores) fun last same => by
            cases same
            exact ⟨finished, noHead⟩
          step := by simpa [Entries.blocks] using step
          active := active
          headOffset := headOffset
          chain := ⟨reserved, rfl⟩ }⟩

/-- An aborted message is none. -/
theorem Carries.abort
    (carries : Carries storage written sender entries bytes items)
    (wellFormed : storage.WellFormed)
    (called : Sender.call storage (some sender) .abort = some outcome) :
    ∃ senderNow entriesNow,
      Puts storage sender entries bytes items outcome written [] senderNow
        entriesNow := by
  cases carries with
  | settled stores finished =>
      rename_i queue reservation chain fdChain
      cases last : reservation with
      | none =>
          rw [last] at called
          cases called
      | some reservation =>
          subst last
          have ignored := Reservation.abort_finished queue storage.blocks
            (finished reservation rfl).1
          simp only [Sender.call, ignored, Option.some.injEq] at called
          subst called
          exact ⟨_, _, .same wellFormed (.settled stores finished)⟩
  | reserving holds =>
      rename_i queue reservation chain reserved fdChain
      obtain ⟨blocks, aborted, stores, step⟩ := holds.abort wellFormed
      simp only [Sender.call, aborted, Option.some.injEq] at called
      subst called
      exact ⟨_, _,
        { isSender := rfl
          carries := .settled (by simpa using stores) fun last same => by
            cases same
            exact ⟨rfl, rfl⟩
          step := by simpa [Entries.blocks] using step
          active := rfl
          headOffset := rfl
          chain := ⟨[], by simp⟩ }⟩

/-- A call puts its messages behind what is queued. -/
theorem Carries.puts
    {call : Call}
    (carries : Carries storage written sender entries bytes items)
    (wellFormed : storage.WellFormed)
    (puts : call.puts written = some (writtenNow, parcels))
    (called : Sender.call storage (some sender) call = some outcome)
    (succeeds : outcome.result = .ok ()) :
    ∃ senderNow entriesNow,
      Puts storage sender entries bytes items outcome writtenNow parcels
        senderNow entriesNow := by
  cases call with
  | enqueue =>
      cases puts
      exact carries.enqueue wellFormed called succeeds
  | ensureCapacity =>
      cases puts
      exact carries.ensureCapacity wellFormed called succeeds
  | reserve =>
      cases puts
      exact carries.reserve wellFormed called succeeds
  | write =>
      cases puts
      exact carries.write wellFormed called succeeds
  | commit =>
      cases puts
      exact carries.commit wellFormed called succeeds
  | abort =>
      cases puts
      exact carries.abort wellFormed called
  | init | snapshot | begin | complete | failed | deinit => cases puts

end Calls

/-! ## Refinement -/

/-- How much a snapshot offers to send. -/
def Snapshot.offer (snapshot : Snapshot) : Nat × Nat :=
  (snapshot.byteCount, snapshot.descriptorCount)

/-- A snapshot is one that can be sent. -/
def Line.Offers (line : Line) (snapshot : Snapshot) : Prop :=
  snapshot ∈ line.fresh ∨ line.flight = some snapshot

/-- A line is an outbox: its queue holds what is queued there, and a snapshot
shows what is on offer. -/
structure Line.Refines
    (owner : Nat)
    (line : Line)
    (outbox : Outbox UInt8 Fd)
    (entries : Nat → Entries)
    (sender : Sender) : Prop where
  reached : Relation.ReflTransGen Outbox.Step {} outbox
  world : line.world.Sound entries
  isSender : line.world.senders owner = some sender
  carries : Carries line.world.storage line.written sender (entries owner)
    outbox.queued outbox.queuedAttachments
  accepted : outbox.accepted = line.accepted
  sent : outbox.sent = line.sent
  taken : outbox.taken = line.taken
  offers : outbox.offers = line.fresh.map Snapshot.offer
  flight : outbox.flight = line.flight.map Snapshot.offer
  active : sender.queue.active = line.flight.map fun snapshot =>
    { byteCount := snapshot.byteCount
      descriptorCount := snapshot.descriptorCount }
  shows : ∀ snapshot, line.Offers snapshot →
    snapshot.Shows sender.queue line.world.storage.blocks.blockSize
        (entries owner).chain ∧
      Ancillary.rightsOf snapshot.control =
        outbox.queuedAttachments.take snapshot.descriptorCount

namespace Line

variable {line next : Line} {owner : Nat} {outbox : Outbox UInt8 Fd}
  {allEntries : Nat → Entries}

/-- An outbox that a line refines to is sound. -/
theorem Refines.sound
    (refines : Refines owner line outbox allEntries sender) : outbox.Sound :=
  Outbox.sound_empty.run refines.reached

/-- What a snapshot shows is queued. -/
theorem Refines.descriptors_le
    {snapshot : Snapshot}
    (refines : Refines owner line outbox allEntries sender)
    (offers : line.Offers snapshot) :
    snapshot.descriptorCount ≤ outbox.queuedAttachments.length := by
  have sensible : Outbox.Sensible outbox.accepted outbox.gone
      outbox.goneAttachments snapshot.offer := by
    rcases offers with fresh | flying
    · refine refines.sound.offers _ ?_
      rw [refines.offers]
      exact List.mem_map_of_mem fresh
    · refine (refines.sound.flying _ ?_).1
      rw [refines.flight, flying]
      rfl
  have attachments := sensible.attachments
  rw [Snapshot.offer] at attachments
  rw [Outbox.queuedAttachments, List.length_drop]
  omega

/-- A successful call of the owner itself. -/
theorem step_served
    {world worldNow : World} {call : Call} {result : Except Error Unit}
    (isSender : world.senders owner = some sender)
    (stepped : step world owner call = some (result, worldNow)) :
    ∃ outcome,
      Sender.call world.storage (some sender) call = some outcome ∧
      outcome.result = result ∧
      worldNow =
        { storage := outcome.storage
          senders := Function.update world.senders owner outcome.sender } := by
  obtain ⟨outcome, called, same⟩ := Option.map_eq_some_iff.mp stepped
  cases same
  exact ⟨outcome, isSender ▸ called, rfl, rfl⟩

/-- Calls of other owners leave the outbox alone. -/
theorem Refines.others
    {other : Nat} {call : Call} {result : Except Error Unit}
    {worldNow : World}
    (refines : Refines owner line outbox allEntries sender)
    (differs : owner ≠ other)
    (stepped : step line.world other call = some (result, worldNow)) :
    ∃ entriesNow,
      Refines owner { line with world := worldNow } outbox entriesNow
        sender := by
  obtain ⟨entries, turned⟩ := refines.world.step stepped
  have same : Function.update allEntries other entries owner =
      allEntries owner := Function.update_of_ne differs _ _
  refine ⟨_,
    { refines with
      world := turned.sound
      isSender := (turned.others owner differs).trans refines.isSender
      carries := ?_
      shows := fun snapshot offers => ?_ }⟩
  · rw [same]
    exact refines.carries.frame turned.step
      (fun index member => refines.world.blocks.apart owner other differs member)
      fun index member => refines.world.fds.apart owner other differs member
  · rw [same]
    simp only [turned.step.blocks.blockSize]
    exact refines.shows snapshot offers

/-- A call that fails leaves the outbox alone. -/
theorem Refines.refused
    {call : Call} {cause : Error} {worldNow : World}
    (refines : Refines owner line outbox allEntries sender)
    (stepped : step line.world owner call = some (.error cause, worldNow)) :
    Refines owner { line with world := worldNow } outbox allEntries sender := by
  obtain ⟨entries, turned⟩ := refines.world.step stepped
  obtain ⟨senders, rfl, cells, fdCells⟩ := turned.failed cause rfl
  have sound := turned.sound
  rw [Function.update_eq_self] at sound
  have kept : Storage.Step line.world.storage worldNow.storage [] [] [] [] :=
    ⟨⟨sound.wellFormed.blocks, turned.step.blocks.blockSize, by
        rw [cells]
        exact .refl _ _⟩,
      ⟨sound.wellFormed.fds, by
        rw [fdCells]
        exact .refl _ _⟩⟩
  exact
    { refines with
      world := sound
      isSender := by
        rw [← refines.isSender]
        exact congrFun senders owner
      carries := refines.carries.frame kept (by simp) (by simp)
      shows := by
        simp only [turned.step.blocks.blockSize]
        exact refines.shows }

omit [Native] in
/-- Parcels that are accepted are queued at the end. -/
theorem queued_append
    (sound : outbox.Sound)
    (parcels : List (Parcel UInt8 Fd))
    {last : Outbox UInt8 Fd}
    (isLast : last = { outbox with accepted := outbox.accepted ++ parcels }) :
    last.queued = outbox.queued ++ Parcel.itemsOf parcels ∧
      last.queuedAttachments =
        outbox.queuedAttachments ++ Parcel.attachmentsOf parcels := by
  subst isLast
  simp only [Outbox.queued, Outbox.queuedAttachments, Parcel.itemsOf_append,
    Parcel.attachmentsOf_append]
  exact ⟨List.drop_append_of_le_length sound.within,
    List.drop_append_of_le_length sound.withinAttachments⟩

omit [Native] in
/-- Parcels can be accepted one after another. -/
theorem accepts
    (outbox : Outbox UInt8 Fd)
    (parcels : List (Parcel UInt8 Fd)) :
    Relation.ReflTransGen Outbox.Step outbox
      { outbox with accepted := outbox.accepted ++ parcels } := by
  induction parcels generalizing outbox with
  | nil => simp [Relation.ReflTransGen.refl]
  | cons parcel parcels accepts_ih =>
      have rest := accepts_ih (outbox.accept parcel)
      simp only [Outbox.accept, List.append_assoc, List.singleton_append] at rest
      exact .head (.accept parcel) rest

/-- What a call puts on the queue, the outbox accepts. -/
theorem Refines.puts
    {call : Call} {worldNow : World} {parcels : List (Parcel UInt8 Fd)}
    (refines : Refines owner line outbox allEntries sender)
    (puts : call.puts line.written = some (writtenNow, parcels))
    (stepped : step line.world owner call = some (.ok (), worldNow)) :
    ∃ outboxNow entriesNow senderNow,
      Refines owner
        { line with
          world := worldNow
          written := writtenNow
          accepted := line.accepted ++ parcels }
        outboxNow entriesNow senderNow ∧
      Relation.ReflTransGen Outbox.Step outbox outboxNow := by
  obtain ⟨outcome, called, succeeds, rfl⟩ :=
    step_served refines.isSender stepped
  obtain ⟨senderNow, entriesNow, spec⟩ :=
    refines.carries.puts refines.world.wellFormed puts called succeeds
  obtain ⟨queued, attachments⟩ := queued_append refines.sound parcels rfl
  have served : Served line.world.storage (line.world.senders owner)
      (allEntries owner) outcome entriesNow :=
    { has := spec.isSender ▸ spec.carries.has
      step := spec.step
      failed := fun cause failed => by cases succeeds.symm.trans failed }
  have turned := refines.world.serve served
  have steps := accepts outbox parcels
  refine ⟨_, _, senderNow,
    { reached := refines.reached.trans steps
      world := turned.sound
      isSender := ?_
      carries := ?_
      accepted := ?_
      sent := refines.sent
      taken := refines.taken
      offers := refines.offers
      flight := refines.flight
      active := spec.active.trans refines.active
      shows := fun snapshot offers => ?_ }, steps⟩
  · simp [spec.isSender]
  · rw [Function.update_self, queued, attachments]
    exact spec.carries
  · simp only [refines.accepted]
  · obtain ⟨shows, rights⟩ := refines.shows snapshot offers
    obtain ⟨contents, text⟩ := refines.carries.text
    obtain ⟨contentsNow, textNow⟩ := spec.carries.text
    obtain ⟨more, chain⟩ := spec.chain
    rw [Function.update_self, chain, attachments]
    rw [chain] at textNow
    refine ⟨shows.later text textNow refines.world.wellFormed.blocks
      spec.step.blocks.wellFormed spec.step.blocks.blockSize spec.headOffset, ?_⟩
    rw [rights,
      List.take_append_of_le_length (refines.descriptors_le offers)]

/-- A snapshot is an offer of the outbox. -/
theorem Refines.snapshot
    {snapshot : Snapshot} {scratchLength controlLength : Nat}
    (refines : Refines owner line outbox allEntries sender)
    (taken : sender.queue.snapshot line.world.storage scratchLength
      controlLength = .ok snapshot) :
    ∃ outboxNow,
      Refines owner { line with fresh := line.fresh ++ [snapshot] } outboxNow
        allEntries sender ∧
      Relation.ReflTransGen Outbox.Step outbox outboxNow := by
  have carries := refines.carries
  obtain ⟨contents, text⟩ := carries.text
  have wellFormed := refines.world.wellFormed.blocks
  generalize isEntries : allEntries owner = entries at carries text
  generalize isBytes : outbox.queued = bytes at carries text
  generalize isItems : outbox.queuedAttachments = items at carries
  cases carries with
  | reserving holds =>
      unfold Queue.snapshot at taken
      rw [if_pos holds.unsettled] at taken
      cases taken
  | settled stores finished =>
      obtain ⟨shows, count, rights⟩ := stores.snapshot_spec taken
      obtain ⟨_, within⟩ := shows.read_eq text wellFormed
      have offered : Outbox.Step outbox (outbox.offer snapshot.byteCount) :=
        .offer (isBytes ▸ within)
      refine ⟨_,
        { refines with
          reached := refines.reached.tail offered
          offers := ?_
          shows := fun other offers => ?_ }, .single offered⟩
      · simp [Outbox.offer, refines.offers, Snapshot.offer, isItems, count]
      · rcases offers with fresh | flying
        · rcases List.mem_append.mp fresh with early | now
          · exact refines.shows other (.inl early)
          · rw [List.mem_singleton] at now
            subst now
            have sameItems : (outbox.offer
                other.byteCount).queuedAttachments = items := isItems
            rw [isEntries, sameItems, rights, count, List.take_length]
            exact ⟨shows, rfl⟩
        · exact refines.shows other (.inr flying)

/-- A send begins with an offer. -/
theorem Refines.begin
    {snapshot : Snapshot} {worldNow : World}
    (refines : Refines owner line outbox allEntries sender)
    (fresh : snapshot ∈ line.fresh)
    (stepped : step line.world owner (.begin snapshot) =
      some (.ok (), worldNow)) :
    ∃ outboxNow entriesNow senderNow,
      Refines owner
        { line with world := worldNow, flight := some snapshot }
        outboxNow entriesNow senderNow ∧
      Relation.ReflTransGen Outbox.Step outbox outboxNow := by
  obtain ⟨outcome, called, succeeds, rfl⟩ :=
    step_served refines.isSender stepped
  have world := refines.world
  have carries := refines.carries
  have active := refines.active
  have shown := refines.shows
  generalize isEntries : allEntries owner = entries at carries shown
  generalize isBytes : outbox.queued = bytes at carries
  generalize isItems : outbox.queuedAttachments = items at carries
  cases carries with
  | reserving holds =>
      simp only [Sender.call, Queue.begin_unsettled snapshot holds.unsettled,
        Option.some.injEq] at called
      subst called
      cases succeeds
  | settled stores finished =>
      rename_i queue reservation chain fdChain
      cases begun : queue.begin snapshot with
      | error cause =>
          simp only [Sender.call, begun, Option.some.injEq] at called
          subst called
          cases succeeds
      | ok queueNow =>
          simp only [Sender.call, begun, Option.some.injEq] at called
          subst called
          obtain ⟨storesNow, idle, activeNow, _⟩ := stores.begin_spec begun
          have same : queueNow.headOffset = queue.headOffset ∧
              queueNow.tailUsed = queue.tailUsed := by
            unfold Queue.begin at begun
            split_ifs at begun
            cases begun
            exact ⟨rfl, rfl⟩
          have idleLine : line.flight = none := by
            simpa [idle] using active.symm
          have idleBox : outbox.flight = none := by
            rw [refines.flight, idleLine]
            rfl
          have started : Outbox.Step outbox (outbox.start snapshot.offer) :=
            .start idleBox (by
              rw [refines.offers]
              exact List.mem_map_of_mem fresh)
          have queued : (outbox.start snapshot.offer).queued = bytes := isBytes
          have attachments :
              (outbox.start snapshot.offer).queuedAttachments = items := isItems
          have served : Served line.world.storage (line.world.senders owner)
              (allEntries owner)
              { result := .ok ()
                sender := some { queue := queueNow, reservation }
                storage := line.world.storage } (allEntries owner) :=
            { has := isEntries ▸ .settled storesNow finished
              step := .refl world.wellFormed _ _
              failed := fun _ none => by cases none }
          have turned := world.serve served
          refine ⟨_, _, { queue := queueNow, reservation },
            { reached := refines.reached.tail started
              world := turned.sound
              isSender := by simp
              carries := ?_
              accepted := refines.accepted
              sent := refines.sent
              taken := refines.taken
              offers := refines.offers
              flight := rfl
              active := activeNow
              shows := fun other offers => ?_ }, .single started⟩
          · rw [Function.update_self, isEntries, queued, attachments]
            exact .settled storesNow finished
          · have early : line.Offers other := by
              rcases offers with fresh | flying
              · exact .inl fresh
              · cases flying
                exact .inl fresh
            obtain ⟨shows, rights⟩ := shown other early
            rw [Function.update_self, isEntries, attachments, ← isItems]
            refine ⟨?_, rights⟩
            exact
              { first := shows.first
                start := shows.start.trans same.1.symm
                ordered := same.1 ▸ shows.ordered
                within := shows.within
                queued := by simpa only [Queue.stop, same.2] using shows.queued
                second := by
                  simpa only [Queue.stop, same.2] using shows.second }

/-- The kernel takes part of what was offered. -/
theorem Refines.take
    {snapshot : Snapshot} {count : Nat}
    (refines : Refines owner line outbox allEntries sender)
    (flying : line.flight = some snapshot)
    (untaken : line.taken = none)
    (within : count ≤ snapshot.byteCount) :
    ∃ outboxNow,
      Refines owner
        { line with
          taken := some count
          sent := line.sent ++
            [{ items := (snapshot.read line.world.storage.blocks).take count
               attachments := Ancillary.rightsOf snapshot.control }] }
        outboxNow allEntries sender ∧
      Relation.ReflTransGen Outbox.Step outbox outboxNow := by
  obtain ⟨shows, rights⟩ := refines.shows snapshot (.inr flying)
  obtain ⟨contents, text⟩ := refines.carries.text
  obtain ⟨read, _⟩ := shows.read_eq text refines.world.wellFormed.blocks
  have flight := refines.flight
  rw [flying, Option.map_some] at flight
  have taken : Outbox.Step outbox
      (outbox.take count snapshot.descriptorCount) :=
    .take flight (refines.taken.trans untaken) within
  refine ⟨_,
    { refines with
      reached := refines.reached.tail taken
      sent := ?_
      taken := rfl
      flight := refines.flight
      shows := refines.shows }, .single taken⟩
  simp only [Outbox.take, Outbox.taking, refines.sent, read, rights,
    List.take_take, Nat.min_eq_left within]

/-- A completion reports what was taken. -/
theorem Refines.complete
    {count : Nat} {worldNow : World}
    (refines : Refines owner line outbox allEntries sender)
    (taken : line.taken = some count)
    (stepped : step line.world owner (.complete count) =
      some (.ok (), worldNow)) :
    ∃ outboxNow entriesNow senderNow,
      Refines owner
        { line with
          world := worldNow
          fresh := []
          flight := none
          taken := none }
        outboxNow entriesNow senderNow ∧
      Relation.ReflTransGen Outbox.Step outbox outboxNow := by
  obtain ⟨outcome, called, succeeds, rfl⟩ :=
    step_served refines.isSender stepped
  have world := refines.world
  have carries := refines.carries
  have active := refines.active
  have flight := refines.flight
  generalize isEntries : allEntries owner = entries at carries
  generalize isBytes : outbox.queued = bytes at carries
  generalize isItems : outbox.queuedAttachments = items at carries
  cases carries with
  | reserving holds =>
      simp only [Sender.call, Queue.complete_unsettled count holds.unsettled,
        Option.some.injEq] at called
      subst called
      cases succeeds
  | settled stores finished =>
      rename_i queue reservation chain fdChain
      have spec := @Queue.complete_spec queue line.world.storage bytes items
        chain fdChain count stores world.wellFormed
      generalize completed : queue.complete line.world.storage count = answer
        at spec
      obtain ⟨result, queueNow, storageNow⟩ := answer
      simp only [Sender.call, completed, Option.some.injEq] at called
      subst called
      cases result with
      | error cause => cases succeeds
      | ok closed =>
          obtain ⟨sending, chainNow, fdChainNow, isActive, _, _, _, spec⟩ := spec
          simp only at active
          obtain ⟨snapshot, flying, rfl⟩ := Option.map_eq_some_iff.mp
            (active.symm.trans isActive)
          rw [flying, Option.map_some] at flight
          have stepped : Outbox.Step outbox
              (outbox.complete count snapshot.descriptorCount) :=
            .complete flight (refines.taken.trans taken)
          have queued : (outbox.complete count
              snapshot.descriptorCount).queued = bytes.drop count := by
            rw [← isBytes, Outbox.queued, Outbox.queued, List.drop_drop]
            rfl
          have attachments : (outbox.complete count
              snapshot.descriptorCount).queuedAttachments =
                items.drop snapshot.descriptorCount := by
            rw [← isItems, Outbox.queuedAttachments, Outbox.queuedAttachments,
              List.drop_drop]
            rfl
          have served : Served line.world.storage (line.world.senders owner)
              (allEntries owner)
              { result := .ok ()
                sender := some { queue := queueNow, reservation }
                storage := storageNow }
              { chain := chainNow, fdChain := fdChainNow } :=
            { has := .settled spec.stores finished
              step := by simpa [isEntries, Entries.blocks] using spec.step
              failed := fun _ none => by cases none }
          have turned := world.serve served
          refine ⟨_, _, { queue := queueNow, reservation },
            { reached := refines.reached.tail stepped
              world := turned.sound
              isSender := by simp
              carries := ?_
              accepted := refines.accepted
              sent := refines.sent
              taken := rfl
              offers := rfl
              flight := rfl
              active := spec.active
              shows := fun snapshot offers => ?_ }, .single stepped⟩
          · rw [Function.update_self, queued, attachments]
            exact .settled spec.stores finished
          · rcases offers with none | none <;> cases none

/-- A failed send takes nothing. -/
theorem Refines.failed
    {worldNow : World}
    (refines : Refines owner line outbox allEntries sender)
    (untaken : line.taken = none)
    (stepped : step line.world owner .failed = some (.ok (), worldNow)) :
    ∃ outboxNow entriesNow senderNow,
      Refines owner { line with world := worldNow, flight := none }
        outboxNow entriesNow senderNow ∧
      Relation.ReflTransGen Outbox.Step outbox outboxNow := by
  obtain ⟨outcome, called, succeeds, rfl⟩ :=
    step_served refines.isSender stepped
  have world := refines.world
  have carries := refines.carries
  have shown := refines.shows
  generalize isEntries : allEntries owner = entries at carries shown
  generalize isBytes : outbox.queued = bytes at carries
  generalize isItems : outbox.queuedAttachments = items at carries
  cases carries with
  | reserving holds =>
      simp only [Sender.call, Queue.failed_unsettled holds.unsettled,
        Option.some.injEq] at called
      subst called
      cases succeeds
  | settled stores finished =>
      rename_i queue reservation chain fdChain
      cases failed : queue.failed with
      | error cause =>
          simp only [Sender.call, failed, Option.some.injEq] at called
          subst called
          cases succeeds
      | ok queueNow =>
          simp only [Sender.call, failed, Option.some.injEq] at called
          subst called
          obtain ⟨storesNow, isNow⟩ := stores.failed_spec failed
          have stepped : Outbox.Step outbox outbox.fail :=
            .fail (refines.taken.trans untaken)
          have served : Served line.world.storage (line.world.senders owner)
              (allEntries owner)
              { result := .ok ()
                sender := some { queue := queueNow, reservation }
                storage := line.world.storage } (allEntries owner) :=
            { has := isEntries ▸ .settled storesNow finished
              step := .refl world.wellFormed _ _
              failed := fun _ none => by cases none }
          have turned := world.serve served
          refine ⟨_, _, { queue := queueNow, reservation },
            { reached := refines.reached.tail stepped
              world := turned.sound
              isSender := by simp
              carries := ?_
              accepted := refines.accepted
              sent := refines.sent
              taken := refines.taken
              offers := refines.offers
              flight := rfl
              active := by
                rw [isNow]
                rfl
              shows := fun snapshot offers => ?_ }, .single stepped⟩
          · have queued : outbox.fail.queued = bytes := isBytes
            have attachments : outbox.fail.queuedAttachments = items := isItems
            rw [Function.update_self, isEntries, queued, attachments]
            exact .settled storesNow finished
          · have early : line.Offers snapshot := by
              rcases offers with fresh | none
              · exact .inl fresh
              · cases none
            obtain ⟨shows, rights⟩ := shown snapshot early
            have attachments :
                outbox.fail.queuedAttachments = outbox.queuedAttachments := rfl
            rw [Function.update_self, isEntries, attachments]
            subst isNow
            exact ⟨⟨shows.first, shows.start, shows.ordered, shows.within,
              shows.queued, shows.second⟩, rights⟩

/-- Every step of a line is steps of its outbox. -/
theorem Refines.step
    (refines : Refines owner line outbox allEntries sender)
    (stepped : Step owner line next) :
    ∃ outboxNow entriesNow senderNow,
      Refines owner next outboxNow entriesNow senderNow ∧
      Relation.ReflTransGen Outbox.Step outbox outboxNow := by
  cases stepped with
  | others differs stepped =>
      obtain ⟨entriesNow, now⟩ := refines.others differs stepped
      exact ⟨_, _, _, now, .refl⟩
  | refused stepped => exact ⟨_, _, _, refines.refused stepped, .refl⟩
  | puts puts stepped => exact refines.puts puts stepped
  | snapshot isSender taken =>
      cases refines.isSender.symm.trans isSender
      obtain ⟨outboxNow, now, steps⟩ := refines.snapshot taken
      exact ⟨_, _, _, now, steps⟩
  | begin fresh stepped => exact refines.begin fresh stepped
  | take flying untaken _ within =>
      obtain ⟨outboxNow, now, steps⟩ := refines.take flying untaken within
      exact ⟨_, _, _, now, steps⟩
  | complete taken stepped => exact refines.complete taken stepped
  | failed untaken stepped => exact refines.failed untaken stepped

/-- Every run of a line is one of its outbox. -/
theorem Refines.run
    (refines : Refines owner line outbox allEntries sender)
    (ran : Relation.ReflTransGen (Step owner) line next) :
    ∃ outboxNow entriesNow senderNow,
      Refines owner next outboxNow entriesNow senderNow ∧
      Relation.ReflTransGen Outbox.Step outbox outboxNow := by
  induction ran with
  | refl => exact ⟨_, _, _, refines, .refl⟩
  | tail _ stepped run_ih =>
      obtain ⟨outboxMid, entriesMid, senderMid, middle, early⟩ := run_ih
      obtain ⟨outboxNow, entriesNow, senderNow, now, late⟩ :=
        middle.step stepped
      exact ⟨outboxNow, entriesNow, senderNow, now, early.trans late⟩

/-- An owner gets a queue, after any run of all owners on new pools. -/
inductive Start (owner : Nat) : Line → Prop
  | init
      {blockSize blockCount blockRoom capacity fdRoom byteBudget
        descriptorBudget : Nat}
      {blocks : SharedBlocks} {fds : SharedFds} {turns : List (Nat × Call)}
      {results : List (Except Error Unit)} {world worldNow : World}
      (blocksReady : SharedBlocks.init blockSize blockCount blockRoom =
        .ok blocks)
      (fdsReady : SharedFds.init capacity fdRoom = .ok fds)
      (ran : run (World.start { blocks, fds }) turns = some (results, world))
      (stepped : Tx.step world owner (.init byteBudget descriptorBudget) =
        some (.ok (), worldNow)) :
      Start owner { world := worldNow }

/-- A new line is an empty outbox. -/
theorem Start.refines
    (start : Start owner line) :
    ∃ entries sender, Refines owner line {} entries sender := by
  cases start with
  | @init _ _ _ _ _ byteBudget descriptorBudget _ _ _ _ world worldNow
      blocksReady fdsReady ran stepped =>
      obtain ⟨entries, sound, _⟩ :=
        (World.Sound.start_ready blocksReady fdsReady).run ran
      obtain ⟨outcome, called, same⟩ := Option.map_eq_some_iff.mp stepped
      have has := sound.has owner
      generalize isSender : world.senders owner = sender at called has
      generalize isEntries : entries owner = nothing at has
      cases has with
      | settled => cases called
      | reserving => cases called
      | gone =>
          simp only [Sender.call, Option.some.injEq] at called
          subst called
          cases same
          have stores := Queue.Stores.init world.storage byteBudget
            descriptorBudget
          have served : Served world.storage (world.senders owner)
              (entries owner)
              { result := .ok ()
                sender := some
                  { queue := Queue.init byteBudget descriptorBudget }
                storage := world.storage } {} :=
            { has := .settled stores (by simp)
              step := by
                rw [isEntries]
                exact .refl sound.wellFormed _ _
              failed := fun _ none => by cases none }
          refine ⟨_, { queue := Queue.init byteBudget descriptorBudget },
            { reached := .refl
              world := (sound.serve served).sound
              isSender := by simp
              carries := ?_
              accepted := rfl
              sent := rfl
              taken := rfl
              offers := rfl
              flight := rfl
              active := rfl
              shows := fun _ offers => ?_ }⟩
          · rw [Function.update_self]
            exact .settled stores (by simp)
          · rcases offers with none | none <;> cases none

end Line

end Tx
end Wayring
