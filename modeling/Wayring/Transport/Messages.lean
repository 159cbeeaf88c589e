import Wayring.Transport.QueueRuns

/-!
# Messages

A message is copied into the queue at once, or written in pieces into blocks
that are reserved for it.  Capacity that is ensured for many bytes is enough
for them in any messages.
-/

namespace Wayring
namespace Tx

/-- A message on its way into a queue. -/
inductive Message
  | copied (bytes : List UInt8) (descriptors : List Fd)
  | direct (pieces : List (List UInt8)) (descriptors : List Fd)
  deriving DecidableEq, Repr

namespace Message

/-- The bytes of a message. -/
def bytes : Message → List UInt8
  | copied bytes _ => bytes
  | direct pieces _ => pieces.flatten

/-- The descriptors of a message. -/
def descriptors : Message → List Fd
  | copied _ descriptors => descriptors
  | direct _ descriptors => descriptors

/-- The calls that queue a message. -/
def calls (room : Room) : Message → List Call
  | copied bytes descriptors => [.enqueue bytes descriptors room]
  | direct pieces descriptors =>
      .reserve pieces.flatten.length room.blocks ::
        pieces.map .write ++ [.commit descriptors room.fds]

end Message

section Accepts

variable [Native]

/-- Make calls that all succeed. -/
def Sender.accepts :
    Storage → Option Sender → List Call → Option (Option Sender × Storage)
  | storage, sender, [] => some (sender, storage)
  | storage, sender, call :: calls =>
      match Sender.call storage sender call with
      | some { result := .ok _, sender, storage } =>
          accepts storage sender calls
      | _ => none

/-- One owner makes calls that all succeed. -/
def accepts (owner : Nat) : World → List Call → Option World
  | world, [] => some world
  | world, call :: calls =>
      match step world owner call with
      | some (.ok _, world) => accepts owner world calls
      | _ => none

/-- A sequence of calls is its first call and the rest. -/
theorem Sender.accepts_cons
    {storage after : Storage} {sender senderNow : Option Sender} {call : Call}
    (calls : List Call)
    (called : Sender.call storage sender call =
      some { result := .ok (), sender := senderNow, storage := after }) :
    Sender.accepts storage sender (call :: calls) =
      Sender.accepts after senderNow calls := by
  rw [Sender.accepts, called]

/-- A sequence of calls can be cut anywhere. -/
theorem Sender.accepts_append
    {storage : Storage} {sender : Option Sender} (early late : List Call) :
    Sender.accepts storage sender (early ++ late) =
      (Sender.accepts storage sender early).bind fun (sender, storage) =>
        Sender.accepts storage sender late := by
  induction early generalizing storage sender with
  | nil => rfl
  | cons call early accepts_ih =>
      rw [List.cons_append, Sender.accepts, Sender.accepts]
      cases called : Sender.call storage sender call with
      | none => rfl
      | some outcome =>
          obtain ⟨result, senderNow, after⟩ := outcome
          cases result with
          | error cause => rfl
          | ok _ => exact accepts_ih

/-- Calls of one owner depend on what it has and on the pools. -/
theorem accepts_eq
    (owner : Nat) (world : World) (calls : List Call) :
    accepts owner world calls =
      (Sender.accepts world.storage (world.senders owner) calls).map
        fun (sender, storage) =>
          { storage
            senders := Function.update world.senders owner sender } := by
  induction calls generalizing world with
  | nil => simp [accepts, Sender.accepts]
  | cons call calls accepts_ih =>
      rw [accepts, Sender.accepts, step]
      cases called : Sender.call world.storage (world.senders owner) call with
      | none => rfl
      | some outcome =>
          obtain ⟨result, senderNow, after⟩ := outcome
          cases result with
          | error cause => rfl
          | ok _ =>
              simp only [Option.map_some]
              rw [accepts_ih]
              simp

end Accepts

namespace Queue

variable {queue next : Queue} {storage after : Storage}
  {bytes written new : List UInt8} {fds added : List Fd}
  {chain more newChain fdChain fdChainNow : List Nat}
  {reservation : Reservation}

/-- So many blocks are enough if and only if the bytes fit into them and the
tail. -/
theorem blocksNeeded_le_iff
    {blockSize byteCount count : Nat}
    (positive : 0 < blockSize) :
    queue.blocksNeeded blockSize byteCount ≤ count ↔
      byteCount ≤ queue.tailSpace blockSize + count * blockSize := by
  simp only [blocksNeeded]
  rw [Nat.div_le_iff_le_mul_add_pred positive, Nat.mul_comm blockSize count]
  omega

/-- There is capacity for so many bytes and descriptors. -/
structure Grants
    (queue : Queue)
    (storage : Storage)
    (bytes : List UInt8)
    (fds : List Fd)
    (byteCount descriptorCount : Nat) : Prop where
  budget : bytes.length + byteCount ≤ queue.byteBudget
  fdBudget : fds.length + descriptorCount ≤ queue.descriptors.budget
  enough : queue.blocksNeeded storage.blocks.blockSize byteCount ≤
    storage.blocks.available
  fdEnough : descriptorCount ≤ storage.fds.available

/-- Capacity covers smaller messages. -/
theorem Grants.mono
    {byteCount descriptorCount byteCountNow descriptorCountNow : Nat}
    (grants : queue.Grants storage bytes fds byteCount descriptorCount)
    (wellFormed : storage.WellFormed)
    (fewer : byteCountNow ≤ byteCount)
    (fewerFds : descriptorCountNow ≤ descriptorCount) :
    queue.Grants storage bytes fds byteCountNow descriptorCountNow where
  budget := by
    have budget := grants.budget
    omega
  fdBudget := by
    have fdBudget := grants.fdBudget
    omega
  enough := by
    have positive := wellFormed.blocks.positive
    have enough := (blocksNeeded_le_iff positive).mp grants.enough
    exact (blocksNeeded_le_iff positive).mpr (by omega)
  fdEnough := fewerFds.trans grants.fdEnough

/-- What new blocks and the rest of the tail leave behind the new bytes. -/
theorem Stores.tailSpace_grown
    (stores : queue.Stores storage bytes fds chain fdChain)
    (wellFormed : storage.WellFormed)
    (storesNow : next.Stores after (bytes ++ new) (fds ++ added)
      (chain ++ more) fdChainNow)
    (wellFormedNow : after.WellFormed)
    (blockSize : after.blocks.blockSize = storage.blocks.blockSize)
    (headOffset : next.headOffset = queue.headOffset) :
    next.tailSpace storage.blocks.blockSize + new.length =
      queue.tailSpace storage.blocks.blockSize +
        more.length * storage.blocks.blockSize := by
  obtain ⟨contents, text⟩ := stores.text
  obtain ⟨contentsNow, textNow⟩ := storesNow.text
  have space := text.stop_add_tailSpace
  have spaceNow := textNow.stop_add_tailSpace
  have length := text.length_bytes wellFormed.blocks
  have lengthNow := textNow.length_bytes wellFormedNow.blocks
  simp only [blockSize, headOffset, List.length_append, Nat.add_mul]
    at spaceNow lengthNow
  omega

/-- A queued message uses up its own part of the capacity. -/
theorem Grants.spend
    {byteCount descriptorCount : Nat}
    (grants : queue.Grants storage bytes fds (new.length + byteCount)
      (added.length + descriptorCount))
    (stores : queue.Stores storage bytes fds chain fdChain)
    (wellFormed : storage.WellFormed)
    (storesNow : next.Stores after (bytes ++ new) (fds ++ added)
      (chain ++ more) fdChainNow)
    (wellFormedNow : after.WellFormed)
    (blockSize : after.blocks.blockSize = storage.blocks.blockSize)
    (headOffset : next.headOffset = queue.headOffset)
    (byteBudget : next.byteBudget = queue.byteBudget)
    (descriptorBudget : next.descriptors.budget = queue.descriptors.budget)
    (available : after.blocks.available + more.length =
      storage.blocks.available)
    (fdAvailable : after.fds.available + added.length =
      storage.fds.available) :
    next.Grants after (bytes ++ new) (fds ++ added) byteCount
      descriptorCount where
  budget := by
    have budget := grants.budget
    rw [byteBudget, List.length_append]
    omega
  fdBudget := by
    have fdBudget := grants.fdBudget
    rw [descriptorBudget, List.length_append]
    omega
  enough := by
    have positive := wellFormed.blocks.positive
    have enough := (blocksNeeded_le_iff positive).mp grants.enough
    have space := stores.tailSpace_grown wellFormed storesNow wellFormedNow
      blockSize headOffset
    rw [blockSize, blocksNeeded_le_iff positive]
    rw [← available, Nat.add_mul] at enough
    omega
  fdEnough := by
    have fdEnough := grants.fdEnough
    omega

end Queue

section Sufficient

variable [Native] {queue : Queue} {storage : Storage}
  {bytes written : List UInt8} {fds : List Fd}
  {chain newChain fdChain : List Nat} {reservation : Reservation}
  {last : Option Reservation}

/-- The pieces of a message are written one after another. -/
theorem accepts_pieces
    {pieces : List (List UInt8)}
    (reserving : queue.Reserving storage reservation bytes written fds chain
      newChain fdChain)
    (wellFormed : storage.WellFormed)
    (fits : written.length + pieces.flatten.length ≤ reservation.byteCount) :
    ∃ reservationNow blocksNow,
      Sender.accepts storage
          (some { queue, reservation := some reservation })
          (pieces.map .write) =
        some (some { queue, reservation := some reservationNow },
          { storage with blocks := blocksNow }) ∧
      Storage.Step storage { storage with blocks := blocksNow }
        (chain ++ newChain) (chain ++ newChain) fdChain fdChain ∧
      reservationNow.byteCount = reservation.byteCount ∧
      queue.Reserving { storage with blocks := blocksNow } reservationNow bytes
        (written ++ pieces.flatten) fds chain newChain fdChain ∧
      blocksNow.available = storage.blocks.available := by
  induction pieces generalizing storage reservation written with
  | nil =>
      rw [List.flatten_nil, List.append_nil]
      exact ⟨reservation, storage.blocks, rfl, .refl wellFormed _ _, rfl,
        reserving, rfl⟩
  | cons piece pieces pieces_ih =>
      rw [List.flatten_cons, List.length_append] at fits
      obtain ⟨next, blocksNow, wrote, step, sameCount, reservingNow,
        available⟩ := @Queue.Reserving.write_fits queue storage bytes written
          fds chain newChain fdChain reservation piece reserving wellFormed
          (by omega)
      have called : Sender.call storage
          (some { queue, reservation := some reservation }) (.write piece) =
          some
            { result := .ok ()
              sender := some { queue, reservation := some next }
              storage := { storage with blocks := blocksNow } } := by
        simp only [Sender.call, wrote]
      obtain ⟨reservationLast, blocksLast, accepted, stepLast, sameCountLast,
        reservingLast, availableLast⟩ := pieces_ih reservingNow step.wellFormed
          (by rw [List.length_append, sameCount]; omega)
      refine ⟨reservationLast, blocksLast, ?_, step.trans stepLast,
        sameCountLast.trans sameCount, ?_, availableLast.trans available⟩
      · rw [List.map_cons, Sender.accepts_cons _ called]
        exact accepted
      · rw [List.flatten_cons, ← List.append_assoc]
        exact reservingLast

/-- A message is reserved and written, and is left to publish. -/
theorem accepts_direct
    {pieces : List (List UInt8)} {added : List Fd} {room : Room}
    {reservedQueue : Queue} {blocksNow : SharedBlocks}
    {reservationNow : Reservation} {middle : Storage}
    (reserved : queue.reserve storage.blocks pieces.flatten.length
      room.blocks = (.ok reservation, reservedQueue, blocksNow))
    (accepted : Sender.accepts { storage with blocks := blocksNow }
        (some { queue := reservedQueue, reservation := some reservation })
        (pieces.map .write) =
      some (some { queue := reservedQueue, reservation := some reservationNow },
        middle)) :
    Sender.accepts storage (some { queue, reservation := last })
        ((Message.direct pieces added).calls room) =
      Sender.accepts middle
        (some { queue := reservedQueue, reservation := some reservationNow })
        [.commit added room.fds] := by
  have opens : Sender.call storage (some { queue, reservation := last })
      (.reserve pieces.flatten.length room.blocks) =
      some
        { result := .ok ()
          sender := some
            { queue := reservedQueue, reservation := some reservation }
          storage := { storage with blocks := blocksNow } } := by
    simp only [Sender.call, reserved]
  rw [Message.calls, List.cons_append, Sender.accepts_cons _ opens,
    Sender.accepts_append, accepted]
  rfl

/-- A commit that succeeds is accepted. -/
theorem accepts_commit
    {added : List Fd} {fdRoom : Nat} {next : Queue}
    {reservationNow : Reservation} {after : Storage}
    (committed : reservation.commit queue storage added fdRoom =
      (.ok (), reservationNow, next, after)) :
    Sender.accepts storage (some { queue, reservation := some reservation })
        [.commit added fdRoom] =
      some (some { queue := next, reservation := some reservationNow },
        after) := by
  have called : Sender.call storage
      (some { queue, reservation := some reservation })
      (.commit added fdRoom) =
      some
        { result := .ok ()
          sender := some { queue := next, reservation := some reservationNow }
          storage := after } := by
    simp only [Sender.call, committed]
  rw [Sender.accepts_cons _ called, Sender.accepts]

/-- A message that there is capacity for is queued without allocation. -/
theorem accepts_message
    {message : Message} {byteCount descriptorCount : Nat}
    (room : Room)
    (stores : queue.Stores storage bytes fds chain fdChain)
    (wellFormed : storage.WellFormed)
    (nonempty : message.bytes ≠ [])
    (grants : queue.Grants storage bytes fds
      (message.bytes.length + byteCount)
      (message.descriptors.length + descriptorCount)) :
    ∃ next lastNow after chainNow fdChainNow,
      Sender.accepts storage (some { queue, reservation := last })
          (message.calls room) =
        some (some { queue := next, reservation := lastNow }, after) ∧
      after.WellFormed ∧
      next.Stores after (bytes ++ message.bytes) (fds ++ message.descriptors)
        chainNow fdChainNow ∧
      next.Grants after (bytes ++ message.bytes) (fds ++ message.descriptors)
        byteCount descriptorCount := by
  have own := grants.mono wellFormed (Nat.le_add_right _ byteCount)
    (Nat.le_add_right _ descriptorCount)
  cases message with
  | copied new added =>
      simp only [Message.bytes, Message.descriptors] at *
      have granted := Queue.ensureCapacity_enough room stores wellFormed
        own.budget own.fdBudget own.enough own.fdEnough
      obtain ⟨next, after, more, fdChainNow, enqueued, spec, _, available,
        fdAvailable⟩ := Queue.enqueue_granted granted stores wellFormed nonempty
          own.budget own.fdBudget own.enough own.fdEnough
      refine ⟨next, last, after, _, _, ?_, spec.step.wellFormed, spec.stores,
        grants.spend stores wellFormed spec.stores spec.step.wellFormed
          spec.step.blocks.blockSize spec.headOffset spec.byteBudget
          spec.descriptorBudget available fdAvailable⟩
      have called : Sender.call storage (some { queue, reservation := last })
          (.enqueue new added room) =
          some
            { result := .ok ()
              sender := some { queue := next, reservation := last }
              storage := after } := by
        simp only [Sender.call, enqueued]
      rw [Message.calls, Sender.accepts_cons _ called, Sender.accepts]
  | direct pieces added =>
      simp only [Message.bytes, Message.descriptors] at *
      obtain ⟨contents, text⟩ := stores.text
      have counted := stores.count
      have budget := own.budget
      obtain ⟨reservation, reservedQueue, blocksNow, newChain, reserved, spec,
        available⟩ := @Queue.reserve_enough queue storage.blocks chain contents
          bytes pieces.flatten.length room.blocks text wellFormed.blocks
          stores.settled (List.length_pos_of_ne_nil nonempty) (by omega)
          own.enough
      have reserveStep : Storage.Step storage
          { storage with blocks := blocksNow } chain (chain ++ newChain)
          fdChain fdChain := ⟨spec.step, .refl wellFormed.fds _⟩
      obtain ⟨reservationNow, blocksLast, accepted, writeStep, sameCount,
        reserving, writeAvailable⟩ :=
        @accepts_pieces _ reservedQueue { storage with blocks := blocksNow }
          bytes [] fds chain newChain fdChain reservation pieces
          (stores.reserving spec) reserveStep.wellFormed
          (by rw [spec.byteCount_eq]; simp)
      rw [List.nil_append] at reserving
      have descriptors_eq : reservedQueue.descriptors = queue.descriptors := by
        rw [spec.queue_eq]
      have ensured : (if added.length ≠ 0 then
            reservedQueue.descriptors.ensureCapacity storage.fds added.length
              room.fds
          else (.ok (), storage.fds)) = (.ok (), storage.fds) := by
        rw [descriptors_eq]
        split_ifs
        · exact FdQueue.ensureCapacity_enough stores.descriptors wellFormed.fds
            own.fdBudget own.fdEnough
        · rfl
      obtain ⟨reservationLast, next, after, fdChainNow, committed, spec',
        commitAvailable, fdAvailable⟩ := reserving.commit_granted
          writeStep.wellFormed (by rw [sameCount, spec.byteCount_eq]) ensured
      have step := (reserveStep.trans writeStep).trans spec'.step
      refine ⟨next, some reservationLast, after, _, _, ?_, step.wellFormed,
        spec'.stores, grants.spend stores wellFormed spec'.stores
          step.wellFormed step.blocks.blockSize ?_ ?_ ?_ ?_ fdAvailable⟩
      · rw [accepts_direct reserved accepted]
        exact accepts_commit committed
      · rw [spec'.headOffset, spec.queue_eq]
      · rw [spec'.byteBudget, spec.queue_eq]
      · rw [spec'.descriptorBudget, spec.queue_eq]
      · rw [commitAvailable, writeAvailable]
        exact available

/-- Messages that there is capacity for are queued without allocation. -/
theorem accepts_messages
    {messages : List Message} {byteCount descriptorCount : Nat}
    (room : Room)
    (stores : queue.Stores storage bytes fds chain fdChain)
    (wellFormed : storage.WellFormed)
    (nonempty : ∀ message ∈ messages, message.bytes ≠ [])
    (grants : queue.Grants storage bytes fds byteCount descriptorCount)
    (fits : (messages.map fun message => message.bytes.length).sum ≤ byteCount)
    (fdFits : (messages.map fun message => message.descriptors.length).sum ≤
      descriptorCount) :
    ∃ sender after,
      Sender.accepts storage (some { queue, reservation := last })
          (messages.flatMap (Message.calls room)) =
        some (some sender, after) := by
  induction messages generalizing queue last storage bytes fds chain fdChain
      byteCount descriptorCount with
  | nil => exact ⟨_, _, rfl⟩
  | cons message messages messages_ih =>
      rw [List.map_cons, List.sum_cons] at fits fdFits
      obtain ⟨next, lastNow, middle, chainNow, fdChainNow, accepted,
        wellFormedNow, storesNow, grantsNow⟩ :=
        accepts_message room stores wellFormed
          (nonempty message List.mem_cons_self) (grants.mono wellFormed fits
            fdFits)
      obtain ⟨sender, after, acceptedRest⟩ := messages_ih storesNow
        wellFormedNow
        (fun other member => nonempty other (List.mem_cons_of_mem _ member))
        grantsNow le_rfl le_rfl
      refine ⟨sender, after, ?_⟩
      rw [List.flatMap_cons, Sender.accepts_append, accepted]
      exact acceptedRest

/-- In every reachable state, what a queue ensures is enough for any messages
of that many bytes and descriptors: none of them needs an allocation. -/
theorem preflight_is_sufficient
    {blockSize blockCount blockRoom capacity fdRoom : Nat}
    {blocks : SharedBlocks} {fdPool : SharedFds}
    (blocksReady : SharedBlocks.init blockSize blockCount blockRoom =
      .ok blocks)
    (fdsReady : SharedFds.init capacity fdRoom = .ok fdPool)
    {turns : List (Nat × Call)} {results : List (Except Error Unit)}
    {world granted : World}
    (ran : run (World.start { blocks, fds := fdPool }) turns =
      some (results, world))
    {owner byteCount descriptorCount : Nat} {room : Room}
    (ensured : step world owner
      (.ensureCapacity byteCount descriptorCount room) =
      some (.ok (), granted))
    (messages : List Message)
    (nonempty : ∀ message ∈ messages, message.bytes ≠ [])
    (fits : (messages.map fun message => message.bytes.length).sum ≤ byteCount)
    (fdFits : (messages.map fun message => message.descriptors.length).sum ≤
      descriptorCount) :
    ∃ worldNow,
      accepts owner granted
          (messages.flatMap (Message.calls { blocks := 0, fds := 0 })) =
        some worldNow := by
  obtain ⟨entries, sound, _⟩ :=
    (World.Sound.start_ready blocksReady fdsReady).run ran
  obtain ⟨outcome, called, same⟩ := Option.map_eq_some_iff.mp ensured
  simp only [Prod.mk.injEq] at same
  obtain ⟨done, rfl⟩ := same
  have has := sound.has owner
  generalize world.senders owner = sender at has called
  generalize entries owner = own at has
  cases has with
  | gone => cases called
  | settled stores finished =>
      obtain ⟨step, storesNow, _, enough⟩ :=
        Queue.ensureCapacity_spec stores sound.wellFormed
      simp only [Sender.call, Option.some.injEq] at called
      subst called
      obtain ⟨budget, fdBudget, blocksEnough, fdEnough⟩ := enough done
      obtain ⟨senderNow, after, accepted⟩ := accepts_messages
        { blocks := 0, fds := 0 } storesNow step.wellFormed nonempty
        ⟨budget, fdBudget, blocksEnough, fdEnough⟩ fits fdFits
      simp only [accepts_eq, Function.update_self]
      rw [accepted]
      exact ⟨_, rfl⟩
  | reserving holds =>
      simp only [Sender.call, Queue.ensureCapacity, holds.unsettled, if_true,
        Option.some.injEq] at called
      subst called
      cases done

end Sufficient

section Sample

local instance nativeOrder : Native := ⟨.little⟩

/-- Pools of one block of four bytes and of two descriptor entries. -/
def reserveStorage : Storage where
  blocks := ((SharedBlocks.init 4 1 1).toOption).getD { blockSize := 4 }
  fds := ((SharedFds.init 2 2).toOption).getD {}

/-- A queue with three bytes in its tail. -/
def preflightWorld : World :=
  ((run (World.start reserveStorage)
    [(0, .init 16 2), (0, .enqueue [1, 2, 3] [] { blocks := 0, fds := 0 })]).map
      Prod.snd).getD (World.start reserveStorage)

/-- The world after the preflight. -/
def grantedWorld : World :=
  ((step preflightWorld 0 (.ensureCapacity 9 1 { blocks := 2, fds := 0 })).map
    Prod.snd).getD preflightWorld

theorem preflight_is_sufficient_sample :
    ∃ worldNow,
      accepts 0 grantedWorld
          ([.copied [4, 5] [], .direct [[6], [], [7, 8, 9, 10, 11]] [3]].flatMap
            (Message.calls { blocks := 0, fds := 0 })) =
        some worldNow := by
  have blocksReady : SharedBlocks.init 4 1 1 = .ok reserveStorage.blocks := rfl
  have fdsReady : SharedFds.init 2 2 = .ok reserveStorage.fds := rfl
  have ran : run (World.start reserveStorage)
      [(0, .init 16 2),
        (0, .enqueue [1, 2, 3] [] { blocks := 0, fds := 0 })] =
      some ([.ok (), .ok ()], preflightWorld) := rfl
  have ensured : step preflightWorld 0
      (.ensureCapacity 9 1 { blocks := 2, fds := 0 }) =
      some (.ok (), grantedWorld) := rfl
  exact preflight_is_sufficient blocksReady fdsReady ran ensured _
    (by decide) (by decide) (by decide)

end Sample

end Tx
end Wayring
