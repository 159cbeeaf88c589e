import Wayring.Transport.Contents
import Wayring.Transport.Messages

/-!
# Direct encoding

A message that is written in pieces into reserved blocks is queued exactly
when its copy is, with the same contents.  One that is abandoned leaves no
trace.
-/

namespace Wayring
namespace Tx

namespace Queue

variable {queue next other : Queue} {storage after otherAfter : Storage}
  {bytes new : List UInt8} {fds added : List Fd}
  {chain chainNow chainOther fdChain fdChainNow fdChainOther : List Nat}

/-- A queue accepts a message of this size, with memory for so many
allocations. -/
def Admits
    (queue : Queue)
    (storage : Storage)
    (byteCount descriptorCount : Nat)
    (room : Room) : Prop :=
  byteCount ≤ queue.byteBudget - queue.byteCount ∧
    (queue.descriptors.ensureCapacity storage.fds descriptorCount
      room.fds).1 = .ok () ∧
    (storage.blocks.ensureAvailable
      (queue.blocksNeeded storage.blocks.blockSize byteCount)
      room.blocks).1 = .ok ()

/-- There is room for a message exactly when it is admitted. -/
theorem ensureCapacity_ok_iff
    {byteCount descriptorCount : Nat} {room : Room}
    (settled : queue.reservationActive = false) :
    (queue.ensureCapacity storage byteCount descriptorCount room).1 = .ok () ↔
      queue.Admits storage byteCount descriptorCount room := by
  rw [ensureCapacity, settled, if_neg (by simp), Admits]
  split_ifs with exceeds
  · constructor
    · intro ok
      cases ok
    · intro admits
      exact absurd admits.1 (by omega)
  · generalize queue.descriptors.ensureCapacity storage.fds descriptorCount
      room.fds = ensured
    obtain ⟨result, fdsNow⟩ := ensured
    cases result with
    | error cause => simp
    | ok _ =>
        simp only [true_and]
        exact ⟨fun ok => ⟨by omega, ok⟩, fun admits => admits.2⟩

/-- A message is queued exactly when it is admitted. -/
theorem enqueue_ok_iff
    {room : Room}
    (stores : queue.Stores storage bytes fds chain fdChain)
    (wellFormed : storage.WellFormed)
    (nonempty : new ≠ []) :
    (queue.enqueue storage new added room).1 = .ok () ↔
      queue.Admits storage new.length added.length room := by
  rw [← ensureCapacity_ok_iff stores.settled]
  obtain ⟨step, storesNow, _, enough⟩ :=
    @ensureCapacity_spec queue storage bytes fds chain fdChain new.length
      added.length room stores wellFormed
  cases ensured : queue.ensureCapacity storage new.length added.length room with
  | mk result grown =>
      rw [ensured] at step storesNow enough
      cases result with
      | error cause => simp [enqueue, nonempty, ensured]
      | ok _ =>
          obtain ⟨budget, fdBudget, needed, fdNeeded⟩ := enough rfl
          obtain ⟨_, _, _, _, enqueued, _⟩ :=
            enqueue_granted ensured storesNow step.wellFormed nonempty budget
              fdBudget needed fdNeeded
          simp [enqueued]

/-- Blocks can be reserved if and only if the budget and the pool admit the
bytes. -/
theorem reserve_ok_iff
    {byteCount room : Nat}
    (stores : queue.Stores storage bytes fds chain fdChain)
    (wellFormed : storage.WellFormed)
    (positive : 0 < byteCount) :
    (∃ reservation,
      (queue.reserve storage.blocks byteCount room).1 = .ok reservation) ↔
      byteCount ≤ queue.byteBudget - queue.byteCount ∧
        (storage.blocks.ensureAvailable
          (queue.blocksNeeded storage.blocks.blockSize byteCount) room).1 =
            .ok () := by
  obtain ⟨contents, text⟩ := stores.text
  by_cases exceeds : byteCount > queue.byteBudget - queue.byteCount
  · rw [reserve, stores.settled, if_neg (by simp), if_neg (by omega),
      if_pos exceeds]
    constructor
    · rintro ⟨_, ok⟩
      cases ok
    · intro admits
      exact absurd admits.1 (by omega)
  by_cases needed : queue.blocksNeeded storage.blocks.blockSize byteCount = 0
  · obtain ⟨reservation, _, _, _, reserved, _⟩ :=
      @reserve_enough queue storage.blocks chain contents bytes byteCount room
        text wellFormed.blocks stores.settled positive (by omega) (by omega)
    rw [reserved, SharedBlocks.ensureAvailable_enough room wellFormed.blocks
      (by omega)]
    exact ⟨fun _ => ⟨by omega, rfl⟩, fun _ => ⟨_, rfl⟩⟩
  · obtain ⟨grownWellFormed, blockSize, _, _, _, _, enough⟩ :=
      @SharedBlocks.ensureAvailable_spec storage.blocks
        (queue.blocksNeeded storage.blocks.blockSize byteCount) room
        wellFormed.blocks
    rw [reserve, stores.settled, if_neg (by simp), if_neg (by omega),
      if_neg exceeds]
    simp only [ne_eq, needed, not_false_eq_true, if_true]
    generalize storage.blocks.ensureAvailable
      (queue.blocksNeeded storage.blocks.blockSize byteCount) room = ensured
      at grownWellFormed enough
    obtain ⟨result, grown⟩ := ensured
    cases result with
    | error cause => simp
    | ok _ =>
        obtain ⟨_, _, _, _, _, acquired, _⟩ :=
          acquireChain_spec LeasePool.Holds.empty grownWellFormed (enough rfl)
        simp only [acquired, and_true]
        exact ⟨fun _ => by omega, fun _ => ⟨_, rfl⟩⟩

/-- The same bytes behind the same offset fill the same blocks. -/
theorem Stores.same_fill
    (stores : next.Stores after bytes fds chainNow fdChainNow)
    (otherStores : other.Stores otherAfter bytes fds chainOther fdChainOther)
    (wellFormed : after.WellFormed)
    (otherWellFormed : otherAfter.WellFormed)
    (blockSize : otherAfter.blocks.blockSize = after.blocks.blockSize)
    (headOffset : other.headOffset = next.headOffset) :
    chainOther.length = chainNow.length ∧ other.tailUsed = next.tailUsed := by
  obtain ⟨contents, text⟩ := stores.text
  obtain ⟨otherContents, otherText⟩ := otherStores.text
  have length := text.length_bytes wellFormed.blocks
  have otherLength := otherText.length_bytes otherWellFormed.blocks
  have bytes_nil := text.bytes_eq_nil stores.filled wellFormed.blocks
  have otherBytes_nil :=
    otherText.bytes_eq_nil otherStores.filled otherWellFormed.blocks
  by_cases none : chainNow = []
  · have otherNone := otherBytes_nil.mp (bytes_nil.mpr none)
    rw [(text.empty none).2, (otherText.empty otherNone).2, none, otherNone]
    exact ⟨rfl, rfl⟩
  have otherSome : chainOther ≠ [] :=
    fun otherNone => none (bytes_nil.mp (otherBytes_nil.mpr otherNone))
  have used := stores.filled.tailUsed none
  have otherUsed := otherStores.filled.tailUsed otherSome
  have within := text.tailWithin
  have otherWithin := otherText.tailWithin
  have some := List.length_pos_of_ne_nil none
  have someOther := List.length_pos_of_ne_nil otherSome
  rw [blockSize] at otherLength otherWithin
  rw [headOffset, length] at otherLength
  simp only [stop] at otherLength
  generalize after.blocks.blockSize = size at *
  have same : chainOther.length - 1 = chainNow.length - 1 := by
    rcases Nat.lt_trichotomy (chainOther.length - 1) (chainNow.length - 1) with
      fewer | same | more
    · have apart := Nat.mul_le_mul_right size (Nat.succ_le_of_lt fewer)
      rw [Nat.succ_mul] at apart
      omega
    · exact same
    · have apart := Nat.mul_le_mul_right size (Nat.succ_le_of_lt more)
      rw [Nat.succ_mul] at apart
      omega
  rw [same] at otherLength
  exact ⟨by omega, by omega⟩

/-- Room for descriptors is asked for only if there are any. -/
theorem descriptorRoom_ok_iff
    {fdRoom : Nat} {pool : SharedFds} {descriptors : FdQueue}
    (stores : descriptors.Stores pool fds fdChain)
    (wellFormed : pool.WellFormed) :
    (if added.length ≠ 0 then
        descriptors.ensureCapacity pool added.length fdRoom
      else (.ok (), pool)).1 = .ok () ↔
      (descriptors.ensureCapacity pool added.length fdRoom).1 = .ok () := by
  have within := stores.within
  rw [stores.count] at within
  split_ifs with some
  · exact Iff.rfl
  · rw [FdQueue.ensureCapacity_enough stores wellFormed (by omega) (by omega)]

end Queue

section Equal

variable [Native] {queue : Queue} {storage : Storage}
  {bytes : List UInt8} {fds : List Fd} {chain fdChain : List Nat}
  {last : Option Reservation} {room : Room}

/-- What queueing a message does, in whatever way. -/
structure Queued
    (queue next : Queue)
    (storage after : Storage)
    (bytes : List UInt8)
    (fds : List Fd)
    (message : Message) : Prop where
  stores : ∃ chainNow fdChainNow,
    next.Stores after (bytes ++ message.bytes) (fds ++ message.descriptors)
      chainNow fdChainNow
  wellFormed : after.WellFormed
  blockSize : after.blocks.blockSize = storage.blocks.blockSize
  headOffset : next.headOffset = queue.headOffset

/-- A message is queued if it is admitted, and some call fails if it is not. -/
def Follows
    (queue : Queue)
    (storage : Storage)
    (bytes : List UInt8)
    (fds : List Fd)
    (room : Room)
    (message : Message)
    (accepted : Option (Option Sender × Storage)) : Prop :=
  (queue.Admits storage message.bytes.length message.descriptors.length room ∧
    ∃ next lastNow after,
      accepted = some (some { queue := next, reservation := lastNow }, after) ∧
      Queued queue next storage after bytes fds message) ∨
  (¬ queue.Admits storage message.bytes.length message.descriptors.length
      room ∧
    accepted = none)

/-- A copied message follows the bytes before it. -/
theorem follows_copied
    {new : List UInt8} {added : List Fd}
    (stores : queue.Stores storage bytes fds chain fdChain)
    (wellFormed : storage.WellFormed)
    (nonempty : new ≠ []) :
    Follows queue storage bytes fds room (.copied new added)
      (Sender.accepts storage (some { queue, reservation := last })
        ((Message.copied new added).calls room)) := by
  have admits_iff := @Queue.enqueue_ok_iff queue storage bytes new fds added
    chain fdChain room stores wellFormed nonempty
  have spec := @Queue.enqueue_spec queue storage bytes fds chain fdChain new
    added room stores wellFormed
  generalize enqueued : queue.enqueue storage new added room = answer
    at admits_iff spec
  obtain ⟨result, next, after⟩ := answer
  have called : Sender.call storage (some { queue, reservation := last })
      (.enqueue new added room) =
      some
        { result
          sender := some { queue := next, reservation := last }
          storage := after } := by
    simp only [Sender.call, enqueued]
  cases result with
  | error cause =>
      refine Or.inr ⟨fun admits => ?_, ?_⟩
      · cases admits_iff.mpr admits
      · rw [Message.calls, Sender.accepts, called]
  | ok _ =>
      obtain ⟨more, fdChainNow, spec⟩ := spec
      refine Or.inl ⟨admits_iff.mp rfl, next, last, after, ?_,
        ⟨_, _, spec.stores⟩, spec.step.wellFormed, spec.step.blocks.blockSize,
        spec.headOffset⟩
      rw [Message.calls, Sender.accepts_cons _ called, Sender.accepts]

/-- A message written in place follows the bytes before it. -/
theorem follows_direct
    {pieces : List (List UInt8)} {added : List Fd}
    (stores : queue.Stores storage bytes fds chain fdChain)
    (wellFormed : storage.WellFormed)
    (nonempty : pieces.flatten ≠ []) :
    Follows queue storage bytes fds room (.direct pieces added)
      (Sender.accepts storage (some { queue, reservation := last })
        ((Message.direct pieces added).calls room)) := by
  have reserve_iff := @Queue.reserve_ok_iff queue storage bytes fds chain
    fdChain pieces.flatten.length room.blocks stores wellFormed
    (List.length_pos_of_ne_nil nonempty)
  have reserve_spec := @Queue.reserve_stores queue storage bytes fds chain
    fdChain pieces.flatten.length room.blocks stores wellFormed
  generalize reserved : queue.reserve storage.blocks pieces.flatten.length
    room.blocks = answer at reserve_iff reserve_spec
  obtain ⟨result, reservedQueue, blocksNow⟩ := answer
  cases result with
  | error cause =>
      refine Or.inr ⟨fun admits => ?_, ?_⟩
      · obtain ⟨_, ok⟩ := reserve_iff.mpr ⟨admits.1, admits.2.2⟩
        cases ok
      · have called : Sender.call storage (some { queue, reservation := last })
            (.reserve pieces.flatten.length room.blocks) =
            some
              { result := .error cause
                sender := some { queue := reservedQueue, reservation := last }
                storage := { storage with blocks := blocksNow } } := by
          simp only [Sender.call, reserved]
        rw [Message.calls, List.cons_append, Sender.accepts, called]
  | ok reservation =>
      obtain ⟨budget, available⟩ := reserve_iff.mp ⟨_, rfl⟩
      obtain ⟨newChain, rfl, byteCount, reserving, reserveStep⟩ := reserve_spec
      obtain ⟨reservationNow, blocksLast, accepted, writeStep, sameCount,
        reservingNow, _⟩ := @accepts_pieces _
          { queue with reservationActive := true }
          { storage with blocks := blocksNow } bytes [] fds chain newChain
          fdChain reservation pieces reserving reserveStep.wellFormed
          (by rw [byteCount]; simp)
      rw [List.nil_append] at reservingNow
      have fd_iff := @Queue.descriptorRoom_ok_iff fds added fdChain room.fds
        storage.fds queue.descriptors stores.descriptors wellFormed.fds
      generalize ensured : (if added.length ≠ 0 then
          queue.descriptors.ensureCapacity storage.fds added.length room.fds
        else (.ok (), storage.fds)) = answer at fd_iff
      obtain ⟨fdResult, fdsNow⟩ := answer
      have complete : pieces.flatten.length = reservationNow.byteCount := by
        rw [sameCount, byteCount]
      rw [accepts_direct reserved accepted]
      cases fdResult with
      | error cause =>
          have refused := reservingNow.commit_refused complete ensured
          refine Or.inr ⟨fun admits => ?_, ?_⟩
          · cases fd_iff.mpr admits.2.1
          · simp only [Sender.accepts, Sender.call, refused]
      | ok _ =>
          obtain ⟨reservationLast, next, after, fdChainNow, committed, spec,
            _⟩ := reservingNow.commit_granted writeStep.wellFormed complete
              ensured
          have step := (reserveStep.trans writeStep).trans spec.step
          exact Or.inl ⟨⟨budget, fd_iff.mp rfl, available⟩, next, _, after,
            accepts_commit committed, ⟨_, _, spec.stores⟩, step.wellFormed,
            step.blocks.blockSize, spec.headOffset⟩

omit [Native] in
/-- Both ways of queueing a message leave the same contents. -/
theorem Queued.contents_eq
    {next other : Queue} {after otherAfter : Storage}
    {message otherMessage : Message}
    (queued : Queued queue next storage after bytes fds message)
    (otherQueued : Queued queue other storage otherAfter bytes fds otherMessage)
    (sameBytes : otherMessage.bytes = message.bytes)
    (sameDescriptors : otherMessage.descriptors = message.descriptors) :
    ∃ contents,
      next.contents after = .ok contents ∧
      other.contents otherAfter = .ok contents ∧
      contents.bytes = bytes ++ message.bytes ∧
      contents.descriptors = fds ++ message.descriptors := by
  obtain ⟨chainNow, fdChainNow, stores⟩ := queued.stores
  obtain ⟨chainOther, fdChainOther, otherStores⟩ := otherQueued.stores
  rw [sameBytes, sameDescriptors] at otherStores
  obtain ⟨blockCount, tailUsed⟩ := stores.same_fill otherStores
    queued.wellFormed otherQueued.wellFormed
    (otherQueued.blockSize.trans queued.blockSize.symm)
    (otherQueued.headOffset.trans queued.headOffset.symm)
  refine ⟨_, stores.contents_eq queued.wellFormed, ?_, rfl, rfl⟩
  rw [otherStores.contents_eq otherQueued.wellFormed, blockCount, tailUsed,
    otherStores.count, stores.count]

end Equal

/-! ## Abandoned messages -/

section Abandoned

variable [Native] {owner : Nat} {world middle last : World}

/-- What the queue of an owner holds. -/
def World.contents
    (world : World)
    (owner : Nat) : Option (Except Error Contents) :=
  (world.senders owner).map fun sender => sender.queue.contents world.storage

/-- An owner writes parts of a message, some of which may be too long, and
fails to publish it. -/
inductive Tries (owner : Nat) (world : World) : World → Prop
  | nothing : Tries owner world world
  | write
      {middle last : World} {bytes : List UInt8} {result : Except Error Unit}
      (tried : Tries owner world middle)
      (wrote : step middle owner (.write bytes) = some (result, last)) :
      Tries owner world last
  | commit
      {middle last : World} {descriptors : List Fd} {room : Nat}
      {cause : Error}
      (tried : Tries owner world middle)
      (failed : step middle owner (.commit descriptors room) =
        some (.error cause, last)) :
      Tries owner world last

/-- The owner is writing a message behind what its queue holds. -/
structure Writing
    (queue : Queue)
    (bytes : List UInt8)
    (fds : List Fd)
    (chain newChain fdChain : List Nat)
    (owner : Nat)
    (world : World) : Prop where
  sender : ∃ reservation written,
    world.senders owner = some { queue, reservation := some reservation } ∧
    queue.Reserving world.storage reservation bytes written fds chain newChain
      fdChain
  wellFormed : world.storage.WellFormed

variable {queue : Queue} {bytes : List UInt8} {fds : List Fd}
  {chain newChain fdChain : List Nat}

/-- Tries change neither the queue nor who has which entries. -/
theorem Writing.tries
    (writing : Writing queue bytes fds chain newChain fdChain owner world)
    (tried : Tries owner world last) :
    Writing queue bytes fds chain newChain fdChain owner last ∧
      Storage.Step world.storage last.storage (chain ++ newChain)
        (chain ++ newChain) fdChain fdChain := by
  induction tried with
  | nothing => exact ⟨writing, .refl writing.wellFormed _ _⟩
  | @write middle last new result _ wrote tries_ih =>
      obtain ⟨⟨⟨reservation, written, found, reserving⟩, wellFormed⟩, early⟩ :=
        tries_ih
      obtain ⟨step, _, spec⟩ := reserving.write new wellFormed
      generalize answered : reservation.write middle.storage.blocks new = answer
        at spec step
      obtain ⟨answer, next, blocksNow⟩ := answer
      simp only [Tx.step, found, Sender.call, answered, Option.map_some,
        Option.some.injEq, Prod.mk.injEq] at wrote
      obtain ⟨_, rfl⟩ := wrote
      refine ⟨⟨?_, step.wellFormed⟩, early.trans step⟩
      cases answer with
      | error cause =>
          obtain ⟨_, _, same⟩ := spec
          simp only [Prod.mk.injEq] at same
          obtain ⟨rfl, rfl⟩ := same
          exact ⟨_, _, Function.update_self .., reserving⟩
      | ok _ => exact ⟨_, _, Function.update_self .., spec.2⟩
  | @commit middle last descriptors room cause _ failed tries_ih =>
      obtain ⟨⟨⟨reservation, written, found, reserving⟩, wellFormed⟩, early⟩ :=
        tries_ih
      have spec := reserving.commit descriptors room wellFormed
      generalize answered : reservation.commit queue middle.storage descriptors
        room = answer at spec
      obtain ⟨answer, reservationNow, next, after⟩ := answer
      simp only [Tx.step, found, Sender.call, answered, Option.map_some,
        Option.some.injEq, Prod.mk.injEq] at failed
      obtain ⟨rfl, rfl⟩ := failed
      obtain ⟨_, rfl, rfl, reservingNow, step⟩ := spec
      exact ⟨⟨⟨_, _, Function.update_self .., reservingNow⟩, step.wellFormed⟩,
        early.trans step⟩

/-- A reservation begins a message. -/
theorem Writing.reserve
    {byteCount room : Nat} {reservation : Option Reservation}
    (stores : queue.Stores world.storage bytes fds chain fdChain)
    (wellFormed : world.storage.WellFormed)
    (found : world.senders owner = some { queue, reservation })
    (reserved : step world owner (.reserve byteCount room) =
      some (.ok (), middle)) :
    ∃ newChain,
      Writing { queue with reservationActive := true } bytes fds chain newChain
        fdChain owner middle ∧
      Storage.Step world.storage middle.storage chain (chain ++ newChain)
        fdChain fdChain := by
  have spec := @Queue.reserve_stores queue world.storage bytes fds chain fdChain
    byteCount room stores wellFormed
  generalize answered : queue.reserve world.storage.blocks byteCount room =
    answer at spec
  obtain ⟨answer, reservedQueue, blocksNow⟩ := answer
  cases answer with
  | error cause =>
      simp [Tx.step, found, Sender.call, answered] at reserved
  | ok opened =>
      obtain ⟨newChain, rfl, _, reserving, step⟩ := spec
      simp only [Tx.step, found, Sender.call, answered, Option.map_some,
        Option.some.injEq, Prod.mk.injEq, true_and] at reserved
      subst reserved
      exact ⟨newChain,
        ⟨⟨opened, [], Function.update_self .., reserving⟩, step.wellFormed⟩,
        step⟩

/-- A message that is reserved, written in part and abandoned leaves what the
queue held, and frees its blocks. -/
theorem abandoned
    {byteCount room : Nat} {reservation : Option Reservation}
    (stores : queue.Stores world.storage bytes fds chain fdChain)
    (wellFormed : world.storage.WellFormed)
    (found : world.senders owner = some { queue, reservation })
    (reserved : step world owner (.reserve byteCount room) =
      some (.ok (), middle))
    (tried : Tries owner middle last) :
    ∃ worldNow,
      step last owner .abort = some (.ok (), worldNow) ∧
      worldNow.contents owner = world.contents owner ∧
      worldNow.storage.blocks.pool.activeCount =
        world.storage.blocks.pool.activeCount := by
  obtain ⟨newChain, writing, reserveStep⟩ :=
    Writing.reserve stores wellFormed found reserved
  obtain ⟨⟨⟨reservationNow, written, foundNow, reservingNow⟩, wellFormedNow⟩,
    trySteps⟩ := writing.tries tried
  obtain ⟨blocksLast, aborted, storesLast, abortStep⟩ :=
    reservingNow.abort wellFormedNow
  have same : { queue with reservationActive := false } = queue := by
    rw [← stores.settled]
  simp only [same] at storesLast aborted
  have all := (reserveStep.trans trySteps).trans abortStep
  refine ⟨_, by
    simp only [Tx.step, foundNow, Sender.call, aborted, Option.map_some]
    rfl, ?_, ?_⟩
  · simp only [World.contents, Function.update_self, found, Option.map_some]
    rw [stores.contents_eq wellFormed,
      storesLast.contents_eq abortStep.wellFormed]
  · obtain ⟨contents, text⟩ := stores.text
    obtain ⟨contentsLast, textLast⟩ := storesLast.text
    apply all.blocks.moves.activeCount_eq wellFormed.blocks.pool
      abortStep.wellFormed.blocks.pool
    · intro index member
      obtain ⟨cell, isCell, _⟩ := text.holds.used member
      simp [isCell]
    · intro index member
      obtain ⟨cell, isCell, _⟩ := textLast.holds.used member
      simp [isCell]

/-- In every reachable state, writing a message in pieces succeeds exactly
when copying it does, and then leaves the same contents.  Abandoning one after
any writes and failed attempts to publish it leaves the contents and the number
of blocks in use as they were. -/
theorem direct_encoding_equals_copying
    {blockSize blockCount blockRoom capacity fdRoom : Nat}
    {blocks : SharedBlocks} {fdPool : SharedFds}
    (blocksReady : SharedBlocks.init blockSize blockCount blockRoom =
      .ok blocks)
    (fdsReady : SharedFds.init capacity fdRoom = .ok fdPool)
    {turns : List (Nat × Call)} {results : List (Except Error Unit)}
    {world : World}
    (ran : run (World.start { blocks, fds := fdPool }) turns =
      some (results, world))
    (owner : Nat) :
    (∀ (pieces : List (List UInt8)) (descriptors : List Fd) (room : Room),
      pieces.flatten ≠ [] →
      let copied := accepts owner world
        ((Message.copied pieces.flatten descriptors).calls room)
      let direct := accepts owner world
        ((Message.direct pieces descriptors).calls room)
      (direct.isSome ↔ copied.isSome) ∧
        ∀ copiedWorld directWorld,
          copied = some copiedWorld → direct = some directWorld →
          ∃ before after,
            world.contents owner = some (.ok before) ∧
            copiedWorld.contents owner = some (.ok after) ∧
            directWorld.contents owner = some (.ok after) ∧
            after.bytes = before.bytes ++ pieces.flatten ∧
            after.descriptors = before.descriptors ++ descriptors) ∧
    ∀ byteCount room middle last,
      step world owner (.reserve byteCount room) = some (.ok (), middle) →
      Tries owner middle last →
      ∃ worldNow,
        step last owner .abort = some (.ok (), worldNow) ∧
        worldNow.contents owner = world.contents owner ∧
        worldNow.storage.blocks.pool.activeCount =
          world.storage.blocks.pool.activeCount := by
  obtain ⟨entries, sound, _⟩ :=
    (World.Sound.start_ready blocksReady fdsReady).run ran
  have has := sound.has owner
  generalize found : world.senders owner = sender at has
  generalize entries owner = own at has
  cases has with
  | gone =>
      refine ⟨fun pieces descriptors room _ => ⟨?_, ?_⟩, ?_⟩
      · simp [accepts, Message.calls, step, found, Sender.call]
      · intro copiedWorld _ copied
        simp [accepts, Message.calls, step, found, Sender.call] at copied
      · intro byteCount room middle last reserved
        simp [step, found, Sender.call] at reserved
  | @settled queue reservation bytes fds chain fdChain stores finished =>
      refine ⟨fun pieces descriptors room nonempty => ?_,
        fun byteCount room middle last reserved tried =>
          abandoned stores sound.wellFormed found reserved tried⟩
      simp only [accepts_eq, found]
      have copied := @follows_copied _ queue world.storage bytes fds chain
        fdChain reservation room pieces.flatten descriptors stores
        sound.wellFormed nonempty
      have direct := @follows_direct _ queue world.storage bytes fds chain
        fdChain reservation room pieces descriptors stores sound.wellFormed
        nonempty
      rcases copied with ⟨admits, next, lastNow, after, copied, queued⟩ |
        ⟨refused, copied⟩
      · rcases direct with
          ⟨_, other, lastOther, otherAfter, direct, otherQueued⟩ | ⟨refused, _⟩
        · rw [copied, direct]
          refine ⟨by simp, ?_⟩
          rintro _ _ ⟨⟩ ⟨⟩
          obtain ⟨contents, left, right, bytes_eq, descriptors_eq⟩ :=
            queued.contents_eq otherQueued rfl rfl
          let before : Contents :=
            { bytes
              tailUsed := queue.tailUsed
              blockCount := chain.length
              byteCount := queue.byteCount
              descriptors := fds }
          refine ⟨before, contents, ?_, ?_, ?_, bytes_eq, descriptors_eq⟩
          · rw [World.contents, found, Option.map_some,
              stores.contents_eq sound.wellFormed]
          · simp [World.contents, left]
          · simp [World.contents, right]
        · exact absurd admits refused
      · rcases direct with ⟨admits, _⟩ | ⟨_, direct⟩
        · exact absurd admits refused
        · rw [copied, direct]
          refine ⟨by simp, ?_⟩
          rintro _ _ ⟨⟩
  | reserving holds =>
      refine ⟨fun pieces descriptors room nonempty => ?_, ?_⟩
      · obtain ⟨cause, refused⟩ := @Queue.enqueue_unsettled _ world.storage
          pieces.flatten descriptors room holds.unsettled
        refine ⟨?_, ?_⟩
        · simp [accepts, Message.calls, step, found, Sender.call, refused,
            Queue.reserve_unsettled _ _ _ holds.unsettled]
        · intro copiedWorld _ copied
          simp [accepts, Message.calls, step, found, Sender.call, refused]
            at copied
      · intro byteCount room middle last reserved
        simp [step, found, Sender.call,
          Queue.reserve_unsettled _ _ _ holds.unsettled] at reserved

end Abandoned

section Sample

local instance directOrder : Native := nativeOrder

/-- Six bytes behind the three in the tail, with a descriptor. -/
def copiedWorld : Option World :=
  accepts 0 preflightWorld
    ((Message.copied [4, 5, 6, 7, 8, 9] [3]).calls { blocks := 2, fds := 0 })

/-- The world after the message was written. -/
def directWorld : Option World :=
  accepts 0 preflightWorld
    ((Message.direct [[4], [], [5, 6, 7, 8, 9]] [3]).calls
      { blocks := 2, fds := 0 })

theorem direct_encoding_equals_copying_sample :
    ∃ copied direct contents,
      copiedWorld = some copied ∧ directWorld = some direct ∧
      copied.contents 0 = some (.ok contents) ∧
      direct.contents 0 = some (.ok contents) := by
  have blocksReady : SharedBlocks.init 4 1 1 = .ok reserveStorage.blocks := rfl
  have fdsReady : SharedFds.init 2 2 = .ok reserveStorage.fds := rfl
  have ran : run (World.start reserveStorage)
      [(0, .init 16 2),
        (0, .enqueue [1, 2, 3] [] { blocks := 0, fds := 0 })] =
      some ([.ok (), .ok ()], preflightWorld) := rfl
  have copied : copiedWorld = some (copiedWorld.get rfl) :=
    (Option.some_get rfl).symm
  have direct : directWorld = some (directWorld.get rfl) :=
    (Option.some_get rfl).symm
  obtain ⟨_, equal⟩ := (direct_encoding_equals_copying blocksReady fdsReady ran
    0).1 [[4], [], [5, 6, 7, 8, 9]] [3] { blocks := 2, fds := 0 } (by decide)
  obtain ⟨_, contents, _, left, right, _⟩ := equal _ _ copied direct
  exact ⟨_, _, contents, copied, direct, left, right⟩

end Sample

end Tx
end Wayring
