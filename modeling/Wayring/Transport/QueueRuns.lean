import Wayring.Foundation.LeaseOwners
import Wayring.Transport.QueueStream

/-!
# Runs over shared pools

Any number of owners, each with a transmit queue and the last reservation made
on it, take turns over one pair of pools.  The blocks in use are divided among
them: the chain of each queue, and those of a message that is being written.
-/

namespace Wayring
namespace Tx

open LeasePool (Divides)

/-- A queue, and the last reservation made on it. -/
structure Sender where
  queue : Queue
  reservation : Option Reservation := none
  deriving DecidableEq, Repr

/-- The calls on a queue. -/
inductive Call
  | init (byteBudget descriptorBudget : Nat)
  | enqueue (bytes : List UInt8) (descriptors : List Fd) (room : Room)
  | ensureCapacity (byteCount descriptorCount : Nat) (room : Room)
  | reserve (byteCount room : Nat)
  | write (bytes : List UInt8)
  | commit (descriptors : List Fd) (room : Nat)
  | abort
  | snapshot (scratchLength controlLength : Nat)
  | begin (snapshot : Snapshot)
  | complete (written : Nat)
  | failed
  | deinit
  deriving DecidableEq, Repr

/-- What a call leaves. -/
structure Outcome where
  result : Except Error Unit
  sender : Option Sender
  storage : Storage

/-- A call of one owner.  There is no outcome where the owner has no such
queue or reservation, or where the call asserts that no message is being
written. -/
@[simp] def Sender.call
    [Native]
    (storage : Storage) : Option Sender → Call → Option Outcome
  | none, .init byteBudget descriptorBudget =>
      some
        { result := .ok ()
          sender := some { queue := Queue.init byteBudget descriptorBudget }
          storage }
  | some sender, .enqueue bytes descriptors room =>
      let (result, queue, storage) :=
        sender.queue.enqueue storage bytes descriptors room
      some { result, sender := some { sender with queue }, storage }
  | some sender, .ensureCapacity byteCount descriptorCount room =>
      let (result, storage) :=
        sender.queue.ensureCapacity storage byteCount descriptorCount room
      some { result, sender := some sender, storage }
  | some sender, .reserve byteCount room =>
      match sender.queue.reserve storage.blocks byteCount room with
      | (.error cause, queue, blocks) =>
          some
            { result := .error cause
              sender := some { sender with queue }
              storage := { storage with blocks } }
      | (.ok reservation, queue, blocks) =>
          some
            { result := .ok ()
              sender := some { queue, reservation := some reservation }
              storage := { storage with blocks } }
  | some { queue, reservation := some reservation }, .write bytes =>
      let (result, reservation, blocks) :=
        reservation.write storage.blocks bytes
      some
        { result
          sender := some { queue, reservation := some reservation }
          storage := { storage with blocks } }
  | some { queue, reservation := some reservation },
      .commit descriptors room =>
      let (result, reservation, queue, storage) :=
        reservation.commit queue storage descriptors room
      some
        { result
          sender := some { queue, reservation := some reservation }
          storage }
  | some { queue, reservation := some reservation }, .abort =>
      let (result, reservation, queue, blocks) :=
        reservation.abort queue storage.blocks
      some
        { result
          sender := some { queue, reservation := some reservation }
          storage := { storage with blocks } }
  | some sender, .snapshot scratchLength controlLength =>
      some
        { result := (sender.queue.snapshot storage scratchLength
            controlLength).map fun _ => ()
          sender := some sender
          storage }
  | some sender, .begin snapshot =>
      match sender.queue.begin snapshot with
      | .error cause =>
          some { result := .error cause, sender := some sender, storage }
      | .ok queue =>
          some
            { result := .ok (), sender := some { sender with queue }, storage }
  | some sender, .complete written =>
      let (result, queue, storage) := sender.queue.complete storage written
      some
        { result := result.map fun _ => ()
          sender := some { sender with queue }
          storage }
  | some sender, .failed =>
      match sender.queue.failed with
      | .error cause =>
          some { result := .error cause, sender := some sender, storage }
      | .ok queue =>
          some
            { result := .ok (), sender := some { sender with queue }, storage }
  | some sender, .deinit =>
      if sender.queue.reservationActive then none
      else
        let (result, storage) := sender.queue.deinit storage
        some { result := result.map fun _ => (), sender := none, storage }
  | _, _ => none

/-- The pools, and the queues of all owners. -/
structure World where
  storage : Storage
  senders : Nat → Option Sender

/-- No queues yet. -/
def World.start (storage : Storage) : World where
  storage
  senders _ := none

/-- One owner makes a call. -/
def step
    [Native]
    (world : World)
    (owner : Nat)
    (call : Call) : Option (Except Error Unit × World) :=
  (Sender.call world.storage (world.senders owner) call).map fun outcome =>
    (outcome.result,
      { storage := outcome.storage
        senders := Function.update world.senders owner outcome.sender })

/-- Owners take turns. -/
def run
    [Native] :
    World → List (Nat × Call) → Option (List (Except Error Unit) × World)
  | world, [] => some ([], world)
  | world, (owner, call) :: turns =>
      (step world owner call).bind fun (result, world) =>
        (run world turns).map fun (results, world) =>
          (result :: results, world)

/-! ## One owner -/

/-- What an owner has of the pools: the blocks of the queue, those of a
message that is being written, and descriptor entries. -/
structure Entries where
  chain : List Nat := []
  reserved : List Nat := []
  fdChain : List Nat := []

/-- The blocks of a queue, its reserved ones included. -/
def Entries.blocks (entries : Entries) : List Nat :=
  entries.chain ++ entries.reserved

/-- An owner has these entries. -/
inductive Has (storage : Storage) : Option Sender → Entries → Prop
  | gone : Has storage none {}
  | settled
      {queue : Queue} {reservation : Option Reservation} {bytes : List UInt8}
      {items : List Fd} {chain fdChain : List Nat}
      (stores : queue.Stores storage bytes items chain fdChain)
      (finished : ∀ last, reservation = some last →
        last.finished = true ∧ last.newHead = none) :
      Has storage (some { queue, reservation }) { chain, fdChain }
  | reserving
      {queue : Queue} {reservation : Reservation} {bytes written : List UInt8}
      {items : List Fd} {chain reserved fdChain : List Nat}
      (holds : queue.Reserving storage reservation bytes written items chain
        reserved fdChain) :
      Has storage (some { queue, reservation := some reservation })
        { chain, reserved, fdChain }

variable {storage after : Storage} {sender : Option Sender}
  {entries entriesNow : Entries}

/-- Steps on other storage leave a sender alone. -/
theorem Has.frame
    {owned ownedNow fdsOwned fdsOwnedNow : List Nat}
    (has : Has storage sender entries)
    (step : Storage.Step storage after owned ownedNow fdsOwned fdsOwnedNow)
    (apart : ∀ index ∈ entries.blocks, index ∉ owned)
    (fdsApart : ∀ index ∈ entries.fdChain, index ∉ fdsOwned) :
    Has after sender entries := by
  cases has with
  | gone => exact .gone
  | settled stores finished =>
      exact .settled
        (stores.frame step
          (fun index member => apart index (List.mem_append_left _ member))
          fdsApart)
        finished
  | reserving holds => exact .reserving (holds.frame step apart fdsApart)

/-- The entries of an owner are in use, and distinct. -/
theorem Has.used
    (has : Has storage sender entries) :
    entries.blocks.Nodup ∧ entries.fdChain.Nodup ∧
      (∀ index ∈ entries.blocks, storage.blocks.pool.cell index ≠ none) ∧
      ∀ index ∈ entries.fdChain, storage.fds.pool.cell index ≠ none := by
  cases has with
  | gone => simp [Entries.blocks]
  | settled stores _ =>
      obtain ⟨contents, text⟩ := stores.text
      simp only [Entries.blocks, List.append_nil]
      refine ⟨text.holds.distinct, stores.descriptors.holds.distinct, ?_, ?_⟩
      · intro index member
        obtain ⟨cell, found, _⟩ := text.holds.used member
        simp [found]
      · intro index member
        obtain ⟨cell, found, _⟩ := stores.descriptors.holds.used member
        simp [found]
  | reserving holds =>
      obtain ⟨contents, newContents, writes⟩ := holds.writes
      refine ⟨?_, holds.descriptors.holds.distinct, ?_, ?_⟩
      · exact List.Nodup.append writes.text.holds.distinct
          writes.reserved.distinct writes.apart
      · intro index member
        rcases List.mem_append.mp member with inChain | inNew
        · obtain ⟨cell, found, _⟩ := writes.text.holds.used inChain
          simp [found]
        · obtain ⟨cell, found, _⟩ := writes.reserved.used inNew
          simp [found]
      · intro index member
        obtain ⟨cell, found, _⟩ := holds.descriptors.holds.used member
        simp [found]

/-- What a call does to the entries of its owner. -/
structure Served
    (storage : Storage)
    (sender : Option Sender)
    (entries : Entries)
    (outcome : Outcome)
    (entriesNow : Entries) : Prop where
  has : Has outcome.storage outcome.sender entriesNow
  step : Storage.Step storage outcome.storage entries.blocks entriesNow.blocks
    entries.fdChain entriesNow.fdChain
  failed : ∀ cause, outcome.result = .error cause →
    outcome.sender = sender ∧ entriesNow = entries ∧
      Queue.Unchanged storage outcome.storage

/-- A call that only answers. -/
theorem Served.same
    (result : Except Error Unit)
    (wellFormed : storage.WellFormed)
    (has : Has storage sender entries) :
    Served storage sender entries { result, sender, storage } entries where
  has := has
  step := .refl wellFormed _ _
  failed _ _ := ⟨rfl, rfl, rfl, rfl⟩

section Calls

variable [Native] {outcome : Outcome} {queue : Queue}
  {reservation : Reservation} {bytes written : List UInt8} {items : List Fd}
  {chain reserved fdChain : List Nat} {last : Option Reservation}

theorem served_enqueue
    {new : List UInt8} {descriptors : List Fd} {room : Room}
    (wellFormed : storage.WellFormed)
    (has : Has storage sender entries)
    (called : Sender.call storage sender (.enqueue new descriptors room) =
      some outcome) :
    ∃ entriesNow, Served storage sender entries outcome entriesNow := by
  cases has with
  | gone => cases called
  | settled stores finished =>
      rename_i queue reservation bytes items chain fdChain
      have spec := @Queue.enqueue_spec queue storage bytes items chain fdChain
        new descriptors room stores wellFormed
      have kept := fun cause => @Queue.enqueue_failed queue storage bytes items
        chain fdChain new descriptors room cause stores wellFormed
      generalize enqueued : queue.enqueue storage new descriptors room = answer
        at spec kept
      obtain ⟨result, next, storageNow⟩ := answer
      simp only [Sender.call, enqueued, Option.some.injEq] at called
      subst called
      cases result with
      | error cause =>
          obtain ⟨_, rfl, storesNow, step⟩ := spec
          refine ⟨_, .settled storesNow finished, ?_, fun _ _ =>
            ⟨rfl, rfl, kept cause rfl⟩⟩
          simpa [Entries.blocks] using step
      | ok _ =>
          obtain ⟨more, fdChainNow, spec⟩ := spec
          refine ⟨_, .settled spec.stores finished, ?_, by simp⟩
          simpa [Entries.blocks] using spec.step
  | reserving holds =>
      rename_i queue reservation bytes written items chain reserved fdChain
      obtain ⟨cause, refused⟩ := @Queue.enqueue_unsettled queue storage new
        descriptors room holds.unsettled
      simp only [Sender.call, refused, Option.some.injEq] at called
      subst called
      exact ⟨_, .same _ wellFormed (.reserving holds)⟩

theorem served_ensureCapacity
    {byteCount descriptorCount : Nat} {room : Room}
    (wellFormed : storage.WellFormed)
    (has : Has storage sender entries)
    (called : Sender.call storage sender
      (.ensureCapacity byteCount descriptorCount room) = some outcome) :
    ∃ entriesNow, Served storage sender entries outcome entriesNow := by
  cases has with
  | gone => cases called
  | settled stores finished =>
      rename_i queue reservation bytes items chain fdChain
      obtain ⟨step, storesNow, _⟩ := @Queue.ensureCapacity_spec queue storage
        bytes items chain fdChain byteCount descriptorCount room stores
        wellFormed
      have kept := Queue.ensureCapacity_unchanged queue byteCount
        descriptorCount room wellFormed
      simp only [Sender.call, Option.some.injEq] at called
      subst called
      refine ⟨_, .settled storesNow finished, ?_, fun _ _ => ⟨rfl, rfl, kept⟩⟩
      simpa [Entries.blocks] using step
  | reserving holds =>
      rename_i queue reservation bytes written items chain reserved fdChain
      simp only [Sender.call, Queue.ensureCapacity, holds.unsettled, if_true,
        Option.some.injEq] at called
      subst called
      exact ⟨_, .same _ wellFormed (.reserving holds)⟩

theorem served_reserve
    {byteCount room : Nat}
    (wellFormed : storage.WellFormed)
    (has : Has storage sender entries)
    (called : Sender.call storage sender (.reserve byteCount room) =
      some outcome) :
    ∃ entriesNow, Served storage sender entries outcome entriesNow := by
  cases has with
  | gone => cases called
  | settled stores finished =>
      rename_i queue reservation bytes items chain fdChain
      have spec := @Queue.reserve_stores queue storage bytes items chain fdChain
        byteCount room stores wellFormed
      have kept := fun cause => @Queue.reserve_failed queue storage bytes items
        chain fdChain byteCount room cause stores wellFormed
      generalize reserved : queue.reserve storage.blocks byteCount room = answer
        at spec kept
      obtain ⟨result, next, blocks⟩ := answer
      cases result with
      | error cause =>
          simp only [Sender.call, reserved, Option.some.injEq] at called
          subst called
          obtain ⟨_, rfl, storesNow, step⟩ := spec
          refine ⟨_, .settled storesNow finished, ?_, fun _ _ =>
            ⟨rfl, rfl, kept cause rfl, rfl⟩⟩
          simpa [Entries.blocks] using step
      | ok reservation =>
          simp only [Sender.call, reserved, Option.some.injEq] at called
          subst called
          obtain ⟨newChain, _, _, reserving, step⟩ := spec
          refine ⟨_, .reserving reserving, ?_, by simp⟩
          simpa [Entries.blocks] using step
  | reserving holds =>
      rename_i queue reservation bytes written items chain reserved fdChain
      simp only [Sender.call, Queue.reserve_unsettled storage.blocks byteCount
        room holds.unsettled, Option.some.injEq] at called
      subst called
      exact ⟨_, .same _ wellFormed (.reserving holds)⟩

theorem served_write
    {new : List UInt8}
    (wellFormed : storage.WellFormed)
    (has : Has storage sender entries)
    (called : Sender.call storage sender (.write new) = some outcome) :
    ∃ entriesNow, Served storage sender entries outcome entriesNow := by
  cases has with
  | gone => cases called
  | settled stores finished =>
      rename_i queue reservation bytes items chain fdChain
      cases last : reservation with
      | none =>
          rw [last] at called
          cases called
      | some reservation =>
          subst last
          have refused := Reservation.write_finished storage.blocks new
            (finished reservation rfl).1
          simp only [Sender.call, refused, Option.some.injEq] at called
          subst called
          exact ⟨_, .same _ wellFormed (.settled stores finished)⟩
  | reserving holds =>
      rename_i queue reservation bytes written items chain reserved fdChain
      obtain ⟨step, _, spec⟩ := holds.write new wellFormed
      generalize wrote : reservation.write storage.blocks new = answer
        at spec step
      obtain ⟨result, next, blocks⟩ := answer
      simp only [Sender.call, wrote, Option.some.injEq] at called
      subst called
      cases result with
      | error cause =>
          obtain ⟨_, _, same⟩ := spec
          simp only [Prod.mk.injEq] at same
          obtain ⟨rfl, rfl⟩ := same
          exact ⟨_, .same _ wellFormed (.reserving holds)⟩
      | ok _ => exact ⟨_, .reserving spec.2, step, by simp⟩

theorem served_commit
    {descriptors : List Fd} {room : Nat}
    (wellFormed : storage.WellFormed)
    (has : Has storage sender entries)
    (called : Sender.call storage sender (.commit descriptors room) =
      some outcome) :
    ∃ entriesNow, Served storage sender entries outcome entriesNow := by
  cases has with
  | gone => cases called
  | settled stores finished =>
      rename_i queue reservation bytes items chain fdChain
      cases last : reservation with
      | none =>
          rw [last] at called
          cases called
      | some reservation =>
          subst last
          have refused := Reservation.commit_finished queue storage descriptors
            room (finished reservation rfl).1
          simp only [Sender.call, refused, Option.some.injEq] at called
          subst called
          exact ⟨_, .same _ wellFormed (.settled stores finished)⟩
  | reserving holds =>
      rename_i queue reservation bytes written items chain reserved fdChain
      have spec := holds.commit descriptors room wellFormed
      have kept := fun cause => @Queue.Reserving.commit_failed queue storage
        bytes written items chain reserved fdChain reservation descriptors room
        cause holds wellFormed
      generalize committed : reservation.commit queue storage descriptors room =
        answer at spec kept
      obtain ⟨result, reservationNow, next, storageNow⟩ := answer
      simp only [Sender.call, committed, Option.some.injEq] at called
      subst called
      cases result with
      | error cause =>
          obtain ⟨_, rfl, rfl, reserving, step⟩ := spec
          exact ⟨_, .reserving reserving, step, fun _ _ =>
            ⟨rfl, rfl, kept cause rfl⟩⟩
      | ok _ =>
          obtain ⟨fdChainNow, _, finished, noHead, stores, step, _⟩ := spec
          refine ⟨_, .settled stores ?_, ?_, by simp⟩
          · intro last same
            cases same
            exact ⟨finished, noHead⟩
          · simpa [Entries.blocks] using step

theorem served_abort
    (wellFormed : storage.WellFormed)
    (has : Has storage sender entries)
    (called : Sender.call storage sender .abort = some outcome) :
    ∃ entriesNow, Served storage sender entries outcome entriesNow := by
  cases has with
  | gone => cases called
  | settled stores finished =>
      rename_i queue reservation bytes items chain fdChain
      cases last : reservation with
      | none =>
          rw [last] at called
          cases called
      | some reservation =>
          subst last
          have ignored := Reservation.abort_finished queue storage.blocks
            (finished reservation rfl).1
          simp only [Sender.call, ignored, Option.some.injEq] at called
          subst called
          exact ⟨_, .same _ wellFormed (.settled stores finished)⟩
  | reserving holds =>
      rename_i queue reservation bytes written items chain reserved fdChain
      obtain ⟨blocks, aborted, stores, step⟩ := holds.abort wellFormed
      simp only [Sender.call, aborted, Option.some.injEq] at called
      subst called
      refine ⟨_, .settled stores ?_, ?_, by simp⟩
      · intro last same
        cases same
        exact ⟨rfl, rfl⟩
      · simpa [Entries.blocks] using step

theorem served_begin
    {snapshot : Snapshot}
    (wellFormed : storage.WellFormed)
    (has : Has storage sender entries)
    (called : Sender.call storage sender (.begin snapshot) = some outcome) :
    ∃ entriesNow, Served storage sender entries outcome entriesNow := by
  cases has with
  | gone => cases called
  | settled stores finished =>
      rename_i queue reservation bytes items chain fdChain
      cases begun : queue.begin snapshot with
      | error cause =>
          simp only [Sender.call, begun, Option.some.injEq] at called
          subst called
          exact ⟨_, .same _ wellFormed (.settled stores finished)⟩
      | ok next =>
          simp only [Sender.call, begun, Option.some.injEq] at called
          subst called
          exact ⟨_, .settled (stores.begin_spec begun).1 finished,
            .refl wellFormed _ _, by simp⟩
  | reserving holds =>
      simp only [Sender.call, Queue.begin_unsettled snapshot holds.unsettled,
        Option.some.injEq] at called
      subst called
      exact ⟨_, .same _ wellFormed (.reserving holds)⟩

theorem served_complete
    {count : Nat}
    (wellFormed : storage.WellFormed)
    (has : Has storage sender entries)
    (called : Sender.call storage sender (.complete count) = some outcome) :
    ∃ entriesNow, Served storage sender entries outcome entriesNow := by
  cases has with
  | gone => cases called
  | settled stores finished =>
      rename_i queue reservation bytes items chain fdChain
      have spec := @Queue.complete_spec queue storage bytes items chain fdChain
        count stores wellFormed
      generalize completed : queue.complete storage count = answer at spec
      obtain ⟨result, next, storageNow⟩ := answer
      simp only [Sender.call, completed, Option.some.injEq] at called
      subst called
      cases result with
      | error cause =>
          obtain ⟨_, same⟩ := spec
          simp only [Prod.mk.injEq] at same
          obtain ⟨rfl, rfl⟩ := same
          exact ⟨_, .same _ wellFormed (.settled stores finished)⟩
      | ok closed =>
          obtain ⟨active, chainNow, fdChainNow, _, _, _, _, spec⟩ := spec
          refine ⟨_, .settled spec.stores finished, ?_, by simp [Except.map]⟩
          simpa [Entries.blocks] using spec.step
  | reserving holds =>
      simp only [Sender.call, Queue.complete_unsettled count holds.unsettled,
        Option.some.injEq] at called
      subst called
      exact ⟨_, .same _ wellFormed (.reserving holds)⟩

theorem served_failed
    (wellFormed : storage.WellFormed)
    (has : Has storage sender entries)
    (called : Sender.call storage sender .failed = some outcome) :
    ∃ entriesNow, Served storage sender entries outcome entriesNow := by
  cases has with
  | gone => cases called
  | settled stores finished =>
      rename_i queue reservation bytes items chain fdChain
      cases failed : queue.failed with
      | error cause =>
          simp only [Sender.call, failed, Option.some.injEq] at called
          subst called
          exact ⟨_, .same _ wellFormed (.settled stores finished)⟩
      | ok next =>
          simp only [Sender.call, failed, Option.some.injEq] at called
          subst called
          exact ⟨_, .settled (stores.failed_spec failed).1 finished,
            .refl wellFormed _ _, by simp⟩
  | reserving holds =>
      simp only [Sender.call, Queue.failed_unsettled holds.unsettled,
        Option.some.injEq] at called
      subst called
      exact ⟨_, .same _ wellFormed (.reserving holds)⟩

/-- The end of a queue gives everything back. -/
theorem served_deinit
    (wellFormed : storage.WellFormed)
    (has : Has storage sender entries)
    (called : Sender.call storage sender .deinit = some outcome) :
    ∃ entriesNow, Served storage sender entries outcome entriesNow := by
  cases has with
  | gone => cases called
  | settled stores finished =>
      obtain ⟨storageNow, released, step⟩ := stores.deinit_spec wellFormed
      simp only [Sender.call, stores.settled, Bool.false_eq_true, if_false,
        released, Option.some.injEq] at called
      subst called
      refine ⟨_, .gone, ?_, by simp [Except.map]⟩
      simpa [Entries.blocks] using step
  | reserving holds =>
      simp only [Sender.call, holds.unsettled, if_true] at called
      cases called

/-- Every call keeps what its owner has in order. -/
theorem served
    {call : Call}
    (wellFormed : storage.WellFormed)
    (has : Has storage sender entries)
    (called : Sender.call storage sender call = some outcome) :
    ∃ entriesNow, Served storage sender entries outcome entriesNow := by
  cases call with
  | init byteBudget descriptorBudget =>
      cases has with
      | gone =>
          simp only [Sender.call, Option.some.injEq] at called
          subst called
          exact ⟨_, .settled (.init storage byteBudget descriptorBudget)
            (by simp), .refl wellFormed _ _, by simp⟩
      | settled => cases called
      | reserving => cases called
  | enqueue => exact served_enqueue wellFormed has called
  | ensureCapacity => exact served_ensureCapacity wellFormed has called
  | reserve => exact served_reserve wellFormed has called
  | write => exact served_write wellFormed has called
  | commit => exact served_commit wellFormed has called
  | abort => exact served_abort wellFormed has called
  | snapshot =>
      cases sender with
      | none => cases called
      | some sender =>
          simp only [Sender.call, Option.some.injEq] at called
          subst called
          exact ⟨entries, .same _ wellFormed has⟩
  | begin => exact served_begin wellFormed has called
  | complete => exact served_complete wellFormed has called
  | failed => exact served_failed wellFormed has called
  | deinit => exact served_deinit wellFormed has called

end Calls

/-! ## All owners -/

/-- Every entry in use belongs to one owner. -/
structure World.Sound
    (world : World)
    (entries : Nat → Entries) : Prop where
  wellFormed : world.storage.WellFormed
  has : ∀ owner, Has world.storage (world.senders owner) (entries owner)
  blocks : Divides world.storage.blocks.pool.cell fun owner =>
    (entries owner).blocks
  fds : Divides world.storage.fds.pool.cell fun owner =>
    (entries owner).fdChain

/-- New pools are sound without queues. -/
theorem World.Sound.start
    (wellFormed : storage.WellFormed)
    (noBlocks : ∀ index, storage.blocks.pool.cell index = none)
    (noFds : ∀ index, storage.fds.pool.cell index = none) :
    (World.start storage).Sound fun _ => {} where
  wellFormed := wellFormed
  has _ := .gone
  blocks := .empty noBlocks
  fds := .empty noFds

/-- New pools and no queue. -/
theorem World.Sound.start_ready
    {blockSize blockCount blockRoom capacity fdRoom : Nat}
    {blocks : SharedBlocks} {fds : SharedFds}
    (blocksReady : SharedBlocks.init blockSize blockCount blockRoom =
      .ok blocks)
    (fdsReady : SharedFds.init capacity fdRoom = .ok fds) :
    (World.start { blocks, fds }).Sound fun _ => {} :=
  have ready := SharedBlocks.init_spec blocksReady
  .start ⟨ready.1, SharedFds.init_spec fdsReady⟩ ready.2.2
    (SharedFds.init_unused fdsReady)

section Worlds

variable [Native] {world worldNow : World} {entries : Nat → Entries}
  {owner : Nat} {call : Call} {result : Except Error Unit}

/-- What a call of one owner does to all of them. -/
structure Turned
    (world : World)
    (entries : Nat → Entries)
    (owner : Nat)
    (result : Except Error Unit)
    (worldNow : World)
    (entriesNow : Entries) : Prop where
  sound : worldNow.Sound (Function.update entries owner entriesNow)
  others : ∀ other, other ≠ owner →
    worldNow.senders other = world.senders other
  has : Has worldNow.storage (worldNow.senders owner) entriesNow
  step : Storage.Step world.storage worldNow.storage (entries owner).blocks
    entriesNow.blocks (entries owner).fdChain entriesNow.fdChain
  failed : ∀ cause, result = .error cause →
    worldNow.senders = world.senders ∧ entriesNow = entries owner ∧
      Queue.Unchanged world.storage worldNow.storage

omit [Native] in
/-- Serving one sender leaves the others alone. -/
theorem World.Sound.serve
    {outcome : Outcome} {entriesNow : Entries}
    (sound : world.Sound entries)
    (served : Served world.storage (world.senders owner) (entries owner)
      outcome entriesNow) :
    Turned world entries owner outcome.result
      { storage := outcome.storage
        senders := Function.update world.senders owner outcome.sender }
      entriesNow := by
  obtain ⟨distinct, fdsDistinct, used, fdsUsed⟩ := served.has.used
  refine ⟨?_, ?_, ?_, served.step, ?_⟩
  · refine ⟨served.step.wellFormed, ?_, ?_, ?_⟩
    · intro other
      rcases eq_or_ne other owner with rfl | differs
      · simpa using served.has
      · simp only [Function.update_of_ne differs]
        exact (sound.has other).frame served.step
          (fun index member inOwner =>
            sound.blocks.apart other owner differs member inOwner)
          fun index member inOwner =>
            sound.fds.apart other owner differs member inOwner
    · have divided := sound.blocks.moves served.step.blocks.moves distinct used
      convert divided using 2 with other
      rcases eq_or_ne other owner with rfl | differs
      · simp
      · simp [Function.update_of_ne differs]
    · have divided := sound.fds.moves served.step.fds.moves fdsDistinct fdsUsed
      convert divided using 2 with other
      rcases eq_or_ne other owner with rfl | differs
      · simp
      · simp [Function.update_of_ne differs]
  · intro other differs
    exact Function.update_of_ne differs _ _
  · simpa using served.has
  · intro cause failed
    obtain ⟨sameSender, sameEntries, unchanged⟩ := served.failed cause failed
    refine ⟨?_, sameEntries, unchanged⟩
    simp only [sameSender, Function.update_eq_self]

/-- Every call keeps a world sound. -/
theorem World.Sound.step
    (sound : world.Sound entries)
    (stepped : step world owner call = some (result, worldNow)) :
    ∃ entriesNow,
      Turned world entries owner result worldNow entriesNow := by
  obtain ⟨outcome, called, same⟩ := Option.map_eq_some_iff.mp stepped
  cases same
  obtain ⟨entriesNow, served⟩ :=
    served sound.wellFormed (sound.has owner) called
  exact ⟨entriesNow, sound.serve served⟩

/-- Every run keeps every entry in use with one owner, and those who took no
turn have nothing. -/
theorem World.Sound.run
    {turns : List (Nat × Call)} {results : List (Except Error Unit)}
    (sound : world.Sound entries)
    (ran : run world turns = some (results, worldNow)) :
    ∃ entriesNow, worldNow.Sound entriesNow ∧
      ∀ owner, owner ∉ turns.map Prod.fst →
        entriesNow owner = entries owner := by
  induction turns generalizing world entries results with
  | nil =>
      cases ran
      exact ⟨entries, sound, fun _ _ => rfl⟩
  | cons turn turns run_ih =>
      obtain ⟨owner, call⟩ := turn
      obtain ⟨⟨result, middle⟩, stepped, rest⟩ := Option.bind_eq_some_iff.mp ran
      obtain ⟨⟨later, last⟩, ranRest, same⟩ := Option.map_eq_some_iff.mp rest
      cases same
      obtain ⟨now, turned⟩ := sound.step stepped
      obtain ⟨entriesNow, soundNow, untouched⟩ := run_ih turned.sound ranRest
      refine ⟨entriesNow, soundNow, ?_⟩
      intro other absent
      simp only [List.map_cons, List.mem_cons, not_or] at absent
      rw [untouched other absent.2, Function.update_of_ne absent.1]

end Worlds

end Tx
end Wayring
