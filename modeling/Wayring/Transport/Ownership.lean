import Wayring.Codec.Decoding
import Wayring.Transport.ControlRecords
import Wayring.Transport.QueueStream
import Wayring.Transport.Rights

/-!
# Descriptor ownership

A transmit queue and a receive queue share the pools.  Every call reports what
it does with descriptors: which ones a queue takes over, and which ones leave
it for the application or are closed.
-/

namespace Wayring
namespace Ownership

open FdQueue (Step)

/-- The two queues of a connection. -/
inductive Side
  | transmit
  | received
  deriving DecidableEq, Repr

/-- What happens to one descriptor. -/
inductive Event
  /-- A queue takes a descriptor over. -/
  | handed (side : Side) (fd : Fd)
  /-- The application takes a received descriptor over. -/
  | popped (fd : Fd)
  /-- A descriptor of a queue is closed. -/
  | closed (side : Side) (fd : Fd)
  /-- A received descriptor that no queue took over is closed. -/
  | refused (fd : Fd)
  deriving DecidableEq, Repr

/-- How a descriptor leaves a queue. -/
inductive Fate
  | popped
  | closed
  deriving DecidableEq, Repr

/-- The descriptors that a queue took over, in order. -/
def handedTo (side : Side) (events : List Event) : List Fd :=
  events.filterMap fun event =>
    match event with
    | .handed other fd => if other = side then some fd else none
    | _ => none

/-- The descriptors that left a queue, in order. -/
def leftFrom (side : Side) (events : List Event) : List (Fd × Fate) :=
  events.filterMap fun event =>
    match event with
    | .popped fd => if side = .received then some (fd, .popped) else none
    | .closed other fd => if other = side then some (fd, .closed) else none
    | _ => none

/-- The pools, the queues that are still there, and the last reservation. -/
structure World where
  storage : Storage
  transmit : Option Tx.Queue
  reservation : Option Tx.Reservation := none
  received : Option FdQueue
  deriving DecidableEq, Repr

/-- Calls, with the memory that they find. -/
inductive Call
  | enqueue (bytes : List UInt8) (fds : List Fd) (room : Tx.Room)
  | reserve (byteCount room : Nat)
  | write (bytes : List UInt8)
  | commit (fds : List Fd) (room : Nat)
  | abort
  | snapshot (scratchLength controlLength : Nat)
  | begin (snapshot : Tx.Snapshot)
  | complete (written : Nat)
  | failed
  | deinitTransmit
  | enqueueRights (control : List UInt8) (room : Nat)
  | pop
  | discard (count : Nat)
  | decode
      (signature : Codec.Signature)
      (validation : Codec.Validation)
      (bytes : List UInt8)
  | deinitReceived

/-- What a call does. -/
structure Outcome where
  result : Except Error Unit
  events : List Event := []
  world : World

/-- The events of a call that is successful. -/
def onSuccess {α : Type} (result : Except Error α) (events : α → List Event) :
    List Event :=
  match result with
  | .error _ => []
  | .ok value => events value

/-- A call on the transmit queue, if there is one. -/
def World.withTransmit
    (world : World)
    (call : Tx.Queue → Outcome) : Outcome :=
  match world.transmit with
  | none => { result := .ok (), world }
  | some queue => call queue

/-- A call on the reservation, if there is one. -/
def World.withReservation
    (world : World)
    (call : Tx.Queue → Tx.Reservation → Outcome) : Outcome :=
  world.withTransmit fun queue =>
    match world.reservation with
    | none => { result := .ok (), world }
    | some reservation => call queue reservation

/-- A call on the received queue, if there is one. -/
def World.withReceived
    (world : World)
    (call : FdQueue → Outcome) : Outcome :=
  match world.received with
  | none => { result := .ok (), world }
  | some queue => call queue

section Calls

variable [Native]

/-- One call.  A call on a queue that is gone does not take place. -/
def step (call : Call) (world : World) : Outcome :=
  match call with
  | .enqueue bytes fds room => world.withTransmit fun queue =>
      let (result, queue, storage) :=
        queue.enqueue world.storage bytes fds room
      { result
        events := onSuccess result fun _ => fds.map (.handed .transmit)
        world := { world with storage, transmit := some queue } }
  | .reserve byteCount room => world.withTransmit fun queue =>
      let (result, queue, blocks) :=
        queue.reserve world.storage.blocks byteCount room
      { result := result.map fun _ => ()
        world := { world with
          storage := { world.storage with blocks }
          transmit := some queue
          reservation :=
            match result with
            | .error _ => world.reservation
            | .ok reservation => some reservation } }
  | .write bytes => world.withReservation fun _ reservation =>
      let (result, reservation, blocks) :=
        reservation.write world.storage.blocks bytes
      { result
        world := { world with
          storage := { world.storage with blocks }
          reservation := some reservation } }
  | .commit fds room => world.withReservation fun queue reservation =>
      let (result, reservation, queue, storage) :=
        reservation.commit queue world.storage fds room
      { result
        events := onSuccess result fun _ => fds.map (.handed .transmit)
        world := { world with
          storage
          transmit := some queue
          reservation := some reservation } }
  | .abort => world.withReservation fun queue reservation =>
      let (result, reservation, queue, blocks) :=
        reservation.abort queue world.storage.blocks
      { result
        world := { world with
          storage := { world.storage with blocks }
          transmit := some queue
          reservation := some reservation } }
  | .snapshot scratchLength controlLength => world.withTransmit fun queue =>
      { result := (queue.snapshot world.storage scratchLength
          controlLength).map fun _ => ()
        world }
  | .begin snapshot => world.withTransmit fun queue =>
      match queue.begin snapshot with
      | .error cause => { result := .error cause, world }
      | .ok queue =>
          { result := .ok (), world := { world with transmit := some queue } }
  | .complete written => world.withTransmit fun queue =>
      let (result, queue, storage) := queue.complete world.storage written
      { result := result.map fun _ => ()
        events := onSuccess result fun fds => fds.map (.closed .transmit)
        world := { world with storage, transmit := some queue } }
  | .failed => world.withTransmit fun queue =>
      match queue.failed with
      | .error cause => { result := .error cause, world }
      | .ok queue =>
          { result := .ok (), world := { world with transmit := some queue } }
  | .deinitTransmit => world.withTransmit fun queue =>
      match queue.deinit world.storage with
      | (.error cause, _) => { result := .error cause, world }
      | (.ok fds, storage) =>
          { result := .ok ()
            events := fds.map (.closed .transmit)
            world := { world with storage, transmit := none } }
  | .enqueueRights control room => world.withReceived fun queue =>
      let (result, closed, queue, fds) :=
        Ancillary.enqueueRights control queue world.storage.fds room
      { result := result.map fun _ => ()
        events := closed.map .refused ++ onSuccess result fun _ =>
          (Ancillary.rightsOf control).map (.handed .received)
        world := { world with
          storage := { world.storage with fds }
          received := some queue } }
  | .pop => world.withReceived fun queue =>
      let (result, queue, fds) := queue.pop world.storage.fds
      { result := result.map fun _ => ()
        events := onSuccess result fun fd => [.popped fd]
        world := { world with
          storage := { world.storage with fds }
          received := some queue } }
  | .discard count => world.withReceived fun queue =>
      let (result, queue, fds) := queue.discard world.storage.fds count
      { result := result.map fun _ => ()
        events := onSuccess result fun fds => fds.map (.closed .received)
        world := { world with
          storage := { world.storage with fds }
          received := some queue } }
  | .decode signature validation bytes => world.withReceived fun queue =>
      let (result, queue, fds) :=
        Codec.decode signature validation bytes queue world.storage.fds
      { result := result.map fun _ => ()
        events := onSuccess result fun payload =>
          (Codec.Payload.fds signature payload).map .popped
        world := { world with
          storage := { world.storage with fds }
          received := some queue } }
  | .deinitReceived => world.withReceived fun queue =>
      match queue.deinit world.storage.fds with
      | (.error cause, _) => { result := .error cause, world }
      | (.ok closed, _, fds) =>
          { result := .ok ()
            events := closed.map (.closed .received)
            world := { world with
              storage := { world.storage with fds }
              received := none } }

/-- Calls in order, with all that happens to descriptors. -/
def run : List Call → World → List Event × World
  | [], world => ([], world)
  | call :: calls, world =>
      let outcome := step call world
      let (events, last) := run calls outcome.world
      (outcome.events ++ events, last)

end Calls

/-- The descriptors that a queue holds. -/
def World.contents (world : World) : Side → Except Error (List Fd)
  | .transmit =>
      match world.transmit with
      | none => .ok []
      | some queue =>
          queue.descriptors.copyTo world.storage.fds queue.descriptors.count
  | .received =>
      match world.received with
      | none => .ok []
      | some queue => queue.copyTo world.storage.fds queue.count

/-! ## What the queues hold -/

/-- The transmit queue holds some descriptors on some entries. -/
inductive TransmitHolds (world : World) : List Fd → List Nat → Prop
  | gone
      (transmit : world.transmit = none) : TransmitHolds world [] []
  | settled
      {queue : Tx.Queue} {bytes : List UInt8} {items : List Fd}
      {chain fdChain : List Nat}
      (transmit : world.transmit = some queue)
      (stores : queue.Stores world.storage bytes items chain fdChain)
      (finished : ∀ reservation, world.reservation = some reservation →
        reservation.finished = true) : TransmitHolds world items fdChain
  | reserving
      {queue : Tx.Queue} {reservation : Tx.Reservation}
      {bytes written : List UInt8} {items : List Fd}
      {chain newChain fdChain : List Nat}
      (transmit : world.transmit = some queue)
      (current : world.reservation = some reservation)
      (holds : queue.Reserving world.storage reservation bytes written items
        chain newChain fdChain) : TransmitHolds world items fdChain

/-- The receive queue holds some descriptors on some entries. -/
inductive ReceivedHolds (world : World) : List Fd → List Nat → Prop
  | gone
      (received : world.received = none) : ReceivedHolds world [] []
  | present
      {queue : FdQueue} {items : List Fd} {chain : List Nat}
      (received : world.received = some queue)
      (stores : queue.Stores world.storage.fds items chain) :
      ReceivedHolds world items chain

/-- The queues hold some descriptors on separate entries. -/
structure Sound
    (world : World)
    (sent taken : List Fd) : Prop where
  wellFormed : world.storage.WellFormed
  holds : ∃ sentChain takenChain,
    TransmitHolds world sent sentChain ∧
    ReceivedHolds world taken takenChain ∧
    ∀ index ∈ takenChain, index ∉ sentChain

variable {world after : World} {sent taken sentNow takenNow : List Fd}
  {sentChain takenChain sentChainNow takenChainNow : List Nat}

/-- Descriptors to send are on used entries. -/
theorem TransmitHolds.used
    (holds : TransmitHolds world sent sentChain)
    {index : Nat}
    (member : index ∈ sentChain) : world.storage.fds.pool.cell index ≠ none := by
  cases holds with
  | gone _ => cases member
  | settled _ stores _ =>
      obtain ⟨cell, found, _⟩ := stores.descriptors.holds.used member
      simp [found]
  | reserving _ _ holds =>
      obtain ⟨cell, found, _⟩ := holds.descriptors.holds.used member
      simp [found]

/-- Received descriptors are on used entries. -/
theorem ReceivedHolds.used
    (holds : ReceivedHolds world taken takenChain)
    {index : Nat}
    (member : index ∈ takenChain) :
    world.storage.fds.pool.cell index ≠ none := by
  cases holds with
  | gone _ => cases member
  | present _ stores =>
      obtain ⟨cell, found, _⟩ := stores.holds.used member
      simp [found]

/-- Steps of the transmit queue leave received descriptors alone. -/
theorem ReceivedHolds.frame
    (holds : ReceivedHolds world taken takenChain)
    (step : Step world.storage.fds after.storage.fds sentChain sentChainNow)
    (same : after.received = world.received)
    (apart : ∀ index ∈ takenChain, index ∉ sentChain) :
    ReceivedHolds after taken takenChain := by
  cases holds with
  | gone received => exact .gone (same.trans received)
  | present received stores =>
      exact .present (same.trans received) (stores.frame step apart)

/-- Steps of the received queue leave descriptors to send alone. -/
theorem TransmitHolds.frame
    (holds : TransmitHolds world sent sentChain)
    (step : Step world.storage.fds after.storage.fds takenChain takenChainNow)
    (sameBlocks : after.storage.blocks = world.storage.blocks)
    (sameTransmit : after.transmit = world.transmit)
    (sameReservation : after.reservation = world.reservation)
    (apart : ∀ index ∈ takenChain, index ∉ sentChain) :
    TransmitHolds after sent sentChain := by
  have apart : ∀ index ∈ sentChain, index ∉ takenChain :=
    fun index member other => apart index other member
  cases holds with
  | gone transmit => exact .gone (sameTransmit.trans transmit)
  | settled transmit stores finished =>
      refine .settled (sameTransmit.trans transmit)
        { stores with
          text := by rw [sameBlocks]; exact stores.text
          filled := by rw [sameBlocks]; exact stores.filled
          descriptors := stores.descriptors.frame step apart } ?_
      rw [sameReservation]
      exact finished
  | reserving transmit current holds =>
      exact .reserving (sameTransmit.trans transmit)
        (sameReservation.trans current)
        { holds with
          writes := by rw [sameBlocks]; exact holds.writes
          filled := by rw [sameBlocks]; exact holds.filled
          descriptors := holds.descriptors.frame step apart }

/-- A step of the transmit queue. -/
theorem Sound.transmit
    (wellFormed : after.storage.WellFormed)
    (received : ReceivedHolds world taken takenChain)
    (apart : ∀ index ∈ takenChain, index ∉ sentChain)
    (holds : TransmitHolds after sentNow sentChainNow)
    (step : Step world.storage.fds after.storage.fds sentChain sentChainNow)
    (same : after.received = world.received) : Sound after sentNow taken := by
  refine ⟨wellFormed, sentChainNow, takenChain, holds,
    received.frame step same apart, fun index member other => ?_⟩
  rcases step.moves.fresh index other with own | free
  · exact apart index member own
  · exact received.used member free

/-- A step of the receive queue. -/
theorem Sound.received
    (wellFormed : world.storage.WellFormed)
    (transmit : TransmitHolds world sent sentChain)
    (apart : ∀ index ∈ takenChain, index ∉ sentChain)
    (holds : ReceivedHolds after takenNow takenChainNow)
    (step : Step world.storage.fds after.storage.fds takenChain takenChainNow)
    (sameBlocks : after.storage.blocks = world.storage.blocks)
    (sameTransmit : after.transmit = world.transmit)
    (sameReservation : after.reservation = world.reservation) :
    Sound after sent takenNow := by
  refine ⟨⟨by rw [sameBlocks]; exact wellFormed.blocks, step.wellFormed⟩,
    sentChain, takenChainNow,
    transmit.frame step sameBlocks sameTransmit sameReservation apart, holds,
    fun index member other => ?_⟩
  rcases step.moves.fresh index member with own | free
  · exact apart index own other
  · exact transmit.used other free

/-- What is read off the chains is what the queues hold. -/
theorem Sound.contents
    (sound : Sound world sent taken) :
    world.contents .transmit = .ok sent ∧
      world.contents .received = .ok taken := by
  obtain ⟨_, sentChain, takenChain, transmit, received, _⟩ := sound
  constructor
  · cases transmit with
    | gone transmit => simp only [World.contents, transmit]
    | settled transmit stores _ =>
        simp only [World.contents, transmit]
        exact FdQueue.copyTo_spec stores.descriptors
          stores.descriptors.count.ge
    | reserving transmit _ holds =>
        simp only [World.contents, transmit]
        exact FdQueue.copyTo_spec holds.descriptors holds.descriptors.count.ge
  · cases received with
    | gone received => simp only [World.contents, received]
    | present received stores =>
        simp only [World.contents, received]
        exact FdQueue.copyTo_spec stores stores.count.ge

/-! ## Logs -/

section Logs

variable (side other : Side) (fds : List Fd) (early late : List Event)

@[simp] theorem handedTo_nil : handedTo side [] = [] := rfl

@[simp] theorem leftFrom_nil : leftFrom side [] = [] := rfl

/-- What was handed to a queue by one run after another. -/
@[simp] theorem handedTo_append :
    handedTo side (early ++ late) =
      handedTo side early ++ handedTo side late :=
  List.filterMap_append

/-- What left a queue in one run after another. -/
@[simp] theorem leftFrom_append :
    leftFrom side (early ++ late) =
      leftFrom side early ++ leftFrom side late :=
  List.filterMap_append

@[simp] theorem handedTo_handed :
    handedTo side (fds.map (.handed other)) =
      if other = side then fds else [] := by
  by_cases same : other = side <;>
    simp [handedTo, List.filterMap_map, same]

@[simp] theorem handedTo_popped :
    handedTo side (fds.map .popped) = [] := by
  simp [handedTo]

@[simp] theorem handedTo_closed :
    handedTo side (fds.map (.closed other)) = [] := by
  simp [handedTo]

@[simp] theorem handedTo_refused :
    handedTo side (fds.map .refused) = [] := by
  simp [handedTo]

@[simp] theorem leftFrom_handed :
    leftFrom side (fds.map (.handed other)) = [] := by
  simp [leftFrom]

@[simp] theorem leftFrom_popped :
    leftFrom side (fds.map .popped) =
      if side = .received then fds.map (·, .popped) else [] := by
  by_cases same : side = .received <;>
    simp [leftFrom, List.filterMap_map, same]

@[simp] theorem leftFrom_closed :
    leftFrom side (fds.map (.closed other)) =
      if other = side then fds.map (·, .closed) else [] := by
  by_cases same : other = side <;>
    simp [leftFrom, List.filterMap_map, same]

@[simp] theorem leftFrom_refused :
    leftFrom side (fds.map .refused) = [] := by
  simp [leftFrom]

end Logs

/-! ## Steps -/

/-- What a failed call does: it closes the received descriptors that it was to
take in. -/
def failure [Native] : Call → List Event
  | .enqueueRights control _ => (Ancillary.rightsOf control).map .refused
  | _ => []

/-- A call accounts for every descriptor. -/
structure Accounted
    (outcome : Outcome)
    (failed : List Event)
    (sent taken sentNow takenNow : List Fd) : Prop where
  sound : Sound outcome.world sentNow takenNow
  transmit : sent ++ handedTo .transmit outcome.events =
    (leftFrom .transmit outcome.events).map Prod.fst ++ sentNow
  received : taken ++ handedTo .received outcome.events =
    (leftFrom .received outcome.events).map Prod.fst ++ takenNow
  failed : ∀ cause, outcome.result = .error cause →
    outcome.events = failed ∧ sentNow = sent ∧ takenNow = taken

section Steps

variable [Native] {world after : World} {sent taken : List Fd}
  {sentChain takenChain : List Nat}

omit [Native] in
/-- Nothing happens to any descriptor. -/
theorem Sound.quiet
    (sound : Sound after sent taken)
    (result : Except Error Unit) :
    Accounted { result, world := after } [] sent taken sent taken where
  sound
  transmit := by simp
  received := by simp
  failed _ _ := ⟨rfl, rfl, rfl⟩

omit [Native] in
/-- A call on a queue that is not there does nothing. -/
theorem Sound.ignored
    (sound : Sound after sent taken)
    (failed : List Event) :
    Accounted { result := .ok (), world := after } failed sent taken sent
      taken where
  sound
  transmit := by simp
  received := by simp
  failed _ impossible := nomatch impossible

omit [Native] in
/-- A call on the transmit queue is accounted for where the queue is there. -/
theorem Sound.withTransmit
    {call : Tx.Queue → Outcome} {failed : List Event}
    (sound : Sound world sent taken)
    (present : ∀ queue, world.transmit = some queue →
      ∃ sentNow takenNow,
        Accounted (call queue) failed sent taken sentNow takenNow) :
    ∃ sentNow takenNow,
      Accounted (world.withTransmit call) failed sent taken sentNow
        takenNow := by
  unfold World.withTransmit
  cases transmit : world.transmit with
  | none => exact ⟨_, _, sound.ignored failed⟩
  | some queue => exact present queue transmit

omit [Native] in
/-- A call on the received queue is accounted for where the queue is there. -/
theorem Sound.withReceived
    {call : FdQueue → Outcome} {failed : List Event}
    (sound : Sound world sent taken)
    (present : ∀ queue, world.received = some queue →
      ∃ sentNow takenNow,
        Accounted (call queue) failed sent taken sentNow takenNow) :
    ∃ sentNow takenNow,
      Accounted (world.withReceived call) failed sent taken sentNow
        takenNow := by
  unfold World.withReceived
  cases received : world.received with
  | none => exact ⟨_, _, sound.ignored failed⟩
  | some queue => exact present queue received

omit [Native] in
/-- A transmit queue is settled, or has an unfinished reservation. -/
theorem Sound.transmit_cases
    {queue : Tx.Queue}
    (sound : Sound world sent taken)
    (present : world.transmit = some queue) :
    ∃ sentChain takenChain,
      ReceivedHolds world taken takenChain ∧
      (∀ index ∈ takenChain, index ∉ sentChain) ∧
      ((∃ bytes chain,
        queue.Stores world.storage bytes sent chain sentChain ∧
        ∀ reservation, world.reservation = some reservation →
          reservation.finished = true) ∨
      ∃ reservation bytes written chain newChain,
        world.reservation = some reservation ∧
        queue.Reserving world.storage reservation bytes written sent chain
          newChain sentChain) := by
  obtain ⟨_, sentChain, takenChain, transmit, received, apart⟩ := sound
  refine ⟨sentChain, takenChain, received, apart, ?_⟩
  cases transmit with
  | gone transmit =>
      rw [transmit] at present
      cases present
  | settled transmit stores finished =>
      rw [transmit, Option.some.injEq] at present
      subst present
      exact Or.inl ⟨_, _, stores, finished⟩
  | reserving transmit current holds =>
      rw [transmit, Option.some.injEq] at present
      subst present
      exact Or.inr ⟨_, _, _, _, _, current, holds⟩

omit [Native] in
theorem World.transmit_eta
    {queue : Tx.Queue}
    (present : world.transmit = some queue) :
    { world with storage := world.storage, transmit := some queue } =
      world := by
  rw [← present]

omit [Native] in
theorem World.received_eta
    {queue : FdQueue}
    (present : world.received = some queue) :
    { world with
      storage := { world.storage with fds := world.storage.fds }
      received := some queue } = world := by
  rw [← present]

omit [Native] in
/-- A transmit queue takes descriptors over. -/
theorem Sound.handed
    {fds : List Fd}
    (sound : Sound after (sent ++ fds) taken) :
    Accounted
      { result := .ok ()
        events := fds.map (.handed .transmit)
        world := after } [] sent taken (sent ++ fds) taken where
  sound
  transmit := by simp
  received := by simp
  failed _ impossible := nomatch impossible

omit [Native] in
/-- Descriptors of the transmit queue are closed. -/
theorem Sound.closed
    {fds left : List Fd}
    (sound : Sound after left taken)
    (split : sent = fds ++ left) :
    Accounted
      { result := .ok ()
        events := fds.map (.closed .transmit)
        world := after } [] sent taken left taken where
  sound
  transmit := by simp [split, Function.comp_def]
  received := by simp
  failed _ impossible := nomatch impossible

/-- A queued message has its descriptors; a refused one leaves them to the
caller. -/
theorem step_enqueue
    {bytes : List UInt8} {fds : List Fd} {room : Tx.Room}
    (sound : Sound world sent taken) :
    ∃ sentNow takenNow,
      Accounted (step (.enqueue bytes fds room) world) [] sent taken sentNow
        takenNow := by
  refine sound.withTransmit fun queue present => ?_
  obtain ⟨sentChain, takenChain, received, apart, settled | unsettled⟩ :=
    sound.transmit_cases present
  · obtain ⟨queued, chain, stores, finished⟩ := settled
    have spec := @Tx.Queue.enqueue_spec queue world.storage queued sent chain
      sentChain bytes fds room stores sound.wellFormed
    generalize queue.enqueue world.storage bytes fds room = outcome at spec ⊢
    obtain ⟨result, next, storage⟩ := outcome
    cases result with
    | error cause =>
        obtain ⟨_, same, storesNow, moved⟩ := spec
        simp only at same storesNow moved
        have now : Sound { world with storage, transmit := some next } sent
            taken :=
          .transmit moved.wellFormed received apart
            (.settled rfl (same ▸ storesNow) finished) moved.fds rfl
        exact ⟨_, _, now.quiet _⟩
    | ok _ =>
        obtain ⟨more, chainNow, spec⟩ := spec
        have now : Sound { world with storage, transmit := some next }
            (sent ++ fds) taken :=
          .transmit spec.step.wellFormed received apart
            (.settled rfl spec.stores finished) spec.step.fds rfl
        exact ⟨_, _, now.handed⟩
  · obtain ⟨_, _, _, _, _, _, holds⟩ := unsettled
    obtain ⟨cause, refused⟩ := @Tx.Queue.enqueue_unsettled queue world.storage
      bytes fds room holds.unsettled
    simp only [refused, onSuccess, World.transmit_eta present]
    exact ⟨_, _, sound.quiet _⟩

theorem step_reserve
    {byteCount room : Nat}
    (sound : Sound world sent taken) :
    ∃ sentNow takenNow,
      Accounted (step (.reserve byteCount room) world) [] sent taken sentNow
        takenNow := by
  refine sound.withTransmit fun queue present => ?_
  obtain ⟨sentChain, takenChain, received, apart, settled | unsettled⟩ :=
    sound.transmit_cases present
  · obtain ⟨queued, chain, stores, finished⟩ := settled
    have spec := @Tx.Queue.reserve_stores queue world.storage queued sent chain
      sentChain byteCount room stores sound.wellFormed
    generalize queue.reserve world.storage.blocks byteCount room = outcome
      at spec ⊢
    obtain ⟨result, next, blocks⟩ := outcome
    cases result with
    | error cause =>
        obtain ⟨_, same, storesNow, moved⟩ := spec
        simp only at same storesNow moved
        have now : Sound
            { world with
              storage := { world.storage with blocks }
              transmit := some next } sent taken :=
          .transmit moved.wellFormed received apart
            (.settled rfl (same ▸ storesNow) finished) moved.fds rfl
        exact ⟨_, _, now.quiet _⟩
    | ok reservation =>
        obtain ⟨newChain, _, _, holds, moved⟩ := spec
        have now : Sound
            { world with
              storage := { world.storage with blocks }
              transmit := some next
              reservation := some reservation } sent taken :=
          .transmit moved.wellFormed received apart
            (.reserving rfl rfl holds) moved.fds rfl
        exact ⟨_, _, now.quiet _⟩
  · obtain ⟨_, _, _, _, _, _, holds⟩ := unsettled
    simp only [Tx.Queue.reserve_unsettled _ _ _ holds.unsettled,
      World.transmit_eta present]
    exact ⟨_, _, sound.quiet _⟩

omit [Native] in
/-- A queue with a reservation that is finished, or not. -/
theorem Sound.withReservation
    {call : Tx.Queue → Tx.Reservation → Outcome} {failed : List Event}
    (sound : Sound world sent taken)
    (present : ∀ queue reservation, world.transmit = some queue →
      world.reservation = some reservation →
      ∃ sentNow takenNow,
        Accounted (call queue reservation) failed sent taken sentNow
          takenNow) :
    ∃ sentNow takenNow,
      Accounted (world.withReservation call) failed sent taken sentNow
        takenNow := by
  refine sound.withTransmit fun queue transmit => ?_
  cases reserved : world.reservation with
  | none => exact ⟨_, _, sound.ignored failed⟩
  | some reservation => exact present queue reservation transmit reserved

theorem step_write
    {bytes : List UInt8}
    (sound : Sound world sent taken) :
    ∃ sentNow takenNow,
      Accounted (step (.write bytes) world) [] sent taken sentNow
        takenNow := by
  refine sound.withReservation fun queue reservation present reserved => ?_
  obtain ⟨sentChain, takenChain, received, apart, settled | unsettled⟩ :=
    sound.transmit_cases present
  · obtain ⟨queued, chain, stores, finished⟩ := settled
    simp only [Tx.Reservation.write_finished _ _ (finished _ reserved),
      ← reserved]
    exact ⟨_, _, sound.quiet _⟩
  · obtain ⟨current, queued, written, chain, newChain, same, holds⟩ := unsettled
    rw [reserved, Option.some.injEq] at same
    subst same
    have spec := holds.write bytes sound.wellFormed
    generalize reservation.write world.storage.blocks bytes = outcome at spec ⊢
    obtain ⟨result, next, blocks⟩ := outcome
    obtain ⟨moved, _, spec⟩ := spec
    cases result with
    | error cause =>
        obtain ⟨_, _, same⟩ := spec
        cases same
        simp only [← reserved]
        exact ⟨_, _, sound.quiet _⟩
    | ok _ =>
        have now : Sound
            { world with
              storage := { world.storage with blocks }
              reservation := some next } sent taken :=
          .transmit moved.wellFormed received apart
            (.reserving present rfl spec.2) moved.fds rfl
        exact ⟨_, _, now.quiet _⟩

/-- A committed message has its descriptors; a refused one leaves them to the
caller. -/
theorem step_commit
    {fds : List Fd} {room : Nat}
    (sound : Sound world sent taken) :
    ∃ sentNow takenNow,
      Accounted (step (.commit fds room) world) [] sent taken sentNow
        takenNow := by
  refine sound.withReservation fun queue reservation present reserved => ?_
  obtain ⟨sentChain, takenChain, received, apart, settled | unsettled⟩ :=
    sound.transmit_cases present
  · obtain ⟨queued, chain, stores, finished⟩ := settled
    simp only [Tx.Reservation.commit_finished _ _ _ _ (finished _ reserved),
      onSuccess, ← present, ← reserved]
    exact ⟨_, _, sound.quiet _⟩
  · obtain ⟨current, queued, written, chain, newChain, same, holds⟩ := unsettled
    rw [reserved, Option.some.injEq] at same
    subst same
    have spec := holds.commit fds room sound.wellFormed
    generalize reservation.commit queue world.storage fds room = outcome
      at spec ⊢
    obtain ⟨result, last, next, storage⟩ := outcome
    cases result with
    | error cause =>
        obtain ⟨_, sameReservation, sameQueue, holdsNow, moved⟩ := spec
        simp only at sameReservation sameQueue holdsNow moved
        subst sameReservation sameQueue
        have now : Sound
            { world with
              storage
              transmit := some next
              reservation := some last } sent taken :=
          .transmit moved.wellFormed received apart
            (.reserving rfl rfl holdsNow) moved.fds rfl
        exact ⟨_, _, now.quiet _⟩
    | ok _ =>
        obtain ⟨chainNow, _, done, _, stores, moved, _⟩ := spec
        simp only at done stores moved
        have now : Sound
            { world with
              storage
              transmit := some next
              reservation := some last } (sent ++ fds) taken :=
          .transmit moved.wellFormed received apart
            (.settled rfl stores fun other same => by
              cases same
              exact done) moved.fds rfl
        exact ⟨_, _, now.handed⟩

theorem step_abort
    (sound : Sound world sent taken) :
    ∃ sentNow takenNow,
      Accounted (step .abort world) [] sent taken sentNow takenNow := by
  refine sound.withReservation fun queue reservation present reserved => ?_
  obtain ⟨sentChain, takenChain, received, apart, settled | unsettled⟩ :=
    sound.transmit_cases present
  · obtain ⟨queued, chain, stores, finished⟩ := settled
    simp only [Tx.Reservation.abort_finished _ _ (finished _ reserved),
      ← present, ← reserved]
    exact ⟨_, _, sound.quiet _⟩
  · obtain ⟨current, queued, written, chain, newChain, same, holds⟩ := unsettled
    rw [reserved, Option.some.injEq] at same
    subst same
    obtain ⟨blocks, aborted, stores, moved⟩ := holds.abort sound.wellFormed
    simp only [aborted]
    have now : Sound
        { world with
          storage := { world.storage with blocks }
          transmit := some { queue with reservationActive := false }
          reservation := some
            { reservation with finished := true, newHead := none } }
        sent taken :=
      .transmit moved.wellFormed received apart
        (.settled rfl stores fun other same => by
          cases same
          rfl) moved.fds rfl
    exact ⟨_, _, now.quiet _⟩

/-- A send in flight keeps its descriptors on the queue. -/
theorem step_begin
    {snapshot : Tx.Snapshot}
    (sound : Sound world sent taken) :
    ∃ sentNow takenNow,
      Accounted (step (.begin snapshot) world) [] sent taken sentNow
        takenNow := by
  refine sound.withTransmit fun queue present => ?_
  obtain ⟨sentChain, takenChain, received, apart, settled | unsettled⟩ :=
    sound.transmit_cases present
  · obtain ⟨queued, chain, stores, finished⟩ := settled
    cases begun : queue.begin snapshot with
    | error cause => exact ⟨_, _, sound.quiet _⟩
    | ok next =>
        have now : Sound { world with transmit := some next } sent taken :=
          .transmit sound.wellFormed received apart
            (.settled rfl (stores.begin_spec begun).1 finished)
            (.refl sound.wellFormed.fds _) rfl
        exact ⟨_, _, now.quiet _⟩
  · obtain ⟨_, _, _, _, _, _, holds⟩ := unsettled
    simp only [Tx.Queue.begin_unsettled _ holds.unsettled]
    exact ⟨_, _, sound.quiet _⟩

/-- A failed send keeps its descriptors on the queue. -/
theorem step_failed
    (sound : Sound world sent taken) :
    ∃ sentNow takenNow,
      Accounted (step .failed world) [] sent taken sentNow takenNow := by
  refine sound.withTransmit fun queue present => ?_
  obtain ⟨sentChain, takenChain, received, apart, settled | unsettled⟩ :=
    sound.transmit_cases present
  · obtain ⟨queued, chain, stores, finished⟩ := settled
    cases failed : queue.failed with
    | error cause => exact ⟨_, _, sound.quiet _⟩
    | ok next =>
        have now : Sound { world with transmit := some next } sent taken :=
          .transmit sound.wellFormed received apart
            (.settled rfl (stores.failed_spec failed).1 finished)
            (.refl sound.wellFormed.fds _) rfl
        exact ⟨_, _, now.quiet _⟩
  · obtain ⟨_, _, _, _, _, _, holds⟩ := unsettled
    simp only [Tx.Queue.failed_unsettled holds.unsettled]
    exact ⟨_, _, sound.quiet _⟩

/-- The descriptors that were sent are closed. -/
theorem step_complete
    {written : Nat}
    (sound : Sound world sent taken) :
    ∃ sentNow takenNow,
      Accounted (step (.complete written) world) [] sent taken sentNow
        takenNow := by
  refine sound.withTransmit fun queue present => ?_
  obtain ⟨sentChain, takenChain, received, apart, settled | unsettled⟩ :=
    sound.transmit_cases present
  · obtain ⟨queued, chain, stores, finished⟩ := settled
    have spec := @Tx.Queue.complete_spec queue world.storage queued sent chain
      sentChain written stores sound.wellFormed
    generalize queue.complete world.storage written = outcome at spec ⊢
    obtain ⟨result, next, storage⟩ := outcome
    cases result with
    | error cause =>
        obtain ⟨_, same⟩ := spec
        cases same
        simp only [onSuccess, World.transmit_eta present]
        exact ⟨_, _, sound.quiet _⟩
    | ok closed =>
        obtain ⟨active, chainNow, fdChainNow, _, _, _, rfl, spec⟩ := spec
        have now : Sound { world with storage, transmit := some next }
            (sent.drop active.descriptorCount) taken :=
          .transmit spec.step.wellFormed received apart
            (.settled rfl spec.stores finished) spec.step.fds rfl
        exact ⟨_, _, now.closed (List.take_append_drop _ _).symm⟩
  · obtain ⟨_, _, _, _, _, _, holds⟩ := unsettled
    simp only [Tx.Queue.complete_unsettled _ holds.unsettled, onSuccess,
      World.transmit_eta present]
    exact ⟨_, _, sound.quiet _⟩

/-- The end of the queue closes all that is left on it. -/
theorem step_deinitTransmit
    (sound : Sound world sent taken) :
    ∃ sentNow takenNow,
      Accounted (step .deinitTransmit world) [] sent taken sentNow
        takenNow := by
  refine sound.withTransmit fun queue present => ?_
  obtain ⟨sentChain, takenChain, received, apart, settled | unsettled⟩ :=
    sound.transmit_cases present
  · obtain ⟨queued, chain, stores, finished⟩ := settled
    obtain ⟨storage, gone, moved⟩ := stores.deinit_spec sound.wellFormed
    simp only [gone]
    have now : Sound { world with storage, transmit := none } [] taken :=
      .transmit moved.wellFormed received apart (.gone rfl) moved.fds rfl
    exact ⟨_, _, now.closed (List.append_nil _).symm⟩
  · obtain ⟨_, _, _, _, _, _, holds⟩ := unsettled
    simp only [Tx.Queue.deinit_unsettled holds.unsettled]
    exact ⟨_, _, sound.quiet _⟩

omit [Native] in
/-- A received queue has its descriptors on entries of its own. -/
theorem Sound.received_cases
    {queue : FdQueue}
    (sound : Sound world sent taken)
    (present : world.received = some queue) :
    ∃ sentChain takenChain,
      TransmitHolds world sent sentChain ∧
      (∀ index ∈ takenChain, index ∉ sentChain) ∧
      queue.Stores world.storage.fds taken takenChain := by
  obtain ⟨_, sentChain, takenChain, transmit, received, apart⟩ := sound
  refine ⟨sentChain, takenChain, transmit, apart, ?_⟩
  cases received with
  | gone received =>
      rw [received] at present
      cases present
  | present received stores =>
      rw [received, Option.some.injEq] at present
      exact present ▸ stores

omit [Native] in
/-- The application takes received descriptors over. -/
theorem Sound.leftPopped
    {left : List Fd}
    (fds : List Fd)
    (sound : Sound after sent left)
    (split : taken = fds ++ left) :
    Accounted
      { result := .ok (), events := fds.map .popped, world := after } [] sent
      taken sent left where
  sound
  transmit := by simp
  received := by simp [split, Function.comp_def]
  failed _ impossible := nomatch impossible

omit [Native] in
/-- Received descriptors are closed. -/
theorem Sound.leftClosed
    {left : List Fd}
    (fds : List Fd)
    (sound : Sound after sent left)
    (split : taken = fds ++ left) :
    Accounted
      { result := .ok ()
        events := fds.map (.closed .received)
        world := after } [] sent taken sent left where
  sound
  transmit := by simp
  received := by simp [split, Function.comp_def]
  failed _ impossible := nomatch impossible

/-- Received descriptors are queued, or all closed. -/
theorem step_enqueueRights
    {control : List UInt8} {room : Nat}
    (sound : Sound world sent taken) :
    ∃ sentNow takenNow,
      Accounted (step (.enqueueRights control room) world)
        (failure (.enqueueRights control room)) sent taken sentNow
        takenNow := by
  refine sound.withReceived fun queue present => ?_
  obtain ⟨sentChain, takenChain, transmit, apart, stores⟩ :=
    sound.received_cases present
  have spec := @Ancillary.enqueueRights_spec _ queue world.storage.fds taken
    takenChain control room stores sound.wellFormed.fds
  generalize Ancillary.enqueueRights control queue world.storage.fds room =
    outcome at spec ⊢
  obtain ⟨result, closed, next, fds⟩ := outcome
  cases result with
  | error cause =>
      obtain ⟨rfl, same, storesNow, moved⟩ := spec
      simp only at same storesNow moved
      subst same
      have now : Sound
          { world with
            storage := { world.storage with fds }
            received := some next } sent taken :=
        .received sound.wellFormed transmit apart (.present rfl storesNow)
          moved rfl rfl rfl
      exact ⟨_, _,
        { sound := now
          transmit := by simp [onSuccess]
          received := by simp [onSuccess]
          failed := fun _ _ => ⟨by simp [onSuccess, failure], rfl, rfl⟩ }⟩
  | ok count =>
      obtain ⟨chainNow, _, _, rfl, storesNow, moved, _⟩ := spec
      simp only at storesNow moved
      have now : Sound
          { world with
            storage := { world.storage with fds }
            received := some next } sent
          (taken ++ Ancillary.rightsOf control) :=
        .received sound.wellFormed transmit apart (.present rfl storesNow)
          moved rfl rfl rfl
      exact ⟨_, _,
        { sound := now
          transmit := by simp [onSuccess]
          received := by simp [onSuccess]
          failed := fun _ impossible => nomatch impossible }⟩

/-- The first descriptor is given to the caller. -/
theorem step_pop
    (sound : Sound world sent taken) :
    ∃ sentNow takenNow,
      Accounted (step .pop world) [] sent taken sentNow takenNow := by
  refine sound.withReceived fun queue present => ?_
  obtain ⟨sentChain, takenChain, transmit, apart, stores⟩ :=
    sound.received_cases present
  cases taken with
  | nil =>
      simp only [FdQueue.pop_empty stores, onSuccess,
        World.received_eta present]
      exact ⟨_, _, sound.quiet _⟩
  | cons fd taken =>
      obtain ⟨next, fds, popped, storesNow, moved, _⟩ :=
        FdQueue.pop_spec stores sound.wellFormed.fds
      simp only [popped, onSuccess]
      have now : Sound
          { world with
            storage := { world.storage with fds }
            received := some next } sent taken :=
        .received sound.wellFormed transmit apart (.present rfl storesNow)
          moved rfl rfl rfl
      exact ⟨_, _, now.leftPopped [fd] rfl⟩

/-- Descriptors of a message that nobody takes are closed. -/
theorem step_discard
    {count : Nat}
    (sound : Sound world sent taken) :
    ∃ sentNow takenNow,
      Accounted (step (.discard count) world) [] sent taken sentNow
        takenNow := by
  refine sound.withReceived fun queue present => ?_
  obtain ⟨sentChain, takenChain, transmit, apart, stores⟩ :=
    sound.received_cases present
  have spec := @Ancillary.discard_spec queue world.storage.fds taken takenChain
    count stores sound.wellFormed.fds
  generalize queue.discard world.storage.fds count = outcome at spec ⊢
  obtain ⟨result, next, fds⟩ := outcome
  cases result with
  | error cause =>
      cases spec
      simp only [onSuccess, World.received_eta present]
      exact ⟨_, _, sound.quiet _⟩
  | ok closed =>
      obtain ⟨rfl, storesNow, moved, _⟩ := spec
      simp only at storesNow moved
      have now : Sound
          { world with
            storage := { world.storage with fds }
            received := some next } sent (taken.drop count) :=
        .received sound.wellFormed transmit apart (.present rfl storesNow)
          moved rfl rfl rfl
      exact ⟨_, _, now.leftClosed _ (List.take_append_drop _ _).symm⟩

/-- A decoder pops the descriptors of a message, or none. -/
theorem step_decode
    {signature : Codec.Signature} {validation : Codec.Validation}
    {bytes : List UInt8}
    (sound : Sound world sent taken) :
    ∃ sentNow takenNow,
      Accounted (step (.decode signature validation bytes) world) [] sent taken
        sentNow takenNow := by
  refine sound.withReceived fun queue present => ?_
  obtain ⟨sentChain, takenChain, transmit, apart, stores⟩ :=
    sound.received_cases present
  have spec := @Codec.decode_spec queue world.storage.fds taken takenChain
    signature _ validation bytes stores sound.wellFormed.fds
  generalize Codec.decode signature validation bytes queue world.storage.fds =
    outcome at spec ⊢
  obtain ⟨result, next, fds⟩ := outcome
  cases result with
  | error cause =>
      cases spec
      simp only [onSuccess, World.received_eta present]
      exact ⟨_, _, sound.quiet _⟩
  | ok payload =>
      obtain ⟨_, popped, storesNow, moved, _⟩ := spec
      simp only at popped storesNow moved
      have now : Sound
          { world with
            storage := { world.storage with fds }
            received := some next } sent
          (taken.drop (Codec.fdCount signature)) :=
        .received sound.wellFormed transmit apart (.present rfl storesNow)
          moved rfl rfl rfl
      simp only [onSuccess, popped]
      exact ⟨_, _, now.leftPopped _ (List.take_append_drop _ _).symm⟩

/-- The end of the queue closes all that is left on it. -/
theorem step_deinitReceived
    (sound : Sound world sent taken) :
    ∃ sentNow takenNow,
      Accounted (step .deinitReceived world) [] sent taken sentNow
        takenNow := by
  refine sound.withReceived fun queue present => ?_
  obtain ⟨sentChain, takenChain, transmit, apart, stores⟩ :=
    sound.received_cases present
  obtain ⟨next, fds, closed, _, moved, _⟩ :=
    FdQueue.popAndClose_spec stores sound.wellFormed.fds le_rfl
  have all : takenChain.length = taken.length := stores.holds.length_eq
  rw [List.take_length] at closed
  rw [List.drop_eq_nil_of_le all.le] at moved
  simp only [FdQueue.deinit, stores.count, closed]
  have now : Sound
      { world with
        storage := { world.storage with fds }
        received := none } sent [] :=
    .received sound.wellFormed transmit apart (.gone rfl) moved rfl rfl rfl
  exact ⟨_, _, now.leftClosed _ (List.append_nil _).symm⟩

omit [Native] in
/-- No reservation is unfinished. -/
def World.Settled (world : World) : Prop :=
  ∀ reservation, world.reservation = some reservation →
    reservation.finished = true

/-- Without an unfinished reservation, the transmit queue can be given up: it
closes what it holds. -/
theorem Sound.deinitTransmit
    {queue : Tx.Queue}
    (sound : Sound world sent taken)
    (present : world.transmit = some queue)
    (settled : world.Settled) :
    let outcome := step .deinitTransmit world
    outcome.result = .ok () ∧
      outcome.events = sent.map (.closed .transmit) ∧
      outcome.world.transmit = none := by
  obtain ⟨sentChain, takenChain, -, -, stored | unsettled⟩ :=
    sound.transmit_cases present
  · obtain ⟨queued, chain, stores, -⟩ := stored
    obtain ⟨storage, gone, -⟩ := stores.deinit_spec sound.wellFormed
    simp only [step, World.withTransmit, present, gone]
    exact ⟨trivial, trivial, trivial⟩
  · obtain ⟨reservation, _, _, _, _, current, holds⟩ := unsettled
    obtain ⟨_, _, writes⟩ := holds.writes
    have finished := settled reservation current
    rw [writes.unfinished] at finished
    cases finished

/-- The message of a reservation can always be given up. -/
theorem Sound.abort
    (sound : Sound world sent taken)
    (present : world.transmit ≠ none) :
    (step .abort world).result = .ok () ∧
      (step .abort world).world.Settled := by
  obtain ⟨queue, transmit⟩ := Option.ne_none_iff_exists'.mp present
  simp only [step, World.withReservation, World.withTransmit, transmit]
  cases reserved : world.reservation with
  | none =>
      refine ⟨rfl, fun reservation current => ?_⟩
      rw [reserved] at current
      cases current
  | some reservation =>
      obtain ⟨sentChain, takenChain, -, -, stored | unsettled⟩ :=
        sound.transmit_cases transmit
      · obtain ⟨queued, chain, -, finished⟩ := stored
        have isFinished := finished _ reserved
        simp only [Tx.Reservation.abort_finished _ _ isFinished]
        refine ⟨trivial, fun other current => ?_⟩
        cases current
        exact isFinished
      · obtain ⟨other, queued, written, chain, newChain, same, holds⟩ :=
          unsettled
        rw [reserved, Option.some.injEq] at same
        subst same
        obtain ⟨blocks, aborted, -⟩ := holds.abort sound.wellFormed
        simp only [aborted]
        refine ⟨trivial, fun other current => ?_⟩
        cases current
        rfl

/-- The receive queue can always be given up: it closes what it holds. -/
theorem Sound.deinitReceived
    {queue : FdQueue}
    (sound : Sound world sent taken)
    (present : world.received = some queue) :
    let outcome := step .deinitReceived world
    outcome.result = .ok () ∧
      outcome.events = taken.map (.closed .received) ∧
      outcome.world.received = none := by
  obtain ⟨sentChain, takenChain, -, -, stores⟩ :=
    sound.received_cases present
  obtain ⟨next, fds, closed, -⟩ :=
    FdQueue.popAndClose_spec stores sound.wellFormed.fds le_rfl
  rw [List.take_length] at closed
  simp only [step, World.withReceived, present, FdQueue.deinit, stores.count,
    closed]
  exact ⟨trivial, trivial, trivial⟩

/-- Every call accounts for every descriptor. -/
theorem step_spec
    (sound : Sound world sent taken)
    (call : Call) :
    ∃ sentNow takenNow,
      Accounted (step call world) (failure call) sent taken sentNow
        takenNow := by
  cases call with
  | enqueue bytes fds room => exact step_enqueue sound
  | reserve byteCount room => exact step_reserve sound
  | write bytes => exact step_write sound
  | commit fds room => exact step_commit sound
  | abort => exact step_abort sound
  | snapshot scratchLength controlLength =>
      refine sound.withTransmit fun queue present => ?_
      exact ⟨_, _, sound.quiet _⟩
  | begin snapshot => exact step_begin sound
  | complete written => exact step_complete sound
  | failed => exact step_failed sound
  | deinitTransmit => exact step_deinitTransmit sound
  | enqueueRights control room => exact step_enqueueRights sound
  | pop => exact step_pop sound
  | discard count => exact step_discard sound
  | decode signature validation bytes => exact step_decode sound
  | deinitReceived => exact step_deinitReceived sound

end Steps

/-! ## Runs -/

/-- New queues over new pools. -/
def World.start
    (storage : Storage)
    (byteBudget descriptorBudget receiveBudget : Nat) : World where
  storage
  transmit := some (Tx.Queue.init byteBudget descriptorBudget)
  received := some (FdQueue.init receiveBudget)

section Runs

variable [Native]

omit [Native] in
/-- New queues have nothing to account for. -/
theorem Sound.start
    {storage : Storage}
    (wellFormed : storage.WellFormed)
    (byteBudget descriptorBudget receiveBudget : Nat) :
    Sound (World.start storage byteBudget descriptorBudget receiveBudget) []
      [] :=
  ⟨wellFormed, [], [],
    .settled rfl (Tx.Queue.Stores.init _ _ _) (fun _ none => nomatch none),
    .present rfl (FdQueue.Stores.init _ _), fun _ none => nomatch none⟩

/-- A run accounts for every descriptor. -/
theorem run_spec
    {world : World} {sent taken : List Fd}
    (sound : Sound world sent taken)
    (calls : List Call) :
    ∃ sentNow takenNow,
      Sound (run calls world).2 sentNow takenNow ∧
      sent ++ handedTo .transmit (run calls world).1 =
        (leftFrom .transmit (run calls world).1).map Prod.fst ++ sentNow ∧
      taken ++ handedTo .received (run calls world).1 =
        (leftFrom .received (run calls world).1).map Prod.fst ++ takenNow := by
  induction calls generalizing world sent taken with
  | nil => exact ⟨sent, taken, sound, by simp [run], by simp [run]⟩
  | cons call calls run_ih =>
      obtain ⟨sentNext, takenNext, first⟩ := step_spec sound call
      obtain ⟨sentNow, takenNow, soundNow, transmit, received⟩ :=
        run_ih first.sound
      refine ⟨sentNow, takenNow, soundNow, ?_, ?_⟩
      · simp only [run, handedTo_append, leftFrom_append, List.map_append]
        rw [← List.append_assoc, first.transmit, List.append_assoc, transmit,
          List.append_assoc]
      · simp only [run, handedTo_append, leftFrom_append, List.map_append]
        rw [← List.append_assoc, first.received, List.append_assoc, received,
          List.append_assoc]

/-- What a failed call does to descriptors: when it was to take received ones
in, it closes each one that is read from the control records up to their end or
to a malformed one. -/
def Refuses (call : Call) (events : List Event) : Prop :=
  match call with
  | .enqueueRights control _ =>
      ∃ fds ending, Ancillary.Reading control [] fds ending ∧
        events = fds.map .refused
  | _ => events = []

/-- A failed call notes each descriptor that it refuses. -/
theorem refuses_failure (call : Call) : Refuses call (failure call) := by
  cases call with
  | enqueueRights control room =>
      have fits : control.length + ([] : List UInt8).length ≤
          control.length := Nat.le_refl _
      obtain ⟨fds, ending, reading⟩ :=
        Ancillary.Reading.exists_of control.length fits rfl
      refine ⟨fds, ending, reading, ?_⟩
      rw [failure, Ancillary.rightsOf,
        Ancillary.RightsIterator.collect_of reading]
  | _ => rfl

/-- In every run, the descriptors that a queue took over are those that left
it, in order, and those that it still holds.  A descriptor leaves the transmit
queue by being closed, and the receive queue by being popped or closed.  A
queue can be given up at any time, the transmit queue once no reservation is
unfinished, and closes what it holds; a reservation can be given up too.  A
failed call leaves both queues as they were; if it was to take received
descriptors in, it closes each of them once. -/
theorem descriptors_leave_exactly_once
    {blockSize blockCount blockRoom capacity fdRoom : Nat}
    {blocks : SharedBlocks} {fds : SharedFds}
    (blocksReady : SharedBlocks.init blockSize blockCount blockRoom =
      .ok blocks)
    (fdsReady : SharedFds.init capacity fdRoom = .ok fds)
    (byteBudget descriptorBudget receiveBudget : Nat)
    (calls : List Call) :
    let start := World.start { blocks, fds } byteBudget descriptorBudget
      receiveBudget
    let (events, world) := run calls start
    ∃ sent taken,
      world.contents .transmit = .ok sent ∧
      world.contents .received = .ok taken ∧
      handedTo .transmit events =
        (leftFrom .transmit events).map Prod.fst ++ sent ∧
      handedTo .received events =
        (leftFrom .received events).map Prod.fst ++ taken ∧
      (world.transmit = none → sent = []) ∧
      (world.received = none → taken = []) ∧
      (world.transmit ≠ none → world.Settled →
        let outcome := step .deinitTransmit world
        outcome.result = .ok () ∧
          outcome.events = sent.map (.closed .transmit) ∧
          outcome.world.transmit = none) ∧
      (world.transmit ≠ none →
        (step .abort world).result = .ok () ∧
          (step .abort world).world.Settled) ∧
      (world.received ≠ none →
        let outcome := step .deinitReceived world
        outcome.result = .ok () ∧
          outcome.events = taken.map (.closed .received) ∧
          outcome.world.received = none) ∧
      ∀ call cause, (step call world).result = .error cause →
        Refuses call (step call world).events ∧
        (step call world).world.contents .transmit = .ok sent ∧
        (step call world).world.contents .received = .ok taken := by
  intro start
  have wellFormed : Storage.WellFormed { blocks, fds } :=
    ⟨(SharedBlocks.init_spec blocksReady).1, SharedFds.init_spec fdsReady⟩
  obtain ⟨sent, taken, sound, transmit, received⟩ := run_spec
    (Sound.start wellFormed byteBudget descriptorBudget receiveBudget) calls
  obtain ⟨sentContents, takenContents⟩ := sound.contents
  refine ⟨sent, taken, sentContents, takenContents, transmit, received,
    fun gone => ?_, fun gone => ?_, fun present settled => ?_, sound.abort,
    fun present => ?_, fun call cause failed => ?_⟩
  · rw [World.contents, gone] at sentContents
    cases sentContents
    rfl
  · rw [World.contents, gone] at takenContents
    cases takenContents
    rfl
  · obtain ⟨queue, transmit⟩ := Option.ne_none_iff_exists'.mp present
    exact sound.deinitTransmit transmit settled
  · obtain ⟨queue, received⟩ := Option.ne_none_iff_exists'.mp present
    exact sound.deinitReceived received
  · obtain ⟨sentNow, takenNow, spec⟩ := step_spec sound call
    obtain ⟨events, rfl, rfl⟩ := spec.failed cause failed
    exact ⟨events ▸ refuses_failure call, spec.sound.contents⟩

end Runs

section Sample

/-- A little-endian machine. -/
local instance littleEndian : Native := ⟨.little⟩

/-- Two blocks of four bytes. -/
def sampleBlocks : SharedBlocks :=
  ((SharedBlocks.init 4 2 2).toOption).getD { blockSize := 4 }

/-- Room for four descriptors. -/
def sampleFds : SharedFds :=
  ((SharedFds.init 4 4).toOption).getD {}

/-- A queue is filled, sent in part and freed. -/
def sampleCalls : List Call :=
  [ .enqueue [1, 2, 3, 4, 5] [7, 8] { blocks := 0, fds := 0 },
    .begin
      { first := { lease := { index := 1, generation := 1, key := () }, start := 0, stop := 4 }
        second := none
        control := []
        descriptorCount := 2 },
    .complete 3,
    .enqueueRights
      [24, 0, 0, 0, 0, 0, 0, 0, 1, 0, 0, 0, 1, 0, 0, 0,
        9, 0, 0, 0, 10, 0, 0, 0] 0,
    .pop ]

theorem descriptors_leave_exactly_once_sample :
    let (events, world) := run sampleCalls (World.start
      { blocks := sampleBlocks, fds := sampleFds } 16 4 4)
    handedTo .transmit events = (leftFrom .transmit events).map Prod.fst ∧
      handedTo .received events =
        (leftFrom .received events).map Prod.fst ++ [10] ∧
      (step .deinitReceived world).events = [.closed .received 10] ∧
      (step .deinitTransmit world).result = .ok () := by
  obtain ⟨sent, taken, sentContents, takenContents, transmit, received, _, _,
    ended, _, closed, _⟩ :=
    @descriptors_leave_exactly_once _ 4 2 2 4 4 sampleBlocks sampleFds rfl rfl
      16 4 4 sampleCalls
  have sentNow : sent = [] := Except.ok.inj (sentContents.symm.trans rfl)
  have takenNow : taken = [10] := Except.ok.inj (takenContents.symm.trans rfl)
  rw [sentNow, List.append_nil] at transmit
  rw [takenNow] at received closed
  refine ⟨transmit, received, (closed ?_).2.1, (ended ?_ ?_).1⟩
  · exact fun gone => nomatch gone
  · exact fun gone => nomatch gone
  · exact fun reservation current => nomatch current

end Sample

end Ownership
end Wayring
