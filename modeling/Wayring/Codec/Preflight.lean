import Wayring.Codec.Encoding
import Wayring.Transport.Messages
import Wayring.Transport.Words

/-!
# Preflighted messages

A message that a queue has blocks for is encoded without allocating any, so
what was ensured for a message and more is left for the rest.
-/

namespace Wayring

/-! ## Blocks that writes leave available -/

namespace SharedBlocks

theorem copyInto_available
    (blocks : SharedBlocks)
    (lease : BlockLease) (start : Nat) (new : List UInt8) :
    (blocks.copyInto lease start new).available = blocks.available := by
  unfold copyInto LeasePool.write
  cases found : blocks.pool.nodes[lease.index]? with
  | none => rfl
  | some node => simp [available, LeasePool.available]

theorem link_available
    (blocks : SharedBlocks)
    (source target : BlockLease) :
    (blocks.link source target).2.available = blocks.available := by
  unfold link LeasePool.link
  cases blocks.pool.leased (fun _ => ()) source with
  | none => rfl
  | some node =>
      cases blocks.pool.leased (fun _ => ()) target with
      | none => rfl
      | some _ =>
          simp only
          split_ifs <;> simp [available, LeasePool.available]

end SharedBlocks

namespace Tx.Reservation

/-- Writing takes no block that was not reserved. -/
theorem writeNew_available
    (fuel : Nat) (remaining : List UInt8) (reservation : Reservation)
    (blocks : SharedBlocks) :
    (writeNew fuel remaining reservation blocks).2.2.available =
      blocks.available := by
  induction fuel generalizing remaining reservation blocks with
  | zero => cases remaining <;> rfl
  | succ fuel write_ih =>
      cases remaining with
      | nil => rfl
      | cons byte rest =>
          unfold writeNew
          cases reservation.currentNew with
          | none => rfl
          | some block =>
              simp only
              split_ifs with full
              · cases SharedBlocks.nextLease _ block with
                | error cause => exact SharedBlocks.copyInto_available _ _ _ _
                | ok next =>
                    exact (write_ih _ _ _).trans
                      (SharedBlocks.copyInto_available _ _ _ _)
              · exact (write_ih _ _ _).trans
                  (SharedBlocks.copyInto_available _ _ _ _)

/-- Writing takes no block that was not reserved. -/
theorem write_available
    (reservation : Reservation) (blocks : SharedBlocks) (bytes : List UInt8) :
    (reservation.write blocks bytes).2.2.available = blocks.available := by
  unfold write
  split_ifs with refused
  · rfl
  · cases reservation.originalTail with
    | none => exact writeNew_available _ _ _ _
    | some tail =>
        exact (writeNew_available _ _ _ _).trans
          (SharedBlocks.copyInto_available _ _ _ _)

theorem publish_available
    (reservation : Reservation) (queue : Queue) (blocks : SharedBlocks) :
    (reservation.publish queue blocks).2.2.available = blocks.available := by
  unfold publish
  cases reservation.newHead with
  | none => rfl
  | some newHead =>
      cases reservation.originalTail with
      | none => rfl
      | some tail =>
          have same := blocks.link_available tail newHead
          simp only
          generalize blocks.link tail newHead = outcome at same ⊢
          obtain ⟨result, after⟩ := outcome
          cases result <;> exact same

theorem commit_available
    (reservation : Reservation) (queue : Queue) (storage : Storage)
    (descriptors : List Fd) (room : Nat) :
    (reservation.commit queue storage descriptors room).2.2.2.blocks.available =
      storage.blocks.available := by
  unfold commit
  by_cases refused : reservation.finished = true ∨
      reservation.written ≠ reservation.byteCount
  · rw [if_pos refused]
  rw [if_neg refused]
  generalize (if descriptors.length ≠ 0 then
    queue.descriptors.ensureCapacity storage.fds descriptors.length room
    else (.ok (), storage.fds)) = ensured
  obtain ⟨result, fds⟩ := ensured
  cases result with
  | error cause => rfl
  | ok _ =>
      have same := reservation.publish_available queue storage.blocks
      simp only
      generalize reservation.publish queue storage.blocks = outcome at same ⊢
      obtain ⟨result, next, after⟩ := outcome
      cases result <;> exact same

end Tx.Reservation

namespace Codec

open Tx.Queue (Stores Reserving Enqueued)

theorem writeAll_available
    (pieces : List (List UInt8))
    (reservation : Tx.Reservation)
    (blocks : SharedBlocks) :
    (writeAll pieces reservation blocks).2.2.available = blocks.available := by
  induction pieces generalizing reservation blocks with
  | nil => rfl
  | cons piece pieces write_ih =>
      have same := reservation.write_available blocks piece
      unfold writeAll
      generalize reservation.write blocks piece = outcome at same ⊢
      obtain ⟨result, next, after⟩ := outcome
      cases result with
      | error cause => exact same
      | ok _ => exact (write_ih _ _).trans same

variable [Native]

theorem fill_available
    (reservation : Tx.Reservation) (queue : Tx.Queue) (storage : Storage)
    (header : Wire.Header) (pieces : List (List UInt8)) (fds : List Fd)
    (room : Nat) :
    (fill reservation queue storage header pieces fds
      room).2.2.2.blocks.available = storage.blocks.available := by
  unfold fill
  cases header.encode with
  | error cause => rfl
  | ok bytes =>
      have same := writeAll_available (bytes :: pieces) reservation
        storage.blocks
      simp only
      generalize writeAll (bytes :: pieces) reservation storage.blocks =
        outcome at same ⊢
      obtain ⟨result, next, after⟩ := outcome
      cases result with
      | error cause => exact same
      | ok _ => exact (next.commit_available _ _ _ _).trans same

end Codec

/-! ## Sizes -/

namespace Codec

theorem addSize_eq
    {size more total : Nat}
    (added : addSize size more = .ok total) : total = size + more := by
  unfold addSize at added
  split_ifs at added
  cases added
  rfl

theorem variableSize_eq
    {length terminator total : Nat}
    (sized : variableSize length terminator = .ok total) :
    total = 4 + Wire.Arguments.padded (length + terminator) := by
  unfold variableSize at sized
  cases wire : addSize length terminator with
  | error cause =>
      rw [wire] at sized
      cases sized
  | ok wireLength =>
      rw [wire] at sized
      simp only [bind, Except.bind] at sized
      split_ifs at sized
      cases rounded : addSize wireLength 3 with
      | error cause =>
          rw [rounded] at sized
          cases sized
      | ok _ =>
          rw [rounded] at sized
          rw [addSize_eq sized, addSize_eq wire]

theorem stringSize_eq
    {size total : Nat} {bytes : List UInt8}
    (sized : stringSize size bytes = .ok total) :
    total = size + (4 + Wire.Arguments.padded (bytes.length + 1)) := by
  unfold stringSize at sized
  split_ifs at sized
  cases more : variableSize bytes.length 1 with
  | error cause =>
      rw [more] at sized
      cases sized
  | ok _ =>
      rw [more] at sized
      rw [addSize_eq sized, variableSize_eq more]

theorem arraySize_eq
    {size total : Nat} {bytes : List UInt8}
    (sized : arraySize size bytes = .ok total) :
    total = size + (4 + Wire.Arguments.padded bytes.length) := by
  unfold arraySize at sized
  cases more : variableSize bytes.length 0 with
  | error cause =>
      rw [more] at sized
      cases sized
  | ok _ =>
      rw [more] at sized
      rw [addSize_eq sized, variableSize_eq more]
      rfl

theorem idSize_eq
    {size total : Nat} {id : UInt32}
    (sized : idSize size id = .ok total) : total = size + 4 := by
  unfold idSize at sized
  split_ifs at sized
  cases sized
  rfl

variable [Native]

theorem length_word (value : Nat) : (Wire.writeU32 value).length = 4 :=
  Wire.length_writeWord 4 value

theorem length_writeU32
    (value : UInt32) : (writeU32 value).flatten.length = 4 := by
  rw [writeU32, List.flatten_singleton, length_word]

theorem length_writeString
    (bytes : List UInt8) :
    (writeString (some bytes)).flatten.length =
      4 + Wire.Arguments.padded (bytes.length + 1) := by
  simp only [writeString, List.flatten_append, List.length_append,
    length_writeU32, Wire.Arguments.padded]
  simp only [List.flatten_cons, List.flatten_nil, List.length_append,
    List.length_replicate, List.length_nil]
  omega

theorem length_writeArray
    (value : Option (List UInt8)) :
    (writeArray value).flatten.length =
      4 + Wire.Arguments.padded (value.getD []).length := by
  simp only [writeArray, List.flatten_append, List.length_append,
    length_writeU32, Wire.Arguments.padded]
  simp only [List.flatten_cons, List.flatten_nil, List.length_append,
    List.length_replicate, List.length_nil]
  omega

theorem dynamicSize_eq
    {size total : Nat} {value : DynamicNewId}
    (sized : fieldSize .dynamicNewId size value = .ok total) :
    total = size + (encodeField .dynamicNewId value).flatten.length := by
  unfold fieldSize at sized
  simp only at sized
  split_ifs at sized
  cases named : stringSize size value.interface with
  | error cause =>
      rw [named] at sized
      cases sized
  | ok sizeNow =>
      rw [named] at sized
      cases sized
      change _ = size + (writeString (some value.interface) ++
        writeU32 value.version ++ writeU32 value.id).flatten.length
      rw [stringSize_eq named, List.flatten_append, List.flatten_append,
        List.length_append, List.length_append, length_writeString,
        length_writeU32, length_writeU32]
      omega

/-- The size of an argument is the length of what is written. -/
theorem fieldSize_eq
    {type : ArgumentType} {size total : Nat} {value : type.Field}
    (sized : fieldSize type size value = .ok total) :
    total = size + (encodeField type value).flatten.length := by
  have word : ∀ value : UInt32, size + 4 =
      size + (writeU32 value).flatten.length := fun value => by
    rw [length_writeU32]
  have text : ∀ bytes : List UInt8,
      size + (4 + Wire.Arguments.padded (bytes.length + 1)) =
        size + (writeString (some bytes)).flatten.length := fun bytes => by
    rw [length_writeString]
  have items : ∀ value : Option (List UInt8),
      size + (4 + Wire.Arguments.padded (value.getD []).length) =
        size + (writeArray value).flatten.length := fun value => by
    rw [length_writeArray]
  cases type with
  | int | uint | fixed =>
      cases sized
      exact word _
  | enumeration signed =>
      cases sized
      cases signed <;> exact word _
  | string allowNull =>
      cases allowNull with
      | false => exact (stringSize_eq sized).trans (text _)
      | true =>
          cases value with
          | none =>
              cases sized
              exact word _
          | some bytes => exact (stringSize_eq sized).trans (text bytes)
  | object interface allowNull =>
      cases allowNull with
      | false => exact (idSize_eq sized).trans (word _)
      | true =>
          cases sized
          exact word _
  | newId interface => exact (idSize_eq sized).trans (word _)
  | dynamicNewId => exact dynamicSize_eq sized
  | array allowNull =>
      cases allowNull with
      | false => exact (arraySize_eq sized).trans (items (some value))
      | true =>
          cases value with
          | none =>
              cases sized
              exact items none
          | some bytes => exact (arraySize_eq sized).trans (items (some bytes))
  | fd =>
      cases sized
      rfl

/-- The size of arguments is the length of what is written for them. -/
theorem payloadSize_eq
    {signature : Signature} {size total : Nat} {payload : Payload signature}
    (sized : payloadSize signature size payload = .ok total) :
    total = size + (encodeFields signature payload).flatten.length := by
  induction signature generalizing size with
  | nil =>
      cases sized
      rfl
  | cons type rest payload_ih =>
      unfold payloadSize at sized
      cases field : fieldSize type size payload.1 with
      | error cause =>
          rw [field] at sized
          cases sized
      | ok sizeNow =>
          rw [field] at sized
          rw [payload_ih sized, fieldSize_eq field, encodeFields,
            List.flatten_append, List.length_append, Nat.add_assoc]

/-- A message is as long as its size says. -/
theorem messageSize_eq
    {signature : Signature} {size : Nat} {payload : Payload signature}
    (sized : messageSize signature payload = .ok size) :
    size = Wire.headerLen + (encodeFields signature payload).flatten.length ∧
      size ≤ Wire.maxMessageLen := by
  unfold messageSize at sized
  cases inside : payloadSize signature Wire.headerLen payload with
  | error cause =>
      rw [inside] at sized
      cases sized
  | ok total =>
      rw [inside] at sized
      simp only [bind, Except.bind] at sized
      split_ifs at sized with large
      cases sized
      exact ⟨payloadSize_eq inside, Nat.not_lt.mp large⟩

end Codec

/-! ## Capacity for bytes -/

namespace Tx.Queue

variable {queue next : Queue} {storage after : Storage}
  {bytes new : List UInt8} {fds added : List Fd}
  {chain more fdChain fdChainNow : List Nat}

/-- There is capacity for so many bytes. -/
structure Affords
    (queue : Queue)
    (storage : Storage)
    (bytes : List UInt8)
    (byteCount : Nat) : Prop where
  budget : bytes.length + byteCount ≤ queue.byteBudget
  enough : queue.blocksNeeded storage.blocks.blockSize byteCount ≤
    storage.blocks.available

/-- What affords a message affords a shorter one. -/
theorem Affords.mono
    {byteCount byteCountNow : Nat}
    (affords : queue.Affords storage bytes byteCount)
    (wellFormed : storage.WellFormed)
    (fewer : byteCountNow ≤ byteCount) :
    queue.Affords storage bytes byteCountNow where
  budget := by
    have budget := affords.budget
    omega
  enough := by
    have positive := wellFormed.blocks.positive
    have enough := (blocksNeeded_le_iff positive).mp affords.enough
    exact (blocksNeeded_le_iff positive).mpr (by omega)

/-- A queued message uses up its own part of the capacity. -/
theorem Affords.spend
    {byteCount : Nat}
    (affords : queue.Affords storage bytes (new.length + byteCount))
    (stores : queue.Stores storage bytes fds chain fdChain)
    (wellFormed : storage.WellFormed)
    (enqueued : Enqueued queue next storage after bytes new fds added chain more
      fdChain fdChainNow)
    (available : after.blocks.available + more.length =
      storage.blocks.available) :
    next.Affords after (bytes ++ new) byteCount where
  budget := by
    have budget := affords.budget
    rw [enqueued.byteBudget, List.length_append]
    omega
  enough := by
    have positive := wellFormed.blocks.positive
    have enough := (blocksNeeded_le_iff positive).mp affords.enough
    have blockSize := enqueued.step.blocks.blockSize
    have space := stores.tailSpace_grown wellFormed enqueued.stores
      enqueued.step.wellFormed blockSize enqueued.headOffset
    rw [blockSize, blocksNeeded_le_iff positive]
    rw [← available, Nat.add_mul] at enough
    omega

end Tx.Queue

namespace Codec

open Tx.Queue (Stores Reserving Enqueued Affords)

variable [Native] {queue : Tx.Queue} {storage : Storage} {bytes : List UInt8}
  {fds : List Fd} {chain fdChain : List Nat} {signature : Signature}
  {opcode size : Nat} {objectId : UInt32} {payload : Payload signature}
  {room : Tx.Room}

/-- No message is empty. -/
theorem messageSize_pos
    (sized : messageSize signature payload = .ok size) : 0 < size := by
  have whole := (messageSize_eq sized).1
  have header : 0 < Wire.headerLen := by decide
  omega

/-- A reservation for a message that there is capacity for. -/
theorem encode_reserves
    (stores : Stores queue storage bytes fds chain fdChain)
    (wellFormed : storage.WellFormed)
    (sized : messageSize signature payload = .ok size)
    (affords : queue.Affords storage bytes size) :
    ∃ reservation opened blocks newChain,
      queue.reserve storage.blocks size room.blocks =
        (.ok reservation, opened, blocks) ∧
      opened = { queue with reservationActive := true } ∧
      reservation.byteCount = size ∧
      Reserving opened { storage with blocks } reservation bytes [] fds chain
        newChain fdChain ∧
      Storage.Step storage { storage with blocks } chain (chain ++ newChain)
        fdChain fdChain ∧
      blocks.available + newChain.length = storage.blocks.available := by
  obtain ⟨contents, text⟩ := stores.text
  have counted := stores.count
  have budget := affords.budget
  obtain ⟨reservation, opened, blocks, newChain, reserved, spec, available⟩ :=
    @Tx.Queue.reserve_enough queue storage.blocks chain contents bytes size
      room.blocks text wellFormed.blocks stores.settled (messageSize_pos sized)
      (by omega) affords.enough
  exact ⟨reservation, opened, blocks, newChain, reserved, spec.queue_eq,
    spec.byteCount_eq, stores.reserving spec,
    ⟨spec.step, .refl wellFormed.fds _⟩, available⟩

/-- A message that there is capacity for leaves the rest of it, if there is room
for its descriptors. -/
theorem encode_affords
    {more : Nat}
    (stores : Stores queue storage bytes fds chain fdChain)
    (wellFormed : storage.WellFormed)
    (sized : messageSize signature payload = .ok size)
    (affords : queue.Affords storage bytes (size + more))
    {next : Tx.Queue} {after : Storage}
    (encoded : encode signature opcode queue storage objectId payload room =
      (.ok (), next, after)) :
    ∃ headerBytes chainNow fdChainNow,
      Wire.Header.encode { objectId := objectId.toNat, opcode, size } =
        .ok headerBytes ∧
      (frame signature headerBytes payload).length = size ∧
      Enqueued queue next storage after bytes
        (frame signature headerBytes payload) fds
        (Payload.fds signature payload) chain chainNow fdChain fdChainNow ∧
      next.Affords after (bytes ++ frame signature headerBytes payload)
        more := by
  obtain ⟨reservation, opened, blocks, newChain, reserved, rfl, byteCount,
    reserving, step, available⟩ := @encode_reserves _ queue storage bytes fds
      chain fdChain signature size payload room stores wellFormed sized
      (affords.mono wellFormed (Nat.le_add_right _ _))
  have null : objectId ≠ 0 := by
    rintro rfl
    simp [encode] at encoded
  have filled := @fill_spec _ _ _ _ _ _ _ _ _
    { objectId := objectId.toNat, opcode, size }
    (encodeFields signature payload) (Payload.fds signature payload)
    room.fds reserving step.wellFormed
  have same := fill_available reservation { queue with reservationActive := true }
    { storage with blocks } { objectId := objectId.toNat, opcode, size }
    (encodeFields signature payload) (Payload.fds signature payload) room.fds
  simp only [encode, if_neg null, sized, reserved] at encoded
  generalize fill reservation { queue with reservationActive := true }
    { storage with blocks } { objectId := objectId.toNat, opcode, size }
    (encodeFields signature payload) (Payload.fds signature payload)
    room.fds = outcome at filled same encoded
  obtain ⟨result, last, queueNow, storageNow⟩ := outcome
  cases result with
  | error cause =>
      simp only [Prod.mk.injEq, reduceCtorEq, false_and] at encoded
  | ok _ =>
      simp only [Prod.mk.injEq, true_and] at encoded
      obtain ⟨rfl, rfl⟩ := encoded
      obtain ⟨headerBytes, fdChainNow, headed, length, storesNow, later,
        byteBudget, descriptorBudget, active, headOffset⟩ := filled
      have whole : (frame signature headerBytes payload).length = size :=
        length.trans byteCount
      have enqueued : Enqueued queue queueNow storage storageNow bytes
          (frame signature headerBytes payload) fds
          (Payload.fds signature payload) chain newChain fdChain fdChainNow :=
        { stores := storesNow
          step := step.trans later
          byteBudget, descriptorBudget, active, headOffset }
      rw [← whole] at affords
      refine ⟨headerBytes, newChain, fdChainNow, headed, whole, enqueued,
        affords.spend stores wellFormed enqueued ?_⟩
      simp only at same
      rw [same]
      exact available

/-- A message without descriptors that there is capacity for is encoded. -/
theorem encode_granted
    (stores : Stores queue storage bytes fds chain fdChain)
    (wellFormed : storage.WellFormed)
    (sized : messageSize signature payload = .ok size)
    (affords : queue.Affords storage bytes size)
    (null : objectId ≠ 0)
    (valid : size % 4 = 0)
    (plain : Payload.fds signature payload = []) :
    ∃ next after,
      encode signature opcode queue storage objectId payload room =
        (.ok (), next, after) := by
  obtain ⟨reservation, opened, blocks, newChain, reserved, rfl, byteCount,
    reserving, step, available⟩ := @encode_reserves _ queue storage bytes fds
      chain fdChain signature size payload room stores wellFormed sized affords
  have whole := (messageSize_eq sized).1
  have nonzero : objectId.toNat ≠ 0 := by
    intro zero
    exact null (UInt32.toNat_inj.mp zero)
  have long : ¬ size < Wire.headerLen := by omega
  obtain ⟨headerBytes, headed, headerLength⟩ :
      ∃ headerBytes, Wire.Header.encode
          { objectId := objectId.toNat, opcode, size } = .ok headerBytes ∧
        headerBytes.length = Wire.headerLen := by
    refine ⟨_, by rw [Wire.Header.encode, if_neg nonzero, if_neg long,
      if_neg (not_not.mpr valid)], ?_⟩
    rw [List.length_append, length_word, length_word]
    rfl
  obtain ⟨writeStep, sameCount, written, reservingNow, result⟩ := writeAll_spec
    reserving step.wellFormed (headerBytes :: encodeFields signature payload)
  generalize wrote : writeAll (headerBytes :: encodeFields signature payload)
    reservation blocks = outcome at writeStep sameCount reservingNow result
  obtain ⟨answer, last, blocksNow⟩ := outcome
  cases answer with
  | error cause =>
      obtain ⟨_, exceeds⟩ := result
      rw [List.flatten_cons, List.length_append, List.length_nil] at exceeds
      omega
  | ok _ =>
      simp only at result sameCount reservingNow writeStep
      obtain ⟨reservationLast, next, after, fdChainNow, committed, _⟩ :=
        @Tx.Queue.Reserving.commit_granted _ _ _ _ _ _ _ _ _ [] room.fds _
          reservingNow writeStep.wellFormed (by
            rw [result, List.nil_append, List.flatten_cons, List.length_append]
            omega) rfl
      refine ⟨next, after, ?_⟩
      simp only [encode, if_neg null, sized, reserved, fill, headed, wrote,
        plain, committed]

end Codec
end Wayring
