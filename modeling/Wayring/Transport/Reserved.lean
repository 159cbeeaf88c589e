import Wayring.Transport.BlockStream

/-!
# Reserved blocks

A reservation owns a private chain of blocks next to its queue's chain.  What
has been written so far lies behind the queue's last byte, as if the private
chain were linked already.
-/

namespace Wayring
namespace Tx

open LeasePool (Cell Leases Moves)
open SharedBlocks (Step)

namespace Queue

variable {queue : Queue} {blocks : SharedBlocks} {chain newChain : List Nat}
  {contents newContents : List (List UInt8)} {bytes written : List UInt8}

/-! ## Private chains -/

/-- A chain of blocks is given back. -/
theorem releasePrivateChain_spec
    {fuel : Nat} {head tail : Option BlockLease}
    (holds : LeasePool.Holds (fun _ => ()) blocks.pool.cell head tail chain contents)
    (wellFormed : blocks.WellFormed)
    (fuelled : chain.length ≤ fuel) :
    ∃ after,
      releasePrivateChain fuel head blocks = (.ok (), after) ∧
      Step blocks after chain [] ∧
      after.available = blocks.available + chain.length := by
  induction fuel generalizing blocks head tail chain contents with
  | zero =>
      have none : chain = [] := List.length_eq_zero_iff.mp (by omega)
      subst none
      rw [holds.head_eq_none.mpr rfl]
      exact ⟨blocks, rfl, Step.refl wellFormed [], rfl⟩
  | succ fuel release_ih =>
      cases chain with
      | nil =>
          rw [holds.head_eq_none.mpr rfl]
          exact ⟨blocks, rfl, Step.refl wellFormed [], rfl⟩
      | cons index rest =>
          cases contents with
          | nil => simpa using holds.length_eq
          | cons content later =>
              cases head with
              | none => cases holds.head_eq_none.mp rfl
              | some head =>
                  obtain ⟨rfl, cell, next, found, nextEq, nextIndex, _,
                    nextLeased⟩ := holds.nextLease
                  have nextEq : blocks.nextLease head = .ok next := by
                    rw [SharedBlocks.nextLease, nextEq]
                    rfl
                  obtain ⟨released, release, wellFormedNow, blockSize, cells,
                    available⟩ := SharedBlocks.release_spec wellFormed
                    (holds.headLeased head rfl)
                  have popped := holds.pop found nextIndex nextLeased
                  rw [← cells] at popped
                  obtain ⟨after, rested, step, availableNow⟩ :=
                    release_ih popped wellFormedNow (by simpa using fuelled)
                  have first : Step blocks released (head.index :: rest)
                      rest := Step.pop wellFormedNow blockSize cells
                    (List.nodup_cons.mp holds.distinct).1
                  refine ⟨after, ?_, first.trans step, ?_⟩
                  · simp only [releasePrivateChain, nextEq, release, rested]
                  · rw [availableNow, available, List.length_cons]
                    omega

/-- Blocks that are free are acquired and linked. -/
theorem acquireChain_spec
    {count : Nat} {head tail : Option BlockLease}
    (holds : LeasePool.Holds (fun _ => ()) blocks.pool.cell head tail chain contents)
    (wellFormed : blocks.WellFormed)
    (enough : count ≤ blocks.available) :
    ∃ headNow tailNow more contentsNow after,
      acquireChain count head tail blocks =
        (.ok (), headNow, tailNow, after) ∧
      LeasePool.Holds (fun _ => ()) after.pool.cell headNow tailNow (chain ++ more)
        contentsNow ∧
      Step blocks after chain (chain ++ more) ∧
      more.length = count ∧
      after.available + count = blocks.available := by
  induction count generalizing blocks head tail chain contents with
  | zero =>
      exact ⟨head, tail, [], contents, blocks, rfl, by simpa using holds,
        by simpa using Step.refl wellFormed chain, rfl, rfl⟩
  | succ count acquire_ih =>
      obtain ⟨block, middle, content, acquired, wellFormedMiddle, blockSize,
        fresh, _, cells, available⟩ :=
        SharedBlocks.acquire_spec 0 wellFormed (by omega)
      have here : middle.pool.cell block.index =
          some { content, next := none, generation := block.generation } := by
        rw [cells, Function.update_self]
      have single : LeasePool.Holds (fun _ => ()) middle.pool.cell (some block)
          (some block) [block.index] [content] := LeasePool.Holds.single here rfl
      have outside : block.index ∉ chain := by
        intro member
        obtain ⟨cell, found, _⟩ := holds.used member
        rw [fresh] at found
        cases found
      have kept : LeasePool.Holds (fun _ => ()) middle.pool.cell head tail chain
          contents := holds.congr fun index member => by
        rw [cells,
          Function.update_of_ne (ne_of_mem_of_not_mem member outside)]
      have taken : Step blocks middle chain (chain ++ [block.index]) := by
        refine ⟨wellFormedMiddle, blockSize, ?_⟩
        rw [cells]
        exact Moves.acquire _ fresh (by simp)
      cases tail with
      | none =>
          have noChain : chain = [] := holds.tail_eq_none.mp rfl
          subst noChain
          obtain ⟨headNow, tailNow, more, contentsNow, after, rested, holdsNow,
            step, length, availableNow⟩ :=
            acquire_ih single wellFormedMiddle (by omega)
          refine ⟨headNow, tailNow, block.index :: more, contentsNow, after, ?_,
            holdsNow, taken.trans step, by simp [length], by omega⟩
          simp only [acquireChain, acquired, rested]
      | some last =>
          obtain ⟨cell, found, unlinked⟩ := kept.last rfl
          obtain ⟨linked, link, wellFormedLinked, blockSizeLinked, linkedCells,
            same⟩ := SharedBlocks.link_spec wellFormedMiddle
            (kept.tailLeased last rfl) (single.headLeased block rfl) found
            unlinked
          have joined := kept.concat single (by simpa using outside) found
          rw [← linkedCells] at joined
          have relinked : Step middle linked (chain ++ [block.index])
              (chain ++ [block.index]) := by
            refine ⟨wellFormedLinked, blockSizeLinked, ?_⟩
            rw [linkedCells]
            obtain ⟨front, chainEq⟩ := kept.tail_concat rfl
            exact Moves.write _ (by simp [chainEq])
          obtain ⟨headNow, tailNow, more, contentsNow, after, rested, holdsNow,
            step, length, availableNow⟩ :=
            acquire_ih joined wellFormedLinked (by omega)
          rw [List.append_assoc] at holdsNow step
          refine ⟨headNow, tailNow, block.index :: more, contentsNow, after, ?_,
            holdsNow, taken.trans (relinked.trans step), by simp [length],
            by omega⟩
          simp only [acquireChain, acquired, link, rested]

/-- The free part of the last block lies behind the bytes. -/
theorem Text.stop_add_tailSpace
    (text : Text queue blocks chain contents bytes) :
    queue.stop blocks.blockSize chain.length +
      queue.tailSpace blocks.blockSize = chain.length * blocks.blockSize := by
  have within := text.tailWithin
  cases last : queue.tail with
  | none =>
      have none : chain = [] := text.holds.tail_eq_none.mp last
      subst none
      simp [stop, tailSpace, last, (text.empty rfl).2]
  | some tail =>
      have holds := text.holds
      rw [last] at holds
      obtain ⟨front, rfl⟩ := holds.tail_concat rfl
      simp only [stop, tailSpace, last, reduceCtorEq, if_false,
        List.length_append, List.length_singleton, Nat.add_sub_cancel,
        Nat.succ_mul]
      omega

/-- What is behind the bytes does not matter. -/
theorem Text.rewrite
    {after : SharedBlocks} {contentsNow : List (List UInt8)} {start : Nat}
    {new : List UInt8}
    (text : Text queue blocks chain contents bytes)
    (blockSize : after.blockSize = blocks.blockSize)
    (wellFormed : blocks.WellFormed)
    (holds : LeasePool.Holds (fun _ => ()) after.pool.cell queue.head queue.tail chain
      contentsNow)
    (flatten : contentsNow.flatten =
      Segments.overwrite contents.flatten start new)
    (behind : queue.stop blocks.blockSize chain.length ≤ start)
    (inside : start ≤ chain.length * blocks.blockSize) :
    Text queue after chain contentsNow bytes where
  holds := holds
  empty := text.empty
  headWithin := by
    rw [blockSize]
    exact text.headWithin
  tailWithin := by
    rw [blockSize]
    exact text.tailWithin
  ordered := by
    rw [blockSize]
    exact text.ordered
  bytes_eq := by
    rw [blockSize, flatten, Segments.take_overwrite_of_le behind
      (by rw [text.length_flatten wellFormed]; exact inside)]
    exact text.bytes_eq

end Queue

namespace Reservation

open Queue (Text)

/-- A reservation has room for a message, and some of it has been written. -/
structure Writes
    (reservation : Reservation)
    (queue : Queue)
    (blocks : SharedBlocks)
    (chain newChain : List Nat)
    (contents newContents : List (List UInt8))
    (bytes written : List UInt8) : Prop where
  text : Text queue blocks chain contents bytes
  reserved : LeasePool.Holds (fun _ => ()) blocks.pool.cell reservation.newHead
    reservation.newTail newChain newContents
  apart : ∀ index ∈ chain, index ∉ newChain
  originalTail : reservation.originalTail = queue.tail
  originalTailUsed : reservation.originalTailUsed = queue.tailUsed
  tailSpace : reservation.tailSpace = queue.tailSpace blocks.blockSize
  nonempty : 0 < reservation.byteCount
  blockCount : newChain.length =
    queue.blocksNeeded blocks.blockSize reservation.byteCount
  finalTailUsed : 0 < reservation.finalTailUsed ∧
    reservation.finalTailUsed ≤ blocks.blockSize ∧
    (chain.length + newChain.length - 1) * blocks.blockSize +
      reservation.finalTailUsed =
      queue.stop blocks.blockSize chain.length + reservation.byteCount
  unfinished : reservation.finished = false
  count : reservation.written = written.length
  within : written.length ≤ reservation.byteCount
  existingWritten : reservation.existingWritten =
    min written.length reservation.tailSpace
  cursor : ∃ position,
    reservation.currentNew.map LeasePool.Lease.index = newChain[position]? ∧
    position * blocks.blockSize + reservation.currentNewOffset =
      written.length - reservation.tailSpace ∧
    reservation.currentNewOffset < blocks.blockSize
  currentLeased : ∀ lease, reservation.currentNew = some lease →
    Leases (fun _ => ()) blocks.pool.cell lease
  written_eq : ((contents ++ newContents).flatten.take
      (queue.stop blocks.blockSize chain.length + written.length)).drop
    (queue.stop blocks.blockSize chain.length) = written

variable {reservation : Reservation} {queue : Queue} {blocks : SharedBlocks}
  {chain newChain : List Nat} {contents newContents : List (List UInt8)}
  {bytes written : List UInt8}

/-- Steps of others leave a message that is being written alone. -/
theorem Writes.frame
    {after : SharedBlocks} {owned ownedNow : List Nat}
    (writes : Writes reservation queue blocks chain newChain contents
      newContents bytes written)
    (step : Step blocks after owned ownedNow)
    (apart : ∀ index ∈ chain ++ newChain, index ∉ owned) :
    Writes reservation queue after chain newChain contents newContents bytes
      written := by
  have inChain : ∀ index ∈ chain, index ∉ owned :=
    fun index member => apart index (List.mem_append_left _ member)
  have inNew : ∀ index ∈ newChain, index ∉ owned :=
    fun index member => apart index (List.mem_append_right _ member)
  obtain ⟨text, reserved, disjoint, originalTail, originalTailUsed, tailSpace,
    nonempty, blockCount, finalTailUsed, unfinished, count, within,
    existingWritten, cursor, currentLeased, written_eq⟩ := writes
  rw [← step.blockSize] at tailSpace blockCount finalTailUsed cursor written_eq
  refine ⟨text.frame step inChain, reserved.frame step.moves inNew, disjoint,
    originalTail, originalTailUsed, tailSpace, nonempty, blockCount,
    finalTailUsed, unfinished, count, within, existingWritten, cursor, ?_,
    written_eq⟩
  intro lease current
  obtain ⟨cell, found, leased⟩ := currentLeased lease current
  obtain ⟨position, isCurrent, _, _⟩ := cursor
  rw [current, Option.map_some] at isCurrent
  have member := List.mem_of_getElem? isCurrent.symm
  refine ⟨cell, ?_, leased⟩
  rw [step.moves.frame lease.index (inNew _ member) (by simp [found])]
  exact found

/-- Where the reserved blocks end. -/
theorem Writes.capacity
    (writes : Writes reservation queue blocks chain newChain contents
      newContents bytes written) :
    queue.stop blocks.blockSize chain.length + reservation.byteCount ≤
      (chain.length + newChain.length) * blocks.blockSize := by
  obtain ⟨positive, within, total⟩ := writes.finalTailUsed
  rw [← total]
  rcases Nat.eq_zero_or_pos (chain.length + newChain.length) with none | more
  · have noNew : newChain.length = 0 := by omega
    have noChain : chain.length = 0 := by omega
    have needed := writes.blockCount
    have space := writes.text.stop_add_tailSpace
    rw [noChain, Nat.zero_mul] at space
    have pos := @Queue.blocksNeeded_pos queue _ _
      (positive.trans_le within) writes.nonempty (by omega)
    omega
  · obtain ⟨count, same⟩ : ∃ count, chain.length + newChain.length = count + 1 :=
      ⟨_, (Nat.sub_add_cancel more).symm⟩
    rw [same, Nat.add_sub_cancel, Nat.succ_mul]
    omega

/-- What has been written, after more is. -/
theorem Writes.extend
    {total : List UInt8} {new : List UInt8}
    (writes : Writes reservation queue blocks chain newChain contents
      newContents bytes written)
    (wellFormed : blocks.WellFormed)
    (fits : written.length + new.length ≤ reservation.byteCount)
    (overwritten : total = Segments.overwrite (contents ++ newContents).flatten
      (queue.stop blocks.blockSize chain.length + written.length) new) :
    (total.take (queue.stop blocks.blockSize chain.length +
        (written ++ new).length)).drop
      (queue.stop blocks.blockSize chain.length) = written ++ new := by
  have capacity := writes.capacity
  have length : (contents ++ newContents).flatten.length =
      (chain.length + newChain.length) * blocks.blockSize := by
    rw [List.flatten_append, List.length_append,
      writes.text.length_flatten wellFormed, Segments.length_flatten
        (SharedBlocks.uniform wellFormed writes.reserved),
      writes.reserved.length_eq, Nat.add_mul]
  rw [overwritten, List.length_append, ← Nat.add_assoc,
    Segments.take_overwrite (by omega), List.drop_append_of_le_length
      (by rw [List.length_take]; omega), writes.written_eq]

/-- Writing changes the cursor only. -/
structure Continues (reservation next : Reservation) : Prop where
  byteCount : next.byteCount = reservation.byteCount
  originalTail : next.originalTail = reservation.originalTail
  originalTailUsed : next.originalTailUsed = reservation.originalTailUsed
  tailSpace : next.tailSpace = reservation.tailSpace
  newHead : next.newHead = reservation.newHead
  newTail : next.newTail = reservation.newTail
  finalTailUsed : next.finalTailUsed = reservation.finalTailUsed

theorem Continues.refl
    (reservation : Reservation) : Continues reservation reservation :=
  ⟨rfl, rfl, rfl, rfl, rfl, rfl, rfl⟩

theorem Continues.trans
    {next last : Reservation}
    (early : Continues reservation next)
    (late : Continues next last) : Continues reservation last :=
  ⟨late.byteCount.trans early.byteCount,
    late.originalTail.trans early.originalTail,
    late.originalTailUsed.trans early.originalTailUsed,
    late.tailSpace.trans early.tailSpace, late.newHead.trans early.newHead,
    late.newTail.trans early.newTail,
    late.finalTailUsed.trans early.finalTailUsed⟩

/-- What writing some bytes does. -/
structure Wrote
    (reservation next : Reservation)
    (queue : Queue)
    (blocks after : SharedBlocks)
    (chain newChain : List Nat)
    (bytes written : List UInt8) : Prop where
  writes : ∃ contents newContents,
    Writes next queue after chain newChain contents newContents bytes written
  step : Step blocks after (chain ++ newChain) (chain ++ newChain)
  available : after.available = blocks.available
  continues : Continues reservation next

theorem Wrote.trans
    {next last : Reservation} {middle after : SharedBlocks}
    {writtenNow writtenLast : List UInt8}
    (early : Wrote reservation next queue blocks middle chain newChain bytes
      writtenNow)
    (late : Wrote next last queue middle after chain newChain bytes
      writtenLast) :
    Wrote reservation last queue blocks after chain newChain bytes
      writtenLast :=
  ⟨late.writes, early.step.trans late.step,
    late.available.trans early.available,
    early.continues.trans late.continues⟩

theorem Wrote.nothing
    (writes : Writes reservation queue blocks chain newChain contents
      newContents bytes written)
    (wellFormed : blocks.WellFormed) :
    Wrote reservation reservation queue blocks blocks chain newChain bytes
      written :=
  ⟨⟨contents, newContents, writes⟩, Step.refl wellFormed _, rfl,
    Continues.refl reservation⟩

/-- Bytes into the block of the cursor. -/
theorem Writes.copyNew
    {block : BlockLease} {position : Nat}
    (writes : Writes reservation queue blocks chain newChain contents
      newContents bytes written)
    (new : List UInt8)
    (wellFormed : blocks.WellFormed)
    (current : reservation.currentNew = some block)
    (found : newChain[position]? = some block.index)
    (offset : position * blocks.blockSize + reservation.currentNewOffset =
      written.length - reservation.tailSpace)
    (arrived : reservation.tailSpace ≤ written.length)
    (room : reservation.currentNewOffset + new.length ≤ blocks.blockSize)
    (fits : written.length + new.length ≤ reservation.byteCount) :
    let after := blocks.copyInto block reservation.currentNewOffset new
    ∃ next nextLease,
      after.nextLease block = .ok nextLease ∧
      next = (if reservation.currentNewOffset + new.length = blocks.blockSize
        then { reservation with
          currentNew := nextLease
          currentNewOffset := 0
          written := reservation.written + new.length }
        else { reservation with
          currentNewOffset := reservation.currentNewOffset + new.length
          written := reservation.written + new.length }) ∧
      Wrote reservation next queue blocks after chain newChain bytes
        (written ++ new) := by
  intro after
  obtain ⟨newContentsNow, holdsNow, flatten, step, available⟩ :=
    SharedBlocks.copyInto_holds wellFormed writes.reserved found room
  have leased := SharedBlocks.copyInto_leased wellFormed
    (writes.currentLeased block current) room
  obtain ⟨nextLease, nextEq, nextIndex, nextLeased⟩ :=
    holdsNow.nextLease_at found leased
  have kept : Text queue after chain contents bytes :=
    writes.text.frame step writes.apart
  have behind := writes.text.stop_add_tailSpace
  have total : contents.flatten ++ newContentsNow.flatten =
      Segments.overwrite (contents ++ newContents).flatten
        (queue.stop blocks.blockSize chain.length + written.length) new := by
    rw [flatten, List.flatten_append, ← Segments.overwrite_append_right,
      writes.text.length_flatten wellFormed, ← behind, ← writes.tailSpace]
    congr 1
    omega
  have writtenNow := writes.extend wellFormed fits total
  have stepNow : Step blocks after (chain ++ newChain) (chain ++ newChain) :=
    (step.extend chain).perm
      (by simp [or_comm]) (by simp [or_comm])
  refine ⟨_, nextLease, by rw [SharedBlocks.nextLease, nextEq]; rfl, rfl, ?_⟩
  split_ifs with full
  · refine ⟨⟨contents, newContentsNow,
      { writes with
        text := kept
        reserved := holdsNow
        tailSpace := writes.tailSpace
        count := by simp [writes.count]
        within := by simpa using fits
        existingWritten := ?_
        cursor := ⟨position + 1, nextIndex, ?_, wellFormed.positive⟩
        currentLeased := nextLeased
        written_eq := by rwa [List.flatten_append] }⟩, stepNow, available,
      ⟨rfl, rfl, rfl, rfl, rfl, rfl, rfl⟩⟩
    · have before := writes.existingWritten
      rw [List.length_append]
      simp only
      omega
    · rw [List.length_append]
      simp only [Nat.succ_mul]
      change position * blocks.blockSize + blocks.blockSize + 0 = _
      omega
  · refine ⟨⟨contents, newContentsNow,
      { writes with
        text := kept
        reserved := holdsNow
        tailSpace := writes.tailSpace
        count := by simp [writes.count]
        within := by simpa using fits
        existingWritten := ?_
        cursor := ⟨position, ?_, ?_, ?_⟩
        currentLeased := fun lease isCurrent => ?_
        written_eq := by rwa [List.flatten_append] }⟩, stepNow, available,
      ⟨rfl, rfl, rfl, rfl, rfl, rfl, rfl⟩⟩
    · have before := writes.existingWritten
      rw [List.length_append]
      simp only
      omega
    · simp [current, found]
    · rw [List.length_append]
      simp only
      change position * blocks.blockSize + _ = _
      omega
    · change _ < blocks.blockSize
      simp only
      omega
    · simp only [current, Option.some.injEq] at isCurrent
      subst isCurrent
      exact leased

/-- Bytes behind the queue's last byte. -/
theorem Writes.copyTail
    {tail : BlockLease}
    (writes : Writes reservation queue blocks chain newChain contents
      newContents bytes written)
    (new : List UInt8)
    (wellFormed : blocks.WellFormed)
    (last : queue.tail = some tail)
    (room : written.length + new.length ≤ reservation.tailSpace)
    (fits : written.length + new.length ≤ reservation.byteCount) :
    Wrote reservation
      { reservation with
        existingWritten := reservation.existingWritten + new.length
        written := reservation.written + new.length }
      queue blocks
      (blocks.copyInto tail
        (reservation.originalTailUsed + reservation.existingWritten) new)
      chain newChain bytes (written ++ new) := by
  have holds := writes.text.holds
  rw [last] at holds
  obtain ⟨front, chainEq⟩ := holds.tail_concat rfl
  have position : chain[chain.length - 1]? = some tail.index := by
    simp [chainEq]
  have space : reservation.tailSpace = blocks.blockSize - queue.tailUsed := by
    rw [writes.tailSpace, Queue.tailSpace, last, if_neg (by simp)]
  have existing : reservation.existingWritten = written.length := by
    rw [writes.existingWritten]
    omega
  have behind := writes.text.stop_add_tailSpace
  rw [← writes.tailSpace] at behind
  have within := writes.text.tailWithin
  have inside : queue.tailUsed + written.length + new.length ≤
      blocks.blockSize := by omega
  have start : reservation.originalTailUsed + reservation.existingWritten =
      queue.tailUsed + written.length := by
    rw [writes.originalTailUsed, existing]
  rw [start]
  obtain ⟨contentsNow, holdsNow, flatten, step, available⟩ :=
    SharedBlocks.copyInto_holds wellFormed holds position inside
  have stopEq : (chain.length - 1) * blocks.blockSize +
      (queue.tailUsed + written.length) =
      queue.stop blocks.blockSize chain.length + written.length :=
    (Nat.add_assoc _ _ _).symm
  rw [stopEq] at flatten
  have apart : ∀ index ∈ newChain, index ∉ chain := fun index member other =>
    writes.apart index other member
  have total : (contentsNow ++ newContents).flatten =
      Segments.overwrite (contents ++ newContents).flatten
        (queue.stop blocks.blockSize chain.length + written.length) new := by
    rw [List.flatten_append, flatten, List.flatten_append,
      Segments.overwrite_append_left
        (by rw [writes.text.length_flatten wellFormed]; omega)]
  obtain ⟨block, current, offset, below⟩ := writes.cursor
  refine ⟨⟨contentsNow, newContents,
    { writes with
      text := writes.text.rewrite step.blockSize wellFormed
        (by rw [last]; exact holdsNow) flatten (by omega) (by omega)
      reserved := writes.reserved.frame step.moves apart
      tailSpace := writes.tailSpace
      count := by simp [writes.count]
      within := by simpa using fits
      existingWritten := ?_
      cursor := ⟨block, current, ?_, below⟩
      currentLeased := fun lease isCurrent => ?_
      written_eq := writes.extend wellFormed fits total }⟩,
    step.extend newChain, available, ⟨rfl, rfl, rfl, rfl, rfl, rfl, rfl⟩⟩
  · rw [List.length_append]
    simp only
    omega
  · rw [List.length_append]
    change block * blocks.blockSize + reservation.currentNewOffset = _
    simp only
    omega
  · obtain ⟨cell, found, valid⟩ := writes.currentLeased lease isCurrent
    have member : lease.index ∈ newChain := by
      refine List.mem_of_getElem? (i := block) ?_
      simp only at isCurrent
      rw [← current, isCurrent]
      rfl
    refine ⟨cell, ?_, valid⟩
    rw [step.moves.frame _ (apart _ member) (by simp [found]), found]

/-- One round of writing into the reserved blocks. -/
theorem writeNew_round
    {fuel : Nat} {block : BlockLease} {new : List UInt8}
    (some : new ≠ [])
    (current : reservation.currentNew = Option.some block) :
    let count := min new.length
      (blocks.blockSize - reservation.currentNewOffset)
    let after := blocks.copyInto block reservation.currentNewOffset
      (new.take count)
    ∀ nextLease, after.nextLease block = .ok nextLease →
      writeNew (fuel + 1) new reservation blocks =
        writeNew fuel (new.drop count)
          (if reservation.currentNewOffset + count = blocks.blockSize
          then { reservation with
            currentNew := nextLease
            currentNewOffset := 0
            written := reservation.written + count }
          else { reservation with
            currentNewOffset := reservation.currentNewOffset + count
            written := reservation.written + count })
          after := by
  intro count after nextLease nextEq
  cases new with
  | nil => exact absurd rfl some
  | cons byte rest =>
      simp only [writeNew, current]
      change (if reservation.currentNewOffset + count = blocks.blockSize
        then _ else _) = _
      split_ifs with full
      · simp only [after, count] at nextEq
        simp only [nextEq, after, count]
      · rfl

/-- Writing goes on in the reserved blocks. -/
theorem writeNew_spec
    {fuel : Nat}
    (writes : Writes reservation queue blocks chain newChain contents
      newContents bytes written)
    (new : List UInt8)
    (wellFormed : blocks.WellFormed)
    (fuelled : new.length ≤ fuel)
    (arrived : new ≠ [] → reservation.tailSpace ≤ written.length)
    (fits : written.length + new.length ≤ reservation.byteCount) :
    ∃ next after,
      writeNew fuel new reservation blocks = (.ok (), next, after) ∧
      Wrote reservation next queue blocks after chain newChain bytes
        (written ++ new) := by
  induction fuel generalizing reservation blocks contents newContents written
    new with
  | zero =>
      have none : new = [] := List.length_eq_zero_iff.mp (by omega)
      subst none
      refine ⟨reservation, blocks, rfl, ?_⟩
      rw [List.append_nil]
      exact .nothing writes wellFormed
  | succ fuel write_ih =>
      cases new with
      | nil =>
          refine ⟨reservation, blocks, rfl, ?_⟩
          rw [List.append_nil]
          exact .nothing writes wellFormed
      | cons byte rest =>
          have reached := arrived (by simp)
          have positive : 0 < (byte :: rest).length := by simp
          obtain ⟨position, current, offset, below⟩ := writes.cursor
          have capacity := writes.capacity
          have space := writes.text.stop_add_tailSpace
          rw [← writes.tailSpace] at space
          have inside : position < newChain.length := by
            by_contra outside
            have bound := Nat.mul_le_mul_right blocks.blockSize
              (Nat.le_of_not_lt outside)
            rw [Nat.add_mul] at capacity
            omega
          rw [List.getElem?_eq_getElem inside, Option.map_eq_some_iff]
            at current
          obtain ⟨block, isCurrent, index⟩ := current
          have found : newChain[position]? = some block.index := by
            rw [List.getElem?_eq_getElem inside, index]
          have round := @writeNew_round reservation blocks fuel block
            (byte :: rest) (by simp) isCurrent
          generalize byte :: rest = new at fuelled fits positive round ⊢
          generalize counted : min new.length
            (blocks.blockSize - reservation.currentNewOffset) = count at round
          have length : (new.take count).length = count := by
            rw [List.length_take]
            omega
          obtain ⟨next, nextLease, nextEq, nextIs, wrote⟩ := writes.copyNew
            (new.take count) wellFormed isCurrent found offset reached
            (by omega) (by omega)
          rw [length] at nextIs
          obtain ⟨contentsNow, newContentsNow, writesNow⟩ := wrote.writes
          obtain ⟨last, after, rested, wroteRest⟩ := write_ih writesNow
            (new.drop count) wrote.step.wellFormed
            (by rw [List.length_drop]; omega)
            (fun _ => by
              rw [wrote.continues.tailSpace, List.length_append]
              omega)
            (by
              rw [wrote.continues.byteCount, List.length_append, length,
                List.length_drop]
              omega)
          rw [List.append_assoc, List.take_append_drop] at wroteRest
          refine ⟨last, after, ?_, wrote.trans wroteRest⟩
          rw [round nextLease nextEq, ← nextIs, rested]

/-- Bytes that the message has left are written. -/
theorem Writes.write_spec
    {new : List UInt8}
    (writes : Writes reservation queue blocks chain newChain contents
      newContents bytes written)
    (wellFormed : blocks.WellFormed)
    (fits : written.length + new.length ≤ reservation.byteCount) :
    ∃ next after,
      reservation.write blocks new = (.ok (), next, after) ∧
      Wrote reservation next queue blocks after chain newChain bytes
        (written ++ new) := by
  have room : ¬ (reservation.finished = true ∨
      new.length > reservation.byteCount - reservation.written) := by
    rw [writes.unfinished, writes.count]
    simp only [Bool.false_eq_true, false_or]
    omega
  rw [write, if_neg room]
  have existing := writes.existingWritten
  split
  · next last =>
      rw [writes.originalTail] at last
      have space : reservation.tailSpace = 0 := by
        simp [writes.tailSpace, Queue.tailSpace, last]
      exact writeNew_spec writes new wellFormed le_rfl (fun _ => by omega) fits
  · next tail last =>
      rw [writes.originalTail] at last
      generalize counted : min new.length
        (reservation.tailSpace - reservation.existingWritten) = count
      have length : (new.take count).length = count := by
        rw [List.length_take]
        omega
      rcases Nat.lt_or_ge written.length reservation.tailSpace with
        before | behind
      · have wrote := writes.copyTail (new.take count) wellFormed last
          (by omega) (by omega)
        rw [length] at wrote
        obtain ⟨contentsNow, newContentsNow, writesNow⟩ := wrote.writes
        obtain ⟨next, after, rested, wroteRest⟩ := writeNew_spec
          writesNow (new.drop count) wrote.step.wellFormed le_rfl
          (fun more => by
            have left : 0 < (new.drop count).length :=
              List.length_pos_iff.mpr more
            rw [List.length_drop] at left
            rw [List.length_append, length]
            simp only
            omega)
          (by
            rw [List.length_append, length, List.length_drop]
            simp only
            omega)
        rw [List.append_assoc, List.take_append_drop] at wroteRest
        exact ⟨next, after, rested, wrote.trans wroteRest⟩
      · have none : count = 0 := by omega
        subst none
        simp only [List.take_zero, SharedBlocks.copyInto_nil, List.drop_zero,
          Nat.add_zero]
        exact writeNew_spec writes new wellFormed le_rfl (fun _ => behind) fits

/-- More bytes than the message has left are refused. -/
theorem Writes.write_overflow
    {new : List UInt8}
    (writes : Writes reservation queue blocks chain newChain contents
      newContents bytes written)
    (exceeds : reservation.byteCount < written.length + new.length) :
    reservation.write blocks new =
      (.error .reservationOverflow, reservation, blocks) := by
  have within := writes.within
  rw [write, if_pos]
  rw [writes.count]
  exact Or.inr (by omega)

/-- The written message lies behind the queue's bytes. -/
theorem Writes.published_eq
    (writes : Writes reservation queue blocks chain newChain contents
      newContents bytes written)
    (wellFormed : blocks.WellFormed) :
    ((contents ++ newContents).flatten.take
        (queue.stop blocks.blockSize chain.length + written.length)).drop
      queue.headOffset = bytes ++ written := by
  have stops := writes.text.stop_le
  rw [← writes.text.length_flatten wellFormed] at stops
  have bytes_eq := writes.text.bytes_eq
  have written_eq := writes.written_eq
  have ordered := writes.text.ordered
  rw [List.flatten_append] at written_eq ⊢
  generalize queue.stop blocks.blockSize chain.length = stop at *
  have front : ((contents.flatten ++ newContents.flatten).take
      (stop + written.length)).take stop = contents.flatten.take stop := by
    rw [List.take_take, Nat.min_eq_left (Nat.le_add_right _ _),
      List.take_append_of_le_length stops]
  rw [← List.take_append_drop stop (List.take (stop + written.length) _),
    front, written_eq, List.drop_append_of_le_length
      (by rw [List.length_take]; omega), bytes_eq]

/-- A finished message becomes part of the queue's chain.  The three ways to
publish it differ in the links alone. -/
theorem Writes.publish_spec
    (writes : Writes reservation queue blocks chain newChain contents
      newContents bytes written)
    (wellFormed : blocks.WellFormed)
    (complete : written.length = reservation.byteCount) :
    ∃ head tail after,
      reservation.publish queue blocks =
        (.ok (), { queue with head, tail }, after) ∧
      Text
        { queue with
          head
          tail
          tailUsed := reservation.finalTailUsed }
        after (chain ++ newChain) (contents ++ newContents)
        (bytes ++ written) ∧
      Step blocks after (chain ++ newChain) (chain ++ newChain) ∧
      after.available = blocks.available := by
  obtain ⟨tailPositive, tailWithin, total⟩ := writes.finalTailUsed
  have capacity := writes.capacity
  have notEmpty : chain ++ newChain ≠ [] := by
    rintro none
    obtain ⟨rfl, rfl⟩ := List.append_eq_nil_iff.mp none
    have positive := writes.nonempty
    simp only [List.length_nil, Nat.add_zero, Nat.zero_mul] at capacity
    omega
  have headWithin : queue.headOffset < blocks.blockSize := by
    by_cases none : chain = []
    · rw [(writes.text.empty none).1]
      exact wellFormed.positive
    · exact writes.text.headWithin none
  have published {head tail : Option BlockLease} {after : SharedBlocks}
      (blockSize : after.blockSize = blocks.blockSize)
      (holds : LeasePool.Holds (fun _ => ()) after.pool.cell head tail
        (chain ++ newChain) (contents ++ newContents)) :
      Text
        { queue with
          head
          tail
          tailUsed := reservation.finalTailUsed }
        after (chain ++ newChain) (contents ++ newContents)
        (bytes ++ written) := by
    refine
      { holds
        empty := fun none => absurd none notEmpty
        headWithin := fun _ => by rw [blockSize]; exact headWithin
        tailWithin := by rw [blockSize]; exact tailWithin
        ordered := ?_
        bytes_eq := ?_ }
    · have ordered := writes.text.ordered
      rw [blockSize, List.length_append]
      change queue.headOffset ≤ (chain.length + newChain.length - 1) *
        blocks.blockSize + reservation.finalTailUsed
      omega
    · rw [blockSize, List.length_append, ← writes.published_eq wellFormed,
        complete, ← total]
      rfl
  cases new : reservation.newHead with
  | none =>
      have noNew : newChain = [] := writes.reserved.head_eq_none.mp new
      subst noNew
      have noContents : newContents = [] :=
        List.length_eq_zero_iff.mp writes.reserved.length_eq.symm
      subst noContents
      refine ⟨queue.head, reservation.originalTail, blocks,
        by simp only [publish, new], published rfl ?_, Step.refl wellFormed _,
        rfl⟩
      rw [List.append_nil, List.append_nil, writes.originalTail]
      exact writes.text.holds
  | some newHead =>
      have reserved := writes.reserved
      rw [new] at reserved
      cases last : reservation.originalTail with
      | none =>
          have noTail : queue.tail = none := writes.originalTail ▸ last
          have noChain : chain = [] :=
            writes.text.holds.tail_eq_none.mp noTail
          subst noChain
          have noContents : contents = [] :=
            List.length_eq_zero_iff.mp writes.text.holds.length_eq.symm
          subst noContents
          exact ⟨some newHead, reservation.newTail, blocks,
            by simp only [publish, new, last], published rfl reserved,
            Step.refl wellFormed _, rfl⟩
      | some tail =>
          have isTail : queue.tail = some tail := writes.originalTail ▸ last
          have holds := writes.text.holds
          rw [isTail] at holds
          obtain ⟨cell, found, unlinked⟩ := holds.last rfl
          obtain ⟨after, linked, wellFormedNow, blockSize, cells, available⟩ :=
            SharedBlocks.link_spec wellFormed (holds.tailLeased tail rfl)
              (reserved.headLeased newHead rfl) found unlinked
          refine ⟨queue.head, reservation.newTail, after,
            by simp only [publish, new, last, linked], published blockSize ?_,
            ⟨wellFormedNow, blockSize, ?_⟩, available⟩
          · rw [cells]
            exact holds.concat reserved
              (fun index member other => writes.apart index member other) found
          · rw [cells]
            obtain ⟨front, chainEq⟩ := holds.tail_concat rfl
            exact Moves.write _ (by simp [chainEq])

/-! A finished reservation does nothing more. -/

/-- A finished reservation takes nothing more. -/
theorem write_finished
    (blocks : SharedBlocks) (new : List UInt8)
    (finished : reservation.finished = true) :
    reservation.write blocks new =
      (.error .reservationOverflow, reservation, blocks) := by
  rw [write, if_pos (Or.inl finished)]

/-- A finished reservation cannot be committed. -/
theorem commit_finished
    (queue : Queue) (storage : Storage) (fds : List Fd) (room : Nat)
    (finished : reservation.finished = true) :
    reservation.commit queue storage fds room =
      (.error .invalidCompletion, reservation, queue, storage) := by
  rw [commit, if_pos (Or.inl finished)]

/-- A finished reservation is not dropped again. -/
theorem abort_finished
    (queue : Queue) (blocks : SharedBlocks)
    (finished : reservation.finished = true) :
    reservation.abort queue blocks = (.ok (), reservation, queue, blocks) := by
  rw [abort, if_pos finished]

/-- An abandoned message leaves the queue's bytes as they were. -/
theorem Writes.abort_spec
    (writes : Writes reservation queue blocks chain newChain contents
      newContents bytes written)
    (wellFormed : blocks.WellFormed) :
    ∃ after,
      reservation.abort queue blocks =
        (.ok (), { reservation with finished := true, newHead := none },
          { queue with reservationActive := false }, after) ∧
      Text { queue with reservationActive := false } after chain contents
        bytes ∧
      Step blocks after (chain ++ newChain) chain ∧
      after.available = blocks.available + newChain.length := by
  obtain ⟨after, released, step, available⟩ :=
    Queue.releasePrivateChain_spec writes.reserved wellFormed
      writes.reserved.length_le
  refine ⟨after, ?_, ?_, ?_, available⟩
  · rw [abort, if_neg (by simp [writes.unfinished]), released]
  · exact (writes.text.frame step writes.apart).same ⟨rfl, rfl, rfl, rfl⟩
  · exact (step.extend chain).perm (by simp [or_comm]) (by simp)

end Reservation

namespace Queue

open Reservation (Writes)

/-- A reservation gets private blocks for its message. -/
structure Reserved
    (queue next : Queue)
    (reservation : Reservation)
    (blocks after : SharedBlocks)
    (chain newChain : List Nat)
    (bytes : List UInt8)
    (byteCount : Nat) : Prop where
  queue_eq : next = { queue with reservationActive := true }
  byteCount_eq : reservation.byteCount = byteCount
  budget : byteCount ≤ queue.byteBudget - queue.byteCount
  writes : ∃ contents newContents,
    Writes reservation next after chain newChain contents newContents bytes []
  step : Step blocks after chain (chain ++ newChain)

/-- A new reservation over a private chain. -/
def opening
    (queue : Queue)
    (blockSize byteCount : Nat)
    (newHead newTail : Option BlockLease) : Reservation where
  byteCount
  originalTail := queue.tail
  originalTailUsed := queue.tailUsed
  tailSpace := queue.tailSpace blockSize
  newHead
  newTail
  currentNew := newHead
  finalTailUsed :=
    if byteCount - min byteCount (queue.tailSpace blockSize) = 0 then
      queue.tailUsed + byteCount
    else if (byteCount - min byteCount (queue.tailSpace blockSize)) %
        blockSize = 0 then blockSize
    else (byteCount - min byteCount (queue.tailSpace blockSize)) % blockSize

/-- The last block of a message ends where the message does. -/
theorem opening_finalTailUsed
    {byteCount newCount : Nat}
    (head tail : Option BlockLease)
    (text : Text queue blocks chain contents bytes)
    (wellFormed : blocks.WellFormed)
    (positive : 0 < byteCount)
    (length : newCount = queue.blocksNeeded blocks.blockSize byteCount) :
    let reservation := queue.opening blocks.blockSize byteCount head tail
    0 < reservation.finalTailUsed ∧
      reservation.finalTailUsed ≤ blocks.blockSize ∧
      (chain.length + newCount - 1) * blocks.blockSize +
        reservation.finalTailUsed =
        queue.stop blocks.blockSize chain.length + byteCount := by
  intro reservation
  have space := text.stop_add_tailSpace
  have within := text.tailWithin
  have sizePositive := wellFormed.positive
  simp only [reservation, opening]
  rcases Nat.eq_zero_or_pos
    (byteCount - min byteCount (queue.tailSpace blocks.blockSize)) with
    fits | exceeds
  · rw [if_pos fits]
    have noNew : newCount = 0 := by
      rw [length]
      exact blocksNeeded_eq_zero sizePositive (by omega)
    have last : queue.tailSpace blocks.blockSize =
        blocks.blockSize - queue.tailUsed := by
      have some : queue.tailSpace blocks.blockSize ≠ 0 := by omega
      unfold tailSpace at some ⊢
      split_ifs at some ⊢
      · exact absurd rfl some
      · rfl
    rw [noNew]
    refine ⟨by omega, by omega, ?_⟩
    simp only [stop, Nat.add_zero]
    omega
  · rw [if_neg (by omega)]
    obtain ⟨lastPositive, lastWithin, total⟩ :=
      Segments.last_part sizePositive exceeds
    have count : newCount = (byteCount - min byteCount (queue.tailSpace
        blocks.blockSize) + blocks.blockSize - 1) / blocks.blockSize := length
    have new : 0 < newCount := by
      rw [count]
      exact Nat.div_pos (by omega) sizePositive
    refine ⟨lastPositive, lastWithin, ?_⟩
    rw [← count] at total
    have whole : chain.length + newCount - 1 =
        chain.length + (newCount - 1) := by omega
    rw [whole, Nat.add_mul]
    omega

/-- What reserving does once there are enough free blocks. -/
theorem reserve_enough
    {byteCount room : Nat}
    (text : Text queue blocks chain contents bytes)
    (wellFormed : blocks.WellFormed)
    (inactive : queue.reservationActive = false)
    (positive : 0 < byteCount)
    (budget : byteCount ≤ queue.byteBudget - queue.byteCount)
    (enough : queue.blocksNeeded blocks.blockSize byteCount ≤
      blocks.available) :
    ∃ reservation next after newChain,
      queue.reserve blocks byteCount room = (.ok reservation, next, after) ∧
      Reserved queue next reservation blocks after chain newChain bytes
        byteCount ∧
      after.available + newChain.length = blocks.available := by
  obtain ⟨head, tail, newChain, newContents, after, acquired, holds, step,
    length, available⟩ := acquireChain_spec (LeasePool.Holds.empty) wellFormed enough
  rw [List.nil_append] at holds step
  have ensured : (if queue.blocksNeeded blocks.blockSize byteCount ≠ 0
      then blocks.ensureAvailable
        (queue.blocksNeeded blocks.blockSize byteCount) room
      else (.ok (), blocks)) = (.ok (), blocks) := by
    split_ifs
    · exact SharedBlocks.ensureAvailable_enough room wellFormed enough
    · rfl
  have outside : ∀ index ∈ chain, index ∉ newChain := by
    intro index member other
    obtain ⟨cell, found, _⟩ := text.holds.used member
    rcases step.moves.fresh index other with owned | free
    · exact absurd owned List.not_mem_nil
    · rw [free] at found
      cases found
  have kept : Text queue after chain contents bytes :=
    text.frame step fun _ _ => List.not_mem_nil
  have final := opening_finalTailUsed head tail text wellFormed
    positive length
  refine ⟨queue.opening blocks.blockSize byteCount head tail,
    { queue with reservationActive := true }, after, newChain, ?_,
    { queue_eq := rfl
      byteCount_eq := rfl
      budget
      writes := ⟨contents, newContents,
        { text := kept.same ⟨rfl, rfl, rfl, rfl⟩
          reserved := holds
          apart := outside
          originalTail := rfl
          originalTailUsed := rfl
          tailSpace := by rw [step.blockSize]; rfl
          nonempty := positive
          blockCount := by rw [step.blockSize]; exact length
          finalTailUsed := by rw [step.blockSize]; exact final
          unfinished := rfl
          count := rfl
          within := Nat.zero_le _
          existingWritten := (Nat.zero_min _).symm
          cursor := ⟨0, ?_, ?_, ?_⟩
          currentLeased := fun lease isCurrent =>
            holds.headLeased lease isCurrent
          written_eq := by
            rw [List.length_nil, Nat.add_zero]
            exact List.drop_eq_nil_of_le (List.length_take_le _ _) }⟩
      step := ?_ }, by rw [length]; exact available⟩
  · rw [reserve, if_neg (by simp [inactive]), if_neg (by omega),
      if_neg (by omega)]
    simp only [ensured, acquired, opening, step.blockSize]
  · rw [← List.head?_eq_getElem?]
    exact holds.linked.head_eq
  · simp [opening]
  · rw [step.blockSize]
    exact wellFormed.positive
  · exact (step.extend chain).perm (by simp) (by simp [or_comm])

/-- A failed reservation changes nothing but the reserve of blocks. -/
theorem reserve_spec
    {byteCount room : Nat}
    (text : Text queue blocks chain contents bytes)
    (wellFormed : blocks.WellFormed) :
    let outcome := queue.reserve blocks byteCount room
    match outcome.1 with
    | .error cause => cause ≠ .unreachable ∧ outcome.2.1 = queue ∧
        Step blocks outcome.2.2 chain chain ∧
        outcome.2.2.pool.cell = blocks.pool.cell
    | .ok reservation => ∃ newChain,
        Reserved queue outcome.2.1 reservation blocks outcome.2.2 chain
          newChain bytes byteCount := by
  intro outcome
  by_cases active : queue.reservationActive = true
  · have same : outcome = (.error .reservationActive, queue, blocks) := by
      simp only [outcome, reserve, active, if_true]
    rw [same]
    exact ⟨by simp, rfl, Step.refl wellFormed _, rfl⟩
  by_cases none : byteCount = 0
  · have same : outcome = (.error .emptyMessage, queue, blocks) := by
      simp only [outcome, reserve, if_neg active, if_pos none]
    rw [same]
    exact ⟨by simp, rfl, Step.refl wellFormed _, rfl⟩
  by_cases exceeds : byteCount > queue.byteBudget - queue.byteCount
  · have same : outcome = (.error .byteBudgetExceeded, queue, blocks) := by
      simp only [outcome, reserve, if_neg active, if_neg none, if_pos exceeds]
    rw [same]
    exact ⟨by simp, rfl, Step.refl wellFormed _, rfl⟩
  obtain ⟨grownWellFormed, blockSize, cells, _, _, reachable, enough⟩ :=
    @SharedBlocks.ensureAvailable_spec blocks
      (queue.blocksNeeded blocks.blockSize byteCount) room wellFormed
  have step (after : SharedBlocks)
      (afterWellFormed : after.WellFormed)
      (afterSize : after.blockSize = blocks.blockSize)
      (same : after.pool.cell = blocks.pool.cell) :
      Step blocks after chain chain := by
    refine ⟨afterWellFormed, afterSize, ?_⟩
    rw [same]
    exact Moves.refl _ _
  by_cases needed : queue.blocksNeeded blocks.blockSize byteCount = 0
  · obtain ⟨reservation, next, after, newChain, reserved, spec, _⟩ :=
      @reserve_enough queue blocks chain contents bytes byteCount room text
        wellFormed (by simpa using active) (by omega) (by omega) (by omega)
    have same : outcome = (.ok reservation, next, after) := reserved
    rw [same]
    exact ⟨newChain, spec⟩
  · cases ensured : blocks.ensureAvailable
      (queue.blocksNeeded blocks.blockSize byteCount) room with
    | mk result grown =>
        rw [ensured] at grownWellFormed blockSize cells reachable enough
        simp only at grownWellFormed blockSize cells reachable enough
        have grew := step grown grownWellFormed blockSize cells
        cases result with
        | error cause =>
            have same : outcome = (.error cause, queue, grown) := by
              simp only [outcome, reserve, if_neg active, if_neg none,
                if_neg exceeds, ne_eq, needed, not_false_eq_true, if_true,
                ensured]
            rw [same]
            exact ⟨fun broken => reachable (congrArg _ broken), rfl, grew,
              cells⟩
        | ok _ =>
            have free := enough rfl
            obtain ⟨reservation, next, after, newChain, reserved, spec, _⟩ :=
              @reserve_enough queue grown chain contents bytes byteCount room
                (text.grown blockSize cells) grownWellFormed
                (by simpa using active) (by omega) (by omega)
                (by rw [blockSize]; exact free)
            have again := SharedBlocks.ensureAvailable_enough room
              grownWellFormed free
            have same : outcome = (.ok reservation, next, after) := by
              rw [← reserved]
              simp only [outcome, reserve, if_neg active, if_neg none,
                if_neg exceeds, ne_eq, needed, not_false_eq_true, if_true,
                ensured, blockSize, again]
            rw [same]
            exact ⟨newChain,
              { spec with
                step := grew.trans spec.step }⟩

end Queue
end Tx
end Wayring
