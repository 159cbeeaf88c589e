import Wayring.Transport.ControlRecords
import Wayring.Transport.Contents
import Wayring.Transport.Rights

/-!
# Snapshots

What the kernel reads of a queue: the bytes of at most two blocks, which stay
what they are while messages are put behind them, and the control record of the
queued descriptors.
-/

namespace Wayring

namespace Ancillary

variable [Native]

/-- The descriptors that a record was made of. -/
theorem rightsOf_encodeRights
    {storageLength : Nat} {fds : List Fd} {control : List UInt8}
    (encoded : encodeRights storageLength fds = .ok control) :
    rightsOf control = fds := by
  have records := Records.cons (.rights encoded) .nil
  simp only [List.append_nil] at records
  have collected := collect_records.1 records
  rw [RightsCursor.collect_eq] at collected
  exact congrArg Prod.fst (Except.ok.inj collected)

@[simp] theorem rightsOf_nil : rightsOf [] = [] := rfl

end Ancillary

namespace Tx

/-- A snapshot is of the first blocks of a queue, up to bytes that are queued
now. -/
structure Snapshot.Shows
    (snapshot : Snapshot)
    (queue : Queue)
    (blockSize : Nat)
    (chain : List Nat) : Prop where
  first : chain[0]? = some snapshot.first.lease.index
  start : snapshot.first.start = queue.headOffset
  ordered : queue.headOffset ≤ snapshot.first.stop
  within : snapshot.first.stop ≤ blockSize
  queued : snapshot.first.stop ≤ queue.stop blockSize chain.length
  second : ∀ range, snapshot.second = some range →
    chain[1]? = some range.lease.index ∧ range.start = 0 ∧
      snapshot.first.stop = blockSize ∧ range.stop ≤ blockSize ∧
      blockSize + range.stop ≤ queue.stop blockSize chain.length

variable {queue next : Queue} {blocks : SharedBlocks} {chain more : List Nat}
  {contents : List (List UInt8)} {bytes : List UInt8} {snapshot : Snapshot}

namespace Snapshot

/-- What is queued behind a snapshot leaves it alone. -/
theorem Shows.grow
    {blockSize : Nat}
    (shows : snapshot.Shows queue blockSize chain)
    (headOffset : next.headOffset = queue.headOffset)
    (stop : queue.stop blockSize chain.length ≤
      next.stop blockSize (chain ++ more).length) :
    snapshot.Shows next blockSize (chain ++ more) where
  first := by
    obtain ⟨inside, _⟩ := List.getElem?_eq_some_iff.mp shows.first
    rw [List.getElem?_append_left inside]
    exact shows.first
  start := shows.start.trans headOffset.symm
  ordered := headOffset ▸ shows.ordered
  within := shows.within
  queued := shows.queued.trans stop
  second range isSecond := by
    obtain ⟨index, start, whole, within, queued⟩ := shows.second range isSecond
    obtain ⟨inside, _⟩ := List.getElem?_eq_some_iff.mp index
    rw [List.getElem?_append_left inside]
    exact ⟨index, start, whole, within, queued.trans stop⟩

/-- A snapshot shows the same bytes when more are queued. -/
theorem Shows.later
    {blocksNow : SharedBlocks} {contentsNow : List (List UInt8)}
    {new : List UInt8}
    (shows : snapshot.Shows queue blocks.blockSize chain)
    (text : queue.Text blocks chain contents bytes)
    (textNow : next.Text blocksNow (chain ++ more) contentsNow (bytes ++ new))
    (wellFormed : blocks.WellFormed)
    (wellFormedNow : blocksNow.WellFormed)
    (blockSize : blocksNow.blockSize = blocks.blockSize)
    (headOffset : next.headOffset = queue.headOffset) :
    snapshot.Shows next blocksNow.blockSize (chain ++ more) := by
  have length := text.length_bytes wellFormed
  have lengthNow := textNow.length_bytes wellFormedNow
  rw [List.length_append, headOffset, blockSize] at lengthNow
  rw [blockSize]
  exact shows.grow headOffset (by omega)

/-- A snapshot reads the first queued bytes. -/
theorem Shows.read_eq
    (shows : snapshot.Shows queue blocks.blockSize chain)
    (text : queue.Text blocks chain contents bytes)
    (wellFormed : blocks.WellFormed) :
    snapshot.read blocks = bytes.take snapshot.byteCount ∧
      snapshot.byteCount ≤ bytes.length := by
  have uniform := SharedBlocks.uniform wellFormed text.holds
  have length := text.length_bytes wellFormed
  obtain ⟨inside, _⟩ := List.getElem?_eq_some_iff.mp shows.first
  have counted := text.holds.length_eq
  obtain ⟨content, later, rfl⟩ : ∃ content later, contents = content :: later :=
    List.exists_cons_of_length_pos (by omega)
  have size : content.length = blocks.blockSize := uniform content (by simp)
  have head : blocks.bytes snapshot.first.lease = content :=
    @Queue.bytes_eq blocks chain _ _ _ [] _ _ text.holds shows.first
  have ordered := shows.ordered
  have within := shows.within
  have queued := shows.queued
  have part : ∀ count, queue.headOffset + count ≤
      queue.stop blocks.blockSize chain.length →
      bytes.take count = ((content ++ later.flatten).take
        (queue.headOffset + count)).drop queue.headOffset := by
    intro count fits
    rw [← text.bytes_eq, List.flatten_cons, List.take_drop, List.take_take,
      Nat.min_eq_left fits]
  have early : snapshot.first.read blocks =
      (content.take snapshot.first.stop).drop queue.headOffset := by
    rw [Range.read, head, shows.start]
  cases isSecond : snapshot.second with
  | none =>
      have count : snapshot.byteCount =
          snapshot.first.stop - queue.headOffset := by
        simp [byteCount, Range.length, isSecond, shows.start]
      refine ⟨?_, by omega⟩
      rw [count, part _ (by omega), read, isSecond, early,
        Nat.add_sub_cancel' ordered, List.take_append_of_le_length (by omega)]
      simp
  | some range =>
      obtain ⟨index, start, whole, fits, upTo⟩ := shows.second range isSecond
      obtain ⟨insideNext, _⟩ := List.getElem?_eq_some_iff.mp index
      simp only [List.length_cons] at counted
      obtain ⟨nextContent, last, rfl⟩ :
          ∃ nextContent last, later = nextContent :: last :=
        List.exists_cons_of_length_pos (by omega)
      have sizeNext : nextContent.length = blocks.blockSize :=
        uniform nextContent (by simp)
      have second : blocks.bytes range.lease = nextContent :=
        @Queue.bytes_eq blocks chain _ _ _ [content] _ _ text.holds index
      have count : snapshot.byteCount =
          blocks.blockSize - queue.headOffset + range.stop := by
        simp [byteCount, Range.length, isSecond, shows.start, start, whole]
      refine ⟨?_, by omega⟩
      have both : (content ++ (nextContent :: last).flatten).take
          (queue.headOffset + (blocks.blockSize - queue.headOffset +
            range.stop)) = content ++ nextContent.take range.stop := by
        rw [show queue.headOffset + (blocks.blockSize - queue.headOffset +
          range.stop) = content.length + range.stop by omega,
          List.take_length_add_append, List.flatten_cons,
          List.take_append_of_le_length (by omega)]
      rw [count, part _ (by omega), both, read, isSecond, early, whole, ← size,
        List.take_length, List.drop_append_of_le_length (by omega)]
      simp only [Option.map_some, Option.getD_some, Range.read, second, start,
        List.drop_zero]

end Snapshot

variable [Native] {storage : Storage} {fds : List Fd} {fdChain : List Nat}
  {scratchLength controlLength : Nat}

namespace Queue

/-- A snapshot shows the front of the queue, and carries all descriptors that
are queued. -/
theorem Stores.snapshot_spec
    (stores : queue.Stores storage bytes fds chain fdChain)
    (taken : queue.snapshot storage scratchLength controlLength =
      .ok snapshot) :
    snapshot.Shows queue storage.blocks.blockSize chain ∧
      snapshot.descriptorCount = fds.length ∧
      Ancillary.rightsOf snapshot.control = fds := by
  obtain ⟨contents, text⟩ := stores.text
  have counted := stores.descriptors.count
  unfold Queue.snapshot at taken
  simp only [stores.settled, Bool.false_eq_true, if_false] at taken
  cases isHead : queue.head with
  | none =>
      rw [isHead] at taken
      cases taken
  | some head =>
      have index : chain[0]? = some head.index := by
        rw [← List.head?_eq_getElem?, ← text.holds.linked.head_eq, isHead]
        rfl
      obtain ⟨following, isNext, nextIndex, _⟩ :=
        text.holds.nextLease_at index (text.holds.headLeased head isHead)
      have ends := text.blockEnd_eq 0 index
      have ordered := text.ordered
      have headWithin := text.headWithin (by
        rintro rfl
        cases index)
      rw [Nat.zero_mul, Nat.sub_zero] at ends
      have shown : ∀ control descriptorCount,
          Snapshot.Shows
            { first :=
                { lease := head
                  start := queue.headOffset
                  stop := queue.blockEnd storage.blocks.blockSize head }
              second := following.map fun range : BlockLease =>
                { lease := range
                  start := 0
                  stop := queue.blockEnd storage.blocks.blockSize range }
              control, descriptorCount } queue storage.blocks.blockSize chain := by
        intro control descriptorCount
        refine
          { first := index
            start := rfl
            ordered := by simp only [ends]; omega
            within := by simp only [ends]; omega
            queued := by simp only [ends]; omega
            second := fun range isSecond => ?_ }
        obtain ⟨lease, rfl, rfl⟩ := Option.map_eq_some_iff.mp isSecond
        have here : chain[1]? = some lease.index := nextIndex.symm
        have endsNext := text.blockEnd_eq 1 here
        obtain ⟨inside, _⟩ := List.getElem?_eq_some_iff.mp here
        have full : storage.blocks.blockSize ≤
            queue.stop storage.blocks.blockSize chain.length := by
          have upTo := Nat.mul_le_mul_right storage.blocks.blockSize
            (show 1 ≤ chain.length - 1 by omega)
          unfold stop
          omega
        simp only [ends, endsNext]
        refine ⟨here, trivial, ?_, ?_, ?_⟩ <;> omega
      simp only [isHead, SharedBlocks.nextLease, isNext, Except.mapError] at taken
      split_ifs at taken with crowded queued
      · cases copied : queue.descriptors.copyTo storage.fds scratchLength with
        | error cause =>
            rw [copied] at taken
            cases taken
        | ok items =>
            have whole := FdQueue.copyTo_spec stores.descriptors
              (counted.ge.trans (Nat.not_lt.mp crowded))
            cases copied.symm.trans whole
            cases encoded : Ancillary.encodeRights controlLength fds with
            | error cause =>
                rw [copied] at taken
                simp only [encoded] at taken
                cases taken
            | ok control =>
                rw [copied] at taken
                simp only [encoded, Except.ok.injEq] at taken
                subst taken
                exact ⟨shown _ _, counted,
                  Ancillary.rightsOf_encodeRights encoded⟩
      · simp only [Except.ok.injEq] at taken
        subst taken
        have none : fds = [] := List.length_eq_zero_iff.mp (by omega)
        exact ⟨shown _ _, by rw [none]; rfl, by rw [none]; rfl⟩

end Queue

end Tx
end Wayring
