import Wayring.Transport.QueueRuns

/-!
# Contents of a queue

What can be read from a queue: its bytes, block by block along the chain, the
fill of the tail, and its descriptors.
-/

namespace Wayring
namespace Tx

open LeasePool (Leases)

/-- What a queue holds. -/
structure Contents where
  bytes : List UInt8
  tailUsed : Nat
  blockCount : Nat
  byteCount : Nat
  descriptors : List Fd
  deriving DecidableEq, Repr

namespace Queue

/-- The bytes of the chain from a block on, of which the first is read from
`start`. -/
def walk
    (queue : Queue)
    (blocks : SharedBlocks) :
    Nat → Nat → Option BlockLease → Except Error (List (List UInt8))
  | _, _, none => .ok []
  | 0, _, some _ => .error .unreachable
  | fuel + 1, start, some lease =>
      match blocks.nextLease lease with
      | .error cause => .error cause
      | .ok next =>
          let range : Range :=
            { lease, start, stop := queue.blockEnd blocks.blockSize lease }
          (walk queue blocks fuel 0 next).map (range.read blocks :: ·)

/-- What is on a queue. -/
def contents (queue : Queue) (storage : Storage) : Except Error Contents :=
  match queue.walk storage.blocks storage.blocks.pool.nodes.length
      queue.headOffset queue.head with
  | .error cause => .error cause
  | .ok pieces =>
      match queue.descriptors.copyTo storage.fds queue.descriptors.count with
      | .error cause => .error cause
      | .ok descriptors =>
          .ok
            { bytes := pieces.flatten
              tailUsed := queue.tailUsed
              blockCount := pieces.length
              byteCount := queue.byteCount
              descriptors }

variable {queue : Queue} {blocks : SharedBlocks} {chain : List Nat}
  {contents : List (List UInt8)} {bytes : List UInt8}

/-- A block of a chain is read as what the chain holds there. -/
theorem bytes_eq
    {head tail : Option BlockLease} {lease : BlockLease}
    {before after : List (List UInt8)} {content : List UInt8}
    (holds : LeasePool.Holds (fun _ => ()) blocks.pool.cell head tail chain
      (before ++ content :: after))
    (found : chain[before.length]? = some lease.index) :
    blocks.bytes lease = content := by
  have there := congrArg (fun items => items[before.length]?) holds.content_eq
  simp only [List.getElem?_map, found, Option.map_some,
    List.getElem?_append_right le_rfl, Nat.sub_self,
    List.getElem?_cons_zero] at there
  obtain ⟨cell, isCell, rfl⟩ := Option.map_eq_some_iff.mp
    (Option.some.inj there)
  obtain ⟨node, isNode, _, rfl⟩ := LeasePool.cell_eq_some_iff.mp isCell
  simp [SharedBlocks.bytes, isNode]

/-- Walking a chain reads the queued bytes. -/
theorem walk_spec
    {fuel start : Nat} {current : Option BlockLease}
    {before after : List (List UInt8)}
    (text : Text queue blocks chain (before ++ after) bytes)
    (wellFormed : blocks.WellFormed)
    (found : current.map LeasePool.Lease.index = chain[before.length]?)
    (leased : ∀ lease, current = some lease →
      Leases (fun _ => ()) blocks.pool.cell lease)
    (fuelled : after.length ≤ fuel)
    (within : start ≤ blocks.blockSize)
    (inside : after ≠ [] → before.length * blocks.blockSize + start ≤
      queue.stop blocks.blockSize chain.length) :
    ∃ pieces,
      queue.walk blocks fuel start current = .ok pieces ∧
      pieces.length = after.length ∧
      pieces.flatten = ((before ++ after).flatten.take
          (queue.stop blocks.blockSize chain.length)).drop
        (before.length * blocks.blockSize + start) := by
  have uniform := SharedBlocks.uniform wellFormed text.holds
  have length := text.holds.length_eq
  rw [List.length_append] at length
  induction after generalizing fuel start current before with
  | nil =>
      rw [List.getElem?_eq_none (by simp only [List.length_nil] at length; omega)]
        at found
      have none := Option.map_eq_none_iff.mp found
      subst none
      refine ⟨[], by simp [walk], rfl, ?_⟩
      rw [List.drop_eq_nil_of_le, List.flatten_nil]
      rw [List.length_take, List.append_nil, Segments.length_flatten
        (by simpa using uniform)]
      omega
  | cons content after walk_ih =>
      rw [List.length_cons] at length fuelled
      obtain ⟨fuel, rfl⟩ : ∃ less, fuel = less + 1 := ⟨fuel - 1, by omega⟩
      rw [List.getElem?_eq_getElem (by omega)] at found
      obtain ⟨lease, rfl, index_eq⟩ := Option.map_eq_some_iff.mp found
      have foundLease : chain[before.length]? = some lease.index := by
        rw [index_eq]
        exact List.getElem?_eq_getElem (by omega)
      obtain ⟨next, nextLease, nextIndex, nextLeased⟩ :=
        text.holds.nextLease_at foundLease (leased lease rfl)
      have split : before ++ content :: after =
          before ++ [content] ++ after := by simp
      rw [split] at text uniform
      have positionLast : before.length * blocks.blockSize ≤
          (chain.length - 1) * blocks.blockSize :=
        Nat.mul_le_mul_right _ (by omega)
      obtain ⟨pieces, walked, count, flatten⟩ := @walk_ih fuel 0 next
        (before ++ [content]) text (by simpa using nextIndex) nextLeased
        (by omega) (Nat.zero_le _)
        (fun more => by
          have upTo := Nat.mul_le_mul_right blocks.blockSize
            (show before.length + 1 ≤ chain.length - 1 by
              have := List.length_pos_of_ne_nil more
              omega)
          rw [List.length_append, List.length_singleton, stop]
          omega)
        uniform (by rw [List.length_append, List.length_singleton]; omega)
      rw [← split] at text uniform flatten
      let range : Range :=
        { lease, start, stop := queue.blockEnd blocks.blockSize lease }
      refine ⟨range.read blocks :: pieces, ?_, by simp [count], ?_⟩
      · simp only [walk, SharedBlocks.nextLease, nextLease, Except.mapError,
          walked, Except.map, range]
      · have size := uniform content (by simp)
        have whole : content.take (min blocks.blockSize
              (queue.stop blocks.blockSize chain.length -
                before.length * blocks.blockSize)) =
            content.take (queue.stop blocks.blockSize chain.length -
              before.length * blocks.blockSize) := by
          rw [Nat.min_comm, ← List.take_take, List.take_of_length_le size.le]
        rw [List.flatten_cons, flatten, Segments.drop_take_flatten
          (fun other member => uniform other (List.mem_append_left _ member))
          size within (inside (by simp))]
        simp only [range, Range.read, bytes_eq text.holds foundLease,
          text.blockEnd_eq before.length foundLease, whole,
          List.length_append, List.length_singleton, Nat.add_zero]

/-- What a settled queue holds can be read from it. -/
theorem Stores.contents_eq
    {storage : Storage} {fds : List Fd} {fdChain : List Nat}
    (stores : queue.Stores storage bytes fds chain fdChain)
    (wellFormed : storage.WellFormed) :
    queue.contents storage = .ok
      { bytes
        tailUsed := queue.tailUsed
        blockCount := chain.length
        byteCount := queue.byteCount
        descriptors := fds } := by
  obtain ⟨contents, text⟩ := stores.text
  have first : queue.head.map LeasePool.Lease.index = chain[0]? := by
    rw [← List.head?_eq_getElem?]
    exact text.holds.linked.head_eq
  have count := text.holds.length_eq
  have bound := text.holds.length_le
  have inside : queue.headOffset ≤ storage.blocks.blockSize := by
    by_cases none : chain = []
    · rw [(text.empty none).1]
      exact Nat.zero_le _
    · exact (text.headWithin none).le
  obtain ⟨pieces, walked, length, flatten⟩ := @walk_spec queue storage.blocks
    chain bytes storage.blocks.pool.nodes.length queue.headOffset queue.head []
    contents text wellFormed.blocks first text.holds.headLeased (by omega)
    inside fun _ => by
      rw [List.length_nil, Nat.zero_mul, Nat.zero_add]
      exact text.ordered
  rw [List.nil_append, List.length_nil, Nat.zero_mul, Nat.zero_add,
    text.bytes_eq] at flatten
  have copied : queue.descriptors.copyTo storage.fds queue.descriptors.count =
      .ok fds :=
    FdQueue.copyTo_spec stores.descriptors stores.descriptors.count.ge
  simp only [Queue.contents, walked, copied, flatten, length, count]

end Queue
end Tx
end Wayring
