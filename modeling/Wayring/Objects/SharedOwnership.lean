import Wayring.Foundation.Chain
import Wayring.Foundation.ListWrites
import Wayring.Objects.SharedPool
import Wayring.Objects.TableMap

/-!
# Ownership of shared entries

The entries a namespace owns form a doubly linked chain in insertion order,
and each bucket stamped for the connection chains exactly the owned entries of
its home.  Lookup, insertion, and removal are specified on the list of owned
entries.
-/

namespace Wayring

namespace SharedObjectPool

variable {pool other : SharedObjectPool}

@[simp] theorem length_modifyNode
    (pool : SharedObjectPool) (index : Nat)
    (change : SharedObjectNode → SharedObjectNode) :
    (pool.modifyNode index change).nodes.length = pool.nodes.length :=
  List.length_set

/-- Changing an entry changes that entry alone. -/
theorem node_modifyNode
    {index : Nat}
    (bound : index < pool.nodes.length)
    (change : SharedObjectNode → SharedObjectNode)
    (position : Nat) :
    (pool.modifyNode index change).node position =
      if position = index then change (pool.node index)
      else pool.node position :=
  ListWrites.getD_set bound _ _ position

end SharedObjectPool

namespace SharedNamespace

variable {pool other : SharedObjectPool} {objects : SharedNamespace}
  {owned : List Nat}

/-- The head of a bucket, or nothing when its stamp is another connection's. -/
def currentHead (objects : SharedNamespace) (index : Nat) : Option Nat :=
  if (objects.bucket index).connectionGeneration =
      objects.connectionGeneration then
    (objects.bucket index).head
  else none

/-- The entries of one home bucket. -/
structure BucketChain
    (pool : SharedObjectPool)
    (objects : SharedNamespace)
    (owned : List Nat)
    (position : Nat)
    (chain : List Nat) : Prop where
  linked : Chain.Linked (fun index => (pool.node index).bucketNext)
    (objects.currentHead position) chain
  distinct : chain.Nodup
  mem_iff : ∀ index, index ∈ chain ↔
    index ∈ owned ∧ objects.home (pool.node index).id = position

/-- The namespace owns exactly the entries of a list, in insertion order. -/
structure Owns
    (pool : SharedObjectPool)
    (objects : SharedNamespace)
    (owned : List Nat) : Prop where
  lt_length : ∀ {index}, index ∈ owned → index < pool.nodes.length
  distinct : owned.Nodup
  forward : Chain.Linked (fun index => (pool.node index).ownerNext)
    objects.ownerHead owned
  backward : Chain.Linked (fun index => (pool.node index).ownerPrevious)
    objects.ownerTail owned.reverse
  count_eq : objects.count = owned.length
  count_le : objects.count ≤ objects.quota
  id_ne_zero : ∀ {index}, index ∈ owned → (pool.node index).id ≠ 0
  id_inj : ∀ {left right}, left ∈ owned → right ∈ owned →
    (pool.node left).id = (pool.node right).id → left = right
  power : Table.PowerLength objects.buckets.length
  bucket : ∀ position, position < objects.buckets.length →
    ∃ chain, BucketChain pool objects owned position chain
  cache : objects.cachedId = 0 ∧ objects.cachedIndex = none ∨
    ∃ index, index ∈ owned ∧ (pool.node index).id = objects.cachedId ∧
      objects.cachedIndex = some index
  cursor_ge : serverIdStart ≤ objects.nextServerId
  cursor_le : objects.nextServerId ≤ maxU32 + 1
  cursor : ∀ id, serverIdStart ≤ id → id < objects.nextServerId →
    ∃ index, index ∈ owned ∧ (pool.node index).id = id

/-- The owned entry of an ID. -/
def ownedIndex
    (pool : SharedObjectPool)
    (owned : List Nat)
    (id : Nat) : Option Nat :=
  owned.find? fun index => (pool.node index).id == id

/-- An ID that is not found is in no owned entry. -/
theorem ownedIndex_eq_none
    {id : Nat} :
    ownedIndex pool owned id = none ↔
      ∀ index, index ∈ owned → (pool.node index).id ≠ id := by
  simp [ownedIndex, List.find?_eq_none]

/-- An ID that is found is in an owned entry. -/
theorem mem_of_ownedIndex
    {id index : Nat}
    (found : ownedIndex pool owned id = some index) :
    index ∈ owned ∧ (pool.node index).id = id := by
  refine ⟨List.mem_of_find?_eq_some found, ?_⟩
  simpa using List.find?_some found

namespace Owns

/-- An ID is found at the owned entry that has it. -/
theorem ownedIndex_eq_some_iff
    (owns : Owns pool objects owned)
    {id index : Nat} :
    ownedIndex pool owned id = some index ↔
      index ∈ owned ∧ (pool.node index).id = id := by
  constructor
  · exact mem_of_ownedIndex
  · rintro ⟨member, same⟩
    cases found : ownedIndex pool owned id with
    | none =>
        exact absurd same (ownedIndex_eq_none.mp found index member)
    | some candidate =>
        obtain ⟨candidateMember, candidateId⟩ := mem_of_ownedIndex found
        rw [owns.id_inj candidateMember member (candidateId.trans same.symm)]

/-- Writes to the objects and the generations of entries do not matter, nor does
pool growth. -/
theorem relabel
    (owns : Owns pool objects owned)
    (length : pool.nodes.length ≤ other.nodes.length)
    (same : ∀ index, index ∈ owned → ∃ object generation, other.node index =
      { pool.node index with object, generation }) :
    Owns other objects owned := by
  have ids : ∀ {index}, index ∈ owned →
      (other.node index).id = (pool.node index).id := by
    intro index member
    obtain ⟨_, _, written⟩ := same index member
    rw [written]
  refine
    { lt_length := fun member =>
        Nat.lt_of_lt_of_le (owns.lt_length member) length
      distinct := owns.distinct
      forward := owns.forward.congr fun index member => ?_
      backward := owns.backward.congr fun index member => ?_
      count_eq := owns.count_eq
      count_le := owns.count_le
      id_ne_zero := fun member => ?_
      id_inj := fun leftMember rightMember equal => ?_
      power := owns.power
      bucket := fun position bound => ?_
      cache := ?_
      cursor_ge := owns.cursor_ge
      cursor_le := owns.cursor_le
      cursor := fun id lower upper => ?_ }
  · obtain ⟨_, _, written⟩ := same index member
    rw [written]
  · obtain ⟨_, _, written⟩ := same index (List.mem_reverse.mp member)
    rw [written]
  · rw [ids member]
    exact owns.id_ne_zero member
  · rw [ids leftMember, ids rightMember] at equal
    exact owns.id_inj leftMember rightMember equal
  · obtain ⟨chain, bucketChain⟩ := owns.bucket position bound
    refine ⟨chain, ?_, bucketChain.distinct, fun index => ?_⟩
    · refine bucketChain.linked.congr fun index member => ?_
      obtain ⟨_, _, written⟩ :=
        same index ((bucketChain.mem_iff index).mp member).1
      rw [written]
    · rw [bucketChain.mem_iff]
      refine and_congr_right fun member => ?_
      rw [ids member]
  · rcases owns.cache with empty | ⟨index, member, cachedId, cachedIndex⟩
    · exact Or.inl empty
    · exact Or.inr ⟨index, member, (ids member).trans cachedId, cachedIndex⟩
  · obtain ⟨index, member, sameId⟩ := owns.cursor id lower upper
    exact ⟨index, member, (ids member).trans sameId⟩

/-- Writes to entries of other owners do not matter, nor does pool growth. -/
theorem frame
    (owns : Owns pool objects owned)
    (length : pool.nodes.length ≤ other.nodes.length)
    (same : ∀ index, index ∈ owned → other.node index = pool.node index) :
    Owns other objects owned :=
  owns.relabel length fun index member => ⟨_, _, same index member⟩

end Owns

/-! ## Lookup -/

/-- A bucket walk that passes entries of other IDs. -/
theorem walk_append
    {id fuel : Nat} {previous head : Option Nat} {front back : List Nat}
    (linked : Chain.Linked (fun index => (pool.node index).bucketNext) head
      (front ++ back))
    (others : ∀ index, index ∈ front → (pool.node index).id ≠ id)
    (enough : front.length ≤ fuel) :
    ∃ rest, walk pool id fuel previous head =
        walk pool id (fuel - front.length) (front.getLast?.or previous) rest ∧
      Chain.Linked (fun index => (pool.node index).bucketNext) rest back := by
  induction front generalizing fuel previous head with
  | nil => exact ⟨head, rfl, linked⟩
  | cons index front inductionHypothesis =>
      obtain ⟨atHead, tail⟩ := linked
      cases fuel with
      | zero => simp at enough
      | succ fuel =>
          obtain ⟨rest, walked, remaining⟩ :=
            @inductionHypothesis fuel (some index) _ tail
              (fun other member => others other (by simp [member]))
              (by simpa using enough)
          refine ⟨rest, ?_, remaining⟩
          rw [atHead, walk, if_neg (others index (by simp)), walked,
            List.length_cons, Nat.succ_sub_succ]
          cases front using List.reverseRecOn with
          | nil => rfl
          | append_singleton front last => simp [List.getLast?_cons]

namespace Owns

/-- A bucket chain fits the fuel of a walk. -/
theorem chain_length_le
    (owns : Owns pool objects owned)
    {position : Nat} {chain : List Nat}
    (bucketChain : BucketChain pool objects owned position chain) :
    chain.length ≤ pool.nodes.length :=
  Chain.length_le_of_nodup bucketChain.distinct fun index member =>
    owns.lt_length ((bucketChain.mem_iff index).mp member).1

/-- The home of an ID is a bucket. -/
theorem home_lt
    (owns : Owns pool objects owned)
    (id : Nat) : objects.home id < objects.buckets.length :=
  Table.home_lt owns.power id

/-- A bucket walk finds the owned entry of an ID with its predecessor in the
bucket, or nothing. -/
theorem findUncached_spec
    (owns : Owns pool objects owned)
    (id : Nat) :
    match ownedIndex pool owned id with
    | none => objects.findUncached pool id = none
    | some index =>
        ∃ front back,
          BucketChain pool objects owned (objects.home id)
            (front ++ index :: back) ∧
          objects.findUncached pool id =
            some { index, previous := front.getLast? } := by
  obtain ⟨chain, bucketChain⟩ := owns.bucket (objects.home id) (owns.home_lt id)
  have short := owns.chain_length_le bucketChain
  have linked := bucketChain.linked
  cases found : ownedIndex pool owned id with
  | none =>
      have others := ownedIndex_eq_none.mp found
      simp only [findUncached]
      split_ifs with zero foreign
      · rfl
      · rfl
      · rw [currentHead, if_pos (not_not.mp foreign)] at linked
        rw [← List.append_nil chain] at linked
        obtain ⟨rest, walked, remaining⟩ := walk_append linked
          (fun index member =>
            others index ((bucketChain.mem_iff index).mp member).1)
          (Nat.le_succ_of_le short)
        rw [walked, (Chain.linked_nil _ _).mp remaining]
        cases pool.nodes.length + 1 - chain.length <;> rfl
  | some index =>
      obtain ⟨member, sameId⟩ := mem_of_ownedIndex found
      have inChain : index ∈ chain :=
        (bucketChain.mem_iff index).mpr ⟨member, by rw [sameId]⟩
      obtain ⟨front, back, rfl⟩ := List.append_of_mem inChain
      refine ⟨front, back, bucketChain, ?_⟩
      have nonzero : id ≠ 0 := sameId ▸ owns.id_ne_zero member
      have current : (objects.bucket (objects.home id)).connectionGeneration =
          objects.connectionGeneration := by
        by_contra foreign
        rw [currentHead, if_neg foreign] at linked
        have empty := linked.head_eq
        cases front <;> simp at empty
      rw [currentHead, if_pos current] at linked
      have apart : index ∉ front := by
        intro inFront
        exact List.disjoint_of_nodup_append bucketChain.distinct inFront
          (by simp)
      simp only [List.length_append, List.length_cons] at short
      obtain ⟨rest, walked, remaining⟩ := walk_append linked
        (fun other inFront same => apart (by
          have otherOwned :=
            ((bucketChain.mem_iff other).mp (by simp [inFront])).1
          rwa [owns.id_inj otherOwned member (same.trans sameId.symm)]
            at inFront))
        (by omega : front.length ≤ pool.nodes.length + 1)
      obtain ⟨fuel, remainingFuel⟩ : ∃ fuel,
          pool.nodes.length + 1 - front.length = fuel + 1 :=
        ⟨pool.nodes.length - front.length, by omega⟩
      simp only [findUncached, if_neg nonzero, current, ne_eq,
        not_true_eq_false, if_false]
      rw [walked, remainingFuel, remaining.1, walk, if_pos sameId,
        Option.or_none]

/-- Any owned entry may be cached. -/
theorem recache
    (owns : Owns pool objects owned)
    {cachedId : Nat} {cachedIndex : Option Nat}
    (cache : cachedId = 0 ∧ cachedIndex = none ∨
      ∃ index, index ∈ owned ∧ (pool.node index).id = cachedId ∧
        cachedIndex = some index) :
    Owns pool { objects with cachedId, cachedIndex } owned where
  lt_length := owns.lt_length
  distinct := owns.distinct
  forward := owns.forward
  backward := owns.backward
  count_eq := owns.count_eq
  count_le := owns.count_le
  id_ne_zero := owns.id_ne_zero
  id_inj := owns.id_inj
  power := owns.power
  bucket position bound := by
    obtain ⟨chain, bucketChain⟩ := owns.bucket position bound
    exact ⟨chain, bucketChain.linked, bucketChain.distinct,
      bucketChain.mem_iff⟩
  cache := cache
  cursor_ge := owns.cursor_ge
  cursor_le := owns.cursor_le
  cursor := owns.cursor

/-- A lookup finds the owned entry of an ID, through the cache or not, and
changes nothing but the cache. -/
theorem find_spec
    (owns : Owns pool objects owned)
    (id : Nat) :
    (objects.find pool id).1.map Location.index = ownedIndex pool owned id ∧
      Owns pool (objects.find pool id).2 owned ∧
      ∃ cachedId cachedIndex,
        (objects.find pool id).2 =
          { objects with cachedId, cachedIndex } := by
  unfold find
  by_cases zero : id = 0
  · rw [if_pos zero]
    refine ⟨?_, owns, _, _, rfl⟩
    exact (ownedIndex_eq_none.mpr fun index member =>
      zero ▸ owns.id_ne_zero member).symm
  rw [if_neg zero]
  by_cases cached : objects.cachedId = id
  · rw [if_pos cached]
    refine ⟨?_, owns, _, _, rfl⟩
    rcases owns.cache with ⟨empty, _⟩ | ⟨index, member, sameId, cachedIndex⟩
    · exact absurd (cached.symm.trans empty) zero
    · rw [cachedIndex, owns.ownedIndex_eq_some_iff.mpr
        ⟨member, sameId.trans cached⟩]
      rfl
  · rw [if_neg cached]
    have spec := owns.findUncached_spec id
    cases found : ownedIndex pool owned id with
    | none =>
        rw [found] at spec
        simp only [spec]
        exact ⟨rfl, owns, _, _, rfl⟩
    | some index =>
        rw [found] at spec
        obtain ⟨front, back, _, uncached⟩ := spec
        obtain ⟨member, sameId⟩ := mem_of_ownedIndex found
        simp only [uncached]
        exact ⟨rfl, owns.recache (Or.inr ⟨index, member, sameId, rfl⟩), _, _,
          rfl⟩

/-- The uncached walk and the cached lookup agree. -/
theorem find_eq_findUncached
    (owns : Owns pool objects owned)
    (id : Nat) :
    (objects.find pool id).1.map Location.index =
      (objects.findUncached pool id).map Location.index := by
  rw [(owns.find_spec id).1]
  have spec := owns.findUncached_spec id
  cases found : ownedIndex pool owned id with
  | none =>
      rw [found] at spec
      rw [spec]
      rfl
  | some index =>
      rw [found] at spec
      obtain ⟨_, _, _, uncached⟩ := spec
      rw [uncached]
      rfl

end Owns

/-! ## Insertion -/

theorem bucket_set
    {position : Nat}
    (bound : position < objects.buckets.length)
    (content : SharedObjectBucket) (index : Nat) :
    bucket { objects with buckets := objects.buckets.set position content }
        index =
      if index = position then content else objects.bucket index :=
  ListWrites.getD_set bound content _ index

/-- Making a bucket current changes at most that bucket, and no current
head. -/
theorem activateBucket_spec
    (id : Nat)
    (bound : objects.home id < objects.buckets.length) :
    ∃ buckets, objects.activateBucket id = { objects with buckets } ∧
      buckets.length = objects.buckets.length ∧
      bucket { objects with buckets } (objects.home id) =
        { connectionGeneration := objects.connectionGeneration
          head := objects.currentHead (objects.home id) } ∧
      (∀ index, index ≠ objects.home id →
        bucket { objects with buckets } index = objects.bucket index) ∧
      ∀ bucket, bucket ∈ buckets → bucket ∈ objects.buckets ∨
        bucket.connectionGeneration = objects.connectionGeneration := by
  unfold activateBucket currentHead
  by_cases current : (objects.bucket (objects.home id)).connectionGeneration =
      objects.connectionGeneration
  · rw [if_neg (not_not.mpr current), if_pos current]
    refine ⟨objects.buckets, rfl, rfl, ?_, fun _ _ => rfl,
      fun bucket member => Or.inl member⟩
    rw [← current]
    rfl
  · rw [if_pos current, if_neg current]
    refine ⟨_, rfl, List.length_set, ?_, fun index apart => ?_,
      fun bucket member => ?_⟩
    · rw [bucket_set bound, if_pos rfl]
    · rw [bucket_set bound, if_neg apart]
    · rcases List.mem_or_eq_of_mem_set member with before | rfl
      · exact Or.inl before
      · exact Or.inr rfl

/-- Writing the head of a bucket made current. -/
theorem setBucketHead_activateBucket
    (id : Nat)
    (bound : objects.home id < objects.buckets.length)
    (head : Option Nat) :
    ∃ buckets,
      (objects.activateBucket id).setBucketHead id head =
        { objects with buckets } ∧
      buckets.length = objects.buckets.length ∧
      (∀ position, currentHead { objects with buckets } position =
        if position = objects.home id then head
        else objects.currentHead position) ∧
      ∀ bucket, bucket ∈ buckets → bucket ∈ objects.buckets ∨
        bucket.connectionGeneration = objects.connectionGeneration := by
  obtain ⟨buckets, activated, length, home, others, stamps⟩ :=
    activateBucket_spec id bound
  have sameHome : (objects.activateBucket id).home id = objects.home id := by
    rw [activated]
    simp only [SharedNamespace.home, length]
  have within : objects.home id < buckets.length := by
    rw [length]
    exact bound
  refine ⟨buckets.set (objects.home id)
      { connectionGeneration := objects.connectionGeneration, head }, ?_,
    by rw [List.length_set, length], fun position => ?_,
    fun bucket member => ?_⟩
  · rw [setBucketHead, sameHome, activated, home]
  · have stored := @bucket_set { objects with buckets } _ within
      { connectionGeneration := objects.connectionGeneration, head } position
    by_cases same : position = objects.home id
    · rw [if_pos same] at stored
      rw [currentHead, stored, if_pos rfl, if_pos same]
    · rw [if_neg same, others position same] at stored
      rw [currentHead, stored, if_neg same]
      rfl
  · rcases List.mem_or_eq_of_mem_set member with before | rfl
    · exact stamps bucket before
    · exact Or.inr rfl

/-- What an insertion into an acquired entry does. -/
structure Inserted
    (pool : SharedObjectPool)
    (objects : SharedNamespace)
    (owned : List Nat)
    (index id : Nat)
    (object : Object)
    (result : Handle × SharedNamespace × SharedObjectPool) : Prop where
  handle_eq : result.1 = { id, generation := pool.nextGeneration }
  owns : Owns result.2.2 result.2.1 (owned ++ [index])
  fresh : (result.2.2.node index).id = id ∧
    (result.2.2.node index).generation = pool.nextGeneration ∧
    (result.2.2.node index).object = object
  kept : ∀ position, position ∈ owned →
    (result.2.2.node position).id = (pool.node position).id ∧
    (result.2.2.node position).generation = (pool.node position).generation ∧
    (result.2.2.node position).object = (pool.node position).object
  frame : ∀ position, position ∉ owned → position ≠ index →
    result.2.2.node position = pool.node position
  length_eq : result.2.2.nodes.length = pool.nodes.length
  freeHead_eq : result.2.2.freeHead = pool.freeHead
  availableCount_eq : result.2.2.availableCount = pool.availableCount
  reservedCount_eq : result.2.2.reservedCount = pool.reservedCount
  nextGeneration_eq : result.2.2.nextGeneration =
    nextGeneration pool.nextGeneration
  quota_eq : result.2.1.quota = objects.quota
  connectionGeneration_eq :
    result.2.1.connectionGeneration = objects.connectionGeneration
  stamps : ∀ bucket, bucket ∈ result.2.1.buckets →
    bucket ∈ objects.buckets ∨
      bucket.connectionGeneration = objects.connectionGeneration
  length_buckets : result.2.1.buckets.length = objects.buckets.length

/-- The entry an insertion writes. -/
def insertedNode
    (pool : SharedObjectPool)
    (objects : SharedNamespace)
    (id : Nat)
    (interface : Interface)
    (version : Nat)
    (context : Option Nat) : SharedObjectNode where
  object := { interface, version, context }
  id := id
  generation := pool.nextGeneration
  bucketNext := objects.currentHead (objects.home id)
  ownerPrevious := objects.ownerTail
  ownerNext := none

/-- The entries after an insertion. -/
def insertedPool
    (pool : SharedObjectPool)
    (objects : SharedNamespace)
    (index : Nat)
    (node : SharedObjectNode) : SharedObjectPool :=
  let written := { pool with
    nextGeneration := nextGeneration pool.nextGeneration }.modifyNode index
      fun _ => node
  match objects.ownerTail with
  | none => written
  | some tail => written.modifyNode tail fun node =>
      { node with ownerNext := some index }

/-- Where an acquired entry is linked. -/
theorem insertAcquired_eq
    (index id : Nat)
    (bound : objects.home id < objects.buckets.length)
    (interface : Interface) (version : Nat) (context : Option Nat) :
    ∃ buckets,
      objects.insertAcquired pool index id interface version context =
        ({ id, generation := pool.nextGeneration },
          { objects with
            buckets
            ownerHead :=
              if objects.ownerTail = none then some index
              else objects.ownerHead
            ownerTail := some index
            count := objects.count + 1 },
          insertedPool pool objects index
            (insertedNode pool objects id interface version context)) ∧
      buckets.length = objects.buckets.length ∧
      (∀ position, currentHead { objects with buckets } position =
        if position = objects.home id then some index
        else objects.currentHead position) ∧
      ∀ bucket, bucket ∈ buckets → bucket ∈ objects.buckets ∨
        bucket.connectionGeneration = objects.connectionGeneration := by
  obtain ⟨buckets, activated, length, home, _, _⟩ :=
    activateBucket_spec id bound
  obtain ⟨written, set, writtenLength, heads, stamps⟩ :=
    setBucketHead_activateBucket id bound (some index)
  have sameHome : SharedNamespace.home { objects with buckets } id =
      objects.home id := by
    simp only [SharedNamespace.home, length]
  refine ⟨written, ?_, writtenLength, heads, stamps⟩
  rw [activated] at set
  simp only [insertAcquired, activated, sameHome, home, set,
    SharedObjectPool.takeGeneration, insertedPool, insertedNode]
  cases objects.ownerTail <;> rfl

theorem node_insertedPool
    (owns : Owns pool objects owned)
    {index : Nat}
    (bound : index < pool.nodes.length)
    (fresh : index ∉ owned)
    (node : SharedObjectNode) (position : Nat) :
    (insertedPool pool objects index node).node position =
      if position = index then node
      else if objects.ownerTail = some position then
        { pool.node position with ownerNext := some index }
      else pool.node position := by
  have written (position : Nat) :=
    @SharedObjectPool.node_modifyNode
      { pool with nextGeneration := nextGeneration pool.nextGeneration }
      index bound (fun _ => node) position
  unfold insertedPool
  cases tail : objects.ownerTail with
  | none =>
      simp only [written, reduceCtorEq, if_false]
      rfl
  | some last =>
      have member : last ∈ owned := by
        have head := owns.backward.head_eq
        rw [tail] at head
        exact List.mem_reverse.mp (List.mem_of_mem_head? head.symm)
      have apart : last ≠ index := ne_of_mem_of_not_mem member fresh
      simp only
      rw [SharedObjectPool.node_modifyNode
        (by simpa using owns.lt_length member), written, written]
      by_cases isLast : position = last
      · subst isLast
        simp only [if_pos, if_neg apart]
        rfl
      · simp only [if_neg isLast, Option.some.injEq, Ne.symm isLast, if_false]
        rfl

/-- The tail link names the last owned entry. -/
theorem Owns.ownerTail_eq
    (owns : Owns pool objects owned) :
    objects.ownerTail = owned.getLast? := by
  rw [owns.backward.head_eq, List.head?_reverse]

theorem insertedPool_fields
    (index : Nat) (node : SharedObjectNode) :
    (insertedPool pool objects index node).nodes.length = pool.nodes.length ∧
      (insertedPool pool objects index node).freeHead = pool.freeHead ∧
      (insertedPool pool objects index node).availableCount =
        pool.availableCount ∧
      (insertedPool pool objects index node).reservedCount =
        pool.reservedCount ∧
      (insertedPool pool objects index node).nextGeneration =
        nextGeneration pool.nextGeneration := by
  unfold insertedPool
  cases objects.ownerTail <;> simp [SharedObjectPool.modifyNode]

/-- An insertion into an acquired entry appends it to the owned entries. -/
theorem insertAcquired_spec
    (owns : Owns pool objects owned)
    {index id : Nat}
    (bound : index < pool.nodes.length)
    (fresh : index ∉ owned)
    (nonzero : id ≠ 0)
    (absent : ownedIndex pool owned id = none)
    (room : objects.count < objects.quota)
    (interface : Interface) (version : Nat) (context : Option Nat) :
    Inserted pool objects owned index id { interface, version, context }
      (objects.insertAcquired pool index id interface version context) := by
  obtain ⟨buckets, equation, length, heads, stamps⟩ :=
    @insertAcquired_eq pool objects index id (owns.home_lt id) interface
      version context
  obtain ⟨lengths, freeHead, available, reserved, generation⟩ :=
    @insertedPool_fields pool objects index
      (insertedNode pool objects id interface version context)
  rw [equation]
  generalize written : insertedPool pool objects index
    (insertedNode pool objects id interface version context) = result
  rw [written] at lengths freeHead available reserved generation
  have nodes (position : Nat) : result.node position =
      if position = index then
        insertedNode pool objects id interface version context
      else if objects.ownerTail = some position then
        { pool.node position with ownerNext := some index }
      else pool.node position := by
    rw [← written]
    exact node_insertedPool owns bound fresh _ position
  have atIndex : result.node index =
      insertedNode pool objects id interface version context := by
    rw [nodes, if_pos rfl]
  have kept (position : Nat) (member : position ∈ owned) :
      (result.node position).id = (pool.node position).id ∧
        (result.node position).generation = (pool.node position).generation ∧
        (result.node position).object = (pool.node position).object ∧
        (result.node position).bucketNext =
          (pool.node position).bucketNext ∧
        (result.node position).ownerPrevious =
          (pool.node position).ownerPrevious := by
    rw [nodes, if_neg (ne_of_mem_of_not_mem member fresh)]
    split_ifs <;> exact ⟨rfl, rfl, rfl, rfl, rfl⟩
  have others := ownedIndex_eq_none.mp absent
  have sameHome : SharedNamespace.home { objects with buckets } =
      objects.home := by
    funext other
    simp only [SharedNamespace.home, length]
  refine ⟨rfl, ?_, by rw [atIndex]; exact ⟨rfl, rfl, rfl⟩,
    fun position member => ⟨(kept position member).1,
      (kept position member).2.1, (kept position member).2.2.1⟩,
    fun position outside apart => ?_, lengths, freeHead, available, reserved,
    generation, rfl, rfl, stamps, length⟩
  · refine
      { lt_length := fun {position} member => ?_
        distinct := ?_
        forward := ?_
        backward := ?_
        count_eq := by simp [owns.count_eq]
        count_le := room
        id_ne_zero := fun {position} member => ?_
        id_inj := fun {left right} leftMember rightMember same => ?_
        power := by
          rw [length]
          exact owns.power
        bucket := fun position positionBound => ?_
        cache := ?_
        cursor_ge := owns.cursor_ge
        cursor_le := owns.cursor_le
        cursor := fun other lower upper => ?_ }
    · rw [lengths]
      rcases List.mem_append.mp member with before | last
      · exact owns.lt_length before
      · rw [List.mem_singleton.mp last]
        exact bound
    · rw [List.nodup_append]
      refine ⟨owns.distinct, by simp, fun left leftMember right last => ?_⟩
      rw [List.mem_singleton.mp last]
      exact ne_of_mem_of_not_mem leftMember fresh
    · cases owned using List.reverseRecOn with
      | nil =>
          have noTail : objects.ownerTail = none := owns.ownerTail_eq
          rw [if_pos noTail]
          refine ⟨rfl, ?_⟩
          simp only [atIndex]
          rfl
      | append_singleton front tail =>
          have isTail : objects.ownerTail = some tail := by
            rw [owns.ownerTail_eq, List.getLast?_concat]
          rw [if_neg (by simp [isTail]), List.append_assoc,
            List.singleton_append]
          refine (owns.forward.append owns.distinct fresh).congr
            fun position _ => ?_
          have tailApart : tail ≠ index :=
            ne_of_mem_of_not_mem (by simp) fresh
          by_cases atTail : position = tail
          · subst atTail
            rw [Function.update_self, nodes, if_neg tailApart, if_pos isTail]
          · rw [Function.update_of_ne atTail]
            by_cases new : position = index
            · rw [new, Function.update_self, atIndex]
              rfl
            · rw [Function.update_of_ne new, nodes, if_neg new, if_neg]
              rw [isTail, Option.some.injEq]
              exact Ne.symm atTail
    · rw [List.reverse_append, List.reverse_singleton, List.singleton_append]
      refine ⟨rfl, ?_⟩
      simp only [atIndex]
      exact owns.backward.congr fun position member =>
        (kept position (List.mem_reverse.mp member)).2.2.2.2
    · rcases List.mem_append.mp member with before | last
      · rw [(kept position before).1]
        exact owns.id_ne_zero before
      · rw [List.mem_singleton.mp last, atIndex]
        exact nonzero
    · rcases List.mem_append.mp leftMember with leftBefore | leftLast <;>
        rcases List.mem_append.mp rightMember with rightBefore | rightLast
      · rw [(kept left leftBefore).1, (kept right rightBefore).1] at same
        exact owns.id_inj leftBefore rightBefore same
      · rw [List.mem_singleton.mp rightLast, atIndex,
          (kept left leftBefore).1] at same
        exact absurd same (others left leftBefore)
      · rw [List.mem_singleton.mp leftLast, atIndex,
          (kept right rightBefore).1] at same
        exact absurd same.symm (others right rightBefore)
      · rw [List.mem_singleton.mp leftLast, List.mem_singleton.mp rightLast]
    · rw [length] at positionBound
      obtain ⟨chain, bucketChain⟩ := owns.bucket position positionBound
      have linked : Chain.Linked (fun index => (result.node index).bucketNext)
          (objects.currentHead position) chain :=
        bucketChain.linked.congr fun entry member =>
          (kept entry ((bucketChain.mem_iff entry).mp member).1).2.2.2.1
      by_cases home : position = objects.home id
      · refine ⟨index :: chain, ?_, ?_, fun entry => ?_⟩
        · have head := heads position
          rw [if_pos home] at head
          refine ⟨head, ?_⟩
          simp only [atIndex, insertedNode, ← home]
          exact linked
        · rw [List.nodup_cons]
          refine ⟨fun member => fresh ?_, bucketChain.distinct⟩
          exact ((bucketChain.mem_iff index).mp member).1
        · rw [List.mem_cons, List.mem_append, List.mem_singleton,
            bucketChain.mem_iff]
          by_cases new : entry = index
          · subst new
            simp only [atIndex, insertedNode, true_or, or_true, true_and,
              true_iff]
            rw [home]
            exact congrFun sameHome id
          · simp only [new, false_or, or_false]
            refine and_congr_right fun member => ?_
            rw [(kept entry member).1]
            exact Iff.of_eq (congrArg (· = position)
              (congrFun sameHome _).symm)
      · refine ⟨chain, ?_, bucketChain.distinct, fun entry => ?_⟩
        · have head := heads position
          rw [if_neg home] at head
          simp only [currentHead] at head linked ⊢
          rw [← head] at linked
          exact linked
        · rw [bucketChain.mem_iff, List.mem_append, List.mem_singleton]
          by_cases new : entry = index
          · subst new
            simp only [fresh, false_and, or_true, true_and, false_iff, atIndex,
              insertedNode]
            intro same
            exact home (same.symm.trans (congrFun sameHome id))
          · simp only [new, or_false]
            refine and_congr_right fun member => ?_
            rw [(kept entry member).1]
            exact Iff.of_eq (congrArg (· = position)
              (congrFun sameHome _).symm)
    · rcases owns.cache with empty | ⟨entry, member, sameId, cached⟩
      · exact Or.inl empty
      · exact Or.inr ⟨entry, by simp [member],
          by rw [(kept entry member).1, sameId], cached⟩
    · obtain ⟨entry, member, sameId⟩ := owns.cursor other lower upper
      exact ⟨entry, by simp [member], by rw [(kept entry member).1, sameId]⟩
  · rw [nodes, if_neg apart, if_neg]
    intro isTail
    apply outside
    rw [owns.ownerTail_eq] at isTail
    exact List.mem_of_getLast? isTail

end SharedNamespace
end Wayring
