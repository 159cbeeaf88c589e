import Wayring.Objects.SharedOwnership

/-!
# Removal of shared entries

Removal unlinks an entry from its bucket and from both directions of the owner
chain, and pushes it on the free list.  Teardown pushes a whole owner chain.
-/

namespace Wayring

namespace SharedObjectPool

/-- Write to an entry if a link names one. -/
def relink
    (pool : SharedObjectPool)
    (target : Option Nat)
    (change : SharedObjectNode → SharedObjectNode) : SharedObjectPool :=
  match target with
  | none => pool
  | some index => pool.modifyNode index change

/-- A link is written to its entry alone. -/
theorem node_relink
    {pool : SharedObjectPool} {target : Option Nat}
    (bound : ∀ index, target = some index → index < pool.nodes.length)
    (change : SharedObjectNode → SharedObjectNode)
    (position : Nat) :
    (pool.relink target change).node position =
      if target = some position then change (pool.node position)
      else pool.node position := by
  cases target with
  | none => rfl
  | some index =>
      rw [relink, node_modifyNode (bound index rfl)]
      by_cases same : position = index
      · rw [if_pos same, if_pos (by rw [same]), same]
      · rw [if_neg same, if_neg (by simpa using Ne.symm same)]

@[simp] theorem relink_length
    (pool : SharedObjectPool) (target : Option Nat)
    (change : SharedObjectNode → SharedObjectNode) :
    (pool.relink target change).nodes.length = pool.nodes.length := by
  cases target <;> simp [relink]

/-- The fields a link write leaves alone. -/
theorem relink_fields
    (pool : SharedObjectPool) (target : Option Nat)
    (change : SharedObjectNode → SharedObjectNode) :
    (pool.relink target change).freeHead = pool.freeHead ∧
      (pool.relink target change).availableCount = pool.availableCount ∧
      (pool.relink target change).reservedCount = pool.reservedCount ∧
      (pool.relink target change).nextGeneration = pool.nextGeneration := by
  cases target <;> exact ⟨rfl, rfl, rfl, rfl⟩

/-- The link writes that take an entry out of its chains. -/
def unlink
    (pool : SharedObjectPool)
    (index : Nat)
    (previous : Option Nat) : SharedObjectPool :=
  let node := pool.node index
  ((pool.relink previous fun before =>
      { before with bucketNext := node.bucketNext }).relink node.ownerPrevious
      fun before => { before with ownerNext := node.ownerNext }).relink
      node.ownerNext
      fun after => { after with ownerPrevious := node.ownerPrevious }

theorem unlink_fields
    (pool : SharedObjectPool) (index : Nat) (previous : Option Nat) :
    (pool.unlink index previous).nodes.length = pool.nodes.length ∧
      (pool.unlink index previous).freeHead = pool.freeHead ∧
      (pool.unlink index previous).availableCount = pool.availableCount ∧
      (pool.unlink index previous).reservedCount = pool.reservedCount ∧
      (pool.unlink index previous).nextGeneration = pool.nextGeneration := by
  simp only [unlink, relink_length, relink_fields, and_self]

/-- Unlinking an entry changes its neighbours alone. -/
theorem node_unlink
    {pool : SharedObjectPool} {index : Nat} {previous : Option Nat}
    (previousBound : ∀ before, previous = some before →
      before < pool.nodes.length)
    (ownerPreviousBound : ∀ before,
      (pool.node index).ownerPrevious = some before →
        before < pool.nodes.length)
    (ownerNextBound : ∀ after,
      (pool.node index).ownerNext = some after → after < pool.nodes.length)
    (position : Nat) :
    (pool.unlink index previous).node position =
      { pool.node position with
        bucketNext :=
          if previous = some position then (pool.node index).bucketNext
          else (pool.node position).bucketNext
        ownerNext :=
          if (pool.node index).ownerPrevious = some position then
            (pool.node index).ownerNext
          else (pool.node position).ownerNext
        ownerPrevious :=
          if (pool.node index).ownerNext = some position then
            (pool.node index).ownerPrevious
          else (pool.node position).ownerPrevious } := by
  unfold unlink
  rw [node_relink (by simpa using ownerNextBound),
    node_relink (by simpa using ownerPreviousBound),
    node_relink previousBound]
  split_ifs <;> rfl

/-- A released entry is on the free list. -/
theorem node_release
    {pool : SharedObjectPool} {index : Nat}
    (bound : index < pool.nodes.length)
    (position : Nat) :
    (pool.release index).node position =
      { pool.node position with
        ownerNext :=
          if position = index then pool.freeHead
          else (pool.node position).ownerNext } := by
  have written := node_modifyNode bound
    (fun node => { node with ownerNext := pool.freeHead }) position
  refine Eq.trans (show (pool.release index).node position =
    (pool.modifyNode index fun node =>
      { node with ownerNext := pool.freeHead }).node position from rfl) ?_
  rw [written]
  split_ifs with same
  · rw [same]
  · rfl

end SharedObjectPool

namespace SharedNamespace

variable {pool : SharedObjectPool} {objects : SharedNamespace}
  {owned : List Nat}

/-- What the removal of an owned entry does. -/
theorem remove_eq
    {handle : Handle} {index : Nat} {previous : Option Nat}
    (found : objects.findUncached pool handle.id = some { index, previous })
    (current : (pool.node index).generation = handle.generation)
    (bound : objects.home handle.id < objects.buckets.length) :
    ∃ buckets cachedId cachedIndex,
      objects.remove pool handle =
        (some (pool.node index).object,
          { objects with
            buckets, cachedId, cachedIndex
            ownerHead :=
              if (pool.node index).ownerPrevious = none then
                (pool.node index).ownerNext
              else objects.ownerHead
            ownerTail :=
              if (pool.node index).ownerNext = none then
                (pool.node index).ownerPrevious
              else objects.ownerTail
            count := objects.count - 1
            nextServerId :=
              if handle.id ≥ serverIdStart then
                min objects.nextServerId handle.id
              else objects.nextServerId },
          (pool.unlink index previous).release index) ∧
      buckets.length = objects.buckets.length ∧
      (∀ position, currentHead { objects with buckets } position =
        if position = objects.home handle.id ∧ previous = none then
          (pool.node index).bucketNext
        else objects.currentHead position) ∧
      (∀ bucket, bucket ∈ buckets → bucket ∈ objects.buckets ∨
        bucket.connectionGeneration = objects.connectionGeneration) ∧
      (objects.cachedIndex = some index ∧ cachedId = 0 ∧ cachedIndex = none ∨
        objects.cachedIndex ≠ some index ∧ cachedId = objects.cachedId ∧
          cachedIndex = objects.cachedIndex) := by
  obtain ⟨cachedId, cachedIndex, uncached, cache⟩ : ∃ cachedId cachedIndex,
      (if objects.cachedIndex = some index then
          { objects with cachedId := 0, cachedIndex := none }
        else objects) = { objects with cachedId, cachedIndex } ∧
      (objects.cachedIndex = some index ∧ cachedId = 0 ∧ cachedIndex = none ∨
        objects.cachedIndex ≠ some index ∧ cachedId = objects.cachedId ∧
          cachedIndex = objects.cachedIndex) := by
    by_cases cached : objects.cachedIndex = some index
    · exact ⟨0, none, if_pos cached, Or.inl ⟨cached, rfl, rfl⟩⟩
    · exact ⟨_, _, if_neg cached, Or.inr ⟨cached, rfl, rfl⟩⟩
  cases previous with
  | none =>
      obtain ⟨buckets, written, length, heads, stamps⟩ :=
        @setBucketHead_activateBucket { objects with cachedId, cachedIndex }
          handle.id bound (pool.node index).bucketNext
      refine ⟨buckets, cachedId, cachedIndex, ?_, length, fun position => ?_,
        stamps, cache⟩
      · simp only [remove, found, current, ne_eq, not_true_eq_false, if_false,
          uncached, written, SharedObjectPool.unlink, SharedObjectPool.relink]
        cases (pool.node index).ownerPrevious <;>
          cases (pool.node index).ownerNext <;> rfl
      · have head := heads position
        simp only [and_true]
        exact head
  | some before =>
      refine ⟨objects.buckets, cachedId, cachedIndex, ?_, rfl,
        fun position => ?_, fun bucket member => Or.inl member, cache⟩
      · simp only [remove, found, current, ne_eq, not_true_eq_false, if_false,
          uncached, SharedObjectPool.unlink, SharedObjectPool.relink]
        cases (pool.node index).ownerPrevious <;>
          cases (pool.node index).ownerNext <;> rfl
      · simp only [reduceCtorEq, and_false, if_false]

/-- What a removal does. -/
structure Removed
    (pool : SharedObjectPool)
    (objects : SharedNamespace)
    (owned : List Nat)
    (index : Nat)
    (result : SharedNamespace × SharedObjectPool) : Prop where
  owns : Owns result.2 result.1 (owned.erase index)
  kept : ∀ position,
    (result.2.node position).id = (pool.node position).id ∧
    (result.2.node position).generation = (pool.node position).generation ∧
    (result.2.node position).object = (pool.node position).object
  frame : ∀ position, position ∉ owned →
    result.2.node position = pool.node position
  freed : (result.2.node index).ownerNext = pool.freeHead
  length_eq : result.2.nodes.length = pool.nodes.length
  freeHead_eq : result.2.freeHead = some index
  availableCount_eq : result.2.availableCount = pool.availableCount + 1
  reservedCount_eq : result.2.reservedCount = pool.reservedCount
  nextGeneration_eq : result.2.nextGeneration = pool.nextGeneration
  quota_eq : result.1.quota = objects.quota
  connectionGeneration_eq :
    result.1.connectionGeneration = objects.connectionGeneration
  stamps : ∀ bucket, bucket ∈ result.1.buckets →
    bucket ∈ objects.buckets ∨
      bucket.connectionGeneration = objects.connectionGeneration
  length_buckets : result.1.buckets.length = objects.buckets.length

/-- The links of an owned entry are its neighbours in the owner chain. -/
theorem Owns.neighbours
    {front back : List Nat} {index : Nat}
    (owns : Owns pool objects (front ++ index :: back)) :
    (pool.node index).ownerPrevious = front.getLast? ∧
      (pool.node index).ownerNext = back.head? := by
  have backward := owns.backward
  rw [List.reverse_append, List.reverse_cons, List.append_assoc,
    List.singleton_append] at backward
  refine ⟨?_, owns.forward.next_eq⟩
  rw [backward.next_eq, List.head?_reverse]

/-- Unlinking an owned entry leaves the other owned entries chained. -/
theorem removed_of_unlink
    {front back bucketFront bucketBack : List Nat} {index : Nat}
    {handle : Handle}
    (owns : Owns pool objects (front ++ index :: back))
    (bucketChain : BucketChain pool objects (front ++ index :: back)
      (objects.home handle.id) (bucketFront ++ index :: bucketBack))
    (sameId : (pool.node index).id = handle.id)
    {buckets : List SharedObjectBucket}
    {cachedId : Nat} {cachedIndex : Option Nat}
    (length : buckets.length = objects.buckets.length)
    (heads : ∀ position, currentHead { objects with buckets } position =
      if position = objects.home handle.id ∧ bucketFront.getLast? = none then
        (pool.node index).bucketNext
      else objects.currentHead position)
    (stamps : ∀ bucket, bucket ∈ buckets → bucket ∈ objects.buckets ∨
      bucket.connectionGeneration = objects.connectionGeneration)
    (cache : objects.cachedIndex = some index ∧ cachedId = 0 ∧
        cachedIndex = none ∨
      objects.cachedIndex ≠ some index ∧ cachedId = objects.cachedId ∧
        cachedIndex = objects.cachedIndex) :
    Removed pool objects (front ++ index :: back) index
      ({ objects with
          buckets, cachedId, cachedIndex
          ownerHead :=
            if (pool.node index).ownerPrevious = none then
              (pool.node index).ownerNext
            else objects.ownerHead
          ownerTail :=
            if (pool.node index).ownerNext = none then
              (pool.node index).ownerPrevious
            else objects.ownerTail
          count := objects.count - 1
          nextServerId :=
            if handle.id ≥ serverIdStart then
              min objects.nextServerId handle.id
            else objects.nextServerId },
        (pool.unlink index bucketFront.getLast?).release index) := by
  obtain ⟨ownerPrevious, ownerNext⟩ := owns.neighbours
  have indexOwned : index ∈ front ++ index :: back := by simp
  have indexBound := owns.lt_length indexOwned
  have bucketOwned (position : Nat)
      (member : position ∈ bucketFront ++ index :: bucketBack) :
      position ∈ front ++ index :: back :=
    ((bucketChain.mem_iff position).mp member).1
  have previousBound (before : Nat)
      (last : bucketFront.getLast? = some before) :
      before ∈ front ++ index :: back :=
    bucketOwned before (by simp [List.mem_of_getLast? last])
  have ownerPreviousBound (before : Nat)
      (last : (pool.node index).ownerPrevious = some before) :
      before ∈ front := by
    rw [ownerPrevious] at last
    exact List.mem_of_getLast? last
  have ownerNextBound (after : Nat)
      (first : (pool.node index).ownerNext = some after) : after ∈ back := by
    rw [ownerNext] at first
    exact List.mem_of_mem_head? first
  have unlinked := @SharedObjectPool.node_unlink pool index
    bucketFront.getLast?
    (fun before last => owns.lt_length (previousBound before last))
    (fun before last =>
      owns.lt_length (by simp [ownerPreviousBound before last]))
    (fun after first =>
      owns.lt_length (by simp [ownerNextBound after first]))
  obtain ⟨lengths, freeHead, available, reserved, generation⟩ :=
    pool.unlink_fields index bucketFront.getLast?
  have released := @SharedObjectPool.node_release
    (pool.unlink index bucketFront.getLast?) index
    (by rw [lengths]; exact indexBound)
  rw [freeHead] at released
  generalize result : (pool.unlink index bucketFront.getLast?).release index =
    final at released
  have nodes (position : Nat) : final.node position =
      { pool.node position with
        bucketNext :=
          if bucketFront.getLast? = some position then
            (pool.node index).bucketNext
          else (pool.node position).bucketNext
        ownerNext :=
          if position = index then pool.freeHead
          else if (pool.node index).ownerPrevious = some position then
            (pool.node index).ownerNext
          else (pool.node position).ownerNext
        ownerPrevious :=
          if (pool.node index).ownerNext = some position then
            (pool.node index).ownerPrevious
          else (pool.node position).ownerPrevious } := by
    rw [released, unlinked]
  have apart : index ∉ front := fun member =>
    List.disjoint_of_nodup_append owns.distinct member (by simp)
  have fields : final.nodes.length = pool.nodes.length ∧
      final.freeHead = some index ∧
      final.availableCount = pool.availableCount + 1 ∧
      final.reservedCount = pool.reservedCount ∧
      final.nextGeneration = pool.nextGeneration := by
    rw [← result]
    simp [SharedObjectPool.release, SharedObjectPool.modifyNode, lengths,
      available, reserved, generation]
  have kept (position : Nat) :
      (final.node position).id = (pool.node position).id ∧
        (final.node position).generation =
          (pool.node position).generation ∧
        (final.node position).object = (pool.node position).object := by
    rw [nodes]
    exact ⟨rfl, rfl, rfl⟩
  have erased : (front ++ index :: back).erase index = front ++ back := by
    rw [List.erase_append_right _ apart, List.erase_cons_head]
  have indexGone : index ∉ front ++ back := by
    have distinct := List.nodup_middle.mp owns.distinct
    exact (List.nodup_cons.mp distinct).1
  have stays (position : Nat) (member : position ∈ front ++ index :: back)
      (other : position ≠ index) : position ∈ front ++ back := by
    simp only [List.mem_append, List.mem_cons, other, false_or] at member ⊢
    exact member
  have remaining (position : Nat) (member : position ∈ front ++ back) :
      position ∈ front ++ index :: back := by
    rw [List.mem_append] at member ⊢
    rcases member with before | after
    · exact Or.inl before
    · exact Or.inr (by simp [after])
  have sameHome : SharedNamespace.home { objects with buckets } =
      objects.home := by
    funext other
    simp only [SharedNamespace.home, length]
  refine ⟨?_, kept, fun position outside => ?_, ?_, fields.1, fields.2.1,
    fields.2.2.1, fields.2.2.2.1, fields.2.2.2.2, rfl, rfl, stamps, length⟩
  · rw [erased]
    refine
      { lt_length := fun {position} member => ?_
        distinct := ?_
        forward := ?_
        backward := ?_
        count_eq := ?_
        count_le := ?_
        id_ne_zero := fun {position} member => ?_
        id_inj := fun {left right} leftMember rightMember same => ?_
        power := ?_
        bucket := fun position positionBound => ?_
        cache := ?_
        cursor_ge := ?_
        cursor_le := ?_
        cursor := fun other lower upper => ?_ }
    · rw [fields.1]
      exact owns.lt_length (remaining position member)
    · exact owns.distinct.sublist
        (List.Sublist.append_left (List.sublist_cons_self index back) front)
    · have forward := owns.forward.remove owns.distinct
      rw [← ownerPrevious, Chain.removeHead_eq] at forward
      refine forward.congr fun position member => ?_
      have other := ne_of_mem_of_not_mem member indexGone
      rw [nodes, Chain.removeLink_apply]
      simp only [if_neg other]
    · have backward := owns.backward
      rw [List.reverse_append, List.reverse_cons, List.append_assoc,
        List.singleton_append] at backward
      have distinct := List.nodup_reverse.mpr owns.distinct
      rw [List.reverse_append, List.reverse_cons, List.append_assoc,
        List.singleton_append] at distinct
      have removed := backward.remove distinct
      rw [List.getLast?_reverse, ← ownerNext, Chain.removeHead_eq] at removed
      rw [List.reverse_append]
      refine removed.congr fun position _ => ?_
      rw [nodes, Chain.removeLink_apply]
    · have counted := owns.count_eq
      simp only [List.length_append, List.length_cons] at counted ⊢
      omega
    · have counted := owns.count_le
      simp only
      omega
    · rw [(kept position).1]
      exact owns.id_ne_zero (remaining position member)
    · rw [(kept left).1, (kept right).1] at same
      exact owns.id_inj (remaining left leftMember)
        (remaining right rightMember) same
    · rw [length]
      exact owns.power
    · simp only [length] at positionBound
      have sameHead := heads position
      by_cases home : position = objects.home handle.id
      · refine ⟨bucketFront ++ bucketBack, ?_,
          bucketChain.distinct.sublist (List.Sublist.append_left
            (List.sublist_cons_self index bucketBack) bucketFront),
          fun entry => ?_⟩
        · have removed := bucketChain.linked.remove bucketChain.distinct
          rw [Chain.removeHead_eq, ← home] at removed
          simp only [home, true_and] at sameHead
          rw [← home] at sameHead
          rw [← sameHead] at removed
          refine Chain.Linked.congr removed fun entry _ => ?_
          rw [nodes, Chain.removeLink_apply]
        · have member := bucketChain.mem_iff entry
          have bucketGone : index ∉ bucketFront ++ bucketBack :=
            (List.nodup_cons.mp (List.nodup_middle.mp bucketChain.distinct)).1
          rw [(kept entry).1]
          by_cases removed : entry = index
          · subst removed
            simp only [bucketGone, indexGone, false_and]
          · simp only [List.mem_append, List.mem_cons, removed,
              false_or] at member ⊢
            rw [member, home]
            exact and_congr_right fun _ => Iff.of_eq
              (congrArg (· = objects.home handle.id)
                (congrFun sameHome _).symm)
      · obtain ⟨chain, other⟩ := owns.bucket position positionBound
        refine ⟨chain, ?_, other.distinct, fun entry => ?_⟩
        · simp only [home, false_and, if_false] at sameHead
          have linked := other.linked
          rw [← sameHead] at linked
          refine Chain.Linked.congr linked fun entry member => ?_
          rw [nodes]
          simp only
          rw [if_neg]
          intro last
          have inBucket : entry ∈ bucketFront ++ index :: bucketBack := by
            simp [List.mem_of_getLast? last]
          have here := ((bucketChain.mem_iff entry).mp inBucket).2
          exact home (((other.mem_iff entry).mp member).2.symm.trans here)
        · rw [other.mem_iff, (kept entry).1]
          by_cases removed : entry = index
          · subst removed
            simp only [indexGone, false_and, iff_false, not_and]
            intro _ same
            rw [sameId] at same
            exact home same.symm
          · constructor
            · rintro ⟨member, same⟩
              exact ⟨stays entry member removed,
                (congrFun sameHome _).trans same⟩
            · rintro ⟨member, same⟩
              exact ⟨remaining entry member,
                (congrFun sameHome _).symm.trans same⟩
    · rcases cache with ⟨_, rfl, rfl⟩ | ⟨other, rfl, rfl⟩
      · exact Or.inl ⟨rfl, rfl⟩
      · rcases owns.cache with empty | ⟨entry, member, entryId, cached⟩
        · exact Or.inl empty
        · refine Or.inr ⟨entry, ?_, by rw [(kept entry).1, entryId], cached⟩
          apply stays entry member
          rintro rfl
          exact other cached
    · have lower := owns.cursor_ge
      simp only
      split_ifs <;> omega
    · have upper := owns.cursor_le
      simp only
      split_ifs <;> omega
    · have inside : other < objects.nextServerId ∧ other ≠ handle.id := by
        simp only at upper
        split_ifs at upper <;> omega
      obtain ⟨entry, member, entryId⟩ := owns.cursor other lower inside.1
      refine ⟨entry, stays entry member ?_, by rw [(kept entry).1, entryId]⟩
      rintro rfl
      exact inside.2 (entryId.symm.trans sameId)
  · rw [nodes]
    have notPrevious : bucketFront.getLast? ≠ some position := fun last =>
      outside (previousBound position last)
    have notOwnerPrevious :
        (pool.node index).ownerPrevious ≠ some position := fun last =>
      outside (by simp [ownerPreviousBound position last])
    have notOwnerNext : (pool.node index).ownerNext ≠ some position :=
      fun first => outside (by simp [ownerNextBound position first])
    have notIndex : position ≠ index := by
      rintro rfl
      exact outside indexOwned
    simp only [if_neg notPrevious, if_neg notOwnerPrevious,
      if_neg notOwnerNext, if_neg notIndex]
  · rw [nodes]
    simp only [if_pos]

/-- Removal takes exactly the object its handle denotes. -/
theorem remove_spec
    (owns : Owns pool objects owned)
    (handle : Handle) :
    match ownedIndex pool owned handle.id with
    | none => objects.remove pool handle = (none, objects, pool)
    | some index =>
        if (pool.node index).generation ≠ handle.generation then
          objects.remove pool handle = (none, objects, pool)
        else
          ∃ result, objects.remove pool handle =
              (some (pool.node index).object, result) ∧
            Removed pool objects owned index result := by
  have spec := owns.findUncached_spec handle.id
  cases found : ownedIndex pool owned handle.id with
  | none =>
      rw [found] at spec
      simp only [remove, spec]
  | some index =>
      rw [found] at spec
      obtain ⟨bucketFront, bucketBack, bucketChain, located⟩ := spec
      obtain ⟨member, sameId⟩ := mem_of_ownedIndex found
      by_cases current : (pool.node index).generation = handle.generation
      · simp only [ne_eq, current, not_true_eq_false, if_false]
        obtain ⟨front, back, rfl⟩ := List.append_of_mem member
        obtain ⟨buckets, cachedId, cachedIndex, removed, length, heads, stamps,
          cache⟩ := remove_eq located current (owns.home_lt handle.id)
        exact ⟨_, removed, removed_of_unlink owns bucketChain sameId length
          heads stamps cache⟩
      · simp only [ne_eq, current, not_false_eq_true, if_true, remove, located]

end SharedNamespace

namespace SharedObjectPool

variable {pool : SharedObjectPool}

/-- Teardown pushes a whole owner chain on the free list. -/
theorem releaseChain_spec
    {objects : SharedNamespace} {owned free : List Nat}
    (owns : SharedNamespace.Owns pool objects owned)
    (freeChain : Chain.Linked (fun index => (pool.node index).ownerNext)
      pool.freeHead free)
    (apart : ∀ index, index ∈ free → index ∉ owned) :
    let result := objects.deinit pool
    Chain.Linked (fun index => (result.node index).ownerNext)
        result.freeHead (owned ++ free) ∧
      result.nodes.length = pool.nodes.length ∧
      result.availableCount = pool.availableCount + owned.length ∧
      result.reservedCount = pool.reservedCount ∧
      result.nextGeneration = pool.nextGeneration ∧
      ∀ position, position ∉ owned →
        result.node position = pool.node position := by
  intro result
  have tailEq := owns.ownerTail_eq
  have headEq := owns.forward.head_eq
  cases owned using List.reverseRecOn with
  | nil =>
      have same : result = pool := by
        simp only [result, SharedNamespace.deinit, releaseChain]
        rw [headEq]
        rfl
      rw [same]
      exact ⟨freeChain, rfl, rfl, rfl, rfl, fun _ _ => rfl⟩
  | append_singleton front tail =>
      rw [List.getLast?_concat] at tailEq
      obtain ⟨head, isHead⟩ : ∃ head, objects.ownerHead = some head := by
        rw [headEq]
        cases front <;> exact ⟨_, rfl⟩
      have tailBound := owns.lt_length (show tail ∈ front ++ [tail] by simp)
      have released : result =
          { pool.modifyNode tail fun node =>
              { node with ownerNext := pool.freeHead } with
            freeHead := some head
            availableCount := pool.availableCount + objects.count } := by
        simp only [result, SharedNamespace.deinit, releaseChain, isHead,
          tailEq]
      have nodes (position : Nat) : result.node position =
          if position = tail then
            { pool.node tail with ownerNext := pool.freeHead }
          else pool.node position := by
        have written := node_modifyNode tailBound
          (fun node => { node with ownerNext := pool.freeHead }) position
        rw [released]
        exact written
      have tailApart : tail ∉ front := fun member =>
        List.disjoint_of_nodup_append owns.distinct member (by simp)
      refine ⟨?_, by rw [released]; exact List.length_set, ?_,
        by rw [released]; rfl, by rw [released]; rfl, fun position outside => ?_⟩
      · have headOf : result.freeHead = objects.ownerHead := by
          rw [released, isHead]
        rw [headOf]
        obtain ⟨middle, first, atTail, _⟩ :=
          Chain.segment_append.mp owns.forward
        rw [List.append_assoc]
        refine Chain.segment_append.mpr ⟨middle, ?_, atTail, ?_⟩
        · refine first.congr fun position member => ?_
          rw [nodes, if_neg (ne_of_mem_of_not_mem member tailApart)]
        · simp only [nodes, if_pos]
          refine Chain.Linked.congr freeChain fun position member => ?_
          rw [if_neg]
          rintro rfl
          exact apart position member (by simp)
      · rw [released, owns.count_eq]
      · rw [nodes, if_neg]
        rintro rfl
        exact outside (by simp)

end SharedObjectPool
end Wayring
