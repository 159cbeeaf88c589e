import Wayring.Foundation.LeasePool

/-!
# Chains of leased entries

An owner's chain from a head lease to a tail lease, and what it holds.  A chain
is built from single entries by linking, and taken apart from its head.
-/

namespace LeasePool

variable {α κ : Type}

/-- The links between entries in use. -/
def links (cells : Nat → Option (Cell α)) (index : Nat) : Option Nat :=
  (cells index).bind Cell.next

/-- A chain of entries in use, and their contents in order. -/
structure Holds
    (key : α → κ)
    (cells : Nat → Option (Cell α))
    (head tail : Option (Lease κ))
    (chain : List Nat)
    (contents : List α) : Prop where
  linked : Chain.Linked (links cells) (head.map Lease.index) chain
  distinct : chain.Nodup
  content_eq : chain.map (fun index => (cells index).map Cell.content) =
    contents.map some
  headLeased : ∀ lease, head = some lease → Leases key cells lease
  tail_eq : tail.map Lease.index = chain.getLast?
  tailLeased : ∀ lease, tail = some lease → Leases key cells lease

variable {key : α → κ} {cells other : Nat → Option (Cell α)}
  {head tail : Option (Lease κ)} {chain : List Nat} {contents : List α}

/-- An empty chain. -/
theorem Holds.empty : Holds key cells none none [] [] where
  linked := rfl
  distinct := List.nodup_nil
  content_eq := rfl
  headLeased _ none := nomatch none
  tail_eq := rfl
  tailLeased _ none := nomatch none

/-- A chain has as many entries as contents. -/
theorem Holds.length_eq
    (holds : Holds key cells head tail chain contents) :
    chain.length = contents.length := by
  have lengths := congrArg List.length holds.content_eq
  simpa using lengths

/-- The entries of a chain are in use. -/
theorem Holds.used
    (holds : Holds key cells head tail chain contents)
    {index : Nat}
    (member : index ∈ chain) :
    ∃ cell, cells index = some cell ∧ cell.content ∈ contents := by
  have mapped : (cells index).map Cell.content ∈ contents.map some := by
    rw [← holds.content_eq]
    exact List.mem_map_of_mem member
  obtain ⟨content, inside, same⟩ := List.mem_map.mp mapped
  obtain ⟨cell, found, rfl⟩ := Option.map_eq_some_iff.mp same.symm
  exact ⟨cell, found, inside⟩

/-- The head is the first entry. -/
theorem Holds.head_mem
    (holds : Holds key cells head tail chain contents)
    {lease : Lease κ}
    (first : head = some lease) : ∃ rest, chain = lease.index :: rest := by
  have linked := holds.linked
  rw [first] at linked
  cases chain with
  | nil => cases linked
  | cons index rest =>
      obtain ⟨same, _⟩ := linked
      exact ⟨rest, by rw [Option.some.inj same]⟩

/-- The tail is the last entry. -/
theorem Holds.tail_concat
    (holds : Holds key cells head tail chain contents)
    {lease : Lease κ}
    (last : tail = some lease) :
    ∃ front, chain = front ++ [lease.index] := by
  have same := holds.tail_eq
  rw [last, Option.map_some] at same
  obtain ⟨front, rfl⟩ := List.getLast?_eq_some_iff.mp same.symm
  exact ⟨front, rfl⟩

/-- There is no head exactly when the chain is empty. -/
theorem Holds.head_eq_none
    (holds : Holds key cells head tail chain contents) :
    head = none ↔ chain = [] := by
  have first := holds.linked.head_eq
  rw [← Option.map_eq_none_iff (f := Lease.index), first, List.head?_eq_none_iff]

/-- There is no tail exactly when the chain is empty. -/
theorem Holds.tail_eq_none
    (holds : Holds key cells head tail chain contents) :
    tail = none ↔ chain = [] := by
  rw [← Option.map_eq_none_iff (f := Lease.index), holds.tail_eq,
    List.getLast?_eq_none_iff]

/-- Writes elsewhere do not matter. -/
theorem Holds.congr
    (holds : Holds key cells head tail chain contents)
    (agrees : ∀ index ∈ chain, other index = cells index) :
    Holds key other head tail chain contents where
  linked := holds.linked.congr fun index member => by
    rw [links, agrees index member, links]
  distinct := holds.distinct
  content_eq := by
    rw [← holds.content_eq]
    refine List.map_congr_left fun index member => ?_
    rw [agrees index member]
  headLeased lease first := by
    obtain ⟨rest, rfl⟩ := holds.head_mem first
    obtain ⟨cell, found, valid⟩ := holds.headLeased lease first
    exact ⟨cell, (agrees _ (by simp)).trans found, valid⟩
  tail_eq := holds.tail_eq
  tailLeased lease last := by
    obtain ⟨front, rfl⟩ := holds.tail_concat last
    obtain ⟨cell, found, valid⟩ := holds.tailLeased lease last
    exact ⟨cell, (agrees _ (by simp)).trans found, valid⟩

/-- Someone else's moves leave a chain alone. -/
theorem Holds.frame
    {owned ownedNow : List Nat}
    (holds : Holds key cells head tail chain contents)
    (moves : Moves cells other owned ownedNow)
    (apart : ∀ index ∈ chain, index ∉ owned) :
    Holds key other head tail chain contents := by
  refine holds.congr fun index member => ?_
  obtain ⟨cell, found, _⟩ := holds.used member
  exact moves.frame index (apart index member) (by simp [found])

/-- A leased entry without a link is a chain. -/
theorem Holds.single
    {lease : Lease κ} {content : α}
    (found : cells lease.index =
      some { content, next := none, generation := lease.generation })
    (same : lease.key = key content) :
    Holds key cells (some lease) (some lease) [lease.index] [content] := by
  have leased : Leases key cells lease := ⟨_, found, rfl, same.symm⟩
  refine
    { linked := ⟨rfl, ?_⟩
      distinct := List.nodup_singleton _
      content_eq := ?_
      headLeased := fun other first => ?_
      tail_eq := rfl
      tailLeased := fun other last => ?_ }
  · simp [links, found]
  · simp [found]
  · cases first
    exact leased
  · cases last
    exact leased

/-- The last entry of a chain is linked to nothing. -/
theorem Holds.last
    (holds : Holds key cells head tail chain contents)
    {lease : Lease κ}
    (last : tail = some lease) :
    ∃ cell, cells lease.index = some cell ∧ cell.next = none := by
  obtain ⟨front, rfl⟩ := holds.tail_concat last
  obtain ⟨cell, found, _⟩ := holds.used (show lease.index ∈ _ by simp)
  have next := holds.linked.next_eq
  rw [links, found] at next
  exact ⟨cell, found, next⟩

/-- Linking the last entry of a chain to the first one of another. -/
theorem Holds.concat
    {middle first : Lease κ} {last : Option (Lease κ)}
    {front back : List Nat} {early late : List α} {cell : Cell α}
    (holds : Holds key cells head (some middle) front early)
    (more : Holds key cells (some first) last back late)
    (apart : front.Disjoint back)
    (found : cells middle.index = some cell) :
    Holds key
      (Function.update cells middle.index
        (some { cell with next := some first.index }))
      head last (front ++ back) (early ++ late) := by
  obtain ⟨before, frontEq⟩ := holds.tail_concat rfl
  obtain ⟨rest, backEq⟩ := more.head_mem rfl
  have middleFront : middle.index ∈ front := by simp [frontEq]
  have outside : middle.index ∉ back := fun member => apart middleFront member
  have content (index : Nat) :
      (Function.update cells middle.index
        (some { cell with next := some first.index }) index).map Cell.content =
        (cells index).map Cell.content := by
    by_cases here : index = middle.index
    · subst here
      simp [found]
    · rw [Function.update_of_ne here]
  have leased {lease : Lease κ} (valid : Leases key cells lease) :
      Leases key
        (Function.update cells middle.index
          (some { cell with next := some first.index })) lease := by
    obtain ⟨other, there, generation, same⟩ := valid
    by_cases here : lease.index = middle.index
    · rw [here, found, Option.some.injEq] at there
      subst there
      exact ⟨{ cell with next := some first.index },
        by rw [here, Function.update_self], generation, same⟩
    · exact ⟨other, by rw [Function.update_of_ne here, there], generation,
        same⟩
  refine
    { linked := Chain.segment_append.mpr ⟨some first.index, ?_, ?_⟩
      distinct := List.nodup_append.mpr
        ⟨holds.distinct, more.distinct, fun a left b right same =>
          apart left (same ▸ right)⟩
      content_eq := ?_
      headLeased := fun lease isHead => leased (holds.headLeased lease isHead)
      tail_eq := ?_
      tailLeased := fun lease isLast => leased (more.tailLeased lease isLast) }
  · have linked := holds.linked
    have distinct := holds.distinct
    rw [frontEq] at linked distinct ⊢
    obtain ⟨stop, segment, atMiddle, _⟩ := Chain.segment_append.mp linked
    refine Chain.segment_append.mpr ⟨stop, segment.congr fun index member => ?_,
      atMiddle, ?_⟩
    · have apartMiddle : index ≠ middle.index := by
        rintro rfl
        exact List.disjoint_of_nodup_append distinct member (by simp)
      rw [links, Function.update_of_ne apartMiddle, links]
    · simp [links]
  · refine Chain.Linked.congr more.linked fun index member => ?_
    rw [links, Function.update_of_ne (ne_of_mem_of_not_mem member outside),
      links]
  · rw [List.map_append, List.map_append, ← holds.content_eq, ← more.content_eq]
    simp only [content]
  · rw [more.tail_eq, backEq, List.getLast?_append_of_ne_nil _ (by simp)]

/-- What follows the first entry of a chain is a chain. -/
theorem Holds.rest
    {first : Lease κ} {index : Nat} {rest : List Nat} {content : α}
    {later : List α} {cell : Cell α} {next : Option (Lease κ)}
    (holds : Holds key cells (some first) tail (index :: rest)
      (content :: later))
    (found : cells index = some cell)
    (nextIndex : next.map Lease.index = cell.next)
    (nextLeased : ∀ lease, next = some lease → Leases key cells lease) :
    Holds key cells next (if next = none then none else tail) rest later := by
  have linked : Chain.Linked (links cells) cell.next rest := by
    have whole := holds.linked.2
    rwa [links, found] at whole
  refine
    { linked := nextIndex ▸ linked
      distinct := (List.nodup_cons.mp holds.distinct).2
      content_eq := ?_
      headLeased := nextLeased
      tail_eq := ?_
      tailLeased := fun lease isTail => ?_ }
  · have all := holds.content_eq
    simp only [List.map_cons, List.cons.injEq] at all
    exact all.2
  · have last := holds.tail_eq
    cases rest with
    | nil =>
        rw [Chain.linked_nil, ← nextIndex, Option.map_eq_none_iff] at linked
        simp [linked]
    | cons following rest =>
        have some : next ≠ none := by
          rintro rfl
          rw [← nextIndex] at linked
          cases linked.1
        rw [if_neg some, last, List.getLast?_cons_cons]
  · split_ifs at isTail
    exact holds.tailLeased lease isTail

/-- Taking the first entry off a chain. -/
theorem Holds.pop
    {first : Lease κ} {index : Nat} {rest : List Nat} {content : α}
    {later : List α} {cell : Cell α} {next : Option (Lease κ)}
    (holds : Holds key cells (some first) tail (index :: rest)
      (content :: later))
    (found : cells index = some cell)
    (nextIndex : next.map Lease.index = cell.next)
    (nextLeased : ∀ lease, next = some lease → Leases key cells lease) :
    Holds key (Function.update cells index none) next
      (if next = none then none else tail) rest later := by
  have outside := (List.nodup_cons.mp holds.distinct).1
  refine (holds.rest found nextIndex nextLeased).congr fun other member => ?_
  exact Function.update_of_ne (ne_of_mem_of_not_mem member outside) _ _

/-- Following the first link of a chain. -/
theorem Holds.nextLease
    [DecidableEq κ]
    {pool : LeasePool α} {first : Lease κ} {index : Nat} {rest : List Nat}
    (holds : Holds key pool.cell (some first) tail (index :: rest) contents) :
    index = first.index ∧
    ∃ cell next, pool.cell index = some cell ∧
      pool.nextLease key first = .ok next ∧
      next.map Lease.index = cell.next ∧
      cell.next = rest.head? ∧
      ∀ lease, next = some lease → Leases key pool.cell lease := by
  obtain ⟨_, same⟩ := holds.head_mem rfl
  have indexEq : index = first.index := (List.cons.inj same).1
  subst indexEq
  obtain ⟨cell, found, _⟩ := holds.used (show first.index ∈ _ by simp)
  obtain ⟨atEnd, following⟩ :=
    nextLease_spec (holds.headLeased first rfl) found
  have linked := holds.linked.2
  rw [links, found, Option.bind_some] at linked
  refine ⟨rfl, cell, ?_⟩
  cases rest with
  | nil =>
      have none : cell.next = none := linked
      exact ⟨Option.none, found, atEnd none, by simp [none], none, by simp⟩
  | cons second rest =>
      obtain ⟨links, _⟩ := linked
      obtain ⟨other, otherFound, _⟩ := holds.used (show second ∈ _ by simp)
      refine ⟨some
        { index := second
          generation := other.generation
          key := key other.content }, found, following _ _ links otherFound,
        by simp [links], links, fun lease isNext => ?_⟩
      cases isNext
      exact ⟨other, otherFound, rfl, rfl⟩

/-- Following any link of a chain. -/
theorem Holds.nextLease_at
    [DecidableEq κ]
    {pool : LeasePool α} {lease : Lease κ} {position : Nat}
    (holds : Holds key pool.cell head tail chain contents)
    (found : chain[position]? = some lease.index)
    (valid : Leases key pool.cell lease) :
    ∃ next, pool.nextLease key lease = .ok next ∧
      next.map Lease.index = chain[position + 1]? ∧
      ∀ lease, next = some lease → Leases key pool.cell lease := by
  obtain ⟨cell, there, _⟩ := holds.used (List.mem_of_getElem? found)
  obtain ⟨atEnd, following⟩ := nextLease_spec valid there
  have next : cell.next = chain[position + 1]? := by
    obtain ⟨bound, here⟩ := List.getElem?_eq_some_iff.mp found
    have linked := holds.linked
    rw [← List.take_append_drop position chain,
      ← List.getElem_cons_drop bound, here] at linked
    obtain ⟨_, _, _, rest⟩ := Chain.segment_append.mp linked
    rw [links, there, Option.bind_some] at rest
    rw [Chain.Linked.head_eq rest, List.head?_drop]
  cases following? : chain[position + 1]? with
  | none =>
      rw [following?] at next
      exact ⟨none, atEnd next, rfl, by simp⟩
  | some second =>
      rw [following?] at next
      obtain ⟨other, otherThere, _⟩ :=
        holds.used (List.mem_of_getElem? following?)
      refine ⟨_, following _ _ next otherThere, rfl, fun lease isNext => ?_⟩
      cases isNext
      exact ⟨other, otherThere, rfl, rfl⟩

/-- A chain is no longer than its pool. -/
theorem Holds.length_le
    {pool : LeasePool α}
    (holds : Holds key pool.cell head tail chain contents) :
    chain.length ≤ pool.nodes.length := by
  refine Chain.length_le_of_nodup holds.distinct fun index member => ?_
  obtain ⟨cell, found, _⟩ := holds.used member
  obtain ⟨node, there, _⟩ := cell_eq_some_iff.mp found
  exact (List.getElem?_eq_some_iff.mp there).1

/-- Writing the content of one entry of a chain. -/
theorem Holds.write
    {index : Nat} {before after : List Nat} {early late : List α}
    {old : α} {cell : Cell α}
    (holds : Holds key cells head tail (before ++ index :: after)
      (early ++ old :: late))
    (new : α)
    (sameLength : before.length = early.length)
    (found : cells index = some cell)
    (sameKey : key new = key cell.content) :
    cell.content = old ∧
    Holds key (Function.update cells index (some { cell with content := new }))
      head tail (before ++ index :: after) (early ++ new :: late) := by
  have all := holds.content_eq
  rw [List.map_append, List.map_append] at all
  obtain ⟨first, second⟩ := List.append_inj all (by simpa using sameLength)
  simp only [List.map_cons, List.cons.injEq, found, Option.map_some,
    Option.some.injEq] at second
  obtain ⟨content, rest⟩ := second
  have distinct := holds.distinct
  have apart : index ∉ before ∧ index ∉ after := by
    rw [List.nodup_append] at distinct
    obtain ⟨_, backDistinct, disjoint⟩ := distinct
    exact ⟨fun member => disjoint index member index (by simp) rfl,
      (List.nodup_cons.mp backDistinct).1⟩
  have leased {lease : Lease κ} (valid : Leases key cells lease) :
      Leases key
        (Function.update cells index (some { cell with content := new }))
        lease := by
    obtain ⟨other, there, generation, same⟩ := valid
    by_cases here : lease.index = index
    · rw [here, found, Option.some.injEq] at there
      subst there
      exact ⟨{ cell with content := new },
        by rw [here, Function.update_self], generation, sameKey.trans same⟩
    · exact ⟨other, by rw [Function.update_of_ne here, there], generation,
        same⟩
  refine ⟨content,
    { linked := holds.linked.congr fun other member => ?_
      distinct
      content_eq := ?_
      headLeased := fun lease isHead => leased (holds.headLeased lease isHead)
      tail_eq := holds.tail_eq
      tailLeased := fun lease isTail =>
        leased (holds.tailLeased lease isTail) }⟩
  · by_cases here : other = index
    · subst here
      simp [links, found]
    · rw [links, Function.update_of_ne here, links]
  · have keeps {list : List Nat} (outside : index ∉ list) :
        list.map (fun other => (Function.update cells index
          (some { cell with content := new }) other).map Cell.content) =
          list.map fun other => (cells other).map Cell.content :=
      List.map_congr_left fun other member => by
        rw [Function.update_of_ne (ne_of_mem_of_not_mem member outside)]
    rw [List.map_append, List.map_append, List.map_cons, List.map_cons,
      keeps apart.1, keeps apart.2, first, rest, Function.update_self]
    rfl

end LeasePool
