import Wayring.Foundation.Chain
import Wayring.Foundation.Generation
import Wayring.Foundation.ListWrites

/-!
# Pools of leased, linkable entries

A growing pool whose free entries form one list, and whose entries in use may
be linked into chains by their owners.  A lease names one use of an entry.

Owners see the pool as a partial function from indices to cells.
-/

/-- One entry. -/
structure LeasePool.Node (α : Type) where
  content : α
  freeNext : Option Nat := none
  chainNext : Option Nat := none
  generation : Nat := 0
  inUse : Bool := false
  deriving DecidableEq, Repr

/-- One use of an entry, and what else the owner knows of it. -/
structure LeasePool.Lease (κ : Type) where
  index : Nat
  generation : Nat
  key : κ
  deriving DecidableEq, Repr

/-- Why an operation fails: the pool is at its limit, memory is denied, a lease
is stale, an entry is linked already, or the free list is broken. -/
inductive LeasePool.Failure
  | overflow
  | denied
  | stale
  | linked
  | broken
  deriving DecidableEq, Repr

/-- Entries, and the head of their free list. -/
structure LeasePool (α : Type) where
  nodes : List (LeasePool.Node α) := []
  freeHead : Option Nat := none
  activeCount : Nat := 0
  deriving DecidableEq, Repr

/-- What an owner sees of an entry in use. -/
structure LeasePool.Cell (α : Type) where
  content : α
  next : Option Nat
  generation : Nat

namespace LeasePool

variable {α κ : Type}

/-! ## Operations -/

/-- How many entries are free. -/
def available (pool : LeasePool α) : Nat :=
  pool.nodes.length - pool.activeCount

/-- Grow some number of times, below a limit, while there is room in memory. -/
def grow
    (limit : Nat)
    (content : α) :
    Nat → Nat → LeasePool α → Except Failure Unit × LeasePool α
  | 0, _, pool => (.ok (), pool)
  | count + 1, room, pool =>
      if pool.nodes.length ≥ limit then (.error .overflow, pool)
      else
        match room with
        | 0 => (.error .denied, pool)
        | room + 1 =>
            grow limit content count room
              { pool with
                nodes := pool.nodes ++ [{ content, freeNext := pool.freeHead }]
                freeHead := some pool.nodes.length }

/-- Grow until a number of entries is free. -/
def ensureAvailable
    (pool : LeasePool α)
    (limit : Nat)
    (content : α)
    (count room : Nat) : Except Failure Unit × LeasePool α :=
  if count > limit - pool.activeCount then (.error .overflow, pool)
  else grow limit content (count - pool.available) room pool

/-- Lease a free entry. -/
def acquire
    (pool : LeasePool α)
    (limit modulus : Nat)
    (key : α → κ)
    (content : α)
    (change : α → α)
    (room : Nat) : Except Failure (Lease κ) × LeasePool α :=
  match pool.ensureAvailable limit content 1 room with
  | (.error failure, pool) => (.error failure, pool)
  | (.ok _, pool) =>
      match pool.freeHead with
      | none => (.error .broken, pool)
      | some index =>
          match pool.nodes[index]? with
          | none => (.error .broken, pool)
          | some node =>
              let generation := Generation.next modulus node.generation
              let content := change node.content
              (.ok { index, generation, key := key content },
                { nodes := pool.nodes.set index
                    { content, generation
                      freeNext := node.freeNext
                      chainNext := none
                      inUse := true }
                  freeHead := node.freeNext
                  activeCount := pool.activeCount + 1 })

/-- The entry of a lease, while the lease lasts. -/
def leased
    [DecidableEq κ]
    (pool : LeasePool α)
    (key : α → κ)
    (lease : Lease κ) : Option (Node α) :=
  (pool.nodes[lease.index]?).bind fun node =>
    if node.inUse ∧ node.generation = lease.generation ∧
        key node.content = lease.key then
      some node
    else none

/-- Give an entry back, unless the lease is stale. -/
def release
    [DecidableEq κ]
    (pool : LeasePool α)
    (key : α → κ)
    (lease : Lease κ) : Except Failure Unit × LeasePool α :=
  match pool.leased key lease with
  | none => (.error .stale, pool)
  | some node =>
      (.ok (),
        { nodes := pool.nodes.set lease.index
            { node with
              inUse := false
              chainNext := none
              freeNext := pool.freeHead }
          freeHead := some lease.index
          activeCount := pool.activeCount - 1 })

/-- Link one leased entry to another. -/
def link
    [DecidableEq κ]
    (pool : LeasePool α)
    (key : α → κ)
    (source target : Lease κ) : Except Failure Unit × LeasePool α :=
  match pool.leased key source, pool.leased key target with
  | some node, some _ =>
      if node.chainNext = none then
        (.ok (),
          { pool with
            nodes := pool.nodes.set source.index
              { node with chainNext := some target.index } })
      else (.error .linked, pool)
  | _, _ => (.error .stale, pool)

/-- A lease of the entry that a leased entry is linked to. -/
def nextLease
    [DecidableEq κ]
    (pool : LeasePool α)
    (key : α → κ)
    (lease : Lease κ) : Except Failure (Option (Lease κ)) :=
  match pool.leased key lease with
  | none => .error .stale
  | some node =>
      match node.chainNext with
      | none => .ok none
      | some index =>
          match pool.nodes[index]? with
          | none => .error .broken
          | some next =>
              if next.inUse then
                .ok (some
                  { index
                    generation := next.generation
                    key := key next.content })
              else .error .stale

/-- Write to the content of an entry. -/
def write
    (pool : LeasePool α)
    (index : Nat)
    (change : α → α) : LeasePool α :=
  match pool.nodes[index]? with
  | none => pool
  | some node =>
      { pool with
        nodes := pool.nodes.set index
          { node with content := change node.content } }

/-! ## Cells -/

/-- The entry in use at an index. -/
def cell (pool : LeasePool α) (index : Nat) : Option (Cell α) :=
  (pool.nodes[index]?).bind fun node =>
    if node.inUse then
      some
        { content := node.content
          next := node.chainNext
          generation := node.generation }
    else none

/-- A lease of an entry in use. -/
def Leases
    (key : α → κ)
    (cells : Nat → Option (Cell α))
    (lease : Lease κ) : Prop :=
  ∃ cell, cells lease.index = some cell ∧
    cell.generation = lease.generation ∧ key cell.content = lease.key

/-- Whether there is a free entry at an index. -/
def Vacant (pool : LeasePool α) (index : Nat) : Prop :=
  ∃ node, pool.nodes[index]? = some node ∧ node.inUse = false

/-- The free list visits the free entries, and contents are good. -/
structure WellFormed
    (limit : Nat)
    (Good : α → Prop)
    (pool : LeasePool α) : Prop where
  free : ∃ chain,
    Chain.Linked (fun index => (pool.nodes[index]?).bind Node.freeNext)
      pool.freeHead chain ∧
    chain.Nodup ∧ ∀ index, index ∈ chain ↔ pool.Vacant index
  count : pool.activeCount = pool.nodes.countP Node.inUse
  content : ∀ {index : Nat} {node : Node α}, pool.nodes[index]? = some node →
    Good node.content
  bounded : pool.nodes.length ≤ limit

variable {pool before after : LeasePool α} {limit modulus : Nat}
  {Good : α → Prop}

/-- A pool without entries. -/
theorem wellFormed_empty : ({} : LeasePool α).WellFormed limit Good where
  free := ⟨[], rfl, List.nodup_nil, fun index => by simp [Vacant]⟩
  count := rfl
  content found := by simp at found
  bounded := Nat.zero_le _

/-- A cell is the content of an entry in use. -/
theorem cell_eq_some_iff
    {index : Nat} {cell : Cell α} :
    pool.cell index = some cell ↔
      ∃ node, pool.nodes[index]? = some node ∧ node.inUse = true ∧
        { content := node.content
          next := node.chainNext
          generation := node.generation } = cell := by
  simp only [LeasePool.cell, Option.bind_eq_some_iff,
    Option.ite_none_right_eq_some, Option.some.injEq]

/-- Cells have good contents. -/
theorem good_of_cell
    (wellFormed : pool.WellFormed limit Good)
    {index : Nat} {cell : Cell α}
    (found : pool.cell index = some cell) : Good cell.content := by
  obtain ⟨node, there, _, rfl⟩ := cell_eq_some_iff.mp found
  exact wellFormed.content there

/-- The free entries are counted. -/
theorem available_eq
    (wellFormed : pool.WellFormed limit Good) :
    pool.available = pool.nodes.countP fun node => !node.inUse := by
  have total := List.length_eq_countP_add_countP (l := pool.nodes) Node.inUse
  rw [available, wellFormed.count]
  simp only [Bool.not_eq_true, Bool.decide_eq_false] at total
  omega

/-- An entry is in use or free. -/
theorem activeCount_add_available
    (wellFormed : pool.WellFormed limit Good) :
    pool.activeCount + pool.available = pool.nodes.length := by
  have bound : pool.activeCount ≤ pool.nodes.length :=
    wellFormed.count ▸ List.countP_le_length
  unfold available
  omega

/-- While an entry is free, the free list has a head. -/
theorem freeHead_of_available
    (wellFormed : pool.WellFormed limit Good)
    (some : 0 < pool.available) :
    ∃ index node, pool.freeHead = Option.some index ∧
      pool.nodes[index]? = Option.some node ∧ node.inUse = false := by
  rw [available_eq wellFormed, List.countP_pos_iff] at some
  obtain ⟨node, member, inactive⟩ := some
  obtain ⟨index, found⟩ := List.mem_iff_getElem?.mp member
  obtain ⟨chain, linked, _, mem_iff⟩ := wellFormed.free
  have listed := (mem_iff index).mpr ⟨node, found, by simpa using inactive⟩
  cases chain with
  | nil => exact absurd listed List.not_mem_nil
  | cons first rest =>
      obtain ⟨there, at_, vacant⟩ := (mem_iff first).mp (by simp)
      exact ⟨first, there, linked.1, at_, vacant⟩

/-! ## Growth -/

/-- What growth does. -/
structure Grown
    (limit : Nat)
    (Good : α → Prop)
    (before after : LeasePool α) : Prop where
  wellFormed : after.WellFormed limit Good
  cell : after.cell = before.cell
  activeCount : after.activeCount = before.activeCount
  available : before.available ≤ after.available

/-- One more entry is free. -/
theorem grown_one
    {content : α}
    (wellFormed : pool.WellFormed limit Good)
    (below : pool.nodes.length < limit)
    (good : Good content) :
    let next := { pool with
      nodes := pool.nodes ++ [{ content, freeNext := pool.freeHead }]
      freeHead := some pool.nodes.length }
    Grown limit Good pool next ∧ next.available = pool.available + 1 := by
  intro next
  have nodes := ListWrites.getElem?_concat pool.nodes
    { content, freeNext := pool.freeHead }
  have last : pool.nodes[pool.nodes.length]? = none :=
    List.getElem?_eq_none le_rfl
  have apart {index : Nat} {node : Node α}
      (found : pool.nodes[index]? = some node) :
      index ≠ pool.nodes.length := by
    rintro rfl
    rw [last] at found
    cases found
  obtain ⟨chain, linked, distinct, mem_iff⟩ := wellFormed.free
  have outside : pool.nodes.length ∉ chain := by
    rw [mem_iff]
    rintro ⟨node, found, _⟩
    exact apart found rfl
  have more : next.available = pool.available + 1 := by
    have bound := activeCount_add_available wellFormed
    simp only [next, available, List.length_append, List.length_singleton]
      at bound ⊢
    omega
  refine ⟨
    { wellFormed :=
        { free := ⟨pool.nodes.length :: chain, ⟨rfl, ?_⟩, ?_, fun index => ?_⟩
          count := ?_
          content := fun {index node} found => ?_
          bounded := ?_ }
      cell := ?_
      activeCount := rfl
      available := by omega }, more⟩
  · simp only [next, nodes, if_pos]
    refine linked.congr fun index member => ?_
    rw [if_neg (ne_of_mem_of_not_mem member outside)]
  · exact List.nodup_cons.mpr ⟨outside, distinct⟩
  · simp only [List.mem_cons, mem_iff, Vacant, next, nodes]
    by_cases new : index = pool.nodes.length
    · simp [new]
    · simp [new]
  · simp only [next, List.countP_append, List.countP_singleton,
      Bool.false_eq_true, if_false, Nat.add_zero]
    exact wellFormed.count
  · simp only [next, nodes] at found
    split_ifs at found
    · cases found
      exact good
    · exact wellFormed.content found
  · simpa [next] using below
  · funext index
    simp only [LeasePool.cell, next, nodes]
    by_cases new : index = pool.nodes.length
    · rw [if_pos new, new, last]
      simp
    · rw [if_neg new]

/-- Growth adds free entries, and leaves cells alone. -/
theorem grow_spec
    {content : α} {count room : Nat}
    (wellFormed : pool.WellFormed limit Good)
    (good : Good content) :
    let outcome := grow limit content count room pool
    Grown limit Good pool outcome.2 ∧
      match outcome.1 with
      | .error failure => failure = .overflow ∨ failure = .denied
      | .ok _ => outcome.2.available = pool.available + count := by
  induction count generalizing room pool with
  | zero => exact ⟨⟨wellFormed, rfl, rfl, le_rfl⟩, rfl⟩
  | succ count growth_ih =>
      unfold grow
      split_ifs with full
      · exact ⟨⟨wellFormed, rfl, rfl, le_rfl⟩, Or.inl rfl⟩
      · cases room with
        | zero => exact ⟨⟨wellFormed, rfl, rfl, le_rfl⟩, Or.inr rfl⟩
        | succ room =>
            obtain ⟨one, more⟩ := grown_one wellFormed (by omega) good
            obtain ⟨rest, result⟩ := @growth_ih _ room one.wellFormed
            refine ⟨⟨rest.wellFormed, rest.cell.trans one.cell,
              rest.activeCount.trans one.activeCount,
              one.available.trans rest.available⟩, ?_⟩
            simp only at result ⊢
            split at result
            · exact result
            · omega

/-- What making entries available does. -/
theorem ensureAvailable_spec
    {content : α} {count room : Nat}
    (wellFormed : pool.WellFormed limit Good)
    (good : Good content) :
    let outcome := pool.ensureAvailable limit content count room
    Grown limit Good pool outcome.2 ∧
      match outcome.1 with
      | .error failure => failure = .overflow ∨ failure = .denied
      | .ok _ => count ≤ outcome.2.available := by
  unfold ensureAvailable
  split_ifs
  · exact ⟨⟨wellFormed, rfl, rfl, le_rfl⟩, Or.inl rfl⟩
  · obtain ⟨grown, result⟩ :=
      @grow_spec α pool limit Good content (count - pool.available) room
        wellFormed good
    simp only at grown result ⊢
    generalize grow limit content (count - pool.available) room pool =
      outcome at grown result ⊢
    obtain ⟨result', after⟩ := outcome
    refine ⟨grown, ?_⟩
    cases result' with
    | error failure => exact result
    | ok _ =>
        simp only at result ⊢
        omega

/-- Nothing grows while enough entries are free. -/
theorem ensureAvailable_enough
    {content : α} {count room : Nat}
    (wellFormed : pool.WellFormed limit Good)
    (enough : count ≤ pool.available) :
    pool.ensureAvailable limit content count room = (.ok (), pool) := by
  have total := activeCount_add_available wellFormed
  have bounded := wellFormed.bounded
  rw [ensureAvailable, if_neg (by omega), Nat.sub_eq_zero_of_le enough]
  rfl

/-! ## One entry at a time -/

/-- Writing an entry changes its cell alone. -/
theorem cell_set
    {index : Nat} {old new : Node α}
    (found : pool.nodes[index]? = some old)
    (freeHead : Option Nat) (activeCount : Nat) :
    ({ nodes := pool.nodes.set index new
       freeHead
       activeCount } : LeasePool α).cell =
      Function.update pool.cell index
        (if new.inUse then
          some
            { content := new.content
              next := new.chainNext
              generation := new.generation }
        else none) := by
  funext position
  simp only [LeasePool.cell, ListWrites.getElem?_set found,
    Function.update_apply]
  split_ifs with here
  · simp_all
  · simp_all
  · rfl

/-- An entry in use changes its content or its link. -/
theorem written
    {index : Nat} {old new : Node α}
    (wellFormed : pool.WellFormed limit Good)
    (found : pool.nodes[index]? = some old)
    (used : old.inUse = true)
    (stillUsed : new.inUse = true)
    (good : Good new.content) :
    let next := { pool with nodes := pool.nodes.set index new }
    next.WellFormed limit Good ∧ next.available = pool.available := by
  intro next
  have nodes := ListWrites.getElem?_set found new
  have counts := ListWrites.countP_set found new Node.inUse
  rw [used, stillUsed] at counts
  obtain ⟨chain, linked, distinct, mem_iff⟩ := wellFormed.free
  have outside : index ∉ chain := by
    rw [mem_iff]
    rintro ⟨node, there, free⟩
    rw [found, Option.some.injEq] at there
    rw [← there, used] at free
    cases free
  refine ⟨
    { free := ⟨chain, ?_, distinct, fun position => ?_⟩
      count := wellFormed.count.trans (Nat.add_right_cancel counts).symm
      content := fun {position node} there => ?_
      bounded := by
        simpa only [next, List.length_set] using wellFormed.bounded }, by
    simp only [next, available, List.length_set]⟩
  · refine linked.congr fun position member => ?_
    simp only [next, nodes]
    rw [if_neg (ne_of_mem_of_not_mem member outside)]
  · rw [mem_iff]
    simp only [Vacant, next, nodes]
    by_cases here : position = index
    · subst here
      simp [found, used, stillUsed]
    · simp [here]
  · simp only [next, nodes] at there
    split_ifs at there
    · cases there
      exact good
    · exact wellFormed.content there

/-- What leasing an entry does. -/
structure Acquired
    (limit : Nat)
    (Good : α → Prop)
    (before after : LeasePool α)
    (key : α → κ)
    (change : α → α)
    (lease : Lease κ) : Prop where
  wellFormed : after.WellFormed limit Good
  fresh : before.cell lease.index = none
  cell : ∃ content, Good content ∧ lease.key = key (change content) ∧
    after.cell = Function.update before.cell lease.index
      (some
        { content := change content
          next := none
          generation := lease.generation })

/-- A free entry can be leased. -/
theorem acquire_free
    {content : α} {key : α → κ} {change : α → α} {room : Nat}
    (wellFormed : pool.WellFormed limit Good)
    (goodChange : ∀ content, Good content → Good (change content))
    (some : 0 < pool.available) :
    ∃ lease after,
      pool.acquire limit modulus key content change room =
        (.ok lease, after) ∧
      Acquired limit Good pool after key change lease ∧
      after.available + 1 = pool.available := by
  obtain ⟨index, node, head, found, free⟩ :=
    freeHead_of_available wellFormed some
  have enough := @ensureAvailable_enough α pool limit Good content 1 room
    wellFormed some
  let new : Node α :=
    { content := change node.content
      generation := Generation.next modulus node.generation
      freeNext := node.freeNext
      chainNext := none
      inUse := true }
  have nodes := ListWrites.getElem?_set found new
  have counts := ListWrites.countP_set found new Node.inUse
  rw [free, if_neg Bool.false_ne_true] at counts
  obtain ⟨chain, linked, distinct, mem_iff⟩ := wellFormed.free
  have total := activeCount_add_available wellFormed
  cases chain with
  | nil =>
      rw [Chain.linked_nil, head] at linked
      cases linked
  | cons first rest =>
      obtain ⟨atHead, tail⟩ := linked
      rw [head, Option.some.injEq] at atHead
      subst atHead
      have outside := (List.nodup_cons.mp distinct).1
      refine ⟨
        { index
          generation := Generation.next modulus node.generation
          key := key (change node.content) },
        { nodes := pool.nodes.set index new
          freeHead := node.freeNext
          activeCount := pool.activeCount + 1 },
        by simp only [acquire, enough, head, found, new],
        { wellFormed :=
            { free := ⟨rest, ?_, (List.nodup_cons.mp distinct).2,
                fun position => ?_⟩
              count := ?_
              content := fun {position other} there => ?_
              bounded := by
                simpa only [List.length_set] using wellFormed.bounded }
          fresh := by simp [LeasePool.cell, found, free]
          cell := ⟨node.content, wellFormed.content found, rfl, ?_⟩ }, ?_⟩
      · simp only [found, Option.bind_some] at tail
        refine Chain.Linked.congr tail fun position member => ?_
        simp only [nodes]
        rw [if_neg (ne_of_mem_of_not_mem member outside)]
      · have member := mem_iff position
        rw [List.mem_cons] at member
        simp only [Vacant, nodes] at member ⊢
        by_cases here : position = index
        · subst here
          simp [outside, new]
        · simpa [here] using member
      · simp only [wellFormed.count]
        simpa [new] using counts.symm
      · rw [nodes] at there
        split_ifs at there
        · cases there
          exact goodChange _ (wellFormed.content found)
        · exact wellFormed.content there
      · exact cell_set found _ _
      · simp only [available, List.length_set] at total some ⊢
        omega

/-- A lease is new, or the pool is full. -/
theorem acquire_spec
    {content : α} {key : α → κ} {change : α → α} {room : Nat}
    (wellFormed : pool.WellFormed limit Good)
    (good : Good content)
    (goodChange : ∀ content, Good content → Good (change content)) :
    let outcome := pool.acquire limit modulus key content change room
    match outcome.1 with
    | .error failure => (failure = .overflow ∨ failure = .denied) ∧
        Grown limit Good pool outcome.2
    | .ok lease => Acquired limit Good pool outcome.2 key change lease := by
  obtain ⟨grown, result⟩ := @ensureAvailable_spec α pool limit Good content 1
    room wellFormed good
  intro outcome
  cases ensured : pool.ensureAvailable limit content 1 room with
  | mk result' middle =>
      rw [ensured] at grown result
      cases result' with
      | error failure =>
          have same : outcome = (.error failure, middle) := by
            simp only [outcome, acquire, ensured]
          rw [same]
          exact ⟨result, grown⟩
      | ok _ =>
          obtain ⟨lease, after, acquired, spec, _⟩ :=
            @acquire_free α κ middle limit modulus Good content key change room
              grown.wellFormed goodChange result
          have again := @ensureAvailable_enough α middle limit Good content 1
            room grown.wellFormed result
          have same : outcome = (.ok lease, after) := by
            rw [← acquired]
            simp only [outcome, acquire, ensured, again]
          rw [same]
          refine ⟨spec.wellFormed, ?_, ?_⟩
          · rw [← grown.cell]
            exact spec.fresh
          · rw [← grown.cell]
            exact spec.cell

section Leases

variable [DecidableEq κ] {key : α → κ} {lease source target : Lease κ}

/-- A lease is valid for an entry in use, of its generation and key. -/
theorem leased_eq_some_iff
    {node : Node α} :
    pool.leased key lease = some node ↔
      pool.nodes[lease.index]? = some node ∧ node.inUse = true ∧
        node.generation = lease.generation ∧ key node.content = lease.key := by
  simp only [leased, Option.bind_eq_some_iff, Option.ite_none_right_eq_some,
    Option.some.injEq]
  constructor
  · rintro ⟨other, found, valid, rfl⟩
    exact ⟨found, valid⟩
  · rintro ⟨found, valid⟩
    exact ⟨node, found, valid, rfl⟩

/-- A valid lease finds its entry. -/
theorem leased_of_leases
    (valid : Leases key pool.cell lease) :
    ∃ node, pool.leased key lease = some node ∧
      pool.nodes[lease.index]? = some node ∧ node.inUse = true ∧
      pool.cell lease.index = some
        { content := node.content
          next := node.chainNext
          generation := node.generation } := by
  obtain ⟨cell, found, generation, same⟩ := valid
  obtain ⟨node, there, used, rfl⟩ := cell_eq_some_iff.mp found
  exact ⟨node, leased_eq_some_iff.mpr ⟨there, used, generation, same⟩, there,
    used, found⟩

/-- A leased entry becomes free. -/
theorem release_spec
    (wellFormed : pool.WellFormed limit Good)
    (valid : Leases key pool.cell lease) :
    ∃ after, pool.release key lease = (.ok (), after) ∧
      after.WellFormed limit Good ∧
      after.cell = Function.update pool.cell lease.index none ∧
      after.available = pool.available + 1 := by
  obtain ⟨node, leased, found, used, _⟩ := leased_of_leases valid
  have good : Good node.content := wellFormed.content found
  let new : Node α :=
    { node with inUse := false, chainNext := none, freeNext := pool.freeHead }
  have nodes := ListWrites.getElem?_set found new
  have counts := ListWrites.countP_set found new Node.inUse
  have active : new.inUse = false := rfl
  rw [used, active, if_neg Bool.false_ne_true, if_pos rfl] at counts
  have total := activeCount_add_available wellFormed
  obtain ⟨chain, linked, distinct, mem_iff⟩ := wellFormed.free
  have outside : lease.index ∉ chain := by
    rw [mem_iff]
    rintro ⟨other, there, free⟩
    rw [found, Option.some.injEq] at there
    rw [← there, used] at free
    cases free
  refine ⟨
    { nodes := pool.nodes.set lease.index new
      freeHead := some lease.index
      activeCount := pool.activeCount - 1 },
    by simp only [release, leased, new],
    { free := ⟨lease.index :: chain, ⟨rfl, ?_⟩, ?_, fun position => ?_⟩
      count := ?_
      content := fun {position other} there => ?_
      bounded := by
        simpa only [List.length_set] using wellFormed.bounded },
    cell_set found _ _, ?_⟩
  · simp only [nodes, if_pos]
    refine linked.congr fun position member => ?_
    rw [if_neg (ne_of_mem_of_not_mem member outside)]
  · exact List.nodup_cons.mpr ⟨outside, distinct⟩
  · rw [List.mem_cons, mem_iff]
    simp only [Vacant, nodes]
    by_cases here : position = lease.index
    · simp [here, new]
    · simp [here]
  · simp only [wellFormed.count]
    omega
  · rw [nodes] at there
    split_ifs at there
    · cases there
      exact good
    · exact wellFormed.content there
  · have some := wellFormed.count
    simp only [available, List.length_set] at total ⊢
    omega

/-- An entry without a link is linked. -/
theorem link_spec
    (wellFormed : pool.WellFormed limit Good)
    (valid : Leases key pool.cell source)
    (validTarget : Leases key pool.cell target)
    {cell : Cell α}
    (found : pool.cell source.index = some cell)
    (unlinked : cell.next = none) :
    ∃ after, pool.link key source target = (.ok (), after) ∧
      after.WellFormed limit Good ∧
      after.cell = Function.update pool.cell source.index
        (some { cell with next := some target.index }) ∧
      after.available = pool.available := by
  obtain ⟨node, leased, there, used, same⟩ := leased_of_leases valid
  obtain ⟨targetNode, targetLeased, _⟩ := leased_of_leases validTarget
  rw [found, Option.some.injEq] at same
  subst same
  have good : Good node.content := wellFormed.content there
  obtain ⟨wellFormedNow, available⟩ := @written α pool limit Good source.index
    node { node with chainNext := some target.index } wellFormed there used used
    good
  refine ⟨_, by simp only [link, leased, targetLeased]; exact if_pos unlinked,
    wellFormedNow, ?_, available⟩
  rw [cell_set there, used]
  rfl

/-- Following the link of a leased entry. -/
theorem nextLease_spec
    (valid : Leases key pool.cell lease)
    {cell : Cell α}
    (found : pool.cell lease.index = some cell) :
    (cell.next = none → pool.nextLease key lease = .ok none) ∧
    ∀ index other, cell.next = some index → pool.cell index = some other →
      pool.nextLease key lease = .ok (some
        { index
          generation := other.generation
          key := key other.content }) := by
  obtain ⟨node, leased, there, used, same⟩ := leased_of_leases valid
  rw [found, Option.some.injEq] at same
  subst same
  refine ⟨fun last => ?_, fun index other next otherFound => ?_⟩
  · simp only at last
    simp only [nextLease, leased, last]
  · obtain ⟨otherNode, otherThere, otherUsed, rfl⟩ :=
      cell_eq_some_iff.mp otherFound
    simp only at next
    simp only [nextLease, leased, next, otherThere, otherUsed, if_true]

end Leases

/-- A write changes the content of one entry. -/
theorem write_spec
    {index : Nat} {cell : Cell α} {change : α → α}
    (wellFormed : pool.WellFormed limit Good)
    (found : pool.cell index = some cell)
    (good : Good (change cell.content)) :
    (pool.write index change).WellFormed limit Good ∧
      (pool.write index change).cell = Function.update pool.cell index
        (some { cell with content := change cell.content }) ∧
      (pool.write index change).available = pool.available := by
  obtain ⟨node, there, used, rfl⟩ := cell_eq_some_iff.mp found
  have same : pool.write index change =
      { pool with
        nodes := pool.nodes.set index
          { node with content := change node.content } } := by
    simp only [write, there]
  obtain ⟨wellFormedNow, available⟩ := @written α pool limit Good index node
    { node with content := change node.content } wellFormed there used used good
  rw [same]
  refine ⟨wellFormedNow, ?_, available⟩
  rw [cell_set there, used]
  rfl

/-! ## Ownership -/

/-- An owner of some entries changes them, gives some back, and takes free
ones; it leaves the entries of others alone, and forgets none of its own. -/
structure Moves
    (before after : Nat → Option (Cell α))
    (owned ownedNow : List Nat) : Prop where
  frame : ∀ index, index ∉ owned → before index ≠ none →
    after index = before index
  fresh : ∀ index ∈ ownedNow, index ∈ owned ∨ before index = none
  accounted : ∀ index, after index ≠ none →
    index ∈ ownedNow ∨ index ∉ owned ∧ before index ≠ none

theorem Moves.refl
    (cells : Nat → Option (Cell α)) (owned : List Nat) :
    Moves cells cells owned owned where
  frame _ _ _ := rfl
  fresh _ member := Or.inl member
  accounted index used := by
    by_cases member : index ∈ owned
    · exact Or.inl member
    · exact Or.inr ⟨member, used⟩

theorem Moves.trans
    {first second third : Nat → Option (Cell α)}
    {owned ownedNow ownedLast : List Nat}
    (early : Moves first second owned ownedNow)
    (late : Moves second third ownedNow ownedLast) :
    Moves first third owned ownedLast where
  frame index outside used := by
    have kept := early.frame index outside used
    have outsideNow : index ∉ ownedNow := fun member =>
      (early.fresh index member).elim outside used
    rw [late.frame index outsideNow (kept ▸ used), kept]
  fresh index member := by
    rcases late.fresh index member with middle | free
    · exact early.fresh index middle
    · by_cases outside : index ∈ owned
      · exact Or.inl outside
      · refine Or.inr (by_contra fun used => used ?_)
        rw [← early.frame index outside used]
        exact free
  accounted index used := by
    rcases late.accounted index used with member | ⟨outside, middle⟩
    · exact Or.inl member
    · rcases early.accounted index middle with member | before
      · exact absurd member outside
      · exact Or.inr before

/-- Entries that are kept beside those that move. -/
theorem Moves.beside
    {before after : Nat → Option (Cell α)}
    {owned ownedNow all allNow : List Nat}
    (kept : List Nat)
    (moves : Moves before after owned ownedNow)
    (isAll : ∀ index, index ∈ all ↔ index ∈ owned ∨ index ∈ kept)
    (isAllNow : ∀ index, index ∈ allNow ↔ index ∈ ownedNow ∨ index ∈ kept) :
    Moves before after all allNow where
  frame index outside used :=
    moves.frame index (fun member => outside ((isAll index).mpr (.inl member)))
      used
  fresh index member := by
    rw [isAll]
    rcases (isAllNow index).mp member with own | other
    · exact (moves.fresh index own).imp Or.inl id
    · exact Or.inl (Or.inr other)
  accounted index used := by
    rw [isAllNow, isAll]
    rcases moves.accounted index used with own | ⟨outside, before⟩
    · exact Or.inl (Or.inl own)
    · by_cases other : index ∈ kept
      · exact Or.inl (Or.inr other)
      · exact Or.inr ⟨by tauto, before⟩

/-- A new entry is owned by whoever leased it. -/
theorem Moves.acquire
    {before : Nat → Option (Cell α)} {owned : List Nat} {index : Nat}
    (cell : Cell α)
    (fresh : before index = none)
    {ownedNow : List Nat}
    (now : ∀ other, other ∈ ownedNow ↔ other ∈ owned ∨ other = index) :
    Moves before (Function.update before index (some cell)) owned ownedNow where
  frame other outside used := by
    refine Function.update_of_ne ?_ _ _
    rintro rfl
    exact used fresh
  fresh other member := by
    rcases (now other).mp member with owned | rfl
    · exact Or.inl owned
    · exact Or.inr fresh
  accounted other used := by
    rw [now]
    by_cases here : other = index
    · exact Or.inl (Or.inr here)
    · rw [Function.update_of_ne here] at used
      by_cases member : other ∈ owned
      · exact Or.inl (Or.inl member)
      · exact Or.inr ⟨member, used⟩

/-- An owner writes to an entry of its own. -/
theorem Moves.write
    {before : Nat → Option (Cell α)} {owned : List Nat} {index : Nat}
    (cell : Cell α)
    (member : index ∈ owned) :
    Moves before (Function.update before index (some cell)) owned owned where
  frame other outside _ :=
    Function.update_of_ne (ne_of_mem_of_not_mem member outside).symm _ _
  fresh _ member := Or.inl member
  accounted other used := by
    by_cases inside : other ∈ owned
    · exact Or.inl inside
    · refine Or.inr ⟨inside, ?_⟩
      rwa [Function.update_of_ne (ne_of_mem_of_not_mem member inside).symm] at used

/-- An owner gives an entry back. -/
theorem Moves.release
    {before : Nat → Option (Cell α)} {owned ownedNow : List Nat} {index : Nat}
    (member : index ∈ owned)
    (now : ∀ other, other ∈ ownedNow ↔ other ∈ owned ∧ other ≠ index) :
    Moves before (Function.update before index none) owned ownedNow where
  frame other outside _ :=
    Function.update_of_ne (ne_of_mem_of_not_mem member outside).symm _ _
  fresh other member := Or.inl ((now other).mp member).1
  accounted other used := by
    have apart : other ≠ index := by
      rintro rfl
      rw [Function.update_self] at used
      exact used rfl
    rw [Function.update_of_ne apart] at used
    by_cases inside : other ∈ owned
    · exact Or.inl ((now other).mpr ⟨inside, apart⟩)
    · exact Or.inr ⟨inside, used⟩

end LeasePool
