import Mathlib.Data.List.Nodup
import Mathlib.Logic.Function.Basic
import Mathlib.Tactic

/-!
# Intrusive chains

Nodes linked by an optional successor.  `Segment next head nodes stop` says
that following `next` from `head` visits `nodes` in order and then arrives at
`stop`; a chain is a segment that ends at no node.  The rules describe the
link writes of singly linked stacks, queues, and lists.
-/

namespace Chain

variable {ι : Type*}

/-- The links from `head` visit `nodes` and then arrive at `stop`. -/
def Segment (next : ι → Option ι) : Option ι → List ι → Option ι → Prop
  | head, [], stop => head = stop
  | head, node :: rest, stop =>
      head = some node ∧ Segment next (next node) rest stop

/-- The links from `head` visit exactly `nodes`. -/
def Linked (next : ι → Option ι) (head : Option ι) (nodes : List ι) : Prop :=
  Segment next head nodes none

@[simp] theorem segment_nil
    (next : ι → Option ι) (head stop : Option ι) :
    Segment next head [] stop ↔ head = stop := Iff.rfl

@[simp] theorem segment_cons
    (next : ι → Option ι) (head stop : Option ι)
    (node : ι) (rest : List ι) :
    Segment next head (node :: rest) stop ↔
      head = some node ∧ Segment next (next node) rest stop := Iff.rfl

@[simp] theorem linked_nil (next : ι → Option ι) (head : Option ι) :
    Linked next head [] ↔ head = none := Iff.rfl

@[simp] theorem linked_cons
    (next : ι → Option ι) (head : Option ι) (node : ι) (rest : List ι) :
    Linked next head (node :: rest) ↔
      head = some node ∧ Linked next (next node) rest := Iff.rfl

/-- A segment can be cut anywhere. -/
theorem segment_append
    {next : ι → Option ι} {head stop : Option ι} {front back : List ι} :
    Segment next head (front ++ back) stop ↔
      ∃ middle, Segment next head front middle ∧
        Segment next middle back stop := by
  induction front generalizing head with
  | nil => simp
  | cons node front inductionHypothesis =>
      simp only [List.cons_append, segment_cons, inductionHypothesis]
      constructor
      · rintro ⟨atHead, middle, first, second⟩
        exact ⟨middle, ⟨atHead, first⟩, second⟩
      · rintro ⟨middle, ⟨atHead, first⟩, second⟩
        exact ⟨atHead, middle, first, second⟩

/-- Writes to links outside the visited nodes do not matter. -/
theorem Segment.congr
    {next other : ι → Option ι} {head stop : Option ι} {nodes : List ι}
    (segment : Segment next head nodes stop)
    (agrees : ∀ node ∈ nodes, other node = next node) :
    Segment other head nodes stop := by
  induction nodes generalizing head with
  | nil => exact segment
  | cons node nodes inductionHypothesis =>
      rw [segment_cons] at segment ⊢
      refine ⟨segment.1, ?_⟩
      rw [agrees node (by simp)]
      exact inductionHypothesis segment.2
        fun later member => agrees later (by simp [member])

/-- A chain depends on the links of its nodes alone. -/
theorem Linked.congr
    {next other : ι → Option ι} {head : Option ι} {nodes : List ι}
    (linked : Linked next head nodes)
    (agrees : ∀ node ∈ nodes, other node = next node) :
    Linked other head nodes :=
  Segment.congr linked agrees

/-- The nodes of a chain are determined by its links. -/
theorem Linked.unique
    {next : ι → Option ι} {head : Option ι} {left right : List ι}
    (first : Linked next head left)
    (second : Linked next head right) :
    left = right := by
  induction left generalizing head right with
  | nil =>
      cases right with
      | nil => rfl
      | cons node right =>
          rw [linked_nil] at first
          rw [first] at second
          cases second.1
  | cons node left inductionHypothesis =>
      cases right with
      | nil =>
          rw [linked_nil] at second
          rw [second] at first
          cases first.1
      | cons other right =>
          have same : node = other :=
            Option.some.inj (first.1.symm.trans second.1)
          subst same
          rw [inductionHypothesis first.2 second.2]

/-- The head of a chain is its first node. -/
theorem Linked.head_eq
    {next : ι → Option ι} {head : Option ι} {nodes : List ι}
    (linked : Linked next head nodes) : head = nodes.head? := by
  cases nodes with
  | nil => exact linked
  | cons node nodes => exact linked.1

/-- A chain of distinct nodes hands each node to the next one in its list. -/
theorem Segment.next_eq
    {next : ι → Option ι} {head stop : Option ι}
    {front back : List ι} {node : ι}
    (segment : Segment next head (front ++ node :: back) stop) :
    next node = (back.head?).or stop := by
  obtain ⟨_, _, tail⟩ := segment_append.mp segment
  cases back with
  | nil => simpa using tail.2
  | cons following back => exact tail.2.1

/-- The link of a node is the node behind it. -/
theorem Linked.next_eq
    {next : ι → Option ι} {head : Option ι}
    {front back : List ι} {node : ι}
    (linked : Linked next head (front ++ node :: back)) :
    next node = back.head? := by
  have := Segment.next_eq linked
  simpa using this

/-- Distinct indices below a bound are at most that many. -/
theorem length_le_of_nodup
    {nodes : List Nat} {bound : Nat}
    (distinct : nodes.Nodup)
    (below : ∀ node ∈ nodes, node < bound) :
    nodes.length ≤ bound := by
  rw [← List.toFinset_card_of_nodup distinct, ← Finset.card_range bound]
  apply Finset.card_le_card
  intro node member
  exact Finset.mem_range.mpr (below node (List.mem_toFinset.mp member))

/-- The head after unlinking `node`. -/
def removeHead
    (next : ι → Option ι)
    (head : Option ι)
    (node : ι) : Option ι → Option ι
  | none => next node
  | some _ => head

/-- The head moves when the first node is removed. -/
theorem removeHead_eq
    (next : ι → Option ι) (head : Option ι) (node : ι) (before : Option ι) :
    removeHead next head node before =
      if before = none then next node else head := by
  cases before <;> rfl

section Writes

variable [DecidableEq ι] {next : ι → Option ι} {head : Option ι}

/-- Push a new first node. -/
theorem Linked.push
    {nodes : List ι} {node : ι}
    (linked : Linked next head nodes)
    (fresh : node ∉ nodes) :
    Linked (Function.update next node head) (some node) (node :: nodes) := by
  refine ⟨rfl, ?_⟩
  rw [Function.update_self]
  apply linked.congr
  intro other member
  exact Function.update_of_ne (ne_of_mem_of_not_mem member fresh) _ _

/-- Link a new node after the last one. -/
theorem Linked.append
    {front : List ι} {tail node : ι}
    (linked : Linked next head (front ++ [tail]))
    (distinct : (front ++ [tail]).Nodup)
    (fresh : node ∉ front ++ [tail]) :
    Linked
      (Function.update (Function.update next node none) tail (some node))
      head (front ++ [tail, node]) := by
  obtain ⟨middle, first, second⟩ := segment_append.mp linked
  have tailApart : tail ∉ front := by
    intro member
    exact List.disjoint_of_nodup_append distinct member (by simp)
  have nodeApart : tail ≠ node := by
    rintro rfl
    exact fresh (by simp)
  apply segment_append.mpr
  refine ⟨middle, first.congr fun other member => ?_, second.1, ?_, ?_⟩
  · rw [Function.update_of_ne (ne_of_mem_of_not_mem member tailApart),
      Function.update_of_ne]
    rintro rfl
    exact fresh (by simp [member])
  · rw [Function.update_self]
  · rw [Function.update_of_ne nodeApart.symm, Function.update_self]
    exact rfl

/-- Unlink the node after `before`. -/
theorem Linked.unlink
    {front back : List ι} {before node : ι}
    (linked : Linked next head (front ++ before :: node :: back))
    (distinct : (front ++ before :: node :: back).Nodup) :
    Linked (Function.update next before (next node)) head
      (front ++ before :: back) := by
  obtain ⟨middle, first, atMiddle, atNode, second⟩ := segment_append.mp linked
  have apart : before ∉ front ∧ before ∉ back := by
    rw [List.nodup_append] at distinct
    obtain ⟨_, backDistinct, disjoint⟩ := distinct
    rw [List.nodup_cons] at backDistinct
    exact ⟨fun member => disjoint before member before (by simp) rfl,
      fun member => backDistinct.1 (by simp [member])⟩
  apply segment_append.mpr
  refine ⟨middle, first.congr fun other member => ?_, atMiddle, ?_⟩
  · exact Function.update_of_ne (ne_of_mem_of_not_mem member apart.1) _ _
  · rw [Function.update_self]
    apply Segment.congr second
    intro other member
    exact Function.update_of_ne (ne_of_mem_of_not_mem member apart.2) _ _

/-- The links after unlinking `node`, whose predecessor is the last of
`front`. -/
def removeLink
    (next : ι → Option ι)
    (node : ι) : Option ι → ι → Option ι
  | none => next
  | some before => Function.update next before (next node)

/-- Only the node before a removed one is linked anew. -/
theorem removeLink_apply
    (next : ι → Option ι) (node : ι) (before : Option ι) (position : ι) :
    removeLink next node before position =
      if before = some position then next node else next position := by
  cases before with
  | none => rfl
  | some before =>
      simp only [removeLink, Function.update_apply, Option.some.injEq,
        eq_comm]

/-- Unlink a node anywhere in a chain, given its predecessor. -/
theorem Linked.remove
    {front back : List ι} {node : ι}
    (linked : Linked next head (front ++ node :: back))
    (distinct : (front ++ node :: back).Nodup) :
    Linked (removeLink next node front.getLast?)
      (removeHead next head node front.getLast?) (front ++ back) := by
  rcases List.eq_nil_or_concat front with rfl | ⟨earlier, before, rfl⟩
  · exact linked.2
  · rw [List.concat_eq_append] at linked distinct ⊢
    rw [List.append_assoc, List.singleton_append] at linked distinct ⊢
    rw [List.getLast?_concat]
    exact linked.unlink distinct

end Writes
end Chain
