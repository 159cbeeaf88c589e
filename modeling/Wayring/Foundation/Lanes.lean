import Wayring.Foundation.Chain
import Mathlib.Logic.Function.Basic

/-!
# Queues that share one array

Any number of queues, here called lanes, link their nodes through one array of
cells, and the cells in no lane form a list of free ones.  A node joins a lane
at its end and leaves it at its front.
-/

namespace Lanes

/-- The links describe the nodes of every lane and the free cells, and no cell
has two places. -/
structure Sound
    (next : Nat → Option Nat)
    (head tail : Nat → Option Nat)
    (freeHead : Option Nat)
    (size : Nat)
    (lanes : Nat → List Nat)
    (free : List Nat) : Prop where
  linked : ∀ lane, Chain.Linked next (head lane) (lanes lane)
  tail : ∀ lane, tail lane = (lanes lane).getLast?
  freeLinked : Chain.Linked next freeHead free
  distinct : ∀ lane, (lanes lane).Nodup
  freeDistinct : free.Nodup
  apart : ∀ lane other, lane ≠ other → (lanes lane).Disjoint (lanes other)
  freeApart : ∀ lane, (lanes lane).Disjoint free
  bound : ∀ lane, ∀ node ∈ lanes lane, node < size
  freeBound : ∀ node ∈ free, node < size

namespace Sound

variable {next later head tail : Nat → Option Nat} {freeHead : Option Nat}
  {size lane node : Nat} {lanes : Nat → List Nat} {free rest : List Nat}

/-- No lane has a node. -/
theorem empty : Sound next (fun _ => none) (fun _ => none) none 0
    (fun _ => []) [] where
  linked := fun _ => rfl
  tail := fun _ => rfl
  freeLinked := rfl
  distinct := fun _ => List.nodup_nil
  freeDistinct := List.nodup_nil
  apart := fun _ _ _ => List.disjoint_nil_left _
  freeApart := fun _ => List.disjoint_nil_left _
  bound := fun _ _ member => absurd member List.not_mem_nil
  freeBound := fun _ member => absurd member List.not_mem_nil

/-- Nothing but the lanes and the links of their cells matters. -/
theorem congr
    {newHead newTail : Nat → Option Nat}
    (sound : Sound next head tail freeHead size lanes free)
    (links : ∀ node < size, later node = next node)
    (heads : newHead = head)
    (tails : newTail = tail) :
    Sound later newHead newTail freeHead size lanes free where
  linked := fun lane => by
    rw [heads]
    exact (sound.linked lane).congr fun node member =>
      links node (sound.bound lane node member)
  tail := fun lane => by
    rw [tails]
    exact sound.tail lane
  freeLinked := sound.freeLinked.congr fun node member =>
    links node (sound.freeBound node member)
  distinct := sound.distinct
  freeDistinct := sound.freeDistinct
  apart := sound.apart
  freeApart := sound.freeApart
  bound := sound.bound
  freeBound := sound.freeBound

/-- When no cell is free, a new one comes into being that has no place yet. -/
theorem grow
    (later : Nat → Option Nat)
    (sound : Sound next head tail none size lanes free)
    (links : ∀ node < size, later node = next node) :
    Sound later head tail none (size + 1) lanes [] ∧
      ∀ lane, size ∉ lanes lane := by
  have kept := sound.congr links rfl rfl
  refine ⟨{ kept with
    freeLinked := rfl
    freeDistinct := List.nodup_nil
    freeApart := fun _ => List.disjoint_nil_right _
    bound := fun lane node member =>
      Nat.lt_succ_of_lt (sound.bound lane node member)
    freeBound := fun _ member => absurd member List.not_mem_nil }, ?_⟩
  intro lane member
  exact Nat.lt_irrefl _ (sound.bound lane size member)

/-- The first free cell is taken from the free list. -/
theorem take
    (sound : Sound next head tail (some node) size lanes free) :
    ∃ rest, free = node :: rest ∧
      Sound next head tail (next node) size lanes rest ∧
      node < size ∧ node ∉ rest ∧ ∀ lane, node ∉ lanes lane := by
  have linked := sound.freeLinked
  cases shape : free with
  | nil =>
      rw [shape] at linked
      cases (Chain.linked_nil _ _).mp linked
  | cons first rest =>
      rw [shape] at linked
      obtain ⟨same, linkedRest⟩ := (Chain.linked_cons _ _ _ _).mp linked
      cases same
      have distinct := sound.freeDistinct
      rw [shape, List.nodup_cons] at distinct
      have member : node ∈ free := by simp [shape]
      have tailOf : ∀ other ∈ rest, other ∈ free := fun other within => by
        rw [shape]
        exact List.mem_cons_of_mem _ within
      refine ⟨rest, rfl, ?_, sound.freeBound node member, distinct.1,
        fun lane within => sound.freeApart lane within member⟩
      exact { sound with
        freeLinked := linkedRest
        freeDistinct := distinct.2
        freeApart := fun lane other within inRest =>
          sound.freeApart lane within (tailOf other inRest)
        freeBound := fun other inRest =>
          sound.freeBound other (tailOf other inRest) }

/-- A cell without a place becomes the last node of a lane. -/
theorem pushBack
    {newHead newTail : Nat → Option Nat}
    (lane : Nat)
    (sound : Sound next head tail freeHead size lanes free)
    (inside : node < size)
    (fresh : ∀ lane, node ∉ lanes lane)
    (notFree : node ∉ free)
    (links : ∀ other < size, later other =
      if tail lane = some other then some node
      else if other = node then none else next other)
    (heads : newHead = Function.update head lane
      (if tail lane = none then some node else head lane))
    (tails : newTail = Function.update tail lane (some node)) :
    Sound later newHead newTail freeHead size
      (Function.update lanes lane (lanes lane ++ [node])) free := by
  subst heads tails
  have last : ∀ last, tail lane = some last → last ∈ lanes lane := by
    intro last atEnd
    rw [sound.tail] at atEnd
    exact List.mem_of_getLast? atEnd
  have outside : ∀ other < size, other ∉ lanes lane → other ≠ node →
      later other = next other := by
    intro other within absent different
    rw [links other within, if_neg fun atEnd => absent (last other atEnd),
      if_neg different]
  have notLast : tail lane ≠ some node := fun atEnd =>
    fresh lane (last node atEnd)
  have linked : Chain.Linked later
      (if tail lane = none then some node else head lane)
      (lanes lane ++ [node]) := by
    have whole := sound.linked lane
    have distinct := sound.distinct lane
    have atEnd := sound.tail lane
    have notIn := fresh lane
    rcases List.eq_nil_or_concat (lanes lane) with empty | ⟨front, end_, shape⟩
    · rw [empty, List.getLast?_nil] at atEnd
      rw [empty, if_pos atEnd]
      refine ⟨rfl, (Chain.linked_nil _ _).mpr ?_⟩
      rw [links node inside, if_neg notLast, if_pos rfl]
    · rw [List.concat_eq_append] at shape
      have within : ∀ other ∈ front ++ [end_], other < size := fun other member =>
        sound.bound lane other (shape ▸ member)
      rw [shape] at whole distinct atEnd notIn ⊢
      rw [List.getLast?_concat] at atEnd
      rw [atEnd, if_neg (Option.some_ne_none _), List.append_assoc]
      apply (whole.append distinct notIn).congr
      intro other member
      have bound : other < size := by
        have spelled : front ++ [end_, node] = (front ++ [end_]) ++ [node] := by
          simp
        rw [spelled] at member
        rcases List.mem_append.mp member with before | single
        · exact within other before
        · rw [List.mem_singleton.mp single]
          exact inside
      rw [links other bound, atEnd]
      by_cases same : other = end_
      · rw [same, if_pos rfl, Function.update_self]
      · rw [if_neg fun equal => same (Option.some.inj equal).symm,
          Function.update_of_ne same, Function.update_apply]
  constructor
  · intro other
    by_cases here : other = lane
    · subst here
      rw [Function.update_self, Function.update_self]
      exact linked
    · rw [Function.update_of_ne here, Function.update_of_ne here]
      apply (sound.linked other).congr
      intro position member
      exact outside position (sound.bound other position member)
        (sound.apart other lane here member)
        (ne_of_mem_of_not_mem member (fresh other))
  · intro other
    by_cases here : other = lane
    · subst here
      rw [Function.update_self, Function.update_self, List.getLast?_concat]
    · rw [Function.update_of_ne here, Function.update_of_ne here]
      exact sound.tail other
  · apply sound.freeLinked.congr
    intro position member
    exact outside position (sound.freeBound position member)
      (fun within => sound.freeApart lane within member)
      (ne_of_mem_of_not_mem member notFree)
  · intro other
    rw [Function.update_apply]
    split_ifs
    · rw [List.nodup_append]
      refine ⟨sound.distinct lane, List.nodup_singleton _, ?_⟩
      intro first member second single
      rw [List.mem_singleton.mp single]
      exact ne_of_mem_of_not_mem member (fresh lane)
    · exact sound.distinct other
  · exact sound.freeDistinct
  · intro first second different position inFirst inSecond
    rw [Function.update_apply] at inFirst inSecond
    split_ifs at inFirst inSecond with atFirst atSecond atSecond
    · exact different (atFirst.trans atSecond.symm)
    · rcases List.mem_append.mp inFirst with before | single
      · exact sound.apart lane second (Ne.symm atSecond) before inSecond
      · rw [List.mem_singleton.mp single] at inSecond
        exact fresh second inSecond
    · rcases List.mem_append.mp inSecond with before | single
      · exact sound.apart first lane atFirst inFirst before
      · rw [List.mem_singleton.mp single] at inFirst
        exact fresh first inFirst
    · exact sound.apart first second different inFirst inSecond
  · intro other position member inFree
    rw [Function.update_apply] at member
    split_ifs at member
    · rcases List.mem_append.mp member with before | single
      · exact sound.freeApart lane before inFree
      · rw [List.mem_singleton.mp single] at inFree
        exact notFree inFree
    · exact sound.freeApart other member inFree
  · intro other position member
    rw [Function.update_apply] at member
    split_ifs at member
    · rcases List.mem_append.mp member with before | single
      · exact sound.bound lane position before
      · rw [List.mem_singleton.mp single]
        exact inside
    · exact sound.bound other position member
  · exact sound.freeBound

/-- A node leaves its lane and becomes the first free cell.  Only the link of
the node before it changes, if there is one. -/
theorem remove
    {newHead newTail : Nat → Option Nat} {front back : List Nat}
    (lane : Nat)
    (sound : Sound next head tail freeHead size lanes free)
    (split : lanes lane = front ++ node :: back)
    (links : ∀ other < size, later other =
      if other = node then freeHead
      else Chain.removeLink next node front.getLast? other)
    (heads : newHead = Function.update head lane
      (Chain.removeHead next (head lane) node front.getLast?))
    (tails : newTail = Function.update tail lane
      (if tail lane = some node then front.getLast? else tail lane)) :
    Sound later newHead newTail (some node) size
      (Function.update lanes lane (front ++ back)) (node :: free) := by
  subst heads tails
  have member : node ∈ lanes lane := by simp [split]
  have distinct := sound.distinct lane
  rw [split] at distinct
  obtain ⟨alone, apart⟩ := List.nodup_cons.mp (List.nodup_middle.mp distinct)
  have linked := sound.linked lane
  rw [split] at linked
  have subset : ∀ other ∈ front ++ back, other ∈ lanes lane ∧ other ≠ node := by
    intro other within
    refine ⟨?_, ne_of_mem_of_not_mem within alone⟩
    rw [split]
    exact List.mem_append.mpr ((List.mem_append.mp within).imp_right
      (List.mem_cons_of_mem _))
  have freshFree : node ∉ free := fun within =>
    sound.freeApart lane member within
  have outside : ∀ other < size, other ∉ lanes lane →
      later other = next other := by
    intro other within absent
    have different : other ≠ node := by
      rintro rfl
      exact absent member
    have notBefore : front.getLast? ≠ some other := fun last =>
      absent (split ▸ List.mem_append_left _ (List.mem_of_getLast? last))
    rw [links other within, if_neg different, Chain.removeLink_apply,
      if_neg notBefore]
  have lastOf : (if tail lane = some node then front.getLast?
      else tail lane) = (front ++ back).getLast? := by
    rw [sound.tail, split]
    rcases List.eq_nil_or_concat back with rfl | ⟨earlier, last, rfl⟩
    · rw [List.getLast?_concat, if_pos rfl, List.append_nil]
    · rw [List.concat_eq_append, ← List.cons_append, ← List.append_assoc,
        List.getLast?_concat, ← List.append_assoc, List.getLast?_concat, if_neg]
      intro same
      cases same
      exact alone (by simp)
  constructor
  · intro other
    by_cases here : other = lane
    · subst here
      rw [Function.update_self, Function.update_self]
      apply (linked.remove distinct).congr
      intro position within
      obtain ⟨inLane, different⟩ := subset position within
      rw [links position (sound.bound other position inLane),
        if_neg different]
    · rw [Function.update_of_ne here, Function.update_of_ne here]
      apply (sound.linked other).congr
      intro position within
      exact outside position (sound.bound other position within)
        (sound.apart other lane here within)
  · intro other
    by_cases here : other = lane
    · subst here
      rw [Function.update_self, Function.update_self, lastOf]
    · rw [Function.update_of_ne here, Function.update_of_ne here]
      exact sound.tail other
  · apply (sound.freeLinked.push freshFree).congr
    intro position within
    rw [Function.update_apply]
    rcases List.mem_cons.mp within with rfl | inFree
    · rw [links position (sound.bound lane position member), if_pos rfl,
        if_pos rfl]
    · rw [if_neg (ne_of_mem_of_not_mem inFree freshFree)]
      exact outside position (sound.freeBound position inFree) fun inLane =>
        sound.freeApart lane inLane inFree
  · intro other
    rw [Function.update_apply]
    split_ifs
    · exact apart
    · exact sound.distinct other
  · exact List.nodup_cons.mpr ⟨freshFree, sound.freeDistinct⟩
  · intro first second different position inFirst inSecond
    rw [Function.update_apply] at inFirst inSecond
    split_ifs at inFirst inSecond with atFirst atSecond atSecond
    · exact different (atFirst.trans atSecond.symm)
    · exact sound.apart lane second (Ne.symm atSecond)
        (subset position inFirst).1 inSecond
    · exact sound.apart first lane atFirst inFirst
        (subset position inSecond).1
    · exact sound.apart first second different inFirst inSecond
  · intro other position within inFree
    rw [Function.update_apply] at within
    split_ifs at within with here
    · obtain ⟨inLane, different⟩ := subset position within
      exact sound.freeApart lane inLane
        (List.mem_of_ne_of_mem different inFree)
    · rcases List.mem_cons.mp inFree with rfl | old
      · exact sound.apart other lane here within member
      · exact sound.freeApart other within old
  · intro other position within
    rw [Function.update_apply] at within
    split_ifs at within
    · exact sound.bound lane position (subset position within).1
    · exact sound.bound other position within
  · intro position within
    rcases List.mem_cons.mp within with rfl | old
    · exact sound.bound lane position member
    · exact sound.freeBound position old

/-- The first node of a lane becomes the first free cell. -/
theorem popFront
    {newHead newTail : Nat → Option Nat}
    (lane : Nat)
    (sound : Sound next head tail freeHead size lanes free)
    (split : lanes lane = node :: rest)
    (links : ∀ other < size, later other =
      if other = node then freeHead else next other)
    (heads : newHead = Function.update head lane (next node))
    (tails : newTail = Function.update tail lane
      (if rest = [] then none else tail lane)) :
    Sound later newHead newTail (some node) size
      (Function.update lanes lane rest) (node :: free) := by
  have distinct := sound.distinct lane
  rw [split, List.nodup_cons] at distinct
  have last : tail lane = some node ↔ rest = [] := by
    rw [sound.tail, split]
    rcases List.eq_nil_or_concat rest with rfl | ⟨earlier, last, rfl⟩
    · simp
    · rw [List.concat_eq_append] at distinct ⊢
      rw [← List.cons_append, List.getLast?_concat]
      constructor
      · intro same
        cases same
        exact absurd (by simp) distinct.1
      · simp
  refine @remove _ _ _ _ _ _ _ _ _ _ _ [] rest lane sound split links heads ?_
  rw [tails]
  simp only [last, List.getLast?_nil]

end Sound
end Lanes
