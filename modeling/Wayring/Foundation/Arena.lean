import Wayring.Foundation.Chain
import Wayring.Foundation.Generation
import Wayring.Foundation.ListWrites

/-!
# Generational arenas

A growing table of slots.  Inactive slots form a free list, and a slot changes
generation when it is released, so that a token of an earlier use no longer
resolves.  An arena is a finite map from tokens to contents.
-/

/-- One slot. -/
structure Arena.Slot (α : Type) where
  generation : Nat := 1
  nextFree : Option Nat := none
  active : Bool := false
  content : α
  deriving DecidableEq, Repr

/-- One use of a slot. -/
structure Arena.Token where
  index : Nat
  generation : Nat
  deriving DecidableEq, Repr

/-- Slots, and the head of their free list. -/
structure Arena (α : Type) where
  slots : List (Arena.Slot α) := []
  free : Option Nat := none
  activeCount : Nat := 0
  deriving DecidableEq, Repr

namespace Arena

variable {α : Type} {modulus : Nat} {arena before after last : Arena α}

/-! ## Operations -/

/-- The content of a token's slot, while the token's use of it lasts. -/
def resolve (arena : Arena α) (token : Token) : Option α :=
  (arena.slots[token.index]?).bind fun slot =>
    if slot.active ∧ slot.generation = token.generation then some slot.content
    else none

/-- Add a free slot, up to a limit, if memory is granted. -/
def grow
    (arena : Arena α)
    (limit : Nat)
    (content : α)
    (granted : Bool) : Option (Arena α) :=
  if arena.slots.length ≥ limit ∨ !granted then none
  else some
    { arena with
      slots := arena.slots ++ [{ nextFree := arena.free, content }]
      free := some arena.slots.length }

/-- Use the first free slot. -/
def take (arena : Arena α) (content : α) : Option (Token × Arena α) := do
  let index ← arena.free
  let slot ← arena.slots[index]?
  some ({ index, generation := slot.generation },
    { slots := arena.slots.set index
        { generation := slot.generation, active := true, content }
      free := slot.nextFree
      activeCount := arena.activeCount + 1 })

/-- Write to the content of a slot. -/
def modify (arena : Arena α) (index : Nat) (change : α → α) : Arena α :=
  match arena.slots[index]? with
  | none => arena
  | some slot =>
      { arena with
        slots := arena.slots.set index
          { slot with content := change slot.content } }

/-- End the use of a slot. -/
def release (arena : Arena α) (modulus index : Nat) : Arena α :=
  match arena.slots[index]? with
  | none => arena
  | some slot =>
      { slots := arena.slots.set index
          { slot with
            active := false
            generation := Generation.next modulus slot.generation
            nextFree := arena.free }
        free := some index
        activeCount := arena.activeCount - 1 }

/-- How many active slots have content of some kind. -/
def count (arena : Arena α) (kind : α → Bool) : Nat :=
  arena.slots.countP fun slot => slot.active && kind slot.content

/-! ## Invariant -/

/-- Whether there is an inactive slot at an index. -/
def Vacant (arena : Arena α) (index : Nat) : Prop :=
  ∃ slot, arena.slots[index]? = some slot ∧ slot.active = false

/-- The free list visits the inactive slots. -/
structure WellFormed (modulus : Nat) (arena : Arena α) : Prop where
  free : ∃ chain,
    Chain.Linked (fun index => (arena.slots[index]?).bind Slot.nextFree)
      arena.free chain ∧
    chain.Nodup ∧ ∀ index, index ∈ chain ↔ arena.Vacant index
  generation : ∀ {index : Nat} {slot : Slot α},
    arena.slots[index]? = some slot →
    0 < slot.generation ∧ slot.generation < modulus
  count : arena.activeCount = arena.count fun _ => true

/-- One arena comes after another, with some number of releases of each slot
in between. -/
def Follows
    (modulus : Nat)
    (before after : Arena α)
    (releases : Nat → Nat) : Prop :=
  ∀ index slot, before.slots[index]? = some slot →
    ∃ now, after.slots[index]? = some now ∧
      now.generation =
        (Generation.next modulus)^[releases index] slot.generation ∧
      (releases index = 0 → slot.active = true → now.active = true)

/-- A token resolves to an active slot of its generation. -/
theorem resolve_eq_some_iff
    {token : Token} {content : α} :
    arena.resolve token = some content ↔
      ∃ slot, arena.slots[token.index]? = some slot ∧ slot.active = true ∧
        slot.generation = token.generation ∧ slot.content = content := by
  simp only [resolve, Option.bind_eq_some_iff, Option.ite_none_right_eq_some,
    Option.some.injEq, and_assoc]

/-- Resolving tokens of one slot are equal. -/
theorem token_eq
    {left right : Token} {first second : α}
    (leftFound : arena.resolve left = some first)
    (rightFound : arena.resolve right = some second)
    (same : left.index = right.index) : left = right := by
  obtain ⟨slot, at_, _, generation, _⟩ := resolve_eq_some_iff.mp leftFound
  obtain ⟨other, there, _, otherGeneration, _⟩ :=
    resolve_eq_some_iff.mp rightFound
  rw [same, there, Option.some.injEq] at at_
  cases left
  cases right
  simp_all

/-- Where none is counted, none is of the kind. -/
theorem kind_of_count_eq_zero
    {kind : α → Bool} {token : Token} {content : α}
    (zero : arena.count kind = 0)
    (resolved : arena.resolve token = some content) : kind content = false := by
  obtain ⟨slot, found, active, _, rfl⟩ := resolve_eq_some_iff.mp resolved
  have absent := List.countP_eq_zero.mp zero slot (List.mem_of_getElem? found)
  simpa [active] using absent

/-- Where none is of the kind, none is counted. -/
theorem count_eq_zero
    {kind : α → Bool}
    (none : ∀ token content, arena.resolve token = some content →
      kind content = false) : arena.count kind = 0 := by
  refine List.countP_eq_zero.mpr fun slot member => ?_
  obtain ⟨index, found⟩ := List.mem_iff_getElem?.mp member
  by_cases active : slot.active = true
  · have absent := none { index, generation := slot.generation } slot.content
      (resolve_eq_some_iff.mpr ⟨slot, found, active, rfl, rfl⟩)
    simp [absent]
  · simp [active]

/-- What is of the kind is counted. -/
theorem count_pos
    {kind : α → Bool} {token : Token} {content : α}
    (resolved : arena.resolve token = some content)
    (member : kind content = true) : 0 < arena.count kind := by
  apply Nat.pos_of_ne_zero
  intro zero
  rw [kind_of_count_eq_zero zero resolved] at member
  cases member

/-- The content in use at an index. -/
def current (arena : Arena α) (index : Nat) : Option α :=
  (arena.slots[index]?).bind fun slot =>
    if slot.active then some slot.content else none

/-- A slot is current exactly when a token of it resolves. -/
theorem current_eq_some_iff
    {index : Nat} {content : α} :
    arena.current index = some content ↔
      ∃ generation, arena.resolve { index, generation } = some content := by
  simp only [resolve_eq_some_iff, current, Option.bind_eq_some_iff,
    Option.ite_none_right_eq_some, Option.some.injEq]
  constructor
  · rintro ⟨slot, found, active, same⟩
    exact ⟨slot.generation, slot, found, active, rfl, same⟩
  · rintro ⟨_, slot, found, active, _, same⟩
    exact ⟨slot, found, active, same⟩

/-- What a token resolves to is current. -/
theorem current_of_resolve
    {token : Token} {content : α}
    (resolved : arena.resolve token = some content) :
    arena.current token.index = some content :=
  current_eq_some_iff.mpr ⟨token.generation, resolved⟩

/-- A change of what one token resolves to is a change at its index. -/
theorem current_of_update
    {token : Token} {content : Option α}
    (resolve : ∀ other, after.resolve other =
      if other = token then content else before.resolve other)
    (alone : ∀ other content, before.resolve other = some content →
      other.index = token.index → other = token)
    (index : Nat) :
    after.current index =
      if index = token.index then content else before.current index := by
  apply Option.ext
  intro value
  rw [current_eq_some_iff]
  by_cases here : index = token.index
  · subst here
    rw [if_pos rfl]
    constructor
    · rintro ⟨generation, found⟩
      rw [resolve] at found
      split_ifs at found with same
      · exact found
      · exact absurd (alone _ _ found rfl) same
    · rintro rfl
      exact ⟨token.generation, by rw [resolve, if_pos rfl]⟩
  · rw [if_neg here, current_eq_some_iff]
    refine exists_congr fun generation => ?_
    rw [resolve, if_neg]
    rintro rfl
    exact here rfl

/-! ## Time -/

theorem Follows.refl (modulus : Nat) (arena : Arena α) :
    Follows modulus arena arena fun _ => 0 :=
  fun _ slot found => ⟨slot, found, rfl, fun _ active => active⟩

theorem Follows.trans
    {first second : Nat → Nat}
    (early : Follows modulus before after first)
    (late : Follows modulus after last second) :
    Follows modulus before last fun index => first index + second index := by
  intro index slot found
  obtain ⟨middle, middleFound, middleGeneration, middleActive⟩ :=
    early index slot found
  obtain ⟨now, nowFound, nowGeneration, nowActive⟩ :=
    late index middle middleFound
  refine ⟨now, nowFound, ?_, fun none active => ?_⟩
  · rw [nowGeneration, middleGeneration, ← Function.iterate_add_apply,
      Nat.add_comm]
  · rw [Nat.add_eq_zero_iff] at none
    exact nowActive none.2 (middleActive none.1 active)

/-- A token that has stopped resolving does not resolve again before its slot
has gone through all generations. -/
theorem Follows.stale
    {first second : Nat → Nat} {token : Token} {content : α}
    (wellFormed : before.WellFormed modulus)
    (early : Follows modulus before after first)
    (late : Follows modulus after last second)
    (resolved : before.resolve token = some content)
    (stale : after.resolve token = none)
    (few : first token.index + second token.index < modulus - 1) :
    last.resolve token = none := by
  obtain ⟨slot, found, active, generation, _⟩ := resolve_eq_some_iff.mp resolved
  obtain ⟨positive, below⟩ := wellFormed.generation found
  obtain ⟨middle, middleFound, middleGeneration, middleActive⟩ :=
    early token.index slot found
  obtain ⟨now, nowFound, nowGeneration, _⟩ := early.trans late token.index slot
    found
  rw [Option.eq_none_iff_forall_ne_some]
  intro content again
  obtain ⟨current, currentFound, _, currentGeneration, _⟩ :=
    resolve_eq_some_iff.mp again
  rw [nowFound, Option.some.injEq] at currentFound
  rw [← currentFound, nowGeneration, ← generation] at currentGeneration
  have none : first token.index + second token.index = 0 := by
    by_contra some
    exact Generation.iterate_ne positive below (Nat.pos_of_ne_zero some) few
      currentGeneration
  rw [Nat.add_eq_zero_iff] at none
  rw [none.1] at middleGeneration middleActive
  have still : after.resolve token = some middle.content :=
    resolve_eq_some_iff.mpr ⟨middle, middleFound, middleActive rfl active,
      middleGeneration.trans generation, rfl⟩
  rw [stale] at still
  cases still

/-! ## Growth -/

/-- An arena without slots. -/
theorem wellFormed_empty : ({} : Arena α).WellFormed modulus where
  free := ⟨[], rfl, List.nodup_nil, fun index => by simp [Vacant]⟩
  generation found := by simp at found
  count := rfl

/-- What growth does. -/
structure Grown (modulus : Nat) (before after : Arena α) : Prop where
  wellFormed : after.WellFormed modulus
  resolve : ∀ token, after.resolve token = before.resolve token
  count : ∀ kind, after.count kind = before.count kind
  follows : Follows modulus before after fun _ => 0

theorem Grown.refl
    (wellFormed : arena.WellFormed modulus) : Grown modulus arena arena where
  wellFormed := wellFormed
  resolve _ := rfl
  count _ := rfl
  follows := Follows.refl _ _

/-- A new slot is free, and every token resolves as before. -/
theorem grow_spec
    {limit : Nat} {content : α} {granted : Bool}
    (wellFormed : before.WellFormed modulus)
    (wide : 1 < modulus)
    (grown : before.grow limit content granted = some after) :
    Grown modulus before after ∧ after.free ≠ none := by
  unfold grow at grown
  split_ifs at grown
  cases grown
  refine ⟨?_, by simp⟩
  have slots := ListWrites.getElem?_concat before.slots
    { nextFree := before.free, content }
  have last : before.slots[before.slots.length]? = none :=
    List.getElem?_eq_none le_rfl
  have apart {index : Nat} {slot : Slot α}
      (found : before.slots[index]? = some slot) :
      index ≠ before.slots.length := by
    rintro rfl
    rw [last] at found
    cases found
  obtain ⟨chain, linked, distinct, mem_iff⟩ := wellFormed.free
  have outside : before.slots.length ∉ chain := by
    rw [mem_iff]
    rintro ⟨slot, found, _⟩
    exact apart found rfl
  refine
    { wellFormed :=
        { free := ⟨before.slots.length :: chain, ?_, ?_, fun index => ?_⟩
          generation := fun {index slot} found => ?_
          count := ?_ }
      resolve := fun token => ?_
      count := fun kind => ?_
      follows := fun index slot found => ?_ }
  · refine ⟨rfl, ?_⟩
    simp only [slots, if_pos]
    refine linked.congr fun index member => ?_
    rw [if_neg (ne_of_mem_of_not_mem member outside)]
  · exact List.nodup_cons.mpr ⟨outside, distinct⟩
  · simp only [List.mem_cons, mem_iff, Vacant, slots]
    by_cases new : index = before.slots.length
    · simp [new]
    · simp [new]
  · rw [slots] at found
    split_ifs at found
    · cases found
      exact ⟨Nat.one_pos, wide⟩
    · exact wellFormed.generation found
  · simp [Arena.count, wellFormed.count]
  · simp only [Arena.resolve, slots]
    by_cases new : token.index = before.slots.length
    · rw [if_pos new, new, last]
      simp
    · rw [if_neg new]
  · simp [Arena.count]
  · exact ⟨slot, by rw [slots, if_neg (apart found), found], rfl,
      fun _ active => active⟩

/-! ## Writes to one slot -/

/-- What using a free slot does. -/
structure Taken
    (modulus : Nat)
    (before after : Arena α)
    (token : Token)
    (content : α) : Prop where
  wellFormed : after.WellFormed modulus
  fresh : before.current token.index = none
  resolve : ∀ other, after.resolve other =
    if other = token then some content else before.resolve other
  count : ∀ kind, after.count kind =
    before.count kind + if kind content then 1 else 0
  follows : Follows modulus before after fun _ => 0

/-- A free slot takes a content under a new token. -/
theorem take_spec
    (wellFormed : before.WellFormed modulus)
    (ready : before.free ≠ none)
    (content : α) :
    ∃ token after, before.take content = some (token, after) ∧
      Taken modulus before after token content := by
  obtain ⟨chain, linked, distinct, mem_iff⟩ := wellFormed.free
  cases chain with
  | nil => exact absurd linked ready
  | cons index rest =>
      obtain ⟨head, tail⟩ := linked
      obtain ⟨slot, found, inactive⟩ := (mem_iff index).mp (by simp)
      have slots := ListWrites.getElem?_set found
        { generation := slot.generation, active := true, content }
      have counts := ListWrites.countP_set found
        { generation := slot.generation, active := true, content }
      have outside := (List.nodup_cons.mp distinct).1
      refine ⟨{ index, generation := slot.generation },
        { slots := before.slots.set index
            { generation := slot.generation, active := true, content }
          free := slot.nextFree
          activeCount := before.activeCount + 1 },
        by simp only [take, head, found, Option.bind_eq_bind,
          Option.bind_some],
        { wellFormed :=
            { free := ⟨rest, ?_, (List.nodup_cons.mp distinct).2,
                fun position => ?_⟩
              generation := fun {position current} there => ?_
              count := ?_ }
          fresh := ?_
          resolve := fun other => ?_
          count := fun kind => ?_
          follows := fun position current there => ?_ }⟩
      · simp only [found, Option.bind_some] at tail
        refine Chain.Linked.congr tail fun position member => ?_
        simp only [slots]
        rw [if_neg (ne_of_mem_of_not_mem member outside)]
      · have member := mem_iff position
        rw [List.mem_cons] at member
        simp only [Vacant, slots] at member ⊢
        by_cases here : position = index
        · subst here
          simp [outside]
        · simpa [here] using member
      · have bounds := wellFormed.generation found
        rw [slots] at there
        split_ifs at there
        · cases there
          exact bounds
        · exact wellFormed.generation there
      · have total := counts fun slot => slot.active && true
        simp only [inactive, Bool.and_true, Bool.false_eq_true, if_false,
          if_true] at total
        simp only [Arena.count, Bool.and_true]
        have before := wellFormed.count
        simp only [Arena.count, Bool.and_true] at before
        omega
      · simp [current, found, inactive]
      · simp only [Arena.resolve, slots]
        by_cases here : other.index = index
        · rw [if_pos here, here, found]
          obtain ⟨otherIndex, generation⟩ := other
          simp only at here
          subst here
          by_cases current : slot.generation = generation
          · simp [current]
          · simp [current, Ne.symm current, inactive]
        · rw [if_neg here, if_neg]
          rintro rfl
          exact here rfl
      · have total := counts fun slot => slot.active && kind slot.content
        simp only [inactive, Bool.false_and, Bool.false_eq_true, if_false,
          Bool.true_and] at total
        exact total
      · by_cases here : position = index
        · subst here
          rw [found, Option.some.injEq] at there
          subst there
          exact ⟨_, (slots position).trans (if_pos rfl), rfl,
            fun _ _ => rfl⟩
        · exact ⟨current, by rw [slots, if_neg here, there], rfl,
            fun _ active => active⟩

/-- Taking a slot changes that slot alone. -/
theorem Taken.current
    {token : Token} {content : α}
    (taken : Taken modulus before after token content)
    (index : Nat) :
    after.current index =
      if index = token.index then some content else before.current index :=
  current_of_update taken.resolve (fun other _ found same => by
    have fresh := taken.fresh
    rw [← same, current_of_resolve found] at fresh
    cases fresh) index

/-- What a write to the content of a used slot does. -/
structure Modified
    (modulus : Nat)
    (before after : Arena α)
    (token : Token)
    (old new : α) : Prop where
  wellFormed : after.WellFormed modulus
  resolve : ∀ other, after.resolve other =
    if other = token then some new else before.resolve other
  count : ∀ kind, after.count kind + (if kind old then 1 else 0) =
    before.count kind + if kind new then 1 else 0
  follows : Follows modulus before after fun _ => 0

/-- A change of a content is seen through its token alone. -/
theorem modify_spec
    {token : Token} {content : α}
    (wellFormed : before.WellFormed modulus)
    (resolved : before.resolve token = some content)
    (change : α → α) :
    Modified modulus before (before.modify token.index change) token content
      (change content) := by
  obtain ⟨slot, found, active, generation, same⟩ :=
    resolve_eq_some_iff.mp resolved
  have modified : before.modify token.index change = { before with
      slots := before.slots.set token.index
        { slot with content := change slot.content } } := by
    simp only [modify, found]
  have slots := ListWrites.getElem?_set found
    { slot with content := change slot.content }
  have counts := ListWrites.countP_set found
    { slot with content := change slot.content }
  obtain ⟨chain, linked, distinct, mem_iff⟩ := wellFormed.free
  rw [modified]
  refine
    { wellFormed :=
        { free := ⟨chain, ?_, distinct, fun position => ?_⟩
          generation := fun {position current} there => ?_
          count := ?_ }
      resolve := fun other => ?_
      count := fun kind => ?_
      follows := fun position current there => ?_ }
  · refine linked.congr fun position member => ?_
    simp only [slots]
    by_cases here : position = token.index
    · rw [if_pos here, here, found]
      rfl
    · rw [if_neg here]
  · rw [mem_iff]
    simp only [Vacant, slots]
    by_cases here : position = token.index
    · rw [here]
      simp [found]
    · simp [here]
  · have bounds := wellFormed.generation found
    rw [slots] at there
    split_ifs at there
    · cases there
      exact bounds
    · exact wellFormed.generation there
  · have total := counts fun slot => slot.active && true
    have before := wellFormed.count
    simp only [active, Bool.and_true, if_true, Nat.add_right_cancel_iff]
      at total
    simp only [Arena.count, active, Bool.and_true] at before ⊢
    omega
  · simp only [Arena.resolve, slots]
    by_cases here : other.index = token.index
    · rw [if_pos here, here, found]
      obtain ⟨otherIndex, otherGeneration⟩ := other
      obtain ⟨index, tokenGeneration⟩ := token
      simp only at here generation
      subst here generation
      by_cases current : slot.generation = otherGeneration
      · simp [active, current, same]
      · simp [current, Ne.symm current]
    · rw [if_neg here, if_neg]
      rintro rfl
      exact here rfl
  · have total := counts fun slot => slot.active && kind slot.content
    rw [← same]
    simpa [Arena.count, active] using total
  · by_cases here : position = token.index
    · subst here
      rw [found, Option.some.injEq] at there
      subst there
      exact ⟨_, (slots _).trans (if_pos rfl), rfl, fun _ active => active⟩
    · exact ⟨current, by rw [slots, if_neg here, there], rfl,
        fun _ active => active⟩

/-- A change is one of its slot alone. -/
theorem Modified.current
    {token : Token} {old new : α}
    (modified : Modified modulus before after token old new)
    (resolved : before.resolve token = some old)
    (index : Nat) :
    after.current index =
      if index = token.index then some new else before.current index :=
  current_of_update modified.resolve
    (fun _ _ found => token_eq found resolved) index

/-- What ending the use of a slot does. -/
structure Released
    (modulus : Nat)
    (before after : Arena α)
    (token : Token)
    (content : α) : Prop where
  wellFormed : after.WellFormed modulus
  resolve : ∀ other, after.resolve other =
    if other = token then none else before.resolve other
  count : ∀ kind, after.count kind + (if kind content then 1 else 0) =
    before.count kind
  follows : Follows modulus before after fun index =>
    if index = token.index then 1 else 0

/-- A released token does not resolve again. -/
theorem release_spec
    {token : Token} {content : α}
    (wellFormed : before.WellFormed modulus)
    (wide : 1 < modulus)
    (resolved : before.resolve token = some content) :
    Released modulus before (before.release modulus token.index) token
      content := by
  obtain ⟨slot, found, active, generation, same⟩ :=
    resolve_eq_some_iff.mp resolved
  have released : before.release modulus token.index =
      { slots := before.slots.set token.index
          { slot with
            active := false
            generation := Generation.next modulus slot.generation
            nextFree := before.free }
        free := some token.index
        activeCount := before.activeCount - 1 } := by
    simp only [release, found]
  have slots := ListWrites.getElem?_set found
    { slot with
      active := false
      generation := Generation.next modulus slot.generation
      nextFree := before.free }
  have counts := ListWrites.countP_set found
    { slot with
      active := false
      generation := Generation.next modulus slot.generation
      nextFree := before.free }
  obtain ⟨chain, linked, distinct, mem_iff⟩ := wellFormed.free
  have outside : token.index ∉ chain := by
    rw [mem_iff]
    rintro ⟨other, there, inactive⟩
    rw [found, Option.some.injEq] at there
    subst there
    rw [active] at inactive
    cases inactive
  rw [released]
  refine
    { wellFormed :=
        { free := ⟨token.index :: chain, ?_, ?_, fun position => ?_⟩
          generation := fun {position current} there => ?_
          count := ?_ }
      resolve := fun other => ?_
      count := fun kind => ?_
      follows := fun position current there => ?_ }
  · refine ⟨rfl, ?_⟩
    simp only [slots, if_pos]
    refine linked.congr fun position member => ?_
    rw [if_neg (ne_of_mem_of_not_mem member outside)]
  · exact List.nodup_cons.mpr ⟨outside, distinct⟩
  · rw [List.mem_cons, mem_iff]
    simp only [Vacant, slots]
    by_cases here : position = token.index
    · simp [here]
    · simp [here]
  · rw [slots] at there
    split_ifs at there
    · cases there
      exact ⟨Generation.next_pos, Generation.next_lt wide⟩
    · exact wellFormed.generation there
  · have total := counts fun slot => slot.active && true
    have before := wellFormed.count
    simp only [active, Bool.and_true, Bool.false_eq_true, if_false, if_true]
      at total
    simp only [Arena.count, Bool.and_true] at before ⊢
    omega
  · simp only [Arena.resolve, slots]
    by_cases here : other.index = token.index
    · rw [if_pos here, here, found]
      obtain ⟨otherIndex, otherGeneration⟩ := other
      obtain ⟨index, tokenGeneration⟩ := token
      simp only at here generation
      subst here generation
      by_cases current : slot.generation = otherGeneration
      · simp [current]
      · simp [current]
    · rw [if_neg here, if_neg]
      rintro rfl
      exact here rfl
  · have total := counts fun slot => slot.active && kind slot.content
    rw [← same]
    simpa [Arena.count, active] using total
  · by_cases here : position = token.index
    · subst here
      rw [found, Option.some.injEq] at there
      subst there
      refine ⟨_, (slots _).trans (if_pos rfl), ?_, fun none => ?_⟩
      · simp only [if_pos]
        rfl
      · simp at none
    · refine ⟨current, by rw [slots, if_neg here, there], ?_,
        fun _ active => active⟩
      simp only [if_neg here]
      rfl

/-- A release empties its slot alone. -/
theorem Released.current
    {token : Token} {content : α}
    (released : Released modulus before after token content)
    (resolved : before.resolve token = some content)
    (index : Nat) :
    after.current index =
      if index = token.index then none else before.current index :=
  current_of_update released.resolve
    (fun _ _ found => token_eq found resolved) index

/-! ## Without an invariant -/

/-- A change is seen through the tokens of its slot. -/
theorem resolve_modify
    (arena : Arena α) (index : Nat) (change : α → α) (token : Token) :
    (arena.modify index change).resolve token =
      if token.index = index then (arena.resolve token).map change
      else arena.resolve token := by
  unfold modify
  cases there : arena.slots[index]? with
  | none =>
      by_cases here : token.index = index
      · rw [if_pos here, resolve, here, there]
        rfl
      · rw [if_neg here]
  | some slot =>
      have inside := (List.getElem?_eq_some_iff.mp there).1
      by_cases here : token.index = index
      · subst here
        simp only [resolve, List.getElem?_set_self inside, there, if_true,
          Option.bind_some]
        by_cases current :
            slot.active = true ∧ slot.generation = token.generation
        · rw [if_pos current, if_pos current]
          rfl
        · rw [if_neg current, if_neg current]
          rfl
      · rw [if_neg here]
        simp only [resolve, List.getElem?_set_ne (Ne.symm here)]

/-- A token that resolves after a release did before. -/
theorem resolve_of_release
    {modulus index : Nat} {token : Token} {content : α}
    (found : (arena.release modulus index).resolve token = some content) :
    arena.resolve token = some content := by
  unfold release at found
  cases there : arena.slots[index]? with
  | none =>
      rw [there] at found
      exact found
  | some slot =>
      have inside := (List.getElem?_eq_some_iff.mp there).1
      simp only [there, resolve] at found
      by_cases here : token.index = index
      · subst here
        rw [List.getElem?_set_self inside] at found
        simp at found
      · rw [List.getElem?_set_ne (Ne.symm here)] at found
        exact found

end Arena
