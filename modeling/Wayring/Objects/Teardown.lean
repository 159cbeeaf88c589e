import Wayring.Objects.ServerObjects
import Wayring.Objects.SharedIsolation
import Wayring.Objects.NamespaceMap

/-!
# Teardown of server objects

Both kinds of server objects tell the removal hook of every live object once,
whatever further objects the hook removes meanwhile.  In the table the walk
runs backwards from an empty slot: what it has passed stays empty, so the slot
it clears ends a run, and clearing it hides no other entry.
-/

namespace Wayring

open LinearProbing (entryAt)

/-! ## Objects in a table -/

namespace Table

variable {Value : Type} {slots : List (Option (Slot Value))}

/-- The entries of a table, in slot order. -/
def contents (table : Table Value) : List (Handle × Value) :=
  table.slots.filterMap fun slot => slot.map fun slot =>
    ({ id := slot.id, generation := slot.generation }, slot.value)

/-- The contents of a table are its entries. -/
theorem mem_contents
    {table : Table Value} {handle : Handle} {value : Value} :
    (handle, value) ∈ table.contents ↔
      ∃ index, entryAt table.slots index =
        some { id := handle.id, generation := handle.generation, value } := by
  rw [contents, List.mem_filterMap]
  constructor
  · rintro ⟨content, member, same⟩
    obtain ⟨slot, rfl, equal⟩ := Option.map_eq_some_iff.mp same
    obtain ⟨index, stored⟩ := mem_iff_entryAt.mp member
    cases equal
    exact ⟨index, stored⟩
  · rintro ⟨index, stored⟩
    exact ⟨_, mem_iff_entryAt.mpr ⟨index, stored⟩, rfl⟩

/-- Lookups by handle find exactly the entries. -/
theorem WellFormed.finds
    {table : Table Value}
    (wellFormed : table.WellFormed) :
    Cascade.Finds resolve table table.contents := by
  constructor
  · rw [contents, List.map_filterMap]
    rw [List.Nodup, List.pairwise_filterMap, List.pairwise_iff_getElem]
    intro left right leftBound rightBound ordered first firstEq second
      secondEq same
    obtain ⟨entry, entryEq, rfl⟩ := Option.map_eq_some_iff.mp firstEq
    obtain ⟨other, otherEq, equal⟩ := Option.map_eq_some_iff.mp secondEq
    obtain ⟨slot, atLeft, rfl⟩ := Option.map_eq_some_iff.mp entryEq
    obtain ⟨next, atRight, rfl⟩ := Option.map_eq_some_iff.mp otherEq
    rw [← LinearProbing.entryAt_eq_getElem] at atLeft atRight
    have sameId : next.id = slot.id :=
      congrArg Handle.id (equal.trans same.symm)
    have position := wellFormed.storage.distinct atRight atLeft sameId
    omega
  · intro handle value
    rw [mem_contents]
    constructor
    · intro resolved
      obtain ⟨slot, stored, current⟩ := Option.bind_eq_some_iff.mp resolved
      obtain ⟨sameId, index, content⟩ :=
        wellFormed.lookup_eq_some_iff.mp stored
      split_ifs at current with stale
      cases current
      refine ⟨index, content.trans (congrArg some ?_)⟩
      rw [← sameId, ← not_not.mp stale]
    · rintro ⟨index, content⟩
      have stored := wellFormed.lookup_eq_some_iff.mpr
        ⟨(rfl : _ = handle.id), index, content⟩
      simp only [resolve, stored, bind, Option.bind_some, ne_eq,
        not_true_eq_false, if_false]

end Table

namespace ServerObjects

/-- The object that a handle denotes. -/
def resolve (server : ServerObjects) (handle : Handle) : Option Object :=
  server.objects.resolve handle

/-- The table is sound, and the objects are the ones listed. -/
def Lists (server : ServerObjects) (live : List (Handle × Object)) : Prop :=
  server.objects.table.WellFormed ∧ Cascade.Finds resolve server live

/-- The table is sound, the storage is that of another state, and some slots
are empty. -/
structure Clear
    (origin : ServerObjects)
    (passed : Nat → Prop)
    (server : ServerObjects) : Prop where
  wellFormed : server.objects.table.WellFormed
  slots_eq : server.objects.table.slots.length =
    origin.objects.table.slots.length
  entries_eq : server.ids.entries.length = origin.ids.entries.length
  vacant : ∀ position, passed position →
    entryAt server.objects.table.slots position = none

variable {server next : ServerObjects}

/-- A removal is one of the table. -/
theorem cancel_eq_ok
    {removal : Removal} {object : Object}
    (taken : server.cancel removal = .ok (object, next)) :
    server.objects.table.removeHandle removal.handle =
      some (object, next.objects.table) := by
  have removes : ∀ {objects : Namespace},
      server.objects.remove removal.handle = some (object, objects) →
      server.objects.table.removeHandle removal.handle =
        some (object, objects.table) := by
    intro objects removed
    obtain ⟨outcome, inTable, same⟩ := Option.bind_eq_some_iff.mp removed
    cases same
    exact inTable
  cases removal with
  | client handle =>
      simp only [cancel, cancelClient] at taken
      split_ifs at taken
      cases removed : server.objects.remove handle with
      | none =>
          rw [removed] at taken
          cases taken
      | some outcome =>
          rw [removed] at taken
          cases taken
          exact removes removed
  | server handle =>
      simp only [cancel, cancelLocal] at taken
      split_ifs at taken
      cases resolved : server.objects.resolve handle with
      | none =>
          rw [resolved] at taken
          cases taken
      | some current =>
          rw [resolved] at taken
          cases released : server.ids.release handle.id with
          | error cause =>
              rw [released] at taken
              cases taken
          | ok ids =>
              rw [released] at taken
              simp only [bind, Except.bind] at taken
              cases removed : server.objects.remove handle with
              | none =>
                  rw [removed] at taken
                  cases taken
              | some outcome =>
                  rw [removed] at taken
                  cases taken
                  exact removes removed

theorem release_length
    {ids released : ServerIds} {id : Nat}
    (freed : ids.release id = .ok released) :
    released.entries.length = ids.entries.length := by
  unfold ServerIds.release at freed
  cases used : ids.usedIndex id with
  | none =>
      rw [used] at freed
      cases freed
  | some index =>
      simp only [used] at freed
      split_ifs at freed
      cases freed
      exact List.length_set

/-- A removal keeps the entries of the ID allocator. -/
theorem cancel_entries
    {removal : Removal} {object : Object}
    (taken : server.cancel removal = .ok (object, next)) :
    next.ids.entries.length = server.ids.entries.length := by
  cases removal with
  | client handle =>
      simp only [cancel, cancelClient] at taken
      split_ifs at taken
      cases removed : server.objects.remove handle <;>
        rw [removed] at taken <;> cases taken
      rfl
  | server handle =>
      simp only [cancel, cancelLocal] at taken
      split_ifs at taken
      cases resolved : server.objects.resolve handle with
      | none =>
          rw [resolved] at taken
          cases taken
      | some current =>
          rw [resolved] at taken
          cases released : server.ids.release handle.id with
          | error cause =>
              rw [released] at taken
              cases taken
          | ok ids =>
              rw [released] at taken
              simp only [bind, Except.bind] at taken
              cases removed : server.objects.remove handle <;>
                rw [removed] at taken <;> cases taken
              exact release_length released

/-- What the hook removes through the registry left the table. -/
theorem registry_remove
    {removal : Removal} {handle : Handle} {object : Object}
    (wellFormed : server.objects.table.WellFormed)
    (taken : registry.remove server removal = some (handle, object, next)) :
    server.resolve handle = some object ∧
      Table.Removed server.objects.table handle.id next.objects.table ∧
      next.ids.entries.length = server.ids.entries.length ∧
      ∀ position, entryAt server.objects.table.slots position = none →
        entryAt next.objects.table.slots position = none := by
  simp only [registry] at taken
  cases outcome : server.cancel removal with
  | error cause =>
      rw [outcome] at taken
      cases taken
  | ok result =>
      rw [outcome] at taken
      cases taken
      obtain ⟨resolved, removed, vacant⟩ :=
        Table.removeHandle_removed wellFormed (cancel_eq_ok outcome)
      exact ⟨resolved, removed, cancel_entries outcome, vacant⟩

/-- An object leaves the table. -/
theorem Lists.take
    {live : List (Handle × Object)} {handle : Handle} {object : Object}
    (lists : server.Lists live)
    (resolved : server.resolve handle = some object)
    (removed : Table.Removed server.objects.table handle.id
      next.objects.table) :
    ∃ rest, live.Perm ((handle, object) :: rest) ∧ next.Lists rest := by
  obtain ⟨rest, taken, finds⟩ :=
    lists.2.take resolved (removed.resolve resolved)
  exact ⟨rest, taken, removed.wellFormed, finds⟩

/-- Objects are a lawful registry. -/
theorem registry_lawful : registry.Lawful Lists where
  look lists _ := lists
  remove lists taken := by
    obtain ⟨resolved, removed, _⟩ := registry_remove lists.1 taken
    exact lists.take resolved removed

/-- Removals keep what a sweep has cleared. -/
theorem registry_keeps
    (origin : ServerObjects) (passed : Nat → Prop) :
    registry.Keeps (Clear origin passed) where
  look clear _ := clear
  remove clear taken := by
    obtain ⟨_, removed, entries, vacant⟩ :=
      registry_remove clear.wellFormed taken
    exact ⟨removed.wellFormed, removed.length_eq.trans clear.slots_eq,
      entries.trans clear.entries_eq,
      fun position isPassed => vacant position (clear.vacant position isPassed)⟩

/-! ### The walk -/

/-- The slot before a slot, as a number. -/
theorem slotBefore_eq
    {length index : Nat}
    (power : Table.PowerLength length)
    (bound : index < length) :
    slotBefore length index = if index = 0 then length - 1 else index - 1 := by
  obtain ⟨bits, _, small, rfl⟩ := power
  have fits : 2 ^ bits < usizeLimit :=
    Nat.pow_lt_pow_right (by decide) small
  rw [slotBefore, Nat.and_two_pow_sub_one_eq_mod]
  have divides : 2 ^ bits ∣ usizeLimit :=
    Nat.pow_dvd_pow 2 (Nat.le_of_lt small)
  rw [Nat.mod_mod_of_dvd _ divides]
  split_ifs with first
  · subst first
    obtain ⟨factor, multiple⟩ := divides
    have positive : 0 < factor := by
      apply Nat.pos_of_ne_zero
      rintro rfl
      rw [Nat.mul_zero] at multiple
      cases multiple
    obtain ⟨rest, rfl⟩ := Nat.exists_eq_succ_of_ne_zero (Nat.ne_of_gt positive)
    have split : 0 + usizeLimit - 1 =
        (2 ^ bits - 1) + 2 ^ bits * rest := by
      rw [multiple, Nat.mul_succ]
      omega
    rw [split, Nat.add_mul_mod_self_left, Nat.mod_eq_of_lt (by omega)]
  · have split : index + usizeLimit - 1 = (index - 1) + usizeLimit := by omega
    rw [split, Nat.add_mod, Nat.mod_eq_zero_of_dvd divides, Nat.add_zero,
      Nat.mod_mod, Nat.mod_eq_of_lt (by omega)]

/-- There is a vacant slot to start from. -/
theorem firstVacant_spec
    {slots : List (Option (Table.Slot Object))}
    (fuel index : Nat)
    (vacant : ∃ position, index ≤ position ∧ position < index + fuel ∧
      entryAt slots position = none) :
    entryAt slots (firstVacant slots fuel index) = none ∧
      firstVacant slots fuel index < index + fuel := by
  induction fuel generalizing index with
  | zero =>
      obtain ⟨position, lower, upper, _⟩ := vacant
      omega
  | succ fuel inductionHypothesis =>
      unfold firstVacant
      cases stored : entryAt slots index with
      | none => exact ⟨stored, Nat.lt_add_of_pos_right (Nat.succ_pos _)⟩
      | some slot =>
          obtain ⟨position, lower, upper, empty⟩ := vacant
          have later : index ≠ position := by
            rintro rfl
            rw [stored] at empty
            cases empty
          have ⟨found, bound⟩ := inductionHypothesis (index + 1)
            ⟨position, by omega, by omega, empty⟩
          exact ⟨found, lt_of_lt_of_eq bound (by omega)⟩

/-- The slots that a walk has passed when some rounds are left. -/
def Passed (length index rounds position : Nat) : Prop :=
  position < length ∧
    LinearProbing.distance length index position + rounds ≤ length

/-- One more round passes the slot before, and no other. -/
theorem passed_slotBefore
    {length index rounds position : Nat}
    (power : Table.PowerLength length)
    (bound : index < length)
    (passed : Passed length (slotBefore length index) rounds position) :
    position = slotBefore length index ∨
      Passed length index (rounds + 1) position := by
  rw [slotBefore_eq power bound] at passed ⊢
  unfold Passed LinearProbing.distance at *
  split_ifs at * <;> omega

theorem slotBefore_lt
    {length index : Nat}
    (power : Table.PowerLength length)
    (bound : index < length) : slotBefore length index < length := by
  rw [slotBefore_eq power bound]
  split_ifs <;> omega

/-- The slot behind the one before a slot. -/
theorem next_slotBefore
    {length index : Nat}
    (power : Table.PowerLength length)
    (bound : index < length) :
    LinearProbing.next length (slotBefore length index) = index := by
  rw [slotBefore_eq power bound]
  unfold LinearProbing.next
  split_ifs <;> omega

/-- Clearing the last slot of a run takes its object out of the table. -/
theorem clear_removed
    {index : Nat} {slot : Table.Slot Object}
    (wellFormed : server.objects.table.WellFormed)
    (stored : entryAt server.objects.table.slots index = some slot)
    (ends : entryAt server.objects.table.slots
      (LinearProbing.next server.objects.table.slots.length index) = none) :
    server.resolve { id := slot.id, generation := slot.generation } =
        some slot.value ∧
      Table.Removed server.objects.table slot.id
        (server.clear index).objects.table := by
  have held : (entryAt server.objects.table.slots index).isSome := by
    rw [stored]
    rfl
  refine ⟨?_, wellFormed.removed stored
    (wellFormed.storage.valid.closed_of_vacant wellFormed.storage.distinct
      held ends)⟩
  exact (wellFormed.finds.2 _ _).mpr (Table.mem_contents.mpr ⟨index, stored⟩)

/-- The walk tells the hook of every object, whatever the hook removes: the
slots passed stay empty, so the walk ends with an empty table. -/
theorem sweep_told
    (hook : RemovalHook ServerObjects)
    {origin : ServerObjects}
    {initial live : List (Handle × Object)}
    {notices : List (RemovalNotice ServerObjects)}
    (rounds index : Nat)
    (told : Cascade.Told Lists initial notices server live)
    (clear : Clear origin
      (Passed origin.objects.table.slots.length index rounds) server)
    (bound : index < origin.objects.table.slots.length)
    (within : rounds ≤ origin.objects.table.slots.length) :
    let outcome := sweep hook rounds index notices server
    (∃ rest, Cascade.Told Lists initial outcome.1 outcome.2 rest) ∧
      Clear origin
        (fun position => position < origin.objects.table.slots.length)
        outcome.2 := by
  generalize lengthEq : origin.objects.table.slots.length = length at *
  induction rounds generalizing index notices server live with
  | zero =>
      refine ⟨⟨live, told⟩, clear.wellFormed, clear.slots_eq, clear.entries_eq,
        fun position inside => clear.vacant position ?_⟩
      exact ⟨inside, Nat.le_of_lt (LinearProbing.distance_lt index inside)⟩
  | succ rounds inductionHypothesis =>
      have sameLength := clear.slots_eq.trans lengthEq
      have power : Table.PowerLength length :=
        sameLength ▸ clear.wellFormed.storage.power
      have before := slotBefore_lt power bound
      have here : Passed length index (rounds + 1) index :=
        ⟨bound, by rw [LinearProbing.distance_self]; omega⟩
      unfold sweep
      simp only [sameLength]
      cases stored : entryAt server.objects.table.slots
          (slotBefore length index) with
      | none =>
          refine inductionHypothesis _ told
            ⟨clear.wellFormed, clear.slots_eq, clear.entries_eq,
              fun position passed => ?_⟩ before (by omega)
          rcases passed_slotBefore power bound passed with rfl | earlier
          · exact stored
          · exact clear.vacant position earlier
      | some slot =>
          have ends : entryAt server.objects.table.slots
              (LinearProbing.next server.objects.table.slots.length
                (slotBefore length index)) = none := by
            rw [sameLength, next_slotBefore power bound]
            exact clear.vacant index here
          obtain ⟨resolved, removed⟩ :=
            clear_removed clear.wellFormed stored ends
          obtain ⟨rest, taken, lists⟩ := told.holds.take resolved removed
          obtain ⟨after, toldAfter⟩ :=
            told.notify registry_lawful hook taken lists
          have clearAfter : Clear origin
              (Passed length (slotBefore length index) rounds)
              (server.clear (slotBefore length index)) := by
            refine ⟨removed.wellFormed, removed.length_eq.trans clear.slots_eq,
              clear.entries_eq, fun position passed => ?_⟩
            have write := LinearProbing.entryAt_set
              (LinearProbing.lt_length_of_entryAt stored) none position
            refine write.trans ?_
            rcases passed_slotBefore power bound passed with same | earlier
            · rw [if_pos same]
            · rw [clear.vacant position earlier, ite_self]
          exact inductionHypothesis _ toldAfter
            ((registry_keeps origin _).notify hook clearAfter) before (by omega)

/-- Teardown of objects in a table. -/
theorem deinit_exhausts
    (wellFormed : server.objects.table.WellFormed)
    (hook : RemovalHook ServerObjects) :
    let outcome := server.deinit (some hook)
    Cascade.Exhausts resolve server outcome.1 ∧
      Clear server
        (fun position => position < server.objects.table.slots.length)
        outcome.2 := by
  have began := wellFormed.finds
  have lists : server.Lists server.objects.table.contents :=
    ⟨wellFormed, began⟩
  obtain ⟨vacancy, vacancyBound, vacant⟩ :=
    LinearProbing.exists_vacant wellFormed.room
  obtain ⟨empty, bound⟩ := @firstVacant_spec server.objects.table.slots
    server.objects.table.slots.length 0
    ⟨vacancy, Nat.zero_le _, by omega, vacant⟩
  rw [Nat.zero_add] at bound
  have clear : Clear server
      (Passed server.objects.table.slots.length
        (firstVacant server.objects.table.slots
          server.objects.table.slots.length 0)
        server.objects.table.slots.length) server := by
    refine ⟨wellFormed, rfl, rfl, fun position passed => ?_⟩
    obtain ⟨inside, short⟩ := passed
    have same : position = firstVacant server.objects.table.slots
        server.objects.table.slots.length 0 := by
      apply LinearProbing.eq_of_distance_eq bound inside bound
      rw [LinearProbing.distance_self]
      omega
    rw [same]
    exact empty
  obtain ⟨⟨rest, told⟩, swept⟩ := sweep_told hook _ _
    (Cascade.Told.nil lists) clear bound (Nat.le_refl _)
  refine ⟨told.exhausts (fun holds => holds.2) began fun handle => ?_, swept⟩
  apply Option.eq_none_iff_forall_ne_some.mpr
  intro object resolved
  have member := (told.holds.1.finds.2 handle object).mp resolved
  obtain ⟨index, stored⟩ := Table.mem_contents.mp member
  have inside := LinearProbing.lt_length_of_entryAt stored
  rw [swept.slots_eq] at inside
  have cleared := swept.vacant index inside
  rw [stored] at cleared
  cases cleared

/-- Two handles that resolve and share an ID are the same. -/
theorem resolve_id
    {first second : Handle} {object other : Object}
    (left : server.resolve first = some object)
    (right : server.resolve second = some other)
    (sameId : first.id = second.id) : first = second := by
  obtain ⟨slot, found, generation, _⟩ := Table.resolve_eq_some_iff.mp left
  obtain ⟨entry, again, sameGeneration, _⟩ :=
    Table.resolve_eq_some_iff.mp right
  rw [sameId, again] at found
  cases found
  cases first
  cases second
  exact congrArg₂ Handle.mk sameId (generation.symm.trans sameGeneration)

/-- The objects of a connection after any calls. -/
inductive Reachable : ServerObjects → Prop
  | init {maxObjects maxServerIds : Nat} {displayInterface : Interface}
      {displayContext : Option Nat} {tableGranted idsGranted : Bool}
      {server : ServerObjects}
      (created : init maxObjects maxServerIds displayInterface displayContext
        tableGranted idsGranted = .ok server) : Reachable server
  | insertClient {server next : ServerObjects} {id version : Nat}
      {interface : Interface} {context : Option Nat} {handle : Handle}
      (reached : Reachable server)
      (inserted : server.insertClient id interface version context =
        .ok (handle, next)) : Reachable next
  | createLocal {server : ServerObjects} {version : Nat}
      {interface : Interface} {context : Option Nat}
      (reached : Reachable server) :
      Reachable (server.createLocal interface version context).2
  | cancel {server next : ServerObjects} {removal : Removal} {object : Object}
      (reached : Reachable server)
      (taken : server.cancel removal = .ok (object, next)) : Reachable next

/-- Objects that can be reached are well formed. -/
theorem Reachable.wellFormed
    (reached : Reachable server) : server.objects.table.WellFormed := by
  induction reached with
  | @init maxObjects maxServerIds displayInterface displayContext
      tableGranted idsGranted server created =>
      unfold ServerObjects.init at created
      cases inited : Namespace.init maxObjects tableGranted with
      | error cause =>
          rw [inited] at created
          cases created
      | ok objects =>
          rw [inited] at created
          cases numbered : ServerIds.init maxServerIds idsGranted with
          | error cause =>
              rw [numbered] at created
              cases created
          | ok ids =>
              rw [numbered] at created
              simp only [bind, Except.bind] at created
              cases inserted : objects.insert displayId displayInterface 1
                  displayContext false with
              | error cause =>
                  rw [inserted] at created
                  cases created
              | ok outcome =>
                  rw [inserted] at created
                  cases created
                  exact (Namespace.insert_spec (Namespace.init_spec inited).1
                    inserted).1
  | @insertClient server next id version interface context handle reached
      inserted wellFormed =>
      unfold ServerObjects.insertClient at inserted
      split_ifs at inserted
      cases outcome : server.objects.insert id interface version context
          false with
      | error cause =>
          rw [outcome] at inserted
          cases inserted
      | ok result =>
          rw [outcome] at inserted
          cases inserted
          exact (Namespace.insert_spec wellFormed outcome).1
  | @createLocal server version interface context reached wellFormed =>
      unfold ServerObjects.createLocal
      cases server.ids.acquire with
      | error cause => exact wellFormed
      | ok taken =>
          simp only
          cases inserted : server.objects.insert taken.1 interface version
              context false with
          | ok result => exact (Namespace.insert_spec wellFormed inserted).1
          | error cause =>
              simp only
              cases taken.2.release taken.1 <;> exact wellFormed
  | cancel reached taken wellFormed =>
      exact (Table.removeHandle_removed wellFormed
        (cancel_eq_ok taken)).2.1.wellFormed

end ServerObjects

/-! ## Objects in the shared pool -/

/-- A handle resolves to the object of the owned entry that it names. -/
theorem SharedNamespace.Owns.resolve_iff
    {pool : SharedObjectPool} {objects : SharedNamespace} {owned : List Nat}
    (owns : SharedNamespace.Owns pool objects owned)
    {handle : Handle} {object : Object} :
    (objects.resolve pool handle).1 = some object ↔
      ∃ index, index ∈ owned ∧ (pool.entry index).handle = handle ∧
        (pool.node index).object = object := by
  have found := (owns.find_spec handle.id).1
  have spec : (objects.resolve pool handle).1 =
      (SharedNamespace.ownedIndex pool owned handle.id).bind fun index =>
        if (pool.node index).generation ≠ handle.generation then none
        else some (pool.node index).object := by
    rw [← found, Option.bind_map]
    rfl
  rw [spec, Option.bind_eq_some_iff]
  constructor
  · rintro ⟨index, isOwned, current⟩
    obtain ⟨member, sameId⟩ := SharedNamespace.mem_of_ownedIndex isOwned
    split_ifs at current with stale
    refine ⟨index, member, ?_, Option.some.inj current⟩
    cases handle
    exact congrArg₂ Handle.mk sameId (not_not.mp stale)
  · rintro ⟨index, member, rfl, rfl⟩
    refine ⟨index, owns.ownedIndex_eq_some_iff.mpr ⟨member, rfl⟩, ?_⟩
    exact if_neg (not_not.mpr rfl)

namespace SharedServerObjects

/-- The object that a handle denotes. -/
def resolve
    (state : SharedServerObjects × SharedObjectPool)
    (handle : Handle) : Option Object :=
  (state.1.objects.resolve state.2 handle).1

/-- The handle and the object of an entry. -/
def stored (pool : SharedObjectPool) (index : Nat) : Handle × Object :=
  ((pool.entry index).handle, (pool.entry index).object)

/-- Of the entries owned at first, some are left and the others were released
to the pool they came from. -/
structure Drains
    (origin : SharedObjectPool)
    (owned free : List Nat)
    (state : SharedServerObjects × SharedObjectPool)
    (left released : List Nat) : Prop where
  owns : SharedNamespace.Owns state.2 state.1.objects left
  freeChain : Chain.Linked (fun index => (state.2.node index).ownerNext)
    state.2.freeHead (released ++ free)
  whole : owned.Perm (released ++ left)
  available : state.2.availableCount =
    origin.availableCount + released.length
  length_eq : state.2.nodes.length = origin.nodes.length
  frame : ∀ position, position ∉ owned →
    state.2.node position = origin.node position

/-- The objects of the entries left. -/
def Lists
    (origin : SharedObjectPool)
    (owned free : List Nat)
    (state : SharedServerObjects × SharedObjectPool)
    (live : List (Handle × Object)) : Prop :=
  ∃ left released, Drains origin owned free state left released ∧
    live = left.map (stored state.2)

variable {origin : SharedObjectPool} {owned free : List Nat}
  {state next : SharedServerObjects × SharedObjectPool}
  {live : List (Handle × Object)}

/-- Handles resolve to what owned entries store. -/
theorem finds_stored
    {left : List Nat}
    (owns : SharedNamespace.Owns state.2 state.1.objects left) :
    Cascade.Finds resolve state (left.map (stored state.2)) := by
  constructor
  · rw [List.map_map]
    apply List.Nodup.map_on _ owns.distinct
    intro first firstMember second secondMember same
    exact owns.id_inj firstMember secondMember (congrArg Handle.id same)
  · intro handle object
    rw [resolve, owns.resolve_iff, List.mem_map]
    constructor
    · rintro ⟨index, member, rfl, rfl⟩
      exact ⟨index, member, rfl⟩
    · rintro ⟨index, member, same⟩
      obtain ⟨sameHandle, sameObject⟩ := Prod.mk.inj same
      exact ⟨index, member, sameHandle, sameObject⟩

/-- The listed objects are the ones that are found. -/
theorem Lists.finds
    (lists : Lists origin owned free state live) :
    Cascade.Finds resolve state live := by
  obtain ⟨left, released, drains, rfl⟩ := lists
  exact finds_stored drains.owns

/-- Removing one of the entries left releases it. -/
theorem Drains.take
    {left released : List Nat} {index : Nat}
    {result : SharedNamespace × SharedObjectPool}
    (drains : Drains origin owned free state left released)
    (distinct : owned.Nodup)
    (apart : ∀ index, index ∈ free → index ∉ owned)
    (member : index ∈ left)
    (removed : SharedNamespace.Removed state.2 state.1.objects left index
      result) :
    Drains origin owned free ({ objects := result.1 }, result.2)
      (left.erase index) (index :: released) where
  owns := removed.owns
  freeChain := by
    rw [removed.freeHead_eq, List.cons_append]
    refine ⟨rfl, ?_⟩
    have freed : (result.2.node index).ownerNext = state.2.freeHead :=
      removed.freed
    simp only [freed]
    apply Chain.Linked.congr drains.freeChain
    intro position inFree
    have outside : position ∉ left := by
      intro inLeft
      rcases List.mem_append.mp inFree with old | untouched
      · exact List.disjoint_of_nodup_append
          (drains.whole.nodup_iff.mp distinct) old inLeft
      · exact apart position untouched
          (drains.whole.mem_iff.mpr (List.mem_append.mpr (Or.inr inLeft)))
    rw [removed.frame position outside]
  whole := by
    refine drains.whole.trans ?_
    rw [List.cons_append]
    refine ((List.perm_cons_erase member).append_left released).trans ?_
    exact List.perm_middle
  available := by
    rw [removed.availableCount_eq, drains.available, List.length_cons]
    omega
  length_eq := removed.length_eq.trans drains.length_eq
  frame position outside := by
    rw [← drains.frame position outside]
    apply removed.frame
    intro inLeft
    exact outside
      (drains.whole.mem_iff.mpr (List.mem_append.mpr (Or.inr inLeft)))

/-- The entry that a removal names, when it is left, leaves with its object. -/
theorem Lists.remove
    {handle : Handle} {object : Object} {objects : SharedNamespace}
    {pool : SharedObjectPool}
    (lists : Lists origin owned free state live)
    (distinct : owned.Nodup)
    (apart : ∀ index, index ∈ free → index ∉ owned)
    (taken : state.1.objects.remove state.2 handle =
      (some object, objects, pool)) :
    (∃ rest, live.Perm ((handle, object) :: rest) ∧
      Lists origin owned free ({ objects }, pool) rest) ∧
      objects.count + 1 = state.1.objects.count := by
  obtain ⟨left, released, drains, rfl⟩ := lists
  have spec := SharedNamespace.remove_spec drains.owns handle
  cases found : SharedNamespace.ownedIndex state.2 left handle.id with
  | none =>
      rw [found, taken] at spec
      cases spec
  | some index =>
      rw [found] at spec
      obtain ⟨member, sameId⟩ := SharedNamespace.mem_of_ownedIndex found
      by_cases stale : (state.2.node index).generation ≠ handle.generation
      · simp only [if_pos stale, taken] at spec
        cases spec
      · simp only [if_neg stale, taken] at spec
        obtain ⟨result, same, removed⟩ := spec
        obtain ⟨sameObject, rfl⟩ := Prod.mk.inj same
        obtain rfl := Option.some.inj sameObject
        have entry : stored state.2 index =
            (handle, (state.2.node index).object) := by
          refine Prod.ext ?_ rfl
          cases handle
          exact congrArg₂ Handle.mk sameId (not_not.mp stale)
        refine ⟨⟨(left.erase index).map (stored pool), ?_,
          left.erase index, index :: released,
          drains.take distinct apart member removed, rfl⟩, ?_⟩
        · have kept : (left.erase index).map (stored pool) =
              (left.erase index).map (stored state.2) := by
            apply List.map_congr_left
            intro position _
            obtain ⟨id, generation, object⟩ := removed.kept position
            exact Prod.ext (congrArg₂ Handle.mk id generation) object
          rw [kept, ← entry, ← List.map_cons]
          exact (List.perm_cons_erase member).map _
        · have counts := removed.owns.count_eq
          rw [List.length_erase_of_mem member] at counts
          have before := drains.owns.count_eq
          have inside := List.length_pos_of_mem member
          simp only at counts
          omega

/-- A removal takes the object of a handle out. -/
theorem registry_remove
    {removal : Removal} {handle : Handle} {object : Object}
    (taken : registry.remove state removal = some (handle, object, next)) :
    state.1.objects.remove state.2 handle =
      (some object, next.1.objects, next.2) := by
  obtain ⟨server, pool⟩ := state
  have outcome : handle = removal.handle ∧
      server.cancel pool removal = (.ok object, next) := by
    simp only [registry] at taken
    generalize server.cancel pool removal = result at taken ⊢
    obtain ⟨cause | current, after⟩ := result
    · cases taken
    · cases taken
      exact ⟨rfl, rfl⟩
  obtain ⟨rfl, cancelled⟩ := outcome
  cases removal with
  | client handle =>
      simp only [cancel, cancelClient] at cancelled
      split_ifs at cancelled with refused
      · cases cancelled
      cases removed : server.objects.remove pool handle with
      | mk found rest =>
          rw [removed] at cancelled
          cases found with
          | none => cases cancelled
          | some current =>
              cases cancelled
              exact removed
  | server handle =>
      simp only [cancel, cancelLocal] at cancelled
      split_ifs at cancelled with refused
      · cases cancelled
      cases removed : server.objects.remove pool handle with
      | mk found rest =>
          rw [removed] at cancelled
          cases found with
          | none => cases cancelled
          | some current =>
              cases cancelled
              exact removed

/-- A lookup changes the cache alone. -/
theorem Lists.look
    (lists : Lists origin owned free state live)
    (handle : Handle) :
    Lists origin owned free (registry.look state handle) live ∧
      (registry.look state handle).1.objects.count =
        state.1.objects.count := by
  obtain ⟨left, released, drains, rfl⟩ := lists
  obtain ⟨_, owns, cachedId, cachedIndex, same⟩ :=
    drains.owns.find_spec handle.id
  refine ⟨⟨left, released, ⟨owns, drains.freeChain, drains.whole,
    drains.available, drains.length_eq, drains.frame⟩, rfl⟩, ?_⟩
  simp only [registry, SharedNamespace.resolve, same]

section Drain

variable (distinct : owned.Nodup) (apart : ∀ index, index ∈ free → index ∉ owned)

include distinct apart

/-- Objects over a shared pool are a lawful registry. -/
theorem registry_lawful : registry.Lawful (Lists origin owned free) where
  look lists handle := (lists.look handle).1
  remove lists taken :=
    (lists.remove distinct apart (registry_remove taken)).1

/-- Removals keep a bound of the count. -/
theorem registry_keeps
    (bound : Nat) :
    registry.Keeps fun state =>
      (∃ live, Lists origin owned free state live) ∧
        state.1.objects.count ≤ bound where
  look kept handle := by
    obtain ⟨⟨live, lists⟩, within⟩ := kept
    obtain ⟨after, same⟩ := lists.look handle
    exact ⟨⟨live, after⟩, le_of_eq_of_le same within⟩
  remove kept taken := by
    obtain ⟨⟨live, lists⟩, within⟩ := kept
    obtain ⟨⟨rest, _, after⟩, counts⟩ :=
      lists.remove distinct apart (registry_remove taken)
    exact ⟨⟨rest, after⟩, by omega⟩

/-- The loop tells the hook of every object, whatever the hook removes: each
round takes the newest object left. -/
theorem sweep_told
    (hook : RemovalHook (SharedServerObjects × SharedObjectPool))
    {initial : List (Handle × Object)}
    {notices : List (RemovalNotice (SharedServerObjects × SharedObjectPool))}
    (fuel : Nat)
    (told : Cascade.Told (Lists origin owned free) initial notices state live)
    (enough : state.1.objects.count ≤ fuel) :
    let outcome := sweep hook fuel notices state
    ∃ rest, Cascade.Told (Lists origin owned free) initial outcome.1 outcome.2
        rest ∧ outcome.2.1.objects.count = 0 := by
  induction fuel generalizing notices state live with
  | zero => exact ⟨live, told, Nat.le_zero.mp enough⟩
  | succ fuel inductionHypothesis =>
      obtain ⟨server, pool⟩ := state
      obtain ⟨left, released, drains, listed⟩ := told.holds
      have tailEq := drains.owns.backward.head_eq
      unfold sweep
      cases newest : server.objects.ownerTail with
      | none =>
          refine ⟨live, told, ?_⟩
          simp only [newest] at tailEq
          have empty := List.head?_eq_none_iff.mp tailEq.symm
          have counts := drains.owns.count_eq
          rw [List.reverse_eq_nil_iff.mp empty] at counts
          exact counts
      | some tail =>
          simp only [newest] at tailEq
          have member : tail ∈ left :=
            List.mem_reverse.mp (List.mem_of_mem_head? tailEq.symm)
          have spec := SharedNamespace.remove_spec drains.owns
            { id := (pool.node tail).id
              generation := (pool.node tail).generation }
          rw [drains.owns.ownedIndex_eq_some_iff.mpr ⟨member, rfl⟩] at spec
          simp only [ne_eq, not_true_eq_false, if_false] at spec
          obtain ⟨⟨objects, after⟩, taken, _⟩ := spec
          obtain ⟨⟨rest, removed, lists⟩, counts⟩ :=
            told.holds.remove distinct apart taken
          obtain ⟨_, toldAfter⟩ := told.notify
            (registry_lawful distinct apart) hook removed lists
          have fewer : objects.count ≤ fuel := by
            simp only at counts enough
            omega
          simp only [taken]
          refine inductionHypothesis toldAfter ?_
          exact ((registry_keeps distinct apart fuel).notify hook
            ⟨⟨rest, lists⟩, fewer⟩).2

end Drain

/-- Two handles that resolve and share an ID are the same. -/
theorem resolve_id
    {left : List Nat} {first second : Handle} {object other : Object}
    (owns : SharedNamespace.Owns state.2 state.1.objects left)
    (firstResolved : resolve state first = some object)
    (secondResolved : resolve state second = some other)
    (sameId : first.id = second.id) : first = second := by
  obtain ⟨index, member, rfl, _⟩ := owns.resolve_iff.mp firstResolved
  obtain ⟨position, inside, rfl, _⟩ := owns.resolve_iff.mp secondResolved
  rw [owns.id_inj member inside sameId]

/-- Teardown of objects in the shared pool. -/
theorem deinit_exhausts
    {server : SharedServerObjects} {pool : SharedObjectPool}
    (owns : SharedNamespace.Owns pool server.objects owned)
    (freeChain : Chain.Linked (fun index => (pool.node index).ownerNext)
      pool.freeHead free)
    (apart : ∀ index, index ∈ free → index ∉ owned)
    (hook : RemovalHook (SharedServerObjects × SharedObjectPool)) :
    let outcome := server.deinit pool (some hook)
    Cascade.Exhausts resolve (server, pool) outcome.1 ∧
      ∃ released, owned.Perm released ∧
        Chain.Linked (fun index => (outcome.2.node index).ownerNext)
          outcome.2.freeHead (released ++ free) ∧
        outcome.2.availableCount = pool.availableCount + owned.length ∧
        ∀ position, position ∉ owned →
          outcome.2.node position = pool.node position := by
  have drains : Drains pool owned free (server, pool) owned [] :=
    ⟨owns, freeChain, List.Perm.refl _, rfl, rfl, fun _ _ => rfl⟩
  have began : Cascade.Finds resolve (server, pool)
      (owned.map (stored pool)) :=
    finds_stored (show SharedNamespace.Owns (server, pool).2
      (server, pool).1.objects owned from owns)
  obtain ⟨rest, told, none_left⟩ := sweep_told owns.distinct apart hook
    server.objects.count (Cascade.Told.nil ⟨owned, [], drains, rfl⟩)
    (Nat.le_refl _)
  obtain ⟨left, released, after, listed⟩ := told.holds
  have counts := after.owns.count_eq
  rw [none_left] at counts
  have empty : left = [] := List.eq_nil_of_length_eq_zero counts.symm
  subst empty
  have headless := after.owns.forward.head_eq
  have whole := after.whole
  rw [List.append_nil] at whole
  simp only [deinit]
  generalize sweep hook server.objects.count [] (server, pool) = outcome
    at *
  obtain ⟨notices, last, final⟩ := outcome
  have same : last.objects.deinit final = final := by
    unfold SharedNamespace.deinit SharedObjectPool.releaseChain
    simp only [List.head?_nil] at headless
    rw [headless]
  simp only [same]
  refine ⟨told.exhausts Lists.finds began fun handle => ?_, released, whole,
    after.freeChain, ?_, after.frame⟩
  · apply Option.eq_none_iff_forall_ne_some.mpr
    intro object resolved
    obtain ⟨index, member, _⟩ := after.owns.resolve_iff.mp resolved
    exact absurd member List.not_mem_nil
  · rw [whole.length_eq]
    exact after.available

end SharedServerObjects

/-! ## Both kinds -/

/-- When the hook is called for an object, no handle with its ID resolves. -/
theorem hidden_of_exhausts
    {State : Type} {find : State → Handle → Option Object} {origin : State}
    {notices : List (RemovalNotice State)}
    (exhausts : Cascade.Exhausts find origin notices)
    (unique : ∀ {first second : Handle} {object other : Object},
      find origin first = some object → find origin second = some other →
        first.id = second.id → first = second)
    {notice : RemovalNotice State}
    (member : notice ∈ notices)
    {handle : Handle}
    (sameId : handle.id = notice.key.id) :
    find notice.state handle = none := by
  obtain ⟨earlier, later, split⟩ := List.append_of_mem member
  apply Option.eq_none_iff_forall_ne_some.mpr
  intro object resolved
  obtain ⟨before, untold⟩ :=
    (exhausts.found earlier notice later split handle object).mp resolved
  have toldOf := (exhausts.complete notice.key notice.value).mp
    (List.mem_map_of_mem (f := Cascade.Notice.entry) member)
  rw [unique before toldOf sameId] at untold
  exact untold (List.mem_map_of_mem (f := Cascade.Notice.key) (by simp))

/-- A world after a slot's objects were torn down. -/
def SharedWorld.torn
    (world : SharedWorld)
    (slot : Nat)
    (pool : SharedObjectPool) : SharedWorld :=
  { world with
    pool
    namespaces := Function.update world.namespaces slot none }

/-- Teardown tells the removal hook of every live object exactly once, over a
table and over the shared pool, from any reachable state and whatever objects
the hook removes when it is called.  Whenever the hook is called, no handle
with the ID of its object resolves, and exactly the objects not yet told of
are found.  Afterwards all slots of the table are empty and both its arrays
have the length they were allocated with; all entries of the shared namespace
are free, and no other entry changed hands. -/
theorem teardown_notifies_exactly_once :
    (∀ (server : ServerObjects) (hook : RemovalHook ServerObjects),
      ServerObjects.Reachable server →
      let outcome := server.deinit (some hook)
      Cascade.Exhausts ServerObjects.resolve server outcome.1 ∧
        (∀ notice ∈ outcome.1, ∀ handle : Handle, handle.id = notice.key.id →
          notice.state.resolve handle = none) ∧
        ServerObjects.Clear server
          (fun position => position < server.objects.table.slots.length)
          outcome.2) ∧
    ∀ (capacity : Nat) (granted : Bool) (pool : SharedObjectPool)
      (lengths : Nat → Nat) (operations : List SharedOperation)
      (results : List SharedResult) (world : SharedWorld) (slot : Nat)
      (objects : SharedNamespace)
      (hook : RemovalHook (SharedServerObjects × SharedObjectPool)),
      SharedObjectPool.init capacity granted = .ok pool →
      (∀ slot, lengths slot < usizeLimit) →
      (SharedWorld.start pool lengths).run operations =
        some (results, world) →
      world.namespaces slot = some objects →
      let server : SharedServerObjects := { objects }
      let outcome := server.deinit world.pool (some hook)
      let torn := world.torn slot outcome.2
      Cascade.Exhausts SharedServerObjects.resolve (server, world.pool)
          outcome.1 ∧
        (∀ notice ∈ outcome.1, ∀ handle : Handle, handle.id = notice.key.id →
          SharedServerObjects.resolve notice.state handle = none) ∧
        (∀ index, torn.IsFree index ↔
          world.IsFree index ∨ world.OwnedBy index slot) ∧
        torn.pool.availableCount =
          world.pool.availableCount + objects.count ∧
        ∀ other, other ≠ slot → ∀ index,
          torn.OwnedBy index other ↔ world.OwnedBy index other := by
  constructor
  · intro server hook reached
    obtain ⟨exhausts, clear⟩ :=
      ServerObjects.deinit_exhausts reached.wellFormed hook
    exact ⟨exhausts, fun notice member handle sameId =>
      hidden_of_exhausts exhausts ServerObjects.resolve_id member sameId, clear⟩
  · intro capacity granted pool lengths operations results world slot objects
      hook created fits ran live
    obtain ⟨maps, owned, free, mapsRan, refines⟩ :=
      run_corresponds (Refines.start created fits) ran
    have owns := refines.owns live
    obtain ⟨exhausts, released, whole, chain, available, frame⟩ :=
      @SharedServerObjects.deinit_exhausts (owned slot) free { objects }
        world.pool owns refines.freeChain
        (fun index inFree inOwned => refines.apart inOwned inFree) hook
    refine ⟨exhausts, fun notice member handle sameId =>
      hidden_of_exhausts exhausts (SharedServerObjects.resolve_id owns) member
        sameId, fun index => ?_, ?_, fun other apart index => ?_⟩
    · rw [refines.toHolds.isFree_iff, refines.toHolds.ownedBy_iff,
        whole.mem_iff]
      constructor
      · rintro ⟨nodes, linked, member⟩
        rw [linked.unique chain] at member
        exact (List.mem_append.mp member).symm
      · intro either
        exact ⟨_, chain, List.mem_append.mpr either.symm⟩
    · rw [owns.count_eq]
      exact available
    · have same : (world.torn slot (SharedServerObjects.deinit { objects }
          world.pool (some hook)).2).namespaces other =
          world.namespaces other := Function.update_of_ne apart _ _
      have kept {current : SharedNamespace}
          (found : world.namespaces other = some current) :=
        (refines.owns found).forward.congr fun position inside =>
          congrArg SharedObjectNode.ownerNext (frame position fun shared =>
            apart (refines.exclusive inside shared))
      rw [refines.toHolds.ownedBy_iff]
      constructor
      · rintro ⟨current, nodes, found, linked, member⟩
        rw [same] at found
        rwa [linked.unique (kept found)] at member
      · intro member
        cases found : world.namespaces other with
        | none =>
            rw [refines.vacant found] at member
            exact absurd member List.not_mem_nil
        | some current =>
            exact ⟨current, owned other, same.trans found, kept found, member⟩

/-- A hook that removes one client's object when it is told of another. -/
def cascadeSample (State : Type) (told removed : Handle) : RemovalHook State :=
  fun notices =>
    match notices.getLast? with
    | some notice =>
        if notice.key = told then
          .remove (.client removed) (.look told .done) .done
        else .done
    | none => .done

/-- Three objects of one home slot, whose run wraps around the end of the
table. -/
def clusterSample : Except Error ServerObjects := do
  let server ← ServerObjects.init 4 1 sharedSample none true true
  let (_, server) ← server.insertClient 3 sharedSample 1 none
  let (_, server) ← server.insertClient 11 sharedSample 1 none
  let (_, server) ← server.insertClient 24 sharedSample 1 none
  pure server

/-- The same objects over the shared pool. -/
def sharedClusterSample : List SharedOperation :=
  [.init 0 1 4, .insert 0 displayId sharedSample 1 none true,
    .insert 0 3 sharedSample 1 none true,
    .insert 0 11 sharedSample 1 none true,
    .insert 0 24 sharedSample 1 none true]

/-- When it is told of the last object of a run, the hook removes the first
one, which shifts the one between them back under the sweep. -/
theorem teardown_notifies_exactly_once_sample :
    (∃ server,
      clusterSample = .ok server ∧
      let outcome := server.deinit (some (cascadeSample _
        { id := 24, generation := 4 } { id := 3, generation := 2 }))
      outcome.1.map (fun notice => notice.key.id) = [24, 3, 11, 1] ∧
        Cascade.Exhausts ServerObjects.resolve server outcome.1) ∧
    ∃ results world objects,
      (SharedWorld.start (SharedObjectPool.fresh 1) fun _ => 8).run
        sharedClusterSample = some (results, world) ∧
      world.namespaces 0 = some objects ∧
      let outcome := SharedServerObjects.deinit { objects } world.pool
        (some (cascadeSample _ { id := 24, generation := 4 }
          { id := 3, generation := 2 }))
      outcome.1.map (fun notice => notice.key.id) = [24, 3, 11, 1] ∧
        Cascade.Exhausts SharedServerObjects.resolve
          ({ objects }, world.pool) outcome.1 := by
  constructor
  · have created := (rfl : ServerObjects.init 4 1 sharedSample none true true =
      .ok _)
    have reached := ServerObjects.Reachable.insertClient
      (.insertClient (.insertClient (.init created)
        (rfl : ServerObjects.insertClient _ 3 sharedSample 1 none = .ok _))
        (rfl : ServerObjects.insertClient _ 11 sharedSample 1 none = .ok _))
      (rfl : ServerObjects.insertClient _ 24 sharedSample 1 none = .ok _)
    exact ⟨_, rfl, rfl, (teardown_notifies_exactly_once.1 _ _ reached).1⟩
  · have ran := (rfl : (SharedWorld.start (SharedObjectPool.fresh 1)
      fun _ => 8).run sharedClusterSample = some _)
    refine ⟨_, _, _, ran, rfl, rfl, ?_⟩
    exact (teardown_notifies_exactly_once.2 1 true (SharedObjectPool.fresh 1)
      (fun _ => 8) sharedClusterSample _ _ 0 _ _ rfl (fun _ => by decide) ran
      rfl).1

end Wayring
