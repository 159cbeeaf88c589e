import Wayring.Objects.Namespace
import Wayring.Objects.TableMap

/-!
# Namespaces as finite maps

What the namespace operations do to the map from IDs to objects.
-/

namespace Wayring

namespace Table

variable {Value : Type}

/-- Only the growth of a full table depends on the allocator. -/
theorem insert_denied
    {table : Table Value}
    (wellFormed : table.WellFormed)
    (id : Nat) (value : Value) :
    table.insert id value false = table.insert id value true ∨
      table.insert id value false = .error .outOfMemory := by
  unfold insert
  by_cases zero : id = 0
  · simp [zero]
  · rw [if_neg zero, if_neg zero]
    cases probe table.slots id with
    | hit index => exact Or.inl rfl
    | exhausted => exact Or.inl rfl
    | vacant index =>
        by_cases full : table.count = table.maxEntries
        · simp only [if_pos full]
          cases table.growth with
          | false => exact Or.inl rfl
          | true =>
              rcases grow_spec wellFormed false with
                ⟨widest, failed⟩ | ⟨_, _, failed⟩ | ⟨_, denied, _⟩
              · have again : table.grow true = .error .full := by
                  simp [grow, widest]
                exact Or.inl (by rw [failed, again])
              · exact Or.inr (by rw [failed]; rfl)
              · cases denied
        · simp only [if_neg full, true_or]

theorem insert_granted
    {table : Table Value}
    (wellFormed : table.WellFormed)
    (id : Nat) (value : Value) :
    table.insert id value true ≠ .error .outOfMemory := by
  intro failed
  have spec := insert_spec wellFormed id value true
  rw [failed] at spec
  exact absurd spec.2.2.2.2.2 (by simp)

/-- A handle resolves to the slot of its ID and generation. -/
theorem resolve_eq_some_iff
    {table : Table Value} {handle : Handle} {value : Value} :
    table.resolve handle = some value ↔
      ∃ slot, table.lookup handle.id = some slot ∧
        slot.generation = handle.generation ∧ slot.value = value := by
  cases found : table.lookup handle.id with
  | none => simp [resolve, found]
  | some slot =>
      by_cases current : slot.generation = handle.generation
      · simp [resolve, found, current]
      · simp [resolve, found, current]

/-- What resolves is found by its ID. -/
theorem get_of_resolve
    {table : Table Value} {handle : Handle} {value : Value}
    (resolved : table.resolve handle = some value) :
    table.get handle.id = some value := by
  obtain ⟨slot, found, _, same⟩ := resolve_eq_some_iff.mp resolved
  simp [get, found, same]

end Table

namespace Namespace

variable {objects result : Namespace} {handle : Handle}

/-- New namespaces are empty. -/
theorem init_spec
    {maxObjects : Nat} {granted : Bool} {objects : Namespace}
    (created : init maxObjects granted = .ok objects) :
    objects.table.WellFormed ∧ ∀ id, objects.table.get id = none := by
  unfold init at created
  cases table : (Table.init maxObjects granted :
      Except Error (Table Object)) with
  | error cause =>
      rw [table] at created
      cases created
  | ok storage =>
      rw [table] at created
      cases created
      obtain ⟨wellFormed, _, _, _, _, empty⟩ := Table.init_spec table
      exact ⟨wellFormed, fun id => by simp [Table.get, empty]⟩

/-- A new namespace is empty. -/
theorem initGrowable_spec
    {initialObjects : Nat} {granted : Bool} {objects : Namespace}
    (created : initGrowable initialObjects granted = .ok objects) :
    objects.table.WellFormed ∧ ∀ id, objects.table.get id = none := by
  unfold initGrowable Table.initGrowable at created
  cases table : (Table.init initialObjects granted :
      Except Error (Table Object)) with
  | error cause =>
      rw [table] at created
      cases created
  | ok storage =>
      rw [table] at created
      cases created
      obtain ⟨wellFormed, _, _, _, _, empty⟩ := Table.init_spec table
      have growable : Table.WellFormed { storage with growth := true } :=
        ⟨wellFormed.storage, wellFormed.roomy, wellFormed.capacity_pos,
          wellFormed.capacity_le, wellFormed.count_eq, wellFormed.count_le⟩
      refine ⟨growable, fun id => ?_⟩
      have same := wellFormed.lookup_congr growable (fun slot => Iff.rfl) id
      simp [Table.get, same, empty]

/-- A successful insertion adds one live object under a new handle. -/
theorem insert_spec
    {id : Nat} {interface : Interface} {version : Nat}
    {context : Option Nat} {granted : Bool}
    (wellFormed : objects.table.WellFormed)
    (inserted : objects.insert id interface version context granted =
      .ok (handle, result)) :
    result.table.WellFormed ∧ handle.id = id ∧
      objects.table.get id = none ∧
      ∀ other, result.table.get other =
        if other = id then some { interface, version, context }
        else objects.table.get other := by
  unfold insert at inserted
  cases valid : interface.validateVersion version with
  | error cause =>
      rw [valid] at inserted
      cases inserted
  | ok _ =>
      have spec := Table.insert_spec wellFormed id
        { interface, version, context } granted
      cases stored : objects.table.insert id { interface, version, context }
          granted with
      | error cause =>
          rw [valid, stored] at inserted
          cases inserted
      | ok pair =>
          obtain ⟨placed, table⟩ := pair
          rw [stored] at spec
          rw [valid, stored] at inserted
          cases inserted
          obtain ⟨_, absent, spec, _⟩ := spec
          refine ⟨spec.wellFormed, by rw [spec.handle_eq],
            by simp [Table.get, absent], fun other => ?_⟩
          rw [Table.get, spec.lookup]
          split <;> rfl

/-- The allocator decides an insertion only by letting it fail. -/
theorem insert_denied
    (wellFormed : objects.table.WellFormed)
    (id : Nat) (interface : Interface) (version : Nat)
    (context : Option Nat) :
    objects.insert id interface version context false =
        objects.insert id interface version context true ∨
      objects.insert id interface version context false =
        .error .outOfMemory := by
  unfold insert
  cases interface.validateVersion version with
  | error cause => exact Or.inl rfl
  | ok _ =>
      rcases Table.insert_denied wellFormed id
        { interface, version, context } with same | failed
      · exact Or.inl (by rw [same])
      · exact Or.inr (by rw [failed]; rfl)

theorem insert_granted
    (wellFormed : objects.table.WellFormed)
    (id : Nat) (interface : Interface) (version : Nat)
    (context : Option Nat) :
    objects.insert id interface version context true ≠
      .error .outOfMemory := by
  have table := Table.insert_granted wellFormed id
    { interface, version, context }
  unfold insert
  cases valid : interface.validateVersion version with
  | error cause =>
      unfold Interface.validateVersion at valid
      split at valid
      · cases valid
        simp [bind, Except.bind]
      · cases valid
  | ok _ =>
      cases stored : objects.table.insert id { interface, version, context }
          true with
      | ok pair => simp [bind, Except.bind]
      | error cause =>
          rw [stored] at table
          simpa [bind, Except.bind] using table

/-- Removal takes exactly the object its handle denotes. -/
theorem remove_spec
    (wellFormed : objects.table.WellFormed)
    (handle : Handle) :
    match objects.remove handle with
    | none => objects.resolve handle = none
    | some (object, result) =>
        objects.resolve handle = some object ∧ result.table.WellFormed ∧
          ∀ other, result.table.get other =
            if other = handle.id then none else objects.table.get other := by
  have spec := Table.removeHandle_spec wellFormed handle
  unfold remove
  cases removed : objects.table.removeHandle handle with
  | none =>
      rw [removed] at spec
      exact spec
  | some pair =>
      obtain ⟨object, table⟩ := pair
      rw [removed] at spec
      obtain ⟨resolved, stillWellFormed, lookup, _⟩ := spec
      refine ⟨resolved, stillWellFormed, fun other => ?_⟩
      rw [Table.get, lookup]
      split <;> rfl

/-- What resolves can be removed. -/
theorem remove_of_resolve
    (wellFormed : objects.table.WellFormed)
    {object : Object}
    (resolved : objects.resolve handle = some object) :
    ∃ result, objects.remove handle = some (object, result) ∧
      result.table.WellFormed ∧
      ∀ other, result.table.get other =
        if other = handle.id then none else objects.table.get other := by
  have spec := remove_spec wellFormed handle
  cases removed : objects.remove handle with
  | none =>
      rw [removed, resolved] at spec
      cases spec
  | some pair =>
      obtain ⟨other, result⟩ := pair
      rw [removed, resolved] at spec
      obtain ⟨same, stillWellFormed, get⟩ := spec
      cases Option.some.inj same
      exact ⟨result, rfl, stillWellFormed, get⟩

/-- A destroyed object is marked, and the others stay. -/
theorem markDestroyed_spec
    (wellFormed : objects.table.WellFormed)
    (id : Nat) :
    (objects.markDestroyed id).table.WellFormed ∧
      ∀ other, (objects.markDestroyed id).table.get other =
        if other = id then
          (objects.table.get id).map fun object =>
            { object with destroyed := true }
        else objects.table.get other := by
  have spec := Table.modify_spec wellFormed id fun object =>
    { object with destroyed := true }
  refine ⟨spec.1, fun other => ?_⟩
  simp only [markDestroyed, Table.get, spec.2.1]
  split
  · rw [Option.map_map, Option.map_map]
    rfl
  · rfl

/-- Handles of other IDs resolve as before when an object is destroyed. -/
theorem markDestroyed_resolve
    (wellFormed : objects.table.WellFormed)
    {id : Nat} {other : Handle}
    (apart : other.id ≠ id) :
    (objects.markDestroyed id).resolve other = objects.resolve other := by
  have spec := Table.modify_spec wellFormed id fun object : Object =>
    { object with destroyed := true }
  simp only [markDestroyed, resolve, Table.resolve, spec.2.1, if_neg apart]

/-- Handles of other IDs resolve as before when an object is removed. -/
theorem remove_resolve
    (wellFormed : objects.table.WellFormed)
    {object : Object} {result : Namespace} {other : Handle}
    (removed : objects.remove handle = some (object, result))
    (apart : other.id ≠ handle.id) :
    result.resolve other = objects.resolve other := by
  have spec := Table.removeHandle_spec wellFormed handle
  obtain ⟨⟨content, table⟩, taken, same⟩ := Option.bind_eq_some_iff.mp removed
  cases same
  rw [taken] at spec
  obtain ⟨_, _, lookup, _⟩ := spec
  simp only [resolve, Table.resolve, lookup, if_neg apart]

/-- The handle that an ID is looked up to resolves. -/
theorem resolve_of_lookupHandle
    {id : Nat}
    (found : objects.lookupHandle id = some handle) :
    handle.id = id ∧ ∃ object, objects.resolve handle = some object ∧
      objects.table.get id = some object := by
  unfold lookupHandle Table.lookupHandle at found
  cases slot : objects.table.lookup id with
  | none =>
      rw [slot] at found
      cases found
  | some content =>
      rw [slot] at found
      cases found
      refine ⟨rfl, content.value, ?_, by simp [Table.get, slot]⟩
      exact Table.resolve_eq_some_iff.mpr ⟨content, slot, rfl, rfl⟩

end Namespace
end Wayring
