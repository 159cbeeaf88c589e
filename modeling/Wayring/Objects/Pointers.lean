import Wayring.Objects.NamespaceMap

/-!
# Object pointers

A pointer into an object table is good until the table gets new storage, which
only an insertion into a full growable table does.
-/

namespace Wayring

/-- A pointer to an object.  A table's storage is known by its capacity, as
the capacity grows with every change of storage. -/
structure ObjectPointer where
  storage : Nat
  index : Nat
  deriving DecidableEq, Repr

namespace Table

variable {Value : Type} {table result : Table Value}

/-- An insertion keeps entries in their places, or moves the table to larger
storage. -/
structure Kept (table result : Table Value) : Prop where
  count : result.count = table.count + 1
  growth : result.growth = table.growth
  capacity : table.count < table.maxEntries ∧
      result.maxEntries = table.maxEntries ∧
      (∀ index slot, LinearProbing.entryAt table.slots index = some slot →
        LinearProbing.entryAt result.slots index = some slot) ∨
    table.count = table.maxEntries ∧ table.growth = true ∧
      table.maxEntries < result.maxEntries

/-- An insertion without growth keeps the storage. -/
theorem insert_kept
    {id : Nat} {value : Value} {granted : Bool} {handle : Handle}
    (wellFormed : table.WellFormed)
    (inserted : table.insert id value granted = .ok (handle, result)) :
    Kept table result := by
  have spec := insert_spec wellFormed id value granted
  rw [inserted] at spec
  obtain ⟨nonzero, absent, placed, _, _⟩ := spec
  refine ⟨placed.count, placed.growth, ?_⟩
  unfold insert at inserted
  rw [if_neg nonzero] at inserted
  cases ended : probe table.slots id with
  | hit index => simp [ended] at inserted
  | exhausted => simp [ended] at inserted
  | vacant index =>
      have vacant := wellFormed.storage.probe_spec id
      rw [ended] at vacant
      obtain ⟨bound, empty, _⟩ := vacant
      simp only [ended] at inserted
      by_cases full : table.count = table.maxEntries
      · rw [if_pos full] at inserted
        cases growth : table.growth with
        | false => simp [growth] at inserted
        | true =>
            rw [growth, if_pos rfl] at inserted
            refine Or.inr ⟨full, rfl, ?_⟩
            rcases grow_spec wellFormed granted with
              ⟨_, failed⟩ | ⟨_, _, failed⟩ | ⟨narrow, _, grown, grew, spec⟩
            · rw [failed] at inserted
              cases inserted
            · rw [failed] at inserted
              cases inserted
            · rw [grew] at inserted
              simp only [bind, Except.bind] at inserted
              have positive := wellFormed.capacity_pos
              have capacity := spec.maxEntries
              cases again : probeVacant grown.slots id with
              | vacant position =>
                  rw [again] at inserted
                  cases inserted
                  simp only
                  omega
              | hit position => simp [again] at inserted
              | exhausted => simp [again] at inserted
      · rw [if_neg full] at inserted
        cases inserted
        refine Or.inl ⟨Nat.lt_of_le_of_ne wellFormed.count_le full, rfl,
          fun position slot stored => ?_⟩
        simp only
        rw [LinearProbing.entryAt_set bound, if_neg, stored]
        rintro rfl
        rw [empty] at stored
        cases stored

end Table

namespace Namespace

variable {objects result : Namespace} {handle : Handle} {object : Object}

/-- The pointer that a handle resolves to. -/
def pointer (objects : Namespace) (handle : Handle) : Option ObjectPointer := do
  let index ← objects.table.find handle.id
  let slot ← LinearProbing.entryAt objects.table.slots index
  if slot.generation ≠ handle.generation then none
  else some { storage := objects.table.maxEntries, index }

/-- Read through a pointer.  A pointer into storage that the table has given
back reads nothing. -/
def read (objects : Namespace) (pointer : ObjectPointer) : Option Object :=
  if pointer.storage ≠ objects.table.maxEntries then none
  else
    (LinearProbing.entryAt objects.table.slots pointer.index).map
      Table.Slot.value

/-- A handle that resolves has a pointer into the storage. -/
theorem pointer_of_resolve
    (resolved : objects.resolve handle = some object) :
    ∃ pointer, objects.pointer handle = some pointer ∧
      pointer.storage = objects.table.maxEntries ∧
      objects.read pointer = some object := by
  unfold resolve Table.resolve Table.lookup at resolved
  cases found : objects.table.find handle.id with
  | none => simp [found] at resolved
  | some index =>
      cases stored : LinearProbing.entryAt objects.table.slots index with
      | none => simp [found, stored] at resolved
      | some slot =>
          by_cases other : slot.generation ≠ handle.generation
          · simp [found, stored, other] at resolved
          · refine ⟨{ storage := objects.table.maxEntries, index }, ?_, rfl, ?_⟩
            · simp [pointer, found, stored, other]
            · simp only [found, stored, other, if_false, Option.bind_some,
                Option.bind_eq_bind, Option.some.injEq] at resolved
              simp [read, stored, resolved]

/-- A stale handle has no pointer. -/
theorem pointer_of_stale
    (stale : objects.resolve handle = none) :
    objects.pointer handle = none := by
  unfold resolve Table.resolve Table.lookup at stale
  unfold pointer
  cases found : objects.table.find handle.id with
  | none => rfl
  | some index =>
      cases stored : LinearProbing.entryAt objects.table.slots index with
      | none => simp [stored]
      | some slot =>
          by_cases other : slot.generation ≠ handle.generation
          · simp [stored, other]
          · simp [found, stored, other] at stale

/-- An insertion without growth keeps the storage of the objects. -/
theorem insert_kept
    {id : Nat} {interface : Interface} {version : Nat}
    {context : Option Nat} {granted : Bool}
    (wellFormed : objects.table.WellFormed)
    (inserted : objects.insert id interface version context granted =
      .ok (handle, result)) : Table.Kept objects.table result.table := by
  unfold insert at inserted
  cases valid : interface.validateVersion version with
  | error cause =>
      rw [valid] at inserted
      cases inserted
  | ok _ =>
      cases stored : objects.table.insert id { interface, version, context }
          granted with
      | error cause =>
          rw [valid, stored] at inserted
          cases inserted
      | ok pair =>
          rw [valid, stored] at inserted
          cases inserted
          exact Table.insert_kept wellFormed stored

/-- A pointer survives insertions that keep the storage. -/
theorem read_kept
    {pointer : ObjectPointer}
    (kept : Table.Kept objects.table result.table)
    (room : objects.table.count < objects.table.maxEntries)
    (reads : objects.read pointer = some object) :
    result.read pointer = some object := by
  rcases kept.capacity with ⟨_, same, entries⟩ | ⟨full, _⟩
  · unfold read at reads ⊢
    rw [same]
    split_ifs at reads ⊢ with other
    obtain ⟨slot, stored, value⟩ := Option.map_eq_some_iff.mp reads
    rw [entries _ _ stored, Option.map_some, value]
  · omega

end Namespace
end Wayring
