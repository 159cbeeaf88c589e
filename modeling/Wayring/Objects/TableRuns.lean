import Wayring.Objects.TableMap

/-!
# Runs of a table

A table that is used through its calls alone is the finite map of its history:
the entries that were inserted and not removed since.
-/

namespace Wayring
namespace Table

open LinearProbing (entryAt occupied)

variable {Value : Type}

/-! ## Calls -/

/-- The calls on a table. -/
inductive Call (Value : Type)
  | insert (id : Nat) (value : Value) (granted : Bool)
  | remove (id : Nat)
  | removeHandle (handle : Handle)
  | get (id : Nat)
  | resolve (handle : Handle)
  | lookupHandle (id : Nat)

/-- What a call on a table answers. -/
inductive Answer (Value : Type)
  | inserted (result : Except Error Handle)
  | removed (value : Option Value)
  | found (value : Option Value)
  | handle (handle : Option Handle)

/-- What a removal leaves of a table. -/
def afterRemoval
    (table : Table Value) :
    Option (Value × Table Value) → Answer Value × Table Value
  | none => (.removed none, table)
  | some (value, next) => (.removed (some value), next)

/-- What a call does. -/
def step (call : Call Value) (table : Table Value) :
    Answer Value × Table Value :=
  match call with
  | .insert id value granted =>
      match table.insert id value granted with
      | .error cause => (.inserted (.error cause), table)
      | .ok (handle, next) => (.inserted (.ok handle), next)
  | .remove id => table.afterRemoval (table.remove id)
  | .removeHandle handle => table.afterRemoval (table.removeHandle handle)
  | .get id => (.found (table.get id), table)
  | .resolve handle => (.found (table.resolve handle), table)
  | .lookupHandle id => (.handle (table.lookupHandle id), table)

/-- The calls with their answers, and the table after them. -/
def run :
    List (Call Value) → Table Value →
      List (Call Value × Answer Value) × Table Value
  | [], table => ([], table)
  | call :: calls, table =>
      let (answer, next) := table.step call
      let (history, last) := run calls next
      ((call, answer) :: history, last)

/-- The number of insertions among some calls. -/
def insertions (calls : List (Call Value)) : Nat :=
  calls.countP fun
    | .insert .. => true
    | _ => false

/-! ## The map of a history -/

/-- What a call with its answer does to a map. -/
def record
    (entries : Nat → Option (Slot Value)) :
    Call Value × Answer Value → Nat → Option (Slot Value)
  | (.insert id value _, .inserted (.ok handle)) =>
      Function.update entries id
        (some { id, generation := handle.generation, value })
  | (.remove id, .removed (some _)) => Function.update entries id none
  | (.removeHandle handle, .removed (some _)) =>
      Function.update entries handle.id none
  | _ => entries

/-- The entries that were inserted and not removed since. -/
def entries (history : List (Call Value × Answer Value)) :
    Nat → Option (Slot Value) :=
  history.foldl record fun _ => none

/-- A call that removed the entry of an ID. -/
def removes (id : Nat) : Call Value × Answer Value → Bool
  | (.remove other, .removed (some _)) => other == id
  | (.removeHandle handle, .removed (some _)) => handle.id == id
  | _ => false

/-- The number of entries that were removed. -/
def removals (history : List (Call Value × Answer Value)) : Nat :=
  history.countP fun
    | (_, .removed (some _)) => true
    | _ => false

/-- The generations that were handed out, in order. -/
def generations (history : List (Call Value × Answer Value)) : List Nat :=
  history.filterMap fun
    | (.insert .., .inserted (.ok handle)) => some handle.generation
    | _ => none

/-! ## One call -/

section Calls

variable {table next : Table Value}
  {past history : List (Call Value × Answer Value)}

/-- Removing an ID removes its current handle. -/
theorem remove_eq (table : Table Value) (id : Nat) :
    table.remove id = (table.lookupHandle id).bind table.removeHandle := by
  unfold remove lookupHandle lookup
  cases found : table.find id with
  | none => rfl
  | some index =>
      cases stored : entryAt table.slots index with
      | none => simp [stored]
      | some slot => simp [removeHandle, found, stored]

/-- The handle of an ID resolves. -/
theorem resolve_lookupHandle
    {id : Nat} {handle : Handle}
    (isHandle : table.lookupHandle id = some handle) :
    ∃ slot, table.lookup id = some slot ∧ handle.id = id ∧
      table.resolve handle = some slot.value := by
  unfold lookupHandle at isHandle
  cases found : table.lookup id with
  | none =>
      rw [found] at isHandle
      cases isHandle
  | some slot =>
      rw [found] at isHandle
      cases isHandle
      exact ⟨slot, rfl, rfl, by simp [resolve, found]⟩

/-- The table is the map of its history, and its generations are those after
the ones that were handed out. -/
structure Records
    (table : Table Value)
    (history : List (Call Value × Answer Value)) : Prop where
  wellFormed : table.WellFormed
  lookup : table.lookup = entries history
  handedOut : generations history =
    (List.range (generations history).length).map fun count =>
      Wayring.nextGeneration^[count] 1
  upcoming : table.nextGeneration =
    Wayring.nextGeneration^[(generations history).length] 1
  count_eq : table.count + removals history = (generations history).length

theorem entries_concat
    (history : List (Call Value × Answer Value)) (last : Call Value × Answer Value) :
    entries (history ++ [last]) = record (entries history) last := by
  rw [entries, List.foldl_append]
  rfl

theorem generations_append
    (early late : List (Call Value × Answer Value)) :
    generations (early ++ late) = generations early ++ generations late :=
  List.filterMap_append

theorem removals_append
    (early late : List (Call Value × Answer Value)) :
    removals (early ++ late) = removals early + removals late :=
  List.countP_append

/-- A call that hands out no generation. -/
theorem Records.quiet
    {last : Call Value × Answer Value}
    (records : table.Records past)
    (none : generations [last] = [])
    (wellFormed : next.WellFormed)
    (lookup : next.lookup = record (entries past) last)
    (same : next.nextGeneration = table.nextGeneration)
    (count : next.count + removals [last] = table.count) :
    next.Records (past ++ [last]) where
  wellFormed := wellFormed
  lookup := lookup.trans (entries_concat past last).symm
  handedOut := by
    rw [generations_append, none, List.append_nil]
    exact records.handedOut
  upcoming := by
    rw [generations_append, none, List.append_nil, same]
    exact records.upcoming
  count_eq := by
    have before := records.count_eq
    rw [generations_append, removals_append, none, List.append_nil]
    omega

/-- A removal takes the entry of the handle out. -/
theorem Records.removed
    {call : Call Value} {handle : Handle}
    (records : table.Records past)
    (missing : record (entries past) (call, .removed none) = entries past)
    (taken : ∀ value, record (entries past) (call, .removed (some value)) =
      Function.update (entries past) handle.id none)
    (silent : ∀ value, generations [(call, Answer.removed value)] = [])
    (outcome : Option (Value × Table Value))
    (isOutcome : outcome = none ∨ outcome = table.removeHandle handle) :
    (table.afterRemoval outcome).2.Records
      (past ++ [(call, (table.afterRemoval outcome).1)]) := by
  cases outcome with
  | none =>
      exact records.quiet (silent none) records.wellFormed
        (records.lookup.trans missing.symm) rfl rfl
  | some pair =>
      obtain ⟨value, next⟩ := pair
      have isRemoved : table.removeHandle handle = some (value, next) := by
        rcases isOutcome with isNone | same
        · cases isNone
        · exact same.symm
      have spec := removeHandle_spec records.wellFormed handle
      rw [isRemoved] at spec
      obtain ⟨_, wellFormed, lookup, count, same, _⟩ := spec
      refine records.quiet (silent _) wellFormed ?_ same count
      funext other
      change next.lookup other =
        record (entries past) (call, .removed (some value)) other
      rw [taken, ← records.lookup, lookup, Function.update_apply]

/-- An insertion hands out the next generation. -/
theorem Records.inserted
    {id : Nat} {value : Value} {granted : Bool} {handle : Handle}
    (records : table.Records past)
    (inserted : table.insert id value granted = .ok (handle, next)) :
    next.Records
      (past ++ [(.insert id value granted, .inserted (.ok handle))]) := by
  have spec := insert_spec records.wellFormed id value granted
  rw [inserted] at spec
  obtain ⟨_, _, spec, _⟩ := spec
  have generation : generations
      [(Call.insert id value granted, Answer.inserted (.ok handle))] =
        [Wayring.nextGeneration^[(generations past).length] 1] := by
    rw [← records.upcoming, spec.handle_eq]
    rfl
  refine ⟨spec.wellFormed, ?_, ?_, ?_, ?_⟩
  · rw [entries_concat, ← records.lookup]
    funext other
    rw [spec.lookup, record, Function.update_apply, spec.handle_eq]
  · rw [generations_append, generation, List.length_append, List.length_singleton,
      List.range_succ, List.map_append, ← records.handedOut]
    rfl
  · rw [generations_append, generation, List.length_append, List.length_singleton,
      Function.iterate_succ_apply', ← records.upcoming]
    exact spec.nextGeneration
  · have before := records.count_eq
    have kept : removals [(Call.insert id value granted,
        Answer.inserted (.ok handle))] = 0 := rfl
    rw [generations_append, removals_append, generation, List.length_append,
      List.length_singleton, spec.count]
    omega

/-- An insertion that fails changes nothing. -/
theorem step_refused
    {id : Nat} {value : Value} {granted : Bool} {cause : Error}
    (refused : table.insert id value granted = .error cause) :
    table.step (.insert id value granted) =
      (.inserted (.error cause), table) := by
  simp only [Table.step, refused]

/-- A call keeps the table the map of its history. -/
theorem Records.step
    (records : table.Records past)
    (call : Call Value) :
    (table.step call).2.Records (past ++ [(call, (table.step call).1)]) := by
  have idle : ∀ answer, generations [(call, answer)] = [] →
      removals [(call, answer)] = 0 →
      record (entries past) (call, answer) = entries past →
      table.Records (past ++ [(call, answer)]) := by
    intro answer silent kept same
    exact records.quiet silent records.wellFormed
      (records.lookup.trans same.symm) rfl (by rw [kept, Nat.add_zero])
  cases call with
  | insert id value granted =>
      cases inserted : table.insert id value granted with
      | error cause =>
          rw [step_refused inserted]
          exact idle _ rfl rfl rfl
      | ok pair =>
          obtain ⟨handle, next⟩ := pair
          have same : table.step (.insert id value granted) =
              (.inserted (.ok handle), next) := by
            simp only [Table.step, inserted]
          rw [same]
          exact records.inserted inserted
  | remove id =>
      rw [Table.step, remove_eq]
      cases isHandle : table.lookupHandle id with
      | none => exact idle _ rfl rfl rfl
      | some handle =>
          obtain ⟨_, _, rfl, _⟩ := resolve_lookupHandle isHandle
          exact records.removed rfl (fun _ => rfl) (fun _ => rfl) _ (.inr rfl)
  | removeHandle handle =>
      exact records.removed rfl (fun _ => rfl) (fun _ => rfl) _ (.inr rfl)
  | get id => exact idle _ rfl rfl rfl
  | resolve handle => exact idle _ rfl rfl rfl
  | lookupHandle id => exact idle _ rfl rfl rfl

/-- A run keeps the table the map of its history. -/
theorem Records.run
    (records : table.Records past)
    (calls : List (Call Value)) :
    (run calls table).2.Records (past ++ (run calls table).1) := by
  induction calls generalizing table past with
  | nil =>
      rw [Table.run, List.append_nil]
      exact records
  | cons call calls run_ih =>
      have later := run_ih (records.step call)
      rw [List.append_assoc] at later
      exact later

/-- A new table has no history. -/
theorem Records.start
    (wellFormed : table.WellFormed)
    (empty : ∀ id, table.lookup id = none)
    (fresh : table.nextGeneration = 1)
    (vacant : table.count = 0) : table.Records [] where
  wellFormed := wellFormed
  lookup := funext empty
  handedOut := rfl
  upcoming := fresh
  count_eq := vacant

theorem run_append
    (early late : List (Call Value)) (table : Table Value) :
    run (early ++ late) table =
      ((run early table).1 ++ (run late (run early table).2).1,
        (run late (run early table).2).2) := by
  induction early generalizing table with
  | nil => rfl
  | cons call early run_ih =>
      simp only [List.cons_append, run]
      rw [run_ih]

theorem insertions_cons (call : Call Value) (calls : List (Call Value)) :
    insertions (call :: calls) = insertions [call] + insertions calls := by
  rw [insertions, insertions, insertions, ← List.countP_append]
  rfl

/-- No more generations are handed out than there are insertions. -/
theorem length_generations_le
    (calls : List (Call Value)) (table : Table Value) :
    (generations (run calls table).1).length ≤ insertions calls := by
  induction calls generalizing table with
  | nil => exact Nat.zero_le _
  | cons call calls run_ih =>
      have later := run_ih (table.step call).2
      have split : generations (run (call :: calls) table).1 =
          generations [(call, (table.step call).1)] ++
            generations (run calls (table.step call).2).1 :=
        generations_append [(call, (table.step call).1)] _
      have one : (generations [(call, (table.step call).1)]).length ≤
          insertions [call] := by
        cases call with
        | insert id value granted =>
            exact List.length_filterMap_le _ _
        | _ => exact Nat.zero_le _
      rw [split, List.length_append, insertions_cons]
      omega

/-! ## The life of a handle -/

/-- What a call does to the entry of an ID: it is removed, stays, or is inserted
where there was none. -/
theorem Records.step_cases
    (records : table.Records past)
    (call : Call Value) (id : Nat) :
    let last := (call, (table.step call).1)
    let after := (table.step call).2
    removes id last = true ∧ after.lookup id = none ∧
        after.nextGeneration = table.nextGeneration ∨
      removes id last = false ∧ after.lookup id = table.lookup id ∧
        (after.nextGeneration = table.nextGeneration ∨
          after.nextGeneration =
              Wayring.nextGeneration table.nextGeneration ∧
            insertions [call] = 1) ∨
      removes id last = false ∧ table.lookup id = none ∧
        (∃ slot, after.lookup id = some slot ∧
          slot.generation = table.nextGeneration) ∧
        after.nextGeneration = Wayring.nextGeneration table.nextGeneration ∧
        insertions [call] = 1 := by
  have removal : ∀ handle,
      (table.afterRemoval (table.removeHandle handle)).2.nextGeneration =
          table.nextGeneration ∧
        ∀ id, (table.afterRemoval (table.removeHandle handle)).2.lookup id =
          if handle.id = id ∧ table.removeHandle handle ≠ none then none
          else table.lookup id := by
    intro handle
    have spec := removeHandle_spec records.wellFormed handle
    cases removed : table.removeHandle handle with
    | none => exact ⟨rfl, fun id => by simp [afterRemoval]⟩
    | some pair =>
        obtain ⟨value, next⟩ := pair
        rw [removed] at spec
        obtain ⟨_, _, lookup, _, same, _⟩ := spec
        refine ⟨same, fun id => ?_⟩
        change next.lookup id = _
        rw [lookup]
        simp [eq_comm]
  cases call with
  | insert other value granted =>
      have spec := insert_spec records.wellFormed other value granted
      simp only [Table.step]
      cases inserted : table.insert other value granted with
      | error cause => exact .inr (.inl ⟨rfl, rfl, .inl rfl⟩)
      | ok pair =>
          obtain ⟨handle, next⟩ := pair
          rw [inserted] at spec
          obtain ⟨_, absent, spec, _⟩ := spec
          by_cases same : id = other
          · subst same
            exact .inr (.inr ⟨rfl, absent,
              ⟨_, (spec.lookup id).trans (if_pos rfl), rfl⟩,
              spec.nextGeneration, rfl⟩)
          · exact .inr (.inl ⟨rfl, (spec.lookup id).trans (if_neg same),
              .inr ⟨spec.nextGeneration, rfl⟩⟩)
  | remove other =>
      rw [Table.step, remove_eq]
      cases isHandle : table.lookupHandle other with
      | none => exact .inr (.inl ⟨rfl, rfl, .inl rfl⟩)
      | some handle =>
          obtain ⟨slot, _, rfl, resolved⟩ := resolve_lookupHandle isHandle
          obtain ⟨same, lookup⟩ := removal handle
          have present : table.removeHandle handle ≠ none := by
            intro missing
            have spec := removeHandle_spec records.wellFormed handle
            rw [missing] at spec
            rw [spec] at resolved
            cases resolved
          rw [Option.bind_some]
          obtain ⟨⟨value, next⟩, isRemoved⟩ :=
            Option.ne_none_iff_exists'.mp present
          have answer : (table.afterRemoval (table.removeHandle handle)).1 =
              .removed (some value) := by
            rw [isRemoved]
            rfl
          simp only [answer, lookup, removes]
          by_cases isId : handle.id = id
          · exact .inl ⟨by simp [isId], by simp [isId, present], same⟩
          · exact .inr (.inl ⟨by simp [isId], by simp [isId], .inl same⟩)
  | removeHandle handle =>
      obtain ⟨same, lookup⟩ := removal handle
      simp only [Table.step, lookup]
      cases removed : table.removeHandle handle with
      | none =>
          exact .inr (.inl ⟨rfl, by simp, .inl rfl⟩)
      | some pair =>
          rw [removed] at same
          obtain ⟨value, next⟩ := pair
          by_cases isId : handle.id = id
          · exact .inl ⟨by simp [afterRemoval, removes, isId], by simp [isId],
              same⟩
          · exact .inr (.inl ⟨by simp [afterRemoval, removes, isId],
              by simp [isId], .inl same⟩)
  | get other => exact .inr (.inl ⟨rfl, rfl, .inl rfl⟩)
  | resolve handle => exact .inr (.inl ⟨rfl, rfl, .inl rfl⟩)
  | lookupHandle other => exact .inr (.inl ⟨rfl, rfl, .inl rfl⟩)

/-- No generation of the coming insertions is the handle's. -/
def Ahead (table : Table Value) (calls : List (Call Value)) (handle : Handle) :
    Prop :=
  ∀ count < insertions calls,
    Wayring.nextGeneration^[count] table.nextGeneration ≠ handle.generation

/-- A handle stays ahead until it is issued. -/
theorem Ahead.step
    {call : Call Value} {calls : List (Call Value)} {handle : Handle}
    (ahead : Ahead table (call :: calls) handle)
    (generation : next.nextGeneration = table.nextGeneration ∨
      next.nextGeneration = Wayring.nextGeneration table.nextGeneration ∧
        insertions [call] = 1) : Ahead next calls handle := by
  intro count within
  have split := insertions_cons call calls
  rcases generation with same | ⟨stepped, one⟩
  · rw [same]
    exact ahead count (by omega)
  · rw [stepped, ← Function.iterate_succ_apply]
    exact ahead (count + 1) (by omega)

/-- A handle of another entry, or of none, stays dead. -/
theorem Records.dead
    {handle : Handle}
    (records : table.Records past)
    (calls : List (Call Value))
    (ahead : Ahead table calls handle)
    (gone : ∀ slot, table.lookup handle.id = some slot →
      slot.generation ≠ handle.generation) :
    (Table.run calls table).2.resolve handle = none := by
  induction calls generalizing table past with
  | nil =>
      rw [Table.run, resolve]
      cases found : table.lookup handle.id with
      | none => rfl
      | some slot => simp [gone slot found]
  | cons call calls run_ih =>
      have split := insertions_cons call calls
      have later : Ahead (table.step call).2 calls handle ∧
          ∀ slot, (table.step call).2.lookup handle.id = some slot →
            slot.generation ≠ handle.generation := by
        rcases records.step_cases call handle.id with
          ⟨_, absent, same⟩ | ⟨_, same, generation⟩ |
          ⟨_, _, ⟨other, isOther, generation⟩, turned⟩
        · refine ⟨ahead.step (.inl same), fun slot found => ?_⟩
          rw [absent] at found
          cases found
        · refine ⟨ahead.step generation, fun slot found => ?_⟩
          rw [same] at found
          exact gone slot found
        · refine ⟨ahead.step (.inr turned), fun slot found => ?_⟩
          rw [isOther] at found
          cases found
          rw [generation]
          exact ahead 0 (by omega)
      exact run_ih (records.step call) later.1 later.2

/-- A handle resolves until its entry is removed. -/
theorem Records.resolves
    {handle : Handle} {value : Value}
    (records : table.Records past)
    (calls : List (Call Value))
    (ahead : Ahead table calls handle)
    (live : table.lookup handle.id =
      some { id := handle.id, generation := handle.generation, value }) :
    (Table.run calls table).2.resolve handle =
      if (Table.run calls table).1.any (removes handle.id) then none
      else some value := by
  induction calls generalizing table past with
  | nil => simp [Table.run, resolve, live]
  | cons call calls run_ih =>
      have split : (Table.run (call :: calls) table).1.any (removes handle.id) =
          (removes handle.id (call, (table.step call).1) ||
            (Table.run calls (table.step call).2).1.any (removes handle.id)) :=
        rfl
      rcases records.step_cases call handle.id with
        ⟨removed, absent, same⟩ | ⟨kept, same, generation⟩ | ⟨_, absent, _⟩
      · have any : (Table.run (call :: calls) table).1.any (removes handle.id) =
            true := by
          rw [split, removed, Bool.true_or]
        have gone : ∀ slot, (table.step call).2.lookup handle.id = some slot →
            slot.generation ≠ handle.generation := by
          intro slot found
          rw [absent] at found
          cases found
        rw [if_pos any]
        exact (records.step call).dead calls (ahead.step (.inl same)) gone
      · have later := run_ih (records.step call) (ahead.step generation)
          (same.trans live)
        refine later.trans (if_congr ?_ rfl rfl)
        rw [split, kept, Bool.false_or]
      · rw [live] at absent
        cases absent

/-! ## The table as a map -/

/-- A removal changes no bound of the table. -/
theorem WellFormed.removal_bounds
    (wellFormed : table.WellFormed)
    (handle : Handle) :
    (table.afterRemoval (table.removeHandle handle)).2.growth = table.growth ∧
      (table.afterRemoval (table.removeHandle handle)).2.maxEntries =
        table.maxEntries := by
  have spec := removeHandle_spec wellFormed handle
  cases removed : table.removeHandle handle with
  | none => exact ⟨rfl, rfl⟩
  | some pair =>
      rw [removed] at spec
      exact spec.2.2.2.2.2

/-- A table keeps its growth, and a bounded one its capacity. -/
theorem Records.bounds
    (records : table.Records past)
    (calls : List (Call Value)) :
    (Table.run calls table).2.growth = table.growth ∧
      (table.growth = false →
        (Table.run calls table).2.maxEntries = table.maxEntries) := by
  induction calls generalizing table past with
  | nil => exact ⟨rfl, fun _ => rfl⟩
  | cons call calls run_ih =>
      have removal := records.wellFormed.removal_bounds
      have one : (table.step call).2.growth = table.growth ∧
          (table.growth = false →
            (table.step call).2.maxEntries = table.maxEntries) := by
        cases call with
        | insert id value granted =>
            have spec := insert_spec records.wellFormed id value granted
            simp only [Table.step]
            cases inserted : table.insert id value granted with
            | error cause => exact ⟨rfl, fun _ => rfl⟩
            | ok pair =>
                rw [inserted] at spec
                exact ⟨spec.2.2.1.growth, spec.2.2.2.2⟩
        | remove id =>
            rw [Table.step, remove_eq]
            cases table.lookupHandle id with
            | none => exact ⟨rfl, fun _ => rfl⟩
            | some handle =>
                exact ⟨(removal handle).1, fun _ => (removal handle).2⟩
        | removeHandle handle =>
            exact ⟨(removal handle).1, fun _ => (removal handle).2⟩
        | get id => exact ⟨rfl, fun _ => rfl⟩
        | resolve handle => exact ⟨rfl, fun _ => rfl⟩
        | lookupHandle id => exact ⟨rfl, fun _ => rfl⟩
      obtain ⟨growth, capacity⟩ := run_ih (records.step call)
      exact ⟨growth.trans one.1, fun bounded =>
        (capacity (one.1.trans bounded)).trans (one.2 bounded)⟩

/-- Every loop over the slots of a table ends at an empty slot. -/
structure Terminates (table : Table Value) : Prop where
  vacancy : ∃ index < table.slots.length, entryAt table.slots index = none
  probe : ∀ id, probe table.slots id ≠ .exhausted
  probeVacant : ∀ id, probeVacant table.slots id ≠ .exhausted
  closeHole : ∀ {index slot}, entryAt table.slots index = some slot →
    ∀ more, LinearProbing.closeHole (Table.next table.slots.length)
      (probeDistance table.slots.length)
      (fun slot => home table.slots.length slot.id)
      (table.slots.length + more) table.slots index
      (Table.next table.slots.length index) = Table.closeHole table.slots index

/-- Steps of the table are steps in a circle. -/
theorem iterate_next_eq
    {length index : Nat}
    (power : PowerLength length)
    (bound : index < length)
    (steps : Nat) :
    (Table.next length)^[steps] index =
      (LinearProbing.next length)^[steps] index ∧
    (LinearProbing.next length)^[steps] index < length := by
  induction steps with
  | zero => exact ⟨rfl, bound⟩
  | succ steps iterate_ih =>
      obtain ⟨same, within⟩ := iterate_ih
      rw [Function.iterate_succ_apply', Function.iterate_succ_apply', same]
      exact ⟨next_eq power within, LinearProbing.next_lt within⟩

/-- Every search of a well-formed table ends. -/
theorem WellFormed.terminates (wellFormed : table.WellFormed) :
    table.Terminates where
  vacancy := LinearProbing.exists_vacant wellFormed.room
  probe id := wellFormed.probe_ne_exhausted id
  probeVacant id := by
    intro ended
    have spec := wellFormed.storage.probeVacant_spec id
    rw [ended] at spec
    exact spec.full wellFormed.room
  closeHole := by
    intro index slot stored more
    have power := wellFormed.storage.power
    have bound := LinearProbing.lt_length_of_entryAt stored
    obtain ⟨vacancy, vacancyBound, vacant⟩ :=
      LinearProbing.exists_vacant wellFormed.room
    have start : Table.next table.slots.length index < table.slots.length := by
      rw [next_eq power bound]
      exact LinearProbing.next_lt bound
    have reached := LinearProbing.iterate_next start vacancyBound
    have held : (entryAt table.slots index).isSome := by
      rw [stored]
      rfl
    have short := LinearProbing.distance_lt
      (Table.next table.slots.length index) vacancyBound
    exact LinearProbing.closeHole_more _ _ _ _ more held
      (by rw [(iterate_next_eq power start _).1, reached, vacant]) short

/-- The generations that are handed out within one cycle differ. -/
theorem Records.nodup
    (records : table.Records past)
    (few : (generations past).length < maxU32) : (generations past).Nodup := by
  rw [records.handedOut]
  refine List.Nodup.map_on ?_ List.nodup_range
  intro first inFirst second inSecond same
  rw [List.mem_range] at inFirst inSecond
  unfold Wayring.nextGeneration at same
  unfold maxU32 at few
  rw [Generation.iterate_one (by norm_num), Generation.iterate_one (by norm_num),
    Nat.mod_eq_of_lt (by omega), Nat.mod_eq_of_lt (by omega)] at same
  omega

/-- The generations of coming insertions differ from that of a new handle. -/
theorem Records.ahead
    {id : Nat} {value : Value} {granted : Bool} {handle : Handle}
    {calls : List (Call Value)}
    (records : table.Records past)
    (inserted : table.insert id value granted = .ok (handle, next))
    (few : insertions calls + 1 < maxU32) : Ahead next calls handle := by
  have spec := insert_spec records.wellFormed id value granted
  rw [inserted] at spec
  obtain ⟨_, _, spec, _⟩ := spec
  intro count within same
  unfold maxU32 at few
  rw [spec.nextGeneration, ← Function.iterate_succ_apply, spec.handle_eq] at same
  have positive : 0 < table.nextGeneration ∧ table.nextGeneration < 2 ^ 32 := by
    rw [records.upcoming]
    unfold Wayring.nextGeneration
    rw [Generation.iterate_one (by norm_num)]
    have below := Nat.mod_lt (generations past).length
      (show 0 < 2 ^ 32 - 1 by norm_num)
    omega
  exact Generation.iterate_ne positive.1 positive.2 (Nat.succ_pos count)
    (by omega) same

/-- A full table that is not granted memory takes nothing in. -/
theorem WellFormed.insert_denied
    (wellFormed : table.WellFormed)
    (full : table.count = table.maxEntries)
    (id : Nat) (value : Value) :
    ∃ cause, table.insert id value false = .error cause := by
  unfold insert
  split_ifs with zero growth
  · exact ⟨_, rfl⟩
  · cases Table.probe table.slots id with
    | hit index => exact ⟨_, rfl⟩
    | exhausted => exact ⟨_, rfl⟩
    | vacant index =>
        rcases grow_spec wellFormed false with
          ⟨_, failed⟩ | ⟨_, _, failed⟩ | ⟨_, granted, _⟩
        · exact ⟨_, by rw [failed]; rfl⟩
        · exact ⟨_, by rw [failed]; rfl⟩
        · cases granted
  · cases Table.probe table.slots id with
    | hit index => exact ⟨_, rfl⟩
    | exhausted => exact ⟨_, rfl⟩
    | vacant index => exact ⟨_, rfl⟩

/-- Why an insertion fails. -/
theorem Records.refusals
    (records : table.Records past)
    (few : (generations past).length < maxU32)
    (id : Nat) (value : Value) (granted : Bool) :
    let result := (table.insert id value granted).map Prod.fst
    (result = .error .invalidId ↔ id = 0) ∧
      (result = .error .duplicateId ↔
        id ≠ 0 ∧ (entries past id).isSome) ∧
      (result = .error .full ↔ id ≠ 0 ∧ entries past id = none ∧
        table.count = table.maxEntries ∧ table.growth = false) ∧
      (result = .error .outOfMemory ↔ id ≠ 0 ∧ entries past id = none ∧
        table.count = table.maxEntries ∧ table.growth = true ∧
          granted = false) ∧
      (∀ cause, result = .error cause → cause = .invalidId ∨
        cause = .duplicateId ∨ cause = .full ∨ cause = .outOfMemory) := by
  intro result
  have below : table.count = table.maxEntries → table.maxEntries ≠ maxU32 := by
    have count := records.count_eq
    omega
  have spec := insert_spec records.wellFormed id value granted
  have denied := records.wellFormed.insert_denied
  rw [← records.lookup]
  cases inserted : table.insert id value granted with
  | ok pair =>
      rw [inserted] at spec
      obtain ⟨nonzero, absent, _, growable, _⟩ := spec
      have isResult : result = .ok pair.1 := by
        simp only [result, inserted, Except.map]
      rw [isResult]
      refine ⟨by simp [nonzero], by simp [absent], ?_, ?_, by simp⟩
      · simp only [reduceCtorEq, false_iff, not_and]
        intro _ _ full bounded
        rw [growable full] at bounded
        cases bounded
      · simp only [reduceCtorEq, false_iff, not_and]
        intro _ _ full _ none
        subst none
        obtain ⟨cause, failed⟩ := denied full id value
        rw [failed] at inserted
        cases inserted
  | error cause =>
      rw [inserted] at spec
      have isResult : result = .error cause := by
        simp only [result, inserted, Except.map]
      rw [isResult]
      simp only [Except.error.injEq]
      cases cause
      case invalidId =>
        have zero : id = 0 := spec
        simp [zero]
      case duplicateId =>
        obtain ⟨nonzero, present⟩ := spec
        have some : (table.lookup id).isSome := Option.isSome_iff_ne_none.mpr present
        simp [nonzero, some, present]
      case full =>
        obtain ⟨nonzero, absent, full, growable⟩ := spec
        have bounded : table.growth = false := by
          cases growth : table.growth with
          | false => rfl
          | true => exact absurd (growable growth) (below full)
        simp [nonzero, absent, full, bounded]
      case outOfMemory =>
        obtain ⟨nonzero, absent, full, growth, _, none⟩ := spec
        simp [nonzero, absent, full, growth, none]
      all_goals exact spec.elim

/-- What is taken out of a table is what was found in it. -/
theorem Records.removals
    (records : table.Records past) :
    (∀ id, (table.remove id).map Prod.fst =
      (entries past id).map Slot.value) ∧
    ∀ handle, (table.removeHandle handle).map Prod.fst =
      (entries past handle.id).bind fun slot =>
        if slot.generation = handle.generation then some slot.value
        else none := by
  have byHandle : ∀ handle,
      (table.removeHandle handle).map Prod.fst = table.resolve handle := by
    intro handle
    have spec := removeHandle_spec records.wellFormed handle
    cases taken : table.removeHandle handle with
    | none =>
        rw [taken] at spec
        exact spec.symm
    | some pair =>
        rw [taken] at spec
        exact spec.1.symm
  rw [← records.lookup]
  constructor
  · intro id
    rw [remove_eq]
    cases isHandle : table.lookupHandle id with
    | none =>
        unfold lookupHandle at isHandle
        cases found : table.lookup id with
        | none => rfl
        | some slot =>
            rw [found] at isHandle
            cases isHandle
    | some handle =>
        obtain ⟨slot, found, -, resolves⟩ := resolve_lookupHandle isHandle
        rw [found, Option.bind_some, byHandle, resolves]
        rfl
  · intro handle
    rw [byHandle, resolve]
    cases table.lookup handle.id with
    | none => rfl
    | some slot =>
        by_cases same : slot.generation = handle.generation <;> simp [same]

end Calls

/-- Tables that are created, bounded or growable. -/
def create
    (growable : Bool)
    (maxEntries : Nat)
    (granted : Bool) : Except Error (Table Value) :=
  if growable then initGrowable maxEntries granted else init maxEntries granted

/-- A new table has no history. -/
theorem create_spec
    {growable granted : Bool} {maxEntries : Nat} {start : Table Value}
    (created : create growable maxEntries granted = .ok start) :
    start.Records [] ∧ start.growth = growable ∧
      start.maxEntries = maxEntries := by
  cases growable with
  | false =>
      obtain ⟨wellFormed, count, generation, growth, capacity, empty⟩ :=
        init_spec created
      exact ⟨.start wellFormed empty generation count, growth, capacity⟩
  | true =>
      simp only [create, if_true, initGrowable] at created
      cases made : (init maxEntries granted : Except Error (Table Value)) with
      | error cause =>
          rw [made] at created
          cases created
      | ok table =>
          rw [made] at created
          cases created
          obtain ⟨wellFormed, count, generation, _, capacity, empty⟩ :=
            init_spec made
          have growable : WellFormed { table with growth := true } :=
            ⟨wellFormed.storage, wellFormed.roomy, wellFormed.capacity_pos,
              wellFormed.capacity_le, wellFormed.count_eq, wellFormed.count_le⟩
          refine ⟨.start growable (fun id => ?_) generation count, rfl, capacity⟩
          exact (wellFormed.lookup_congr growable (fun slot => Iff.rfl) id).trans
            (empty id)

/-- A table, bounded or growable, is the finite map of the calls made on it:
lookups read the map, every entry is counted, handles have their own
generations and live until their entries are removed, an insertion fails
exactly for the reasons given, a removal succeeds exactly where there is an
entry and answers its value, and no loop over the slots fails to end. -/
theorem table_is_finite_map
    {growable granted : Bool} {maxEntries : Nat} {start : Table Value}
    (created : create growable maxEntries granted = .ok start)
    (calls : List (Call Value))
    (few : insertions calls < maxU32) :
    let history := (run calls start).1
    let table := (run calls start).2
    (∀ id, table.get id = (entries history id).map Slot.value ∧
      table.lookupHandle id = (entries history id).map (fun slot =>
        { id, generation := slot.generation })) ∧
    (∀ handle, table.resolve handle =
      (entries history handle.id).bind fun slot =>
        if slot.generation = handle.generation then some slot.value
        else none) ∧
    table.count + removals history = (generations history).length ∧
    (generations history).Nodup ∧
    (∀ early id value granted late handle next,
      calls = early ++ .insert id value granted :: late →
      (run early start).2.insert id value granted = .ok (handle, next) →
      table.resolve handle =
        if (run late next).1.any (removes id) then none else some value) ∧
    (∀ id value granted,
      let result := (table.insert id value granted).map Prod.fst
      (result = .error .invalidId ↔ id = 0) ∧
      (result = .error .duplicateId ↔
        id ≠ 0 ∧ (entries history id).isSome) ∧
      (result = .error .full ↔ id ≠ 0 ∧ entries history id = none ∧
        growable = false ∧ table.count = maxEntries) ∧
      (result = .error .outOfMemory ↔ id ≠ 0 ∧ entries history id = none ∧
        growable = true ∧ table.count = table.maxEntries ∧ granted = false) ∧
      (∀ cause, result = .error cause → (cause = .invalidId ∨
          cause = .duplicateId ∨ cause = .full ∨ cause = .outOfMemory) ∧
        table.step (.insert id value granted) =
          (.inserted (.error cause), table))) ∧
    (∀ id, table.step (.remove id) =
      table.afterRemoval (table.remove id) ∧
      (table.remove id).map Prod.fst = (entries history id).map Slot.value) ∧
    (∀ handle, table.step (.removeHandle handle) =
      table.afterRemoval (table.removeHandle handle) ∧
      (table.removeHandle handle).map Prod.fst =
        (entries history handle.id).bind fun slot =>
          if slot.generation = handle.generation then some slot.value
          else none) ∧
    table.Terminates := by
  intro history table
  obtain ⟨fresh, growth, capacity⟩ := create_spec created
  have records : table.Records history := fresh.run calls
  have bounds := fresh.bounds calls
  have length := length_generations_le calls start
  have limited : (generations history).length < maxU32 :=
    Nat.lt_of_le_of_lt length few
  refine ⟨fun id => ?_, fun handle => ?_, records.count_eq,
    records.nodup limited, ?_, fun id value granted => ?_,
    fun id => ⟨rfl, records.removals.1 id⟩,
    fun handle => ⟨rfl, records.removals.2 handle⟩,
    records.wellFormed.terminates⟩
  · rw [← records.lookup]
    constructor
    · rfl
    · unfold lookupHandle
      cases table.lookup id <;> rfl
  · rw [← records.lookup]
    unfold resolve
    cases table.lookup handle.id with
    | none => rfl
    | some slot =>
        by_cases same : slot.generation = handle.generation <;> simp [same]
  · intro early id value granted late handle next isCalls inserted
    have before := fresh.run early
    have spec := insert_spec before.wellFormed id value granted
    rw [inserted] at spec
    obtain ⟨_, _, spec, _⟩ := spec
    have handleId : handle.id = id := by rw [spec.handle_eq]
    have live : next.lookup handle.id =
        some { id := handle.id, generation := handle.generation, value } := by
      rw [spec.lookup, handleId, if_pos rfl, spec.handle_eq]
    have split : insertions calls =
        insertions early + (1 + insertions late) := by
      rw [isCalls, insertions, List.countP_append]
      exact congrArg _ (insertions_cons _ late)
    have after : table = (run late next).2 := by
      rw [show table = (run calls start).2 from rfl, isCalls, run_append, run,
        Table.step, inserted]
    have resolves := (before.inserted inserted).resolves late
      (before.ahead inserted (by omega)) live
    rw [after, resolves, handleId]
  · obtain ⟨invalid, duplicate, full, memory, causes⟩ :=
      records.refusals limited id value granted
    have sameGrowth : table.growth = growable := bounds.1.trans growth
    refine ⟨invalid, duplicate, ?_, ?_, fun cause failed =>
      ⟨causes cause failed, ?_⟩⟩
    · rw [full, sameGrowth]
      constructor
      · rintro ⟨nonzero, absent, count, bounded⟩
        refine ⟨nonzero, absent, bounded, ?_⟩
        rw [count]
        exact (bounds.2 (growth.trans bounded)).trans capacity
      · rintro ⟨nonzero, absent, bounded, count⟩
        refine ⟨nonzero, absent, ?_, bounded⟩
        rw [count]
        exact ((bounds.2 (growth.trans bounded)).trans capacity).symm
    · rw [memory, sameGrowth]
      constructor
      · rintro ⟨nonzero, absent, count, grows, denied⟩
        exact ⟨nonzero, absent, grows, count, denied⟩
      · rintro ⟨nonzero, absent, grows, count, denied⟩
        exact ⟨nonzero, absent, count, grows, denied⟩
    · cases inserted : table.insert id value granted with
      | error other =>
          rw [inserted] at failed
          cases failed
          exact step_refused inserted
      | ok pair =>
          rw [inserted] at failed
          cases failed

/-- A handle of a growable table survives growth, until it is removed.  Then
its ID has nothing left to remove, and the other ID still has. -/
theorem table_is_finite_map_sample :
    let start : Table Nat := ((create true 1 true).toOption).getD
      { slots := [], maxEntries := 0 }
    let last :=
      (run [.insert 3 7 true, .insert 4 8 true, .remove 4] start).2
    last.resolve { id := 3, generation := 1 } = some 7 ∧
      last.resolve { id := 4, generation := 2 } = none ∧
      (last.remove 3).map Prod.fst = some 7 ∧
      (last.remove 4).map Prod.fst = none := by
  intro start last
  obtain ⟨_, resolves, _, _, _, _, removes, _⟩ :=
    @table_is_finite_map Nat true true 1 start rfl
      [.insert 3 7 true, .insert 4 8 true, .remove 4] (by decide)
  exact ⟨(resolves _).trans (by decide), (resolves _).trans (by decide),
    (removes 3).2.trans (by decide), (removes 4).2.trans (by decide)⟩

end Table
end Wayring
