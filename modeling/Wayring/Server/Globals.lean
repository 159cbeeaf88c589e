import Wayring.Objects.NamespaceMap
import Wayring.Objects.TableRuns
import Wayring.Objects.Teardown

/-!
# Global definitions

Every client registry lists the same globals.  A global is published under a
numeric name, and the names count upwards: a name that was given out is never
given out again, even when its global is gone.
-/

namespace Wayring

/-- What can go wrong with globals, on top of the errors of what they use. -/
inductive GlobalError
  | nameExhausted
  | unknownGlobal
  | invalidAckRemove
  | interfaceMismatch
  | unsupportedGlobalVersion
  | base (cause : Error)
  deriving DecidableEq, Repr

/-- One published definition.  The context and the function that activates a
binding are pointers of the application. -/
structure Global where
  interface : Interface
  version : Nat
  context : Option Nat := none
  bind : Option Nat := none
  deriving DecidableEq, Repr

/-- The definitions that every client registry shares. -/
structure Globals where
  table : Table Global
  nextName : Nat := 1
  deriving DecidableEq, Repr

namespace Globals

/-- An empty table of globals. -/
def init (maxGlobals : Nat) (granted : Bool) : Except Error Globals :=
  (Table.init maxGlobals granted).map fun table => { table }

/-- Publish a definition under the next name.  The name is used up even when
the table has no room. -/
def addWithBinder
    (globals : Globals)
    (interface : Interface)
    (version : Nat)
    (context bind : Option Nat) : Except GlobalError Handle × Globals :=
  match interface.validateVersion version with
  | .error cause => (.error (.base cause), globals)
  | .ok _ =>
      if globals.nextName = 0 then (.error .nameExhausted, globals)
      else
        let name := globals.nextName
        let globals := { globals with nextName := (name + 1) % 2 ^ 32 }
        match globals.table.insert name { interface, version, context, bind }
            false with
        | .error cause => (.error (.base cause), globals)
        | .ok (handle, table) => (.ok handle, { globals with table })

/-- The definition of a name. -/
def get (globals : Globals) (name : Nat) : Except GlobalError Global :=
  match globals.table.get name with
  | none => .error .unknownGlobal
  | some global => .ok global

/-- The definition a handle denotes. -/
def resolve (globals : Globals) (handle : Handle) : Option Global :=
  globals.table.resolve handle

/-- The handle that currently has a name. -/
def lookupHandle (globals : Globals) (name : Nat) : Option Handle :=
  globals.table.lookupHandle name

/-- Take a definition out. -/
def remove
    (globals : Globals)
    (handle : Handle) : Except GlobalError Global × Globals :=
  match globals.table.removeHandle handle with
  | none => (.error .unknownGlobal, globals)
  | some (global, table) => (.ok global, { globals with table })

/-- The definitions in the order of the table. -/
def entries (globals : Globals) : List (Handle × Global) :=
  globals.table.contents

/-! ## Names -/

/-- The name was given out. -/
def Issued (globals : Globals) (name : Nat) : Prop :=
  name ≠ 0 ∧ (globals.nextName = 0 ∧ name < 2 ^ 32 ∨ name < globals.nextName)

/-- The table is sound, and its definitions have names that were given out. -/
structure Sound (globals : Globals) : Prop where
  wellFormed : globals.table.WellFormed
  fixed : globals.table.growth = false
  bound : globals.nextName < 2 ^ 32
  issued : ∀ {handle global}, globals.resolve handle = some global →
    globals.Issued handle.id

section Specifications

variable {globals later : Globals} {handle other : Handle} {global : Global}

/-- New globals are sound, and there are none. -/
theorem init_sound
    {maxGlobals : Nat} {granted : Bool}
    (created : init maxGlobals granted = .ok globals) :
    globals.Sound ∧ globals.nextName = 1 ∧
      ∀ handle, globals.resolve handle = none := by
  unfold init at created
  cases made : (Table.init maxGlobals granted : Except Error (Table Global)) with
  | error cause =>
      rw [made] at created
      cases created
  | ok table =>
  rw [made] at created
  cases created
  obtain ⟨wellFormed, -, -, fixed, -, empty⟩ := Table.init_spec made
  have absent : ∀ handle, resolve { table } handle = none := by
    intro handle
    simp [resolve, Table.resolve, empty handle.id]
  refine ⟨⟨wellFormed, fixed, ?_, ?_⟩, rfl, absent⟩
  · exact Nat.one_lt_two_pow (by decide)
  · intro handle global resolved
    rw [absent] at resolved
    cases resolved

/-- One name denotes one handle at a time. -/
theorem resolve_unique
    {first second : Global}
    (resolved : globals.resolve handle = some first)
    (also : globals.resolve other = some second)
    (same : handle.id = other.id) : handle = other := by
  obtain ⟨slot, stored, generation, -⟩ :=
    Table.resolve_eq_some_iff.mp resolved
  obtain ⟨content, listed, current, -⟩ := Table.resolve_eq_some_iff.mp also
  rw [same] at stored
  cases stored.symm.trans listed
  cases handle
  cases other
  simp_all

/-- A name is looked up to the handle of a live global. -/
theorem lookupHandle_eq_some_iff
    {name : Nat} :
    globals.lookupHandle name = some handle ↔
      handle.id = name ∧ ∃ global, globals.resolve handle = some global := by
  constructor
  · intro found
    obtain ⟨slot, -, named, resolved⟩ := Table.resolve_lookupHandle found
    exact ⟨named, slot.value, resolved⟩
  · rintro ⟨rfl, global, resolved⟩
    obtain ⟨slot, stored, generation, -⟩ :=
      Table.resolve_eq_some_iff.mp resolved
    simp [lookupHandle, Table.lookupHandle, stored, generation]

/-- A name that is not found is of no live global. -/
theorem lookupHandle_eq_none_iff
    {name : Nat} :
    globals.lookupHandle name = none ↔
      ∀ handle : Handle, handle.id = name → globals.resolve handle = none := by
  rw [Option.eq_none_iff_forall_not_mem]
  constructor
  · intro absent handle named
    cases resolved : globals.resolve handle with
    | none => rfl
    | some global =>
        exact absurd (lookupHandle_eq_some_iff.mpr ⟨named, global, resolved⟩)
          (absent handle)
  · intro absent handle found
    obtain ⟨named, global, resolved⟩ := lookupHandle_eq_some_iff.mp found
    rw [absent handle named] at resolved
    cases resolved

/-- A live global is found by its name. -/
theorem get_of_resolve
    (resolved : globals.resolve handle = some global) :
    globals.get handle.id = .ok global := by
  rw [get, Table.get_of_resolve resolved]

/-- The entries are the live globals. -/
theorem Sound.mem_entries
    (sound : globals.Sound) :
    (handle, global) ∈ globals.entries ↔
      globals.resolve handle = some global :=
  (sound.wellFormed.finds.2 handle global).symm

/-- A global is listed once. -/
theorem Sound.entries_nodup
    (sound : globals.Sound) : (globals.entries.map Prod.fst).Nodup :=
  sound.wellFormed.finds.1

/-- The next name was not issued before. -/
theorem not_issued_next : ¬ globals.Issued globals.nextName := by
  rintro ⟨nonzero, ⟨exhausted, -⟩ | less⟩
  · exact nonzero exhausted
  · exact Nat.lt_irrefl _ less

/-- Every name that was given out counts as such after the next one, too. -/
theorem issued_step
    (bound : globals.nextName < 2 ^ 32)
    (more : globals.nextName ≠ 0)
    (advanced : later.nextName = (globals.nextName + 1) % 2 ^ 32)
    {name : Nat} :
    later.Issued name ↔ globals.Issued name ∨ name = globals.nextName := by
  unfold Issued
  rw [advanced]
  omega

/-- What `addWithBinder` can do. -/
theorem Sound.addWithBinder
    (sound : globals.Sound)
    (interface : Interface) (version : Nat) (context bind : Option Nat) :
    let outcome := globals.addWithBinder interface version context bind
    outcome.2.Sound ∧
      (∀ name, globals.Issued name → outcome.2.Issued name) ∧
      match outcome.1 with
      | .error _ => outcome.2.resolve = globals.resolve
      | .ok handle =>
          ¬ globals.Issued handle.id ∧ outcome.2.Issued handle.id ∧
            outcome.2.resolve = Function.update globals.resolve handle
              (some { interface, version, context, bind }) := by
  intro outcome
  have unchanged : globals.Sound ∧
      (∀ name, globals.Issued name → globals.Issued name) ∧
      globals.resolve = globals.resolve := ⟨sound, fun _ given => given, rfl⟩
  cases valid : interface.validateVersion version with
  | error cause =>
      have result : outcome = (.error (.base cause), globals) := by
        simp only [outcome, Globals.addWithBinder, valid]
      rw [result]
      exact unchanged
  | ok checked =>
      by_cases last : globals.nextName = 0
      · have result : outcome = (.error .nameExhausted, globals) := by
          simp only [outcome, Globals.addWithBinder, valid, if_pos last]
        rw [result]
        exact unchanged
      let advanced : Globals :=
        { globals with nextName := (globals.nextName + 1) % 2 ^ 32 }
      have grown : ∀ name, advanced.Issued name ↔
          globals.Issued name ∨ name = globals.nextName := fun name =>
        issued_step sound.bound last rfl
      have bound : advanced.nextName < 2 ^ 32 := Nat.mod_lt _ (by decide)
      have inserts := Table.insert_spec sound.wellFormed globals.nextName
        ({ interface, version, context, bind } : Global) false
      cases inserted : globals.table.insert globals.nextName
          ({ interface, version, context, bind } : Global) false with
      | error cause =>
          have result : outcome = (.error (.base cause), advanced) := by
            simp only [outcome, Globals.addWithBinder, valid, if_neg last,
              inserted, advanced]
          rw [result]
          refine ⟨⟨sound.wellFormed, sound.fixed, bound, ?_⟩, ?_, rfl⟩
          · intro handle global resolved
            exact (grown _).mpr (Or.inl (sound.issued resolved))
          · intro name given
            exact (grown name).mpr (Or.inl given)
      | ok pair =>
          obtain ⟨handle, table⟩ := pair
          rw [inserted] at inserts
          obtain ⟨-, absent, stored, -, -⟩ := inserts
          have result : outcome = (.ok handle, { advanced with table }) := by
            simp only [outcome, Globals.addWithBinder, valid, if_neg last,
              inserted, advanced]
          have named : handle.id = globals.nextName := by
            rw [stored.handle_eq]
          have resolves : resolve { advanced with table } =
              Function.update globals.resolve handle
                (some { interface, version, context, bind }) := by
            funext other
            rw [Function.update_apply]
            simp only [resolve, Table.resolve, stored.lookup]
            by_cases same : other.id = globals.nextName
            · by_cases equal : other = handle
              · rw [if_pos same, if_pos equal, equal, stored.handle_eq]
                simp
              · rw [if_pos same, if_neg equal, same, absent]
                have stale : globals.table.nextGeneration ≠
                    other.generation := by
                  intro agrees
                  apply equal
                  rw [stored.handle_eq]
                  cases other
                  simp_all
                simp [stale]
            · rw [if_neg same, if_neg]
              rintro rfl
              exact same named
          rw [result]
          refine ⟨⟨stored.wellFormed, stored.growth.trans sound.fixed, bound,
            ?_⟩, ?_, ?_, ?_, resolves⟩
          · intro other global resolved
            rw [resolves, Function.update_apply] at resolved
            refine (grown other.id).mpr ?_
            split_ifs at resolved with equal
            · rw [equal]
              exact Or.inr named
            · exact Or.inl (sound.issued resolved)
          · intro name given
            exact (grown name).mpr (Or.inl given)
          · rw [named]
            exact not_issued_next
          · exact (grown handle.id).mpr (Or.inr named)

/-- What `remove` can do. -/
theorem Sound.remove
    (sound : globals.Sound)
    (handle : Handle) :
    let outcome := globals.remove handle
    outcome.2.Sound ∧ outcome.2.nextName = globals.nextName ∧
      match outcome.1 with
      | .error cause => cause = .unknownGlobal ∧
          globals.resolve handle = none ∧ outcome.2 = globals
      | .ok global => globals.resolve handle = some global ∧
          outcome.2.resolve = Function.update globals.resolve handle none := by
  intro outcome
  cases taken : globals.table.removeHandle handle with
  | none =>
      have result : outcome = (.error .unknownGlobal, globals) := by
        simp only [outcome, Globals.remove, taken]
      have absent := Table.removeHandle_spec sound.wellFormed handle
      rw [taken] at absent
      rw [result]
      exact ⟨sound, rfl, rfl, absent, rfl⟩
  | some pair =>
      obtain ⟨global, table⟩ := pair
      have result : outcome = (.ok global, { globals with table }) := by
        simp only [outcome, Globals.remove, taken]
      obtain ⟨resolved, removed, -⟩ :=
        Table.removeHandle_removed sound.wellFormed taken
      have resolves : resolve { globals with table } =
          Function.update globals.resolve handle none := by
        funext other
        rw [Function.update_apply]
        exact removed.resolve resolved other
      rw [result]
      refine ⟨⟨removed.wellFormed, removed.growth_eq.trans sound.fixed,
        sound.bound, ?_⟩, rfl, resolved, resolves⟩
      intro other value stays
      rw [resolves, Function.update_apply] at stays
      split_ifs at stays
      exact sound.issued stays

end Specifications

end Globals
end Wayring
