import Wayring.Objects.ClientView
import Wayring.Objects.NamespaceMap

/-!
# Coupling of client IDs and the namespace

In every reachable state the namespace and the ID tracker agree on each ID of
the client range, IDs are handed out without gaps, and a failed operation
cannot be noticed by the operations after it, except that it may have grown
the storage they use.
-/

namespace Wayring

open ClientIds (Tracks idSpace)
open ClientObjects (Operation Reply Call)

namespace ClientView

/-- The tombstone flag of each client ID is the one its standing implies. -/
structure Coupled (view : ClientView) : Prop where
  wellFormed : view.objectNamespace.table.WellFormed
  consistent : view.tracker.Consistent
  flag_eq : ∀ index, index < idSpace →
    (view.objectNamespace.table.get (index + 2)).map Object.destroyed =
      (view.tracker.standing index).map Standing.destroyed
  range_of_destroyed : ∀ {id object},
    view.objectNamespace.table.get id = some object →
      object.destroyed = true → 2 ≤ id ∧ id < serverIdStart

namespace Coupled

variable {view : ClientView}

/-- A stored object of the client range has an ID in use. -/
theorem standing_of_get
    (coupled : view.Coupled)
    {id : Nat} {object : Object}
    (lower : 2 ≤ id) (upper : id < serverIdStart)
    (stored : view.objectNamespace.table.get id = some object) :
    view.tracker.standing (id - 2) =
      some (if object.destroyed then .awaitingDelete else .active) := by
  have space : id - 2 < idSpace := by
    unfold idSpace
    omega
  have flags := coupled.flag_eq (id - 2) space
  rw [Nat.sub_add_cancel lower, stored] at flags
  cases standing : view.tracker.standing (id - 2) with
  | none =>
      rw [standing] at flags
      cases flags
  | some state =>
      rw [standing] at flags
      have same : object.destroyed = state.destroyed :=
        Option.some.inj flags
      rw [same]
      cases state <;> rfl

/-- Coupling after a change at one client ID. -/
theorem update
    (coupled : view.Coupled)
    {result : ClientView}
    (index : Nat)
    (wellFormed : result.objectNamespace.table.WellFormed)
    (consistent : result.tracker.Consistent)
    (get_of_ne : ∀ other, other ≠ index + 2 →
      result.objectNamespace.table.get other =
        view.objectNamespace.table.get other)
    (standing_of_ne : ∀ other, other ≠ index →
      result.tracker.standing other = view.tracker.standing other)
    (changed : (result.objectNamespace.table.get (index + 2)).map
        Object.destroyed =
      (result.tracker.standing index).map Standing.destroyed)
    (range : ∀ {object},
      result.objectNamespace.table.get (index + 2) = some object →
        object.destroyed = true → index + 2 < serverIdStart) :
    result.Coupled where
  wellFormed := wellFormed
  consistent := consistent
  flag_eq other space := by
    by_cases same : other = index
    · rw [same]
      exact changed
    · rw [get_of_ne (other + 2) (by omega), standing_of_ne other same]
      exact coupled.flag_eq other space
  range_of_destroyed := by
    intro id object stored destroyed
    by_cases same : id = index + 2
    · subst same
      exact ⟨Nat.le_add_left .., range stored destroyed⟩
    · rw [get_of_ne id same] at stored
      exact coupled.range_of_destroyed stored destroyed

/-- A created object takes the ID that is up next. -/
theorem createLocal
    (coupled : view.Coupled)
    {interface : Interface} {version : Nat} {context : Option Nat}
    {granted : Bool} {handle : Handle} {objectNamespace : Namespace}
    (inserted : view.objectNamespace.insert (view.tracker.upcoming + 2)
      interface version context granted = .ok (handle, objectNamespace)) :
    Coupled { objectNamespace, tracker := view.tracker.acquire } := by
  obtain ⟨wellFormed, _, _, get⟩ :=
    Namespace.insert_spec coupled.wellFormed inserted
  refine coupled.update view.tracker.upcoming wellFormed
    coupled.consistent.acquire
    (fun other apart => by rw [get, if_neg apart]) (fun other apart => ?_) ?_
    ?_
  · exact Function.update_of_ne apart _ _
  · rw [get, if_pos rfl, IdTracker.acquire_standing_upcoming]
    rfl
  · intro object stored destroyed
    rw [get, if_pos rfl] at stored
    cases Option.some.inj stored
    cases destroyed

/-- A released ID has no object. -/
theorem release
    (coupled : view.Coupled)
    {id : Nat} {object : Object} {objectNamespace : Namespace}
    (lower : 2 ≤ id) (upper : id < serverIdStart)
    (stored : view.objectNamespace.table.get id = some object)
    (wellFormed : objectNamespace.table.WellFormed)
    (get : ∀ other, objectNamespace.table.get other =
      if other = id then none else view.objectNamespace.table.get other) :
    Coupled { objectNamespace, tracker := view.tracker.release (id - 2) } := by
  have used := coupled.standing_of_get lower upper stored
  have back : id - 2 + 2 = id := Nat.sub_add_cancel lower
  refine coupled.update (id - 2) wellFormed
    (coupled.consistent.release (by simp [used]))
    (fun other apart => by rw [get, if_neg (by omega)])
    (fun other apart => ?_) ?_ (fun _ _ => by omega)
  · exact Function.update_of_ne apart _ _
  · rw [get, if_pos back, IdTracker.release_standing_self]
    rfl

/-- A retired object waits for its `delete_id`. -/
theorem retireLocal
    (coupled : view.Coupled)
    {id : Nat} {object : Object}
    (lower : 2 ≤ id) (upper : id < serverIdStart)
    (stored : view.objectNamespace.table.get id = some object) :
    Coupled
      { objectNamespace := view.objectNamespace.markDestroyed id
        tracker := view.tracker.retire (id - 2) } := by
  have used := coupled.standing_of_get lower upper stored
  have back : id - 2 + 2 = id := Nat.sub_add_cancel lower
  obtain ⟨wellFormed, get⟩ :=
    Namespace.markDestroyed_spec coupled.wellFormed id
  refine coupled.update (id - 2) wellFormed
    (coupled.consistent.retire (by simp [used]))
    (fun other apart => by rw [get, if_neg (by omega)])
    (fun other apart => ?_) ?_ (fun _ _ => by omega)
  · exact Function.update_of_ne apart _ _
  · rw [get, if_pos back, stored, IdTracker.retire_standing_self]
    rfl

/-- A change outside the client range. -/
theorem peer
    (coupled : view.Coupled)
    {id : Nat} {content : Option Object} {objectNamespace : Namespace}
    (outside : serverIdStart ≤ id)
    (live : ∀ {object}, content = some object → object.destroyed = false)
    (wellFormed : objectNamespace.table.WellFormed)
    (get : ∀ other, objectNamespace.table.get other =
      if other = id then content
      else view.objectNamespace.table.get other) :
    Coupled { view with objectNamespace } where
  wellFormed := wellFormed
  consistent := coupled.consistent
  flag_eq index space := by
    have apart : index + 2 ≠ id := by
      unfold idSpace at space
      omega
    rw [get, if_neg apart]
    exact coupled.flag_eq index space
  range_of_destroyed := by
    intro other object stored destroyed
    rw [get] at stored
    split at stored
    · rw [live stored] at destroyed
      cases destroyed
    · exact coupled.range_of_destroyed stored destroyed

end Coupled
end ClientView

namespace ClientObjects

/-- The objects hold what a coupled view says. -/
structure Represents (objects : ClientObjects) (view : ClientView) : Prop where
  objectNamespace_eq : view.objectNamespace = objects.objectNamespace
  tracks : Tracks objects.ids view.tracker
  coupled : view.Coupled

/-- How one call used the storage of the ID tracker. -/
def StorageStep
    (ids : ClientIds)
    (tracker : IdTracker)
    (call : Call)
    (storage : Option Error)
    (result : ClientIds) : Prop :=
  result.growth = ids.growth ∧
    match storage with
    | some cause =>
        Tracks.Refused ids tracker call.grants.ids cause ∧
          result.entries.length = ids.entries.length
    | none =>
        result.entries.length = ids.entries.length ∧
            (∀ interface version context,
              call.operation = .createLocal interface version context →
              ¬ Tracks.NeedsGrowth ids tracker) ∨
          (∃ interface version context,
              call.operation = .createLocal interface version context) ∧
            Tracks.NeedsGrowth ids tracker ∧ call.grants.ids = true ∧
            ids.entries.length < idSpace ∧ ids.growth = true ∧
            result.entries.length = min (ids.entries.length * 2) idSpace

/-- One call of the objects is one call of the view. -/
structure StepRefines
    (objects : ClientObjects)
    (view : ClientView)
    (call : Call)
    (storage : Option Error) : Prop where
  result_eq : (objects.step call).1 = (view.step storage call).1
  represents :
    Represents (objects.step call).2 (view.step storage call).2
  storageStep :
    StorageStep objects.ids view.tracker call storage (objects.step call).2.ids

namespace Represents

variable {objects : ClientObjects} {view : ClientView}

theorem createLocal_refines
    (represents : Represents objects view)
    (interface : Interface) (version : Nat) (context : Option Nat)
    (grants : Grants) :
    ∃ storage, StepRefines objects view
      ⟨.createLocal interface version context, grants⟩ storage := by
  obtain ⟨objectNamespace, tracker⟩ := view
  obtain ⟨rfl, tracks, coupled⟩ := represents
  rcases tracks.acquire_spec grants.ids with
    ⟨ids, taken, idsTracks, growth, next, length⟩ | ⟨cause, failed, refused⟩
  · have storageStep (result : ClientIds)
        (sameGrowth : result.growth = ids.growth)
        (sameLength : result.entries.length = ids.entries.length) :
        StorageStep objects.ids tracker
          ⟨.createLocal interface version context, grants⟩ none result := by
      refine ⟨sameGrowth.trans growth, ?_⟩
      rcases length with ⟨roomy, unchanged⟩ |
        ⟨needs, granted, narrow, growable, doubled⟩
      · exact Or.inl ⟨sameLength.trans unchanged, fun _ _ _ _ => roomy⟩
      · exact Or.inr ⟨⟨_, _, _, rfl⟩, needs, granted, narrow, growable,
          sameLength.trans doubled⟩
    cases inserted : objects.objectNamespace.insert (tracker.upcoming + 2)
        interface version context grants.table with
    | ok pair =>
        obtain ⟨handle, objectNamespace⟩ := pair
        have stepped : objects.step
            ⟨.createLocal interface version context, grants⟩ =
              (.ok (.local handle), ⟨objectNamespace, ids⟩) := by
          simp [step, createLocal, taken, inserted, Except.map]
        have viewed : ClientView.step ⟨objects.objectNamespace, tracker⟩ none
            ⟨.createLocal interface version context, grants⟩ =
              (.ok (.local handle), ⟨objectNamespace, tracker.acquire⟩) := by
          simp [ClientView.step, ClientView.createLocal, inserted, Except.map]
        refine ⟨none, ?_, ?_, ?_⟩
        · rw [stepped, viewed]
        · rw [stepped, viewed]
          exact ⟨rfl, idsTracks, coupled.createLocal inserted⟩
        · rw [stepped]
          exact storageStep ids rfl rfl
    | error cause =>
        have used := tracker.acquire_standing_upcoming
        have cancelled := idsTracks.cancelUnpublished_eq used
        have released := idsTracks.releaseIndex
          (Option.ne_none_iff_exists'.mpr ⟨_, used⟩)
        have stepped : objects.step
            ⟨.createLocal interface version context, grants⟩ =
              (.error cause, ⟨objects.objectNamespace,
                ids.releaseIndex tracker.upcoming⟩) := by
          simp [step, createLocal, taken, inserted, cancelled, Except.map]
        have viewed : ClientView.step ⟨objects.objectNamespace, tracker⟩ none
            ⟨.createLocal interface version context, grants⟩ =
              (.error cause, ⟨objects.objectNamespace, tracker⟩) := by
          simp [ClientView.step, ClientView.createLocal, inserted, Except.map]
        refine ⟨none, ?_, ?_, ?_⟩
        · rw [stepped, viewed]
        · rw [stepped, viewed]
          exact ⟨rfl, released.rollback tracks.consistent next, coupled⟩
        · rw [stepped]
          exact storageStep _ rfl (by simp [ClientIds.releaseIndex])
  · have stepped : objects.step
        ⟨.createLocal interface version context, grants⟩ =
          (.error cause, objects) := by
      simp [step, createLocal, failed, Except.map]
    have viewed : ClientView.step ⟨objects.objectNamespace, tracker⟩
        (some cause) ⟨.createLocal interface version context, grants⟩ =
          (.error cause, ⟨objects.objectNamespace, tracker⟩) := by
      simp [ClientView.step, ClientView.createLocal, Except.map]
    refine ⟨some cause, ?_, ?_, ?_⟩
    · rw [stepped, viewed]
    · rw [stepped, viewed]
      exact ⟨rfl, tracks, coupled⟩
    · rw [stepped]
      exact ⟨rfl, refused, rfl⟩

/-- A call that neither takes an ID nor fails in the tracker leaves the
tracker's storage alone. -/
theorem storageStep_of_same
    {ids result : ClientIds} {tracker : IdTracker} {call : Call}
    (other : ∀ interface version context,
      call.operation ≠ .createLocal interface version context)
    (growth : result.growth = ids.growth)
    (length : result.entries.length = ids.entries.length) :
    StorageStep ids tracker call none result :=
  ⟨growth, Or.inl ⟨length, fun interface version context same =>
    absurd same (other interface version context)⟩⟩

/-- A call that both models answer alike without touching anything. -/
theorem unchanged_refines
    (represents : Represents objects view)
    {call : Call}
    (result : Except Error Reply)
    (other : ∀ interface version context,
      call.operation ≠ .createLocal interface version context)
    (stepped : objects.step call = (result, objects))
    (viewed : view.step none call = (result, view)) :
    StepRefines objects view call none := by
  refine ⟨?_, ?_, ?_⟩
  · rw [stepped, viewed]
  · rw [stepped, viewed]
    exact represents
  · rw [stepped]
    exact storageStep_of_same other rfl rfl

theorem cancelLocal_refines
    (represents : Represents objects view)
    (handle : Handle)
    (grants : Grants) :
    StepRefines objects view ⟨.cancelLocal handle, grants⟩ none := by
  have represents' := represents
  obtain ⟨objectNamespace, tracker⟩ := view
  obtain ⟨rfl, tracks, coupled⟩ := represents
  by_cases range : handle.id < 2 ∨ handle.id ≥ serverIdStart
  · refine represents'.unchanged_refines (.error .invalidLocalId)
      (by simp) ?_ ?_
    · simp only [step, cancelLocal, if_pos range, Except.map]
    · simp only [ClientView.step, ClientView.cancelLocal, if_pos range,
        Except.map]
  · cases resolved : objects.objectNamespace.resolve handle with
    | none =>
        refine represents'.unchanged_refines (.error .staleHandle)
          (by simp) ?_ ?_
        · simp only [step, cancelLocal, if_neg range, resolved, Except.map]
        · simp only [ClientView.step, ClientView.cancelLocal, if_neg range,
            resolved, Except.map]
    | some object =>
        have lower : 2 ≤ handle.id := by omega
        have upper : handle.id < serverIdStart := by omega
        have stored := Table.get_of_resolve resolved
        have used := coupled.standing_of_get lower upper stored
        have back : handle.id - 2 + 2 = handle.id := Nat.sub_add_cancel lower
        cases destroyed : object.destroyed with
        | true =>
            simp only [destroyed, if_true] at used
            have failed := tracks.cancelUnpublished_awaitingDelete used
            rw [back] at failed
            refine represents'.unchanged_refines (.error .invalidTransition)
              (by simp) ?_ ?_
            · simp only [step, cancelLocal, if_neg range, resolved, failed,
                Except.map]
            · simp only [ClientView.step, ClientView.cancelLocal, if_neg range,
                resolved, destroyed, if_true, Except.map]
        | false =>
            simp only [destroyed, Bool.false_eq_true, if_false] at used
            have cancelled := tracks.cancelUnpublished_eq used
            rw [back] at cancelled
            obtain ⟨objectNamespace, removed, wellFormed, get⟩ :=
              Namespace.remove_of_resolve coupled.wellFormed resolved
            have stepped : objects.step ⟨.cancelLocal handle, grants⟩ =
                (.ok (.object object), ⟨objectNamespace,
                  objects.ids.releaseIndex (handle.id - 2)⟩) := by
              simp only [step, cancelLocal, if_neg range, resolved, cancelled,
                removed, Except.map]
            have viewed : ClientView.step ⟨objects.objectNamespace, tracker⟩
                none ⟨.cancelLocal handle, grants⟩ =
                  (.ok (.object object), ⟨objectNamespace,
                    tracker.release (handle.id - 2)⟩) := by
              simp only [ClientView.step, ClientView.cancelLocal, if_neg range,
                resolved, destroyed, Bool.false_eq_true, if_false, removed,
                Except.map]
            refine ⟨?_, ?_, ?_⟩
            · rw [stepped, viewed]
            · rw [stepped, viewed]
              exact ⟨rfl, tracks.releaseIndex (by simp [used]),
                coupled.release lower upper stored wellFormed get⟩
            · rw [stepped]
              exact storageStep_of_same (by simp) rfl
                (by simp [ClientIds.releaseIndex])

theorem retireLocal_refines
    (represents : Represents objects view)
    (handle : Handle)
    (grants : Grants) :
    StepRefines objects view ⟨.retireLocal handle, grants⟩ none := by
  have represents' := represents
  obtain ⟨objectNamespace, tracker⟩ := view
  obtain ⟨rfl, tracks, coupled⟩ := represents
  by_cases range : handle.id < 2 ∨ handle.id ≥ serverIdStart
  · refine represents'.unchanged_refines (.error .invalidLocalId)
      (by simp) ?_ ?_
    · simp only [step, retireLocal, if_pos range, Except.map]
    · simp only [ClientView.step, ClientView.retireLocal, if_pos range,
        Except.map]
  · cases resolved : objects.objectNamespace.resolve handle with
    | none =>
        refine represents'.unchanged_refines (.error .staleHandle)
          (by simp) ?_ ?_
        · simp only [step, retireLocal, if_neg range, resolved, Except.map]
        · simp only [ClientView.step, ClientView.retireLocal, if_neg range,
            resolved, Except.map]
    | some object =>
        have lower : 2 ≤ handle.id := by omega
        have upper : handle.id < serverIdStart := by omega
        have stored := Table.get_of_resolve resolved
        have used := coupled.standing_of_get lower upper stored
        have back : handle.id - 2 + 2 = handle.id := Nat.sub_add_cancel lower
        cases destroyed : object.destroyed with
        | true =>
            refine represents'.unchanged_refines (.error .destroyedObject)
              (by simp) ?_ ?_
            · simp only [step, retireLocal, if_neg range, resolved, destroyed,
                if_true, Except.map]
            · simp only [ClientView.step, ClientView.retireLocal, if_neg range,
                resolved, destroyed, if_true, Except.map]
        | false =>
            simp only [destroyed, Bool.false_eq_true, if_false] at used
            obtain ⟨ids, retired, idsTracks, growth, length⟩ :=
              tracks.retire_spec used
            rw [back] at retired
            have stepped : objects.step ⟨.retireLocal handle, grants⟩ =
                (.ok (.object { object with destroyed := true }),
                  ⟨objects.objectNamespace.markDestroyed handle.id, ids⟩) := by
              simp only [step, retireLocal, if_neg range, resolved, destroyed,
                Bool.false_eq_true, if_false, retired, Except.map]
            have viewed : ClientView.step ⟨objects.objectNamespace, tracker⟩
                none ⟨.retireLocal handle, grants⟩ =
                  (.ok (.object { object with destroyed := true }),
                    ⟨objects.objectNamespace.markDestroyed handle.id,
                      tracker.retire (handle.id - 2)⟩) := by
              simp only [ClientView.step, ClientView.retireLocal, if_neg range,
                resolved, destroyed, Bool.false_eq_true, if_false, Except.map]
            refine ⟨?_, ?_, ?_⟩
            · rw [stepped, viewed]
            · rw [stepped, viewed]
              exact ⟨rfl, idsTracks, coupled.retireLocal lower upper stored⟩
            · rw [stepped]
              exact storageStep_of_same (by simp) growth length

theorem deleted_refines
    (represents : Represents objects view)
    (id : Nat)
    (grants : Grants) :
    StepRefines objects view ⟨.deleted id, grants⟩ none := by
  have represents' := represents
  obtain ⟨objectNamespace, tracker⟩ := view
  obtain ⟨rfl, tracks, coupled⟩ := represents
  cases found : objects.objectNamespace.lookupHandle id with
  | none =>
      refine represents'.unchanged_refines (.error .unknownObject)
        (by simp) ?_ ?_
      · simp [step, deleted, found, Except.map]
      · simp [ClientView.step, ClientView.deleted, found, Except.map]
  | some handle =>
      obtain ⟨sameId, object, resolved, stored⟩ :=
        Namespace.resolve_of_lookupHandle found
      cases destroyed : object.destroyed with
      | false =>
          refine represents'.unchanged_refines (.error .invalidTransition)
            (by simp) ?_ ?_
          · simp [step, deleted, found, resolved, destroyed, Except.map]
          · simp [ClientView.step, ClientView.deleted, found, resolved,
              destroyed, Except.map]
      | true =>
          obtain ⟨lower, upper⟩ := coupled.range_of_destroyed stored destroyed
          have used := coupled.standing_of_get lower upper stored
          simp only [destroyed, if_true] at used
          have freed := tracks.deleted_eq used
          rw [Nat.sub_add_cancel lower] at freed
          obtain ⟨objectNamespace, removed, wellFormed, get⟩ :=
            Namespace.remove_of_resolve coupled.wellFormed resolved
          rw [sameId] at get
          have stepped : objects.step ⟨.deleted id, grants⟩ =
              (.ok .done, ⟨objectNamespace,
                objects.ids.releaseIndex (id - 2)⟩) := by
            simp [step, deleted, found, resolved, destroyed, freed, removed,
              Except.map]
          have viewed : ClientView.step ⟨objects.objectNamespace, tracker⟩
              none ⟨.deleted id, grants⟩ =
                (.ok .done, ⟨objectNamespace, tracker.release (id - 2)⟩) := by
            simp [ClientView.step, ClientView.deleted, found, resolved,
              destroyed, removed, Except.map]
          refine ⟨?_, ?_, ?_⟩
          · rw [stepped, viewed]
          · rw [stepped, viewed]
            exact ⟨rfl, tracks.releaseIndex (by simp [used]),
              coupled.release lower upper stored wellFormed get⟩
          · rw [stepped]
            exact storageStep_of_same (by simp) rfl
              (by simp [ClientIds.releaseIndex])

theorem insertPeer_refines
    (represents : Represents objects view)
    (id : Nat) (interface : Interface) (version : Nat)
    (context : Option Nat)
    (grants : Grants) :
    StepRefines objects view ⟨.insertPeer id interface version context, grants⟩
      none := by
  have represents' := represents
  obtain ⟨objectNamespace, tracker⟩ := view
  obtain ⟨rfl, tracks, coupled⟩ := represents
  by_cases range : id < serverIdStart
  · refine represents'.unchanged_refines (.error .invalidPeerId)
      (by simp) ?_ ?_
    · simp [step, insertPeer, range, Except.map]
    · simp [ClientView.step, ClientView.insertPeer, range, Except.map]
  · cases inserted : objects.objectNamespace.insert id interface version context
        grants.table with
    | error cause =>
        refine represents'.unchanged_refines (.error cause)
          (by simp) ?_ ?_
        · simp [step, insertPeer, range, inserted, Except.map]
        · simp [ClientView.step, ClientView.insertPeer, range, inserted,
            Except.map]
    | ok pair =>
        obtain ⟨handle, objectNamespace⟩ := pair
        obtain ⟨wellFormed, _, _, get⟩ :=
          Namespace.insert_spec coupled.wellFormed inserted
        have stepped : objects.step
            ⟨.insertPeer id interface version context, grants⟩ =
              (.ok (.peer handle), { objects with objectNamespace }) := by
          simp [step, insertPeer, range, inserted, Except.map]
        have viewed : ClientView.step ⟨objects.objectNamespace, tracker⟩ none
            ⟨.insertPeer id interface version context, grants⟩ =
              (.ok (.peer handle), ⟨objectNamespace, tracker⟩) := by
          simp [ClientView.step, ClientView.insertPeer, range, inserted,
            Except.map]
        refine ⟨?_, ?_, ?_⟩
        · rw [stepped, viewed]
        · rw [stepped, viewed]
          exact ⟨rfl, tracks,
            coupled.peer (Nat.le_of_not_lt range)
              (fun same => by cases Option.some.inj same; rfl) wellFormed get⟩
        · rw [stepped]
          exact storageStep_of_same (by simp) rfl rfl

theorem removePeer_refines
    (represents : Represents objects view)
    (handle : Handle)
    (grants : Grants) :
    StepRefines objects view ⟨.removePeer handle, grants⟩ none := by
  have represents' := represents
  obtain ⟨objectNamespace, tracker⟩ := view
  obtain ⟨rfl, tracks, coupled⟩ := represents
  by_cases range : handle.id < serverIdStart
  · refine represents'.unchanged_refines (.error .invalidPeerId)
      (by simp) ?_ ?_
    · simp [step, removePeer, range, Except.map]
    · simp [ClientView.step, ClientView.removePeer, range, Except.map]
  · have spec := Namespace.remove_spec coupled.wellFormed handle
    cases removed : objects.objectNamespace.remove handle with
    | none =>
        refine represents'.unchanged_refines (.error .staleHandle)
          (by simp) ?_ ?_
        · simp [step, removePeer, range, removed, Except.map]
        · simp [ClientView.step, ClientView.removePeer, range, removed,
            Except.map]
    | some pair =>
        obtain ⟨object, objectNamespace⟩ := pair
        rw [removed] at spec
        obtain ⟨_, wellFormed, get⟩ := spec
        have stepped : objects.step ⟨.removePeer handle, grants⟩ =
            (.ok (.object object), { objects with objectNamespace }) := by
          simp [step, removePeer, range, removed, Except.map]
        have viewed : ClientView.step ⟨objects.objectNamespace, tracker⟩ none
            ⟨.removePeer handle, grants⟩ =
              (.ok (.object object), ⟨objectNamespace, tracker⟩) := by
          simp [ClientView.step, ClientView.removePeer, range, removed,
            Except.map]
        refine ⟨?_, ?_, ?_⟩
        · rw [stepped, viewed]
        · rw [stepped, viewed]
          exact ⟨rfl, tracks,
            coupled.peer (Nat.le_of_not_lt range) (fun same => by cases same)
              wellFormed get⟩
        · rw [stepped]
          exact storageStep_of_same (by simp) rfl rfl

/-- Every call of the objects refines a call of the view. -/
theorem step_refines
    (represents : Represents objects view)
    (call : Call) :
    ∃ storage, StepRefines objects view call storage := by
  obtain ⟨operation, grants⟩ := call
  cases operation with
  | createLocal interface version context =>
      exact represents.createLocal_refines interface version context grants
  | cancelLocal handle =>
      exact ⟨none, represents.cancelLocal_refines handle grants⟩
  | retireLocal handle =>
      exact ⟨none, represents.retireLocal_refines handle grants⟩
  | deleted id => exact ⟨none, represents.deleted_refines id grants⟩
  | insertPeer id interface version context =>
      exact ⟨none,
        represents.insertPeer_refines id interface version context grants⟩
  | removePeer handle =>
      exact ⟨none, represents.removePeer_refines handle grants⟩

end Represents
end ClientObjects
end Wayring
