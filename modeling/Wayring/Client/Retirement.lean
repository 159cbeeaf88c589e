import Wayring.Client.Constructors
import Wayring.Protocol

/-!
# Requests that destroy their object

A request is queued as a whole or not at all, and its object is destroyed only
after that, which cannot fail.
-/

namespace Wayring

/-! ## The objects of a connection -/

namespace ClientObjects

/-- The objects of a new connection.  The first is wl_display
(`Connection.attach`). -/
inductive Attached : ClientObjects → Prop
  | bounded
      {maxObjects maxClientIds : Nat} {context : Option Nat} {grants : Grants}
      {objects : ClientObjects}
      (result : init maxObjects maxClientIds wlDisplay context grants =
        .ok objects) : Attached objects
  | growable
      {initialObjects initialClientIds : Nat} {context : Option Nat}
      {grants : Grants} {objects : ClientObjects}
      (result : initGrowable initialObjects initialClientIds wlDisplay context
        grants = .ok objects) : Attached objects

/-- The namespace and the tracker agree, and object 1 is the display. -/
structure Sound (objects : ClientObjects) : Prop where
  represents : ∃ view, Represents objects view
  display : ∀ {object},
    objects.objectNamespace.table.get displayId = some object →
      object.interface = wlDisplay

/-- An object of the client waits for its `delete_id`, and one of the server is
forgotten.  No other object changes. -/
structure Retired
    (before after : ClientObjects)
    (handle : Handle) : Prop where
  others : ∀ other : Handle, other.id ≠ handle.id →
    after.objectNamespace.resolve other = before.objectNamespace.resolve other
  own : handle.id < serverIdStart →
    before.Live handle.id ∧ before.ids.status handle.id = .active ∧
      after.Tombstone handle.id ∧
      after.ids.status handle.id = .awaitingDelete
  peer : serverIdStart ≤ handle.id →
    before.Live handle.id ∧ after.Absent handle.id ∧ after.ids = before.ids

variable {objects after : ClientObjects} {handle : Handle} {object : Object}

/-- The last step of both constructors. -/
theorem display_created
    {objectNamespace : Namespace} {context : Option Nat} {ids : ClientIds}
    (wellFormed : objectNamespace.table.WellFormed)
    (result : (do
        let (_, objectNamespace) ←
          objectNamespace.insert displayId wlDisplay 1 context false
        .ok { objectNamespace, ids } : Except Error ClientObjects) =
      .ok objects)
    (stored : objects.objectNamespace.table.get displayId = some object) :
    object.interface = wlDisplay := by
  cases inserted : objectNamespace.insert displayId wlDisplay 1 context
      false with
  | error cause =>
      rw [inserted] at result
      cases result
  | ok pair =>
      rw [inserted] at result
      cases result
      obtain ⟨_, _, _, get⟩ := Namespace.insert_spec wellFormed inserted
      rw [get, if_pos rfl] at stored
      cases stored
      rfl

/-- The first object of a new connection is the display. -/
theorem Attached.display
    (attached : Attached objects)
    (stored : objects.objectNamespace.table.get displayId = some object) :
    object.interface = wlDisplay := by
  cases attached with
  | @bounded maxObjects maxClientIds context grants _ result =>
      unfold init at result
      cases table : Namespace.init maxObjects grants.table with
      | error cause => rw [table] at result; cases result
      | ok objectNamespace =>
          cases entries : ClientIds.init maxClientIds grants.ids with
          | error cause => rw [table, entries] at result; cases result
          | ok ids =>
              rw [table, entries] at result
              exact display_created (Namespace.init_spec table).1 result stored
  | @growable initialObjects initialClientIds context grants _ result =>
      unfold initGrowable at result
      cases table : Namespace.initGrowable initialObjects grants.table with
      | error cause => rw [table] at result; cases result
      | ok objectNamespace =>
          cases entries : ClientIds.initGrowable initialClientIds grants.ids with
          | error cause => rw [table, entries] at result; cases result
          | ok ids =>
              rw [table, entries] at result
              exact display_created (Namespace.initGrowable_spec table).1 result
                stored

/-- A new connection is sound. -/
theorem Attached.sound (attached : Attached objects) : objects.Sound where
  represents := by
    cases attached with
    | bounded result => exact ⟨_, (Created.bounded result).represents⟩
    | growable result => exact ⟨_, (Created.growable result).represents⟩
  display := attached.display

end ClientObjects

namespace ClientView

/-- What a removal leaves of the display. -/
theorem remove_display
    {view : ClientView} {handle : Handle} {object : Object}
    {objects : Namespace}
    (coupled : view.Coupled)
    (removed : view.objectNamespace.remove handle = some (object, objects)) :
    objects.table.get displayId = view.objectNamespace.table.get displayId ∨
      objects.table.get displayId = none := by
  have spec := Namespace.remove_spec coupled.wellFormed handle
  rw [removed] at spec
  rw [spec.2.2]
  split_ifs
  · exact Or.inr rfl
  · exact Or.inl rfl

/-- An insertion under another ID leaves the display. -/
theorem insert_display
    {view : ClientView} {id version : Nat} {interface : Interface}
    {context : Option Nat} {granted : Bool} {handle : Handle}
    {objects : Namespace}
    (coupled : view.Coupled)
    (inserted : view.objectNamespace.insert id interface version context
      granted = .ok (handle, objects))
    (other : id ≠ displayId) :
    objects.table.get displayId =
      view.objectNamespace.table.get displayId := by
  obtain ⟨_, _, _, get⟩ := Namespace.insert_spec coupled.wellFormed inserted
  rw [get, if_neg (Ne.symm other)]

/-- A call keeps the display as it is, or takes it out. -/
theorem step_display
    {view : ClientView}
    (coupled : view.Coupled)
    (storage : Option Error)
    (call : ClientObjects.Call) :
    (view.step storage call).2.objectNamespace.table.get displayId =
        view.objectNamespace.table.get displayId ∨
      (view.step storage call).2.objectNamespace.table.get displayId =
        none := by
  obtain ⟨operation, grants⟩ := call
  cases operation with
  | createLocal interface version context =>
      simp only [step, createLocal]
      split
      · exact Or.inl rfl
      · split
        · exact Or.inl rfl
        · refine Or.inl (insert_display coupled (by assumption) ?_)
          simp [displayId]
  | cancelLocal handle =>
      simp only [step, cancelLocal]
      split_ifs
      · exact Or.inl rfl
      · split
        · exact Or.inl rfl
        · split_ifs
          · exact Or.inl rfl
          · split
            · exact Or.inl rfl
            · exact remove_display coupled (by assumption)
  | retireLocal handle =>
      simp only [step, retireLocal]
      split_ifs with outside
      · exact Or.inl rfl
      · split
        · exact Or.inl rfl
        · split_ifs
          · exact Or.inl rfl
          · left
            rw [(Namespace.markDestroyed_spec coupled.wellFormed handle.id).2,
              if_neg]
            have display : displayId = 1 := rfl
            omega
  | deleted id =>
      simp only [step, deleted]
      split
      · exact Or.inl rfl
      · split
        · exact Or.inl rfl
        · split_ifs
          · exact Or.inl rfl
          · split
            · exact Or.inl rfl
            · exact remove_display coupled (by assumption)
  | insertPeer id interface version context =>
      simp only [step, insertPeer]
      split_ifs with range
      · exact Or.inl rfl
      · split
        · exact Or.inl rfl
        · refine Or.inl (insert_display coupled (by assumption) ?_)
          have display : displayId < serverIdStart := by decide
          omega
  | removePeer handle =>
      simp only [step, removePeer]
      split_ifs
      · exact Or.inl rfl
      · split
        · exact Or.inl rfl
        · exact remove_display coupled (by assumption)

end ClientView

namespace ClientObjects

variable {objects after : ClientObjects} {handle : Handle} {object : Object}

/-- Calls keep a connection sound. -/
theorem Sound.step
    (sound : objects.Sound)
    (call : Call) : (objects.step call).2.Sound := by
  obtain ⟨view, represents⟩ := sound.represents
  obtain ⟨storage, refines⟩ := represents.step_refines call
  refine ⟨⟨_, refines.represents⟩, fun stored => ?_⟩
  rw [← refines.represents.objectNamespace_eq] at stored
  rcases ClientView.step_display represents.coupled storage call with
    same | gone
  · rw [same, represents.objectNamespace_eq] at stored
    exact sound.display stored
  · cases gone.symm.trans stored

/-- Runs keep a connection sound. -/
theorem Sound.run
    (sound : objects.Sound)
    (calls : List Call) : (objects.run calls).2.Sound := by
  induction calls generalizing objects with
  | nil => exact sound
  | cons call calls inductionHypothesis =>
      exact inductionHypothesis (sound.step call)

end ClientObjects

namespace Client

open ClientObjects (Retired)

variable {objects : ClientObjects} {handle : Handle} {object : Object}

/-- An object that is there can be destroyed, if it is not the display. -/
theorem retire_spec
    (sound : objects.Sound)
    (found : objects.objectNamespace.resolve handle = some object)
    (live : object.destroyed = false)
    (notDisplay : object.interface ≠ wlDisplay) :
    ∃ after, retire objects handle = .ok after ∧ after.Sound ∧
      Retired objects after handle := by
  obtain ⟨⟨objectNamespace, tracker⟩, represents⟩ := sound.represents
  have statuses := @ClientObjects.Represents.status_iff _ _ represents handle.id
  obtain ⟨rfl, tracks, coupled⟩ := represents
  have stored := Table.get_of_resolve found
  have isLive : objects.Live handle.id := ⟨object, stored, live⟩
  by_cases own : handle.id < serverIdStart
  · have notFirst : handle.id ≠ displayId := by
      intro isDisplay
      rw [isDisplay] at stored
      exact notDisplay (sound.display stored)
    have lower : 2 ≤ handle.id := by
      have positive : handle.id ≠ 0 := by
        intro zero
        rw [zero] at stored
        cases stored
      unfold displayId at notFirst
      omega
    have used := coupled.standing_of_get lower own stored
    rw [live, if_neg Bool.false_ne_true] at used
    obtain ⟨ids, retired, idsTracks, _⟩ := tracks.retire_spec used
    rw [Nat.sub_add_cancel lower] at retired
    obtain ⟨_, get⟩ :=
      Namespace.markDestroyed_spec coupled.wellFormed handle.id
    have after : ClientObjects.Represents
        { objectNamespace := objects.objectNamespace.markDestroyed handle.id
          ids }
        { objectNamespace := objects.objectNamespace.markDestroyed handle.id
          tracker := tracker.retire (handle.id - 2) } :=
      ⟨rfl, idsTracks, coupled.retireLocal lower own stored⟩
    have tombstone : ClientObjects.Tombstone
        { objectNamespace := objects.objectNamespace.markDestroyed handle.id
          ids } handle.id := by
      refine ⟨{ object with destroyed := true }, ?_, rfl⟩
      rw [get, if_pos rfl, stored]
      rfl
    refine ⟨_, ?_, ⟨⟨_, after⟩, fun display => ?_⟩,
      { others := fun other apart => ?_
        own := fun _ => ?_
        peer := fun isPeer => absurd own (Nat.not_lt.mpr isPeer) }⟩
    · simp only [retire, if_pos own, ClientObjects.retireLocal,
        if_neg (show ¬(handle.id < 2 ∨ handle.id ≥ serverIdStart) by omega),
        found, live, Bool.false_eq_true, if_false, retired]
    · rw [get, if_neg (Ne.symm notFirst)] at display
      exact sound.display display
    · exact Namespace.markDestroyed_resolve coupled.wellFormed apart
    · exact ⟨isLive, (statuses lower own).1.mp isLive, tombstone,
        (after.status_iff lower own).2.1.mp tombstone⟩
  · have spec := Namespace.remove_spec coupled.wellFormed handle
    cases removed : objects.objectNamespace.remove handle with
    | none =>
        rw [removed] at spec
        cases spec.symm.trans found
    | some pair =>
        obtain ⟨content, objectNamespace⟩ := pair
        rw [removed] at spec
        obtain ⟨_, wellFormed, get⟩ := spec
        have upper := Nat.le_of_not_lt own
        refine ⟨{ objects with objectNamespace }, ?_,
          ⟨⟨{ objectNamespace, tracker }, rfl, tracks,
            coupled.peer upper (fun same => by cases same) wellFormed get⟩,
            fun display => ?_⟩,
          { others := fun other apart => ?_
            own := fun isOwn => absurd isOwn own
            peer := fun _ => ⟨isLive, ?_, rfl⟩ }⟩
        · simp only [retire, if_neg own, ClientObjects.removePeer, removed]
        · rw [get] at display
          split_ifs at display
          exact sound.display display
        · exact Namespace.remove_resolve coupled.wellFormed removed apart
        · rw [ClientObjects.Absent, get, if_pos rfl]

/-! ## Sending a request -/

/-- The request is a destructor of an object. -/
def Request.destroys (request : Request) (object : Object) : Bool :=
  match object.interface.request request.opcode object.version with
  | .error _ => false
  | .ok message => message.destructor

namespace Connection

/-- The transmit queue has some bytes and descriptors. -/
def Queues
    (connection : Connection)
    (bytes : List UInt8)
    (fds : List Fd) : Prop :=
  connection.storage.WellFormed ∧ ∃ chain fdChain,
    connection.queue.Stores connection.storage bytes fds chain fdChain

/-- A request failed and nothing happened, or it is queued as a whole and its
object was destroyed if the request does that. -/
def Sends
    [Native]
    (connection : Connection)
    (bytes : List UInt8)
    (fds : List Fd)
    (request : Request)
    (handle : Handle)
    (payload : Codec.Payload request.signature)
    (outcome : Except Fault (Except Error Unit × Connection)) : Prop :=
  ∃ result after, outcome = .ok (result, after) ∧
    match result with
    | .error _ => after.objects = connection.objects ∧
        after.queue = connection.queue ∧ after.Queues bytes fds
    | .ok _ => ∃ object text,
        connection.objects.objectNamespace.resolve handle = some object ∧
          object.interface = request.interface ∧
          Codec.message request.signature request.opcode
            (UInt32.ofNat handle.id) payload = .ok text ∧
          after.Queues (bytes ++ text)
            (fds ++ Codec.Payload.fds request.signature payload) ∧
          if request.destroys object then
            Retired connection.objects after.objects handle
          else after.objects = connection.objects

end Connection

/-- A request is sent as a whole, with the end of its object, or nothing is
done. -/
theorem sendRequest_spec
    [Native]
    {connection : Connection} {bytes : List UInt8} {fds : List Fd}
    (sound : connection.objects.Sound)
    (queues : connection.Queues bytes fds)
    (request : Request)
    (handle : Handle)
    (payload : Codec.Payload request.signature)
    (room : Tx.Room) :
    connection.Sends bytes fds request handle payload
      (sendRequest request connection handle payload room) := by
  obtain ⟨wellFormed, chain, fdChain, stores⟩ := queues
  obtain ⟨objects, queue, storage⟩ := connection
  have unchanged : Connection.Queues { objects, queue, storage } bytes fds :=
    ⟨wellFormed, chain, fdChain, stores⟩
  simp only [sendRequest]
  cases found : objects.objectNamespace.resolve handle with
  | none => exact ⟨_, _, rfl, rfl, rfl, unchanged⟩
  | some object =>
  simp only
  cases live : object.destroyed with
  | true => exact ⟨_, _, rfl, rfl, rfl, unchanged⟩
  | false =>
  rw [if_neg Bool.false_ne_true]
  by_cases foreign : object.interface ≠ request.interface
  · rw [if_pos foreign]
    exact ⟨_, _, rfl, rfl, rfl, unchanged⟩
  rw [if_neg foreign]
  cases described : object.interface.request request.opcode object.version with
  | error cause => exact ⟨_, _, rfl, rfl, rfl, unchanged⟩
  | ok message =>
  have destroys : request.destroys object = message.destructor := by
    simp only [Request.destroys, described]
  simp only
  cases Codec.validateObjects (.request objects.objectNamespace.get)
      request.signature payload with
  | error cause => exact ⟨_, _, rfl, rfl, rfl, unchanged⟩
  | ok _ =>
  have sent := @Codec.encode_whole _ _ _ _ _ _ _ request.signature
    request.opcode (UInt32.ofNat handle.id) payload room stores wellFormed
  simp only at sent ⊢
  generalize Codec.encode request.signature request.opcode queue storage
    (UInt32.ofNat handle.id) payload room = outcome at sent ⊢
  obtain ⟨result, queueNow, storageNow⟩ := outcome
  cases result with
  | error cause =>
      obtain ⟨wellFormedNow, rfl, storesNow⟩ := sent
      exact ⟨_, _, rfl, rfl, rfl, wellFormedNow, _, _, storesNow⟩
  | ok _ =>
  obtain ⟨wellFormedNow, text, chainNow, fdChainNow, framed, storesNow⟩ := sent
  by_cases lasts : message.destructor = false
  · simp only [lasts, Bool.false_eq_true, if_false]
    refine ⟨_, _, rfl, object, text, found, not_not.mp foreign, framed,
      ⟨wellFormedNow, _, _, storesNow⟩, ?_⟩
    rw [destroys, lasts, if_neg Bool.false_ne_true]
  · have destructor : message.destructor = true := by simpa using lasts
    have notDisplay : object.interface ≠ wlDisplay := by
      intro isDisplay
      rw [isDisplay] at described
      exact lasts (wlDisplay_request described)
    obtain ⟨after, retired, _, gone⟩ :=
      retire_spec sound found live notDisplay
    simp only [destructor, if_true, retired, Bind.bind, Except.bind]
    refine ⟨_, _, rfl, object, text, found, not_not.mp foreign, framed,
      ⟨wellFormedNow, _, _, storesNow⟩, ?_⟩
    rw [destroys, destructor, if_pos rfl]
    exact gone

/-- A request waits for an unfinished reservation. -/
theorem sendRequest_unsettled
    [Native]
    {connection : Connection}
    (unsettled : connection.queue.reservationActive = true)
    (request : Request)
    (handle : Handle)
    (payload : Codec.Payload request.signature)
    (room : Tx.Room) :
    ∃ cause, sendRequest request connection handle payload room =
      .ok (.error cause, connection) := by
  obtain ⟨objects, queue, storage⟩ := connection
  simp only [sendRequest]
  cases objects.objectNamespace.resolve handle with
  | none => exact ⟨_, rfl⟩
  | some object =>
  dsimp only
  by_cases gone : object.destroyed = true
  · rw [if_pos gone]
    exact ⟨_, rfl⟩
  rw [if_neg gone]
  by_cases foreign : object.interface ≠ request.interface
  · rw [if_pos foreign]
    exact ⟨_, rfl⟩
  rw [if_neg foreign]
  cases object.interface.request request.opcode object.version with
  | error cause => exact ⟨_, rfl⟩
  | ok message =>
  dsimp only
  cases Codec.validateObjects (.request objects.objectNamespace.get)
      request.signature payload with
  | error cause => exact ⟨_, rfl⟩
  | ok _ =>
      obtain ⟨cause, refused⟩ := @Codec.encode_unsettled _ queue storage
        request.signature request.opcode (UInt32.ofNat handle.id) payload room
        unsettled
      simp only [refused]
      exact ⟨cause, rfl⟩

namespace Connection

/-- Every request of the connection is atomic, whatever is queued. -/
structure Destroys
    [Native]
    (connection : Connection) : Prop where
  atomic : ∀ bytes fds request handle payload room,
    connection.Queues bytes fds →
      connection.Sends bytes fds request handle payload
        (sendRequest request connection handle payload room)
  waits : connection.queue.reservationActive = true →
    ∀ request handle payload room, ∃ cause,
      sendRequest request connection handle payload room =
        .ok (.error cause, connection)

/-- A sound connection destroys its objects as a whole. -/
theorem destroys
    [Native]
    {connection : Connection}
    (sound : connection.objects.Sound) : connection.Destroys where
  atomic _ _ request handle payload room queues :=
    sendRequest_spec sound queues request handle payload room
  waits unsettled request handle payload room :=
    sendRequest_unsettled unsettled request handle payload room

end Connection

end Client
end Wayring
