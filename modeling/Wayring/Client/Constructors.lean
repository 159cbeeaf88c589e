import Wayring.Client.Requests

/-!
# Client constructors

A generated constructor creates the new objects of a request, each at the
version of its parent as far as its interface goes, and then sends the
request.  A failure cancels the objects again, newest first.
-/

namespace Wayring
namespace Client

open Codec (ArgumentType Signature Payload)

/-- A new object whose interface the request declares. -/
structure TypedNewObject where
  interface : Interface
  context : Option Nat

/-- A new object whose interface the application chooses. -/
structure NewObject where
  interface : Interface
  version : Nat
  context : Option Nat

/-- What a constructor takes for an argument. -/
def ConstructorField : ArgumentType → Type
  | .newId _ => TypedNewObject
  | .dynamicNewId => NewObject
  | type => type.Field

/-- The payload of a constructor. -/
def Constructor : Signature → Type
  | [] => Unit
  | type :: rest => ConstructorField type × Constructor rest

/-- An object to create. -/
inductive Creation
  | typed (interface : Interface) (context : Option Nat)
  | dynamic (interface : Interface) (version : Nat) (context : Option Nat)

/-- The interface of the new object. -/
def Creation.interface : Creation → Interface
  | typed interface _ => interface
  | dynamic interface _ _ => interface

/-- The context that is given to the new object. -/
def Creation.context : Creation → Option Nat
  | typed _ context => context
  | dynamic _ _ context => context

/-- The objects that a constructor creates.  For an interface of the same
protocol the generated metadata is used, and only the context is taken from
the payload. -/
def Constructor.creations
    (protocol : String → Option Interface) :
    (signature : Signature) → Constructor signature → List Creation
  | [], _ => []
  | .newId name :: rest, payload =>
      let specification : TypedNewObject := payload.1
      .typed ((protocol name).getD specification.interface)
          specification.context ::
        creations protocol rest payload.2
  | .dynamicNewId :: rest, payload =>
      let specification : NewObject := payload.1
      .dynamic specification.interface specification.version
          specification.context ::
        creations protocol rest payload.2
  | _ :: rest, payload => creations protocol rest payload.2

/-- Whether every interface of another protocol has the declared name. -/
def Constructor.declared
    (protocol : String → Option Interface) :
    (signature : Signature) → Constructor signature → Bool
  | [], _ => true
  | .newId name :: rest, payload =>
      let specification : TypedNewObject := payload.1
      ((protocol name).isSome || specification.interface.name == name) &&
        declared protocol rest payload.2
  | _ :: rest, payload => declared protocol rest payload.2

/-- The request for some new objects. -/
def Constructor.payload :
    (signature : Signature) → Constructor signature → List Handle →
      Payload signature
  | [], _, _ => ()
  | .newId _ :: rest, constructor, handles =>
      (UInt32.ofNat (handles.headD ⟨0, 0⟩).id,
        payload rest constructor.2 handles.tail)
  | .dynamicNewId :: rest, constructor, handles =>
      let specification : NewObject := constructor.1
      (({ interface := specification.interface.name.toUTF8.toList
          version := UInt32.ofNat specification.version
          id := UInt32.ofNat (handles.headD ⟨0, 0⟩).id } : Codec.DynamicNewId),
        payload rest constructor.2 handles.tail)
  | .int :: rest, constructor, handles =>
      (constructor.1, payload rest constructor.2 handles)
  | .uint :: rest, constructor, handles =>
      (constructor.1, payload rest constructor.2 handles)
  | .fixed :: rest, constructor, handles =>
      (constructor.1, payload rest constructor.2 handles)
  | .enumeration _ :: rest, constructor, handles =>
      (constructor.1, payload rest constructor.2 handles)
  | .string _ :: rest, constructor, handles =>
      (constructor.1, payload rest constructor.2 handles)
  | .object _ _ :: rest, constructor, handles =>
      (constructor.1, payload rest constructor.2 handles)
  | .array _ :: rest, constructor, handles =>
      (constructor.1, payload rest constructor.2 handles)
  | .fd :: rest, constructor, handles =>
      (constructor.1, payload rest constructor.2 handles)

/-- The version of a new object.  A typed object reads its parent's through
the pointer that the constructor started with. -/
def Creation.version
    (objects : Namespace)
    (parent : ObjectPointer) : Creation → Except Fault Nat
  | typed interface _ =>
      match objects.read parent with
      | none => .error .stalePointer
      | some object => .ok (min object.version interface.version)
  | dynamic _ version _ => .ok version

/-- Create objects in order.  `handles` are those created so far, newest
first. -/
def createLocals
    (parent : ObjectPointer)
    (grants : Nat → Grants) :
    List Creation → List Handle → ClientObjects →
      Except Fault (Except Error Unit × List Handle × ClientObjects)
  | [], handles, objects => .ok (.ok (), handles, objects)
  | creation :: rest, handles, objects =>
      match creation.version objects.objectNamespace parent with
      | .error fault => .error fault
      | .ok version =>
          match objects.createLocal creation.interface version creation.context
              (grants handles.length) with
          | (.error cause, objects) => .ok (.error cause, handles, objects)
          | (.ok handle, objects) =>
              createLocals parent grants rest (handle :: handles) objects

/-- Cancel objects in order.  A failure is marked unreachable. -/
def cancelLocals :
    List Handle → ClientObjects → Except Fault ClientObjects
  | [], objects => .ok objects
  | handle :: handles, objects =>
      match objects.cancelLocal handle with
      | (.error _, _) => .error .unreachable
      | (.ok _, objects) => cancelLocals handles objects

/-- Undo a construction that failed. -/
def cancel
    (connection : Connection)
    (handles : List Handle)
    (cause : Error) : Except Fault (Except Error (List Handle) × Connection) := do
  let objects ← cancelLocals handles connection.objects
  .ok (.error cause, { connection with objects })

/-- Send the request for some new objects, newest first, if all of them are
there.  Otherwise, or when it cannot be sent, cancel them. -/
def sendConstructed
    [Native]
    (request : Request)
    (connection : Connection)
    (parent : Handle)
    (payload : Constructor request.signature)
    (result : Except Error Unit)
    (handles : List Handle)
    (room : Tx.Room) : Except Fault (Except Error (List Handle) × Connection) :=
  match result with
  | .error cause => cancel connection handles cause
  | .ok _ =>
      match sendRequest request connection parent
          (Constructor.payload request.signature payload handles.reverse)
          room with
      | .error fault => .error fault
      | .ok (.error cause, connection) => cancel connection handles cause
      | .ok (.ok _, connection) => .ok (.ok handles.reverse, connection)

/-- Create the new objects of a request and send it. -/
def construct
    [Native]
    (protocol : String → Option Interface)
    (request : Request)
    (connection : Connection)
    (parent : Handle)
    (payload : Constructor request.signature)
    (grants : Nat → Grants)
    (room : Tx.Room) : Except Fault (Except Error (List Handle) × Connection) :=
  match connection.objects.objectNamespace.pointer parent with
  | none => .ok (.error .staleHandle, connection)
  | some pointer =>
      match connection.objects.objectNamespace.read pointer with
      | none => .error .stalePointer
      | some object =>
          if object.interface ≠ request.interface then
            .ok (.error .wrongInterface, connection)
          else if !Constructor.declared protocol request.signature payload then
            .ok (.error .wrongInterface, connection)
          else
            match createLocals pointer grants
                (Constructor.creations protocol request.signature payload) []
                connection.objects with
            | .error fault => .error fault
            | .ok (result, handles, objects) =>
                sendConstructed request { connection with objects } parent
                  payload result handles room

/-! ## Created objects -/

/-- The version that an object should get. -/
def Creation.negotiated (parentVersion : Nat) : Creation → Nat
  | typed interface _ => min parentVersion interface.version
  | dynamic _ version _ => version

/-- Whether objects can be created in order at the versions they should get,
the first one with a given answer of the allocator. -/
def creates
    (parentVersion : Nat)
    (grants : Nat → Grants) : List Creation → Nat → ClientObjects → Bool
  | [], _, _ => true
  | creation :: rest, made, objects =>
      match objects.createLocal creation.interface
          (creation.negotiated parentVersion) creation.context
          (grants made) with
      | (.error _, _) => false
      | (.ok _, objects) =>
          creates parentVersion grants rest (made + 1) objects

/-- An object is there as it should be. -/
def Creation.Made
    (objects : Namespace)
    (parentVersion : Nat)
    (creation : Creation)
    (handle : Handle) : Prop :=
  ∃ child, objects.table.get handle.id = some child ∧
    child.interface = creation.interface ∧
    child.version = creation.negotiated parentVersion

/-- A typed object that is created behind some others. -/
def TypedAt (creations : List Creation) (position : Nat) : Prop :=
  ∃ interface context, creations[position]? = some (.typed interface context)

/-- The first creation is of a typed object. -/
theorem typedAt_zero
    {creation : Creation} {rest : List Creation} :
    TypedAt (creation :: rest) 0 ↔
      ∃ interface context, creation = .typed interface context := by
  simp [TypedAt]

/-- Later creations are those of the rest. -/
theorem typedAt_succ
    {creation : Creation} {rest : List Creation} {position : Nat} :
    TypedAt (creation :: rest) (position + 1) ↔ TypedAt rest position := by
  simp [TypedAt]

variable {objects after : ClientObjects} {handle : Handle}
  {parent : ObjectPointer} {object : Object} {grants : Nat → Grants}

/-- A created object is found under its handle. -/
theorem createLocal_made
    {interface : Interface} {version : Nat} {context : Option Nat}
    {granted : Grants}
    (wellFormed : objects.objectNamespace.table.WellFormed)
    (created : objects.createLocal interface version context granted =
      (.ok handle, after)) :
    after.objectNamespace.table.WellFormed ∧
      Table.Kept objects.objectNamespace.table after.objectNamespace.table ∧
      objects.objectNamespace.table.get handle.id = none ∧
      ∀ other, after.objectNamespace.table.get other =
        if other = handle.id then some { interface, version, context }
        else objects.objectNamespace.table.get other := by
  unfold ClientObjects.createLocal at created
  cases taken : objects.ids.acquire granted.ids with
  | error cause => simp [taken] at created
  | ok pair =>
      obtain ⟨id, ids⟩ := pair
      simp only [taken] at created
      cases inserted : objects.objectNamespace.insert id interface version
          context granted.table with
      | error cause =>
          simp only [inserted] at created
          split at created <;> simp at created
      | ok pair =>
          obtain ⟨placed, objectNamespace⟩ := pair
          simp only [inserted] at created
          cases created
          obtain ⟨wellFormedNow, rfl, absent, get⟩ :=
            Namespace.insert_spec wellFormed inserted
          exact ⟨wellFormedNow, Namespace.insert_kept wellFormed inserted,
            absent, get⟩

/-- What was made stays made while its entries do. -/
theorem made_frame
    {first second : Namespace} {parentVersion : Nat}
    {creations : List Creation} {handles : List Handle}
    (made : List.Forall₂ (Creation.Made first parentVersion) creations handles)
    (same : ∀ handle ∈ handles,
      second.table.get handle.id = first.table.get handle.id) :
    List.Forall₂ (Creation.Made second parentVersion) creations handles := by
  induction made with
  | nil => exact .nil
  | @cons creation handle creations handles found _ frame_ih =>
      obtain ⟨child, stored, fields⟩ := found
      refine .cons ⟨child, ?_, fields⟩
        (frame_ih fun other member => same other (.tail _ member))
      rw [same handle (.head _), stored]

/-- The pointer of a constructor is good, or its storage is gone. -/
structure Points
    (objects : ClientObjects)
    (parent : ObjectPointer)
    (object : Object) : Prop where
  wellFormed : objects.objectNamespace.table.WellFormed
  storage_le : parent.storage ≤ objects.objectNamespace.table.maxEntries
  reads : parent.storage = objects.objectNamespace.table.maxEntries →
    objects.objectNamespace.read parent = some object

/-- The version of a new object comes from the one of its parent. -/
theorem Points.version
    (points : Points objects parent object)
    (creation : Creation) :
    (TypedAt [creation] 0 →
        parent.storage = objects.objectNamespace.table.maxEntries) ∧
      creation.version objects.objectNamespace parent =
        .ok (creation.negotiated object.version) ∨
      parent.storage ≠ objects.objectNamespace.table.maxEntries ∧
        TypedAt [creation] 0 ∧
        creation.version objects.objectNamespace parent =
          .error .stalePointer := by
  cases creation with
  | dynamic interface version context =>
      exact Or.inl ⟨fun typed => by simp [TypedAt] at typed, rfl⟩
  | typed interface context =>
      by_cases good : parent.storage = objects.objectNamespace.table.maxEntries
      · refine Or.inl ⟨fun _ => good, ?_⟩
        simp only [Creation.version, points.reads good, Creation.negotiated]
      · refine Or.inr ⟨good, ⟨interface, context, rfl⟩, ?_⟩
        simp [Creation.version, Namespace.read, good]

/-- A pointer goes on pointing to the parent. -/
theorem Points.created
    {interface : Interface} {version : Nat} {context : Option Nat}
    {granted : Grants}
    (points : Points objects parent object)
    (created : objects.createLocal interface version context granted =
      (.ok handle, after)) : Points after parent object := by
  obtain ⟨wellFormed, kept, _⟩ := createLocal_made points.wellFormed created
  have lower := points.storage_le
  refine ⟨wellFormed, ?_, fun same => ?_⟩
  · rcases kept.capacity with ⟨_, unchanged, _⟩ | ⟨_, _, larger⟩ <;> omega
  · rcases kept.capacity with ⟨room, unchanged, _⟩ | ⟨_, _, larger⟩
    · exact Namespace.read_kept kept room
        (points.reads (same.trans unchanged))
    · omega

/-- A typed object is created with the storage of its parent gone. -/
def Outrun
    (objects : ClientObjects)
    (parent : ObjectPointer)
    (parentVersion : Nat)
    (grants : Nat → Grants)
    (creations : List Creation)
    (made : Nat) : Prop :=
  ∃ position, TypedAt creations position ∧
    creates parentVersion grants (creations.take position) made objects =
      true ∧
    (parent.storage ≠ objects.objectNamespace.table.maxEntries ∨
      objects.objectNamespace.table.maxEntries <
        objects.objectNamespace.table.count + position)

/-- A creation that fails outruns no pointer. -/
theorem outrun_refused
    {creation : Creation} {rest : List Creation} {made parentVersion : Nat}
    {cause : Error}
    (points : Points objects parent object)
    (good : TypedAt [creation] 0 →
      parent.storage = objects.objectNamespace.table.maxEntries)
    (refused : objects.createLocal creation.interface
      (creation.negotiated parentVersion) creation.context (grants made) =
        (.error cause, after)) :
    ¬Outrun objects parent parentVersion grants (creation :: rest) made := by
  rintro ⟨position, typed, created, moved⟩
  cases position with
  | zero =>
      have same := good (typedAt_zero.mpr (typedAt_zero.mp typed))
      have full := points.wellFormed.count_le
      omega
  | succ position =>
      rw [List.take_succ_cons, creates, refused] at created
      cases created

/-- After a creation that succeeds, the pointer is outrun exactly if it is
outrun by the creations that are left. -/
theorem outrun_created
    {creation : Creation} {rest : List Creation} {made parentVersion : Nat}
    (points : Points objects parent object)
    (good : TypedAt [creation] 0 →
      parent.storage = objects.objectNamespace.table.maxEntries)
    (created : objects.createLocal creation.interface
      (creation.negotiated parentVersion) creation.context (grants made) =
        (.ok handle, after)) :
    Outrun objects parent parentVersion grants (creation :: rest) made ↔
      Outrun after parent parentVersion grants rest (made + 1) := by
  obtain ⟨_, kept, _⟩ := createLocal_made points.wellFormed created
  have full := points.wellFormed.count_le
  have lower := points.storage_le
  have count := kept.count
  have moved (position : Nat) :
      (parent.storage ≠ objects.objectNamespace.table.maxEntries ∨
        objects.objectNamespace.table.maxEntries <
          objects.objectNamespace.table.count + (position + 1)) ↔
      (parent.storage ≠ after.objectNamespace.table.maxEntries ∨
        after.objectNamespace.table.maxEntries <
          after.objectNamespace.table.count + position) := by
    rcases kept.capacity with ⟨_, unchanged, _⟩ | ⟨_, _, larger⟩ <;> omega
  constructor
  · rintro ⟨position, typed, creates, late⟩
    cases position with
    | zero =>
        have same := good (typedAt_zero.mpr (typedAt_zero.mp typed))
        omega
    | succ position =>
        rw [List.take_succ_cons, Client.creates, created] at creates
        exact ⟨position, typedAt_succ.mp typed, creates,
          (moved position).mp late⟩
  · rintro ⟨position, typed, creates, late⟩
    refine ⟨position + 1, typedAt_succ.mpr typed, ?_, (moved position).mpr late⟩
    rw [List.take_succ_cons, Client.creates, created]
    exact creates

/-- The constructor reads through its pointer too late exactly if a typed
object is created behind others that have moved the table. -/
theorem createLocals_stale_iff
    (points : Points objects parent object)
    (creations : List Creation)
    (handles : List Handle) :
    createLocals parent grants creations handles objects =
        .error .stalePointer ↔
      Outrun objects parent object.version grants creations handles.length := by
  induction creations generalizing objects handles with
  | nil => simp [createLocals, Outrun, TypedAt]
  | cons creation rest create_ih =>
      unfold createLocals
      rcases points.version creation with ⟨good, known⟩ | ⟨gone, typed, stale⟩
      · rw [known]
        simp only
        generalize created : objects.createLocal creation.interface
          (creation.negotiated object.version) creation.context
          (grants handles.length) = answer
        obtain ⟨result, after⟩ := answer
        cases result with
        | error cause =>
            simp only [reduceCtorEq, false_iff]
            exact outrun_refused points good created
        | ok handle =>
            rw [outrun_created points good created]
            exact create_ih (points.created created) (handle :: handles)
      · rw [stale]
        simp only [true_iff]
        exact ⟨0, typedAt_zero.mpr (typedAt_zero.mp typed), rfl, Or.inl gone⟩

/-- The objects that a constructor has created are there at their versions,
beside those that were there before. -/
theorem createLocals_made
    {creations : List Creation} {handles handlesNow : List Handle}
    (points : Points objects parent object)
    (created : createLocals parent grants creations handles objects =
      .ok (.ok (), handlesNow, after)) :
    Points after parent object ∧
      (∀ id child, objects.objectNamespace.table.get id = some child →
        after.objectNamespace.table.get id = some child) ∧
      ∃ new, handlesNow = new.reverse ++ handles ∧
        List.Forall₂ (Creation.Made after.objectNamespace object.version)
          creations new ∧
        ∀ handle ∈ new,
          objects.objectNamespace.table.get handle.id = none := by
  induction creations generalizing objects handles with
  | nil =>
      simp only [createLocals, Except.ok.injEq, Prod.mk.injEq, true_and]
        at created
      obtain ⟨rfl, rfl⟩ := created
      exact ⟨points, fun _ _ found => found, [], rfl, .nil,
        fun _ member => nomatch member⟩
  | cons creation rest create_ih =>
      unfold createLocals at created
      rcases points.version creation with ⟨_, known⟩ | ⟨_, _, stale⟩
      · rw [known] at created
        simp only at created
        generalize first : objects.createLocal creation.interface
          (creation.negotiated object.version) creation.context
          (grants handles.length) = answer at created
        obtain ⟨result, middle⟩ := answer
        cases result with
        | error cause => simp at created
        | ok handle =>
            obtain ⟨_, _, absent, get⟩ :=
              createLocal_made points.wellFormed first
            obtain ⟨pointsNow, kept, new, rfl, made, fresh⟩ :=
              create_ih (points.created first) created
            have keptFirst : ∀ id child,
                objects.objectNamespace.table.get id = some child →
                middle.objectNamespace.table.get id = some child := by
              intro id child found
              rw [get, if_neg, found]
              rintro rfl
              rw [absent] at found
              cases found
            have here : middle.objectNamespace.table.get handle.id =
                some { interface := creation.interface
                       version := creation.negotiated object.version
                       context := creation.context } := by
              rw [get, if_pos rfl]
            refine ⟨pointsNow,
              fun id child found => kept id child (keptFirst id child found),
              handle :: new, by simp,
              .cons ⟨_, kept _ _ here, rfl, rfl⟩ made, ?_⟩
            rintro other (_ | ⟨_, member⟩)
            · exact absent
            · have free := fresh other member
              rw [get] at free
              split_ifs at free
              exact free
      · rw [stale] at created
        cases created

/-! ## Sending -/

/-- Retiring an object leaves the others alone. -/
theorem retire_keeps
    (wellFormed : objects.objectNamespace.table.WellFormed)
    (retired : retire objects handle = .ok after)
    {id : Nat}
    (other : id ≠ handle.id) :
    after.objectNamespace.table.get id =
      objects.objectNamespace.table.get id := by
  unfold retire at retired
  by_cases own : handle.id < serverIdStart
  · rw [if_pos own] at retired
    unfold ClientObjects.retireLocal at retired
    split_ifs at retired with outside
    cases found : objects.objectNamespace.resolve handle with
    | none => simp [found] at retired
    | some object =>
        simp only [found] at retired
        split_ifs at retired with destroyed
        cases waiting : objects.ids.retire handle.id with
        | error cause => simp [waiting] at retired
        | ok ids =>
            simp only [waiting] at retired
            cases retired
            exact ((Namespace.markDestroyed_spec wellFormed handle.id).2
              id).trans (if_neg other)
  · rw [if_neg own] at retired
    unfold ClientObjects.removePeer at retired
    rw [if_neg own] at retired
    have spec := Namespace.remove_spec wellFormed handle
    cases removed : objects.objectNamespace.remove handle with
    | none => simp [removed] at retired
    | some pair =>
        rw [removed] at spec
        simp only [removed] at retired
        cases retired
        exact (spec.2.2 id).trans (if_neg other)

section Sending

variable [Native]

/-- Sending a request leaves objects alone that it does not destroy. -/
theorem sendRequest_keeps
    {request : Request} {connection sent : Connection} {parent : Handle}
    {payload : Codec.Payload request.signature} {room : Tx.Room}
    (wellFormed : connection.objects.objectNamespace.table.WellFormed)
    (done : sendRequest request connection parent payload room =
      .ok (.ok (), sent))
    {id : Nat}
    (other : id ≠ parent.id) :
    sent.objects.objectNamespace.table.get id =
      connection.objects.objectNamespace.table.get id := by
  unfold sendRequest at done
  simp only at done
  cases found : connection.objects.objectNamespace.resolve parent with
  | none => simp [found] at done
  | some object =>
      simp only [found] at done
      split_ifs at done with destroyed foreign
      · cases done
      · cases done
      · split at done
        · simp at done
        · split at done
          · simp at done
          · split at done
            · simp at done
            · split_ifs at done with destructor
              · cases retired : retire connection.objects parent with
                | error fault => simp [retired, Bind.bind, Except.bind] at done
                | ok objects =>
                    simp only [retired, Bind.bind, Except.bind] at done
                    cases done
                    exact retire_keeps wellFormed retired other
              · cases done
                rfl

omit [Native] in
theorem retire_sound
    (objects : ClientObjects)
    (handle : Handle) : retire objects handle ≠ .error .stalePointer := by
  unfold retire
  simp only
  split <;> simp

theorem sendRequest_sound
    (request : Request)
    (connection : Connection)
    (parent : Handle)
    (payload : Codec.Payload request.signature)
    (room : Tx.Room) :
    sendRequest request connection parent payload room ≠
      .error .stalePointer := by
  intro stale
  unfold sendRequest at stale
  simp only at stale
  cases found : connection.objects.objectNamespace.resolve parent with
  | none => simp [found] at stale
  | some object =>
      simp only [found] at stale
      split_ifs at stale
      split at stale
      · cases stale
      · split at stale
        · cases stale
        · split at stale
          · cases stale
          · split_ifs at stale
            cases retired : retire connection.objects parent with
            | error fault =>
                simp only [retired, Bind.bind, Except.bind] at stale
                cases stale
                exact retire_sound _ _ retired
            | ok objects => simp [retired, Bind.bind, Except.bind] at stale

omit [Native] in
theorem cancelLocals_sound
    (handles : List Handle)
    (objects : ClientObjects) :
    cancelLocals handles objects ≠ .error .stalePointer := by
  induction handles generalizing objects with
  | nil => simp [cancelLocals]
  | cons handle handles cancel_ih =>
      unfold cancelLocals
      split
      · simp
      · exact cancel_ih _

omit [Native] in
theorem cancel_sound
    (connection : Connection)
    (handles : List Handle)
    (cause : Error) :
    cancel connection handles cause ≠ .error .stalePointer ∧
      ∀ made after, cancel connection handles cause ≠ .ok (.ok made, after) := by
  unfold cancel
  cases canceled : cancelLocals handles connection.objects with
  | error fault =>
      refine ⟨fun same => ?_, fun made after => by simp [Bind.bind, Except.bind]⟩
      simp only [Bind.bind, Except.bind, Except.error.injEq] at same
      exact cancelLocals_sound _ _ (canceled.trans (congrArg _ same))
  | ok objects => simp [Bind.bind, Except.bind]

theorem sendConstructed_sound
    (request : Request)
    (connection : Connection)
    (parent : Handle)
    (payload : Constructor request.signature)
    (result : Except Error Unit)
    (handles : List Handle)
    (room : Tx.Room) :
    sendConstructed request connection parent payload result handles room ≠
      .error .stalePointer := by
  unfold sendConstructed
  cases result with
  | error cause => exact (cancel_sound connection handles cause).1
  | ok _ =>
      simp only
      generalize sent : sendRequest request connection parent
        (Constructor.payload request.signature payload handles.reverse) room =
          answer
      match answer with
      | .error fault =>
          intro stale
          cases stale
          exact sendRequest_sound _ _ _ _ _ sent
      | .ok (.error cause, connection) =>
          exact (cancel_sound connection handles cause).1
      | .ok (.ok _, connection) => simp

/-- Objects stay that are constructed with success. -/
theorem sendConstructed_ok
    {request : Request} {connection after : Connection} {parent : Handle}
    {payload : Constructor request.signature} {result : Except Error Unit}
    {handles made : List Handle} {room : Tx.Room}
    (done : sendConstructed request connection parent payload result handles
      room = .ok (.ok made, after)) :
    result = .ok () ∧ made = handles.reverse ∧
      (connection.objects.objectNamespace.table.WellFormed →
        ∀ id, id ≠ parent.id →
          after.objects.objectNamespace.table.get id =
            connection.objects.objectNamespace.table.get id) := by
  unfold sendConstructed at done
  cases result with
  | error cause =>
      exact absurd done ((cancel_sound connection handles cause).2 _ _)
  | ok _ =>
      simp only at done
      generalize sent : sendRequest request connection parent
        (Constructor.payload request.signature payload handles.reverse) room =
          answer at done
      match answer with
      | .error fault => cases done
      | .ok (.error cause, connection) =>
          exact absurd done ((cancel_sound connection handles cause).2 _ _)
      | .ok (.ok _, connection) =>
          cases done
          exact ⟨rfl, rfl,
            fun wellFormed id => sendRequest_keeps wellFormed sent⟩

/-! ## Negotiated versions -/

/-- A constructor reads no object through a stale pointer, and gives every new
object the version that it should get. -/
def Negotiates
    (creations : List Creation)
    (objects : ClientObjects)
    (parent : Handle)
    (outcome : Except Fault (Except Error (List Handle) × Connection)) : Prop :=
  outcome ≠ .error .stalePointer ∧
    ∀ handles after object, outcome = .ok (.ok handles, after) →
      objects.objectNamespace.resolve parent = some object →
      List.Forall₂
        (Creation.Made after.objects.objectNamespace object.version) creations
        handles

/-- After any calls on the objects of a client, a constructor negotiates the
versions of its new objects if and only if the table has room for the objects
that it creates before its last typed one, or it fails before it gets there:
the parent or an interface is wrong, or one of these objects is refused. -/
theorem constructor_negotiates_iff
    {initial : ClientObjects}
    (created : ClientObjects.Created initial)
    (history : List ClientObjects.Call)
    (queue : Tx.Queue)
    (storage : Storage)
    (protocol : String → Option Interface)
    (request : Request)
    (parent : Handle)
    (payload : Constructor request.signature)
    (grants : Nat → Grants)
    (room : Tx.Room) :
    let objects := (initial.run history).2
    let creations := Constructor.creations protocol request.signature payload
    let outcome := construct protocol request { objects, queue, storage }
      parent payload grants room
    Negotiates creations objects parent outcome ↔
      ∀ object, objects.objectNamespace.resolve parent = some object →
        object.interface = request.interface →
        Constructor.declared protocol request.signature payload = true →
        ∀ position, TypedAt creations position →
          objects.objectNamespace.table.count + position ≤
              objects.objectNamespace.table.maxEntries ∨
            creates object.version grants (creations.take position) 0 objects =
              false := by
  intro objects creations outcome
  obtain ⟨view, represents, _⟩ :=
    ClientObjects.run_represents created.represents history
  have wellFormed : objects.objectNamespace.table.WellFormed := by
    rw [← represents.objectNamespace_eq]
    exact represents.coupled.wellFormed
  cases found : objects.objectNamespace.resolve parent with
  | none =>
      have same : outcome =
          .ok (.error .staleHandle, { objects, queue, storage }) := by
        simp only [outcome, construct, Namespace.pointer_of_stale found]
      rw [same]
      simp [Negotiates, found]
  | some object =>
      obtain ⟨pointer, points, here, reads⟩ :=
        Namespace.pointer_of_resolve found
      have pointed : Points objects pointer object :=
        ⟨wellFormed, here.le, fun _ => reads⟩
      by_cases foreign : object.interface ≠ request.interface
      · have same : outcome =
            .ok (.error .wrongInterface, { objects, queue, storage }) := by
          simp only [outcome, construct, points, reads, if_pos foreign]
        rw [same]
        simp [Negotiates, foreign]
      cases declared : Constructor.declared protocol request.signature payload
        with
      | false =>
          have same : outcome =
              .ok (.error .wrongInterface, { objects, queue, storage }) := by
            simp only [outcome, construct, points, reads, if_neg foreign,
              declared, Bool.not_false, if_true]
          rw [same]
          simp [Negotiates]
      | true =>
          have unfolded : outcome =
              match createLocals pointer grants creations [] objects with
              | .error fault => .error fault
              | .ok (result, handles, objects) =>
                  sendConstructed request { objects, queue, storage } parent
                    payload result handles room := by
            simp only [outcome, construct, points, reads, if_neg foreign,
              declared, Bool.not_true, Bool.false_eq_true, if_false]
            rfl
          have late : createLocals pointer grants creations [] objects =
              .error .stalePointer ↔
                Outrun objects pointer object.version grants creations 0 :=
            createLocals_stale_iff pointed creations []
          have inTime : Negotiates creations objects parent outcome ↔
              createLocals pointer grants creations [] objects ≠
                .error .stalePointer := by
            rw [unfolded]
            cases made : createLocals pointer grants creations [] objects with
            | error fault => simp [Negotiates]
            | ok answer =>
                obtain ⟨result, handles, objectsNow⟩ := answer
                simp only [ne_eq, reduceCtorEq, not_false_eq_true, iff_true]
                refine ⟨sendConstructed_sound _ _ _ _ _ _ _,
                  fun handles after parentObject done resolved => ?_⟩
                cases found.symm.trans resolved
                obtain ⟨rfl, rfl, same⟩ := sendConstructed_ok done
                obtain ⟨pointedNow, _, new, rfl, there, fresh⟩ :=
                  createLocals_made pointed made
                rw [List.append_nil, List.reverse_reverse]
                refine made_frame there fun handle member =>
                  same pointedNow.wellFormed handle.id fun own => ?_
                have absent := fresh handle member
                rw [own, Table.get_of_resolve found] at absent
                cases absent
          rw [inTime, Ne, late]
          constructor
          · intro settled parentObject resolved _ _ position typed
            cases resolved
            by_contra full
            rw [not_or, Bool.not_eq_false] at full
            exact settled ⟨position, typed, full.2, Or.inr (by omega)⟩
          · rintro settled ⟨position, typed, made, moved⟩
            rcases settled object rfl (not_not.mp foreign) rfl position typed
              with room | refused
            · omega
            · rw [made] at refused
              cases refused

end Sending

section Sample

/-- A little-endian machine. -/
local instance constructorsNative : Native := ⟨.little⟩

/-- An interface with a request that creates two objects. -/
def pairInterface : Interface where
  name := "pairs"
  version := 1
  requests := [{ since := 1 }]
  events := []

/-- The interface of these objects. -/
def childInterface : Interface where
  name := "child"
  version := 1
  requests := []
  events := []

/-- A request that makes two objects. -/
def pairRequest : Request where
  interface := pairInterface
  opcode := 0
  signature := [.newId "child", .newId "child"]

/-- Both objects are of one interface. -/
def pairPayload : Constructor pairRequest.signature :=
  (({ interface := childInterface, context := none } : TypedNewObject),
    ({ interface := childInterface, context := none } : TypedNewObject), ())

/-- The creations of that request. -/
def pairCreations : List Creation :=
  Constructor.creations (fun _ => some childInterface) pairRequest.signature
    pairPayload

/-- A growable client with room for some objects. -/
def pairInitial (initialObjects : Nat) : ClientObjects :=
  ((ClientObjects.initGrowable initialObjects 4 ClientObjects.sampleInterface
    none { ids := true, table := true }).toOption).getD
      ClientObjects.sampleGrowable

theorem pairInitial_created
    {initialObjects : Nat} {objects : ClientObjects}
    (created : ClientObjects.initGrowable initialObjects 4
      ClientObjects.sampleInterface none { ids := true, table := true } =
        .ok objects) : ClientObjects.Created (pairInitial initialObjects) := by
  rw [pairInitial, created]
  exact .growable created

/-- The parent of the pair is created. -/
def pairHistory : List ClientObjects.Call :=
  [ { operation := .createLocal pairInterface 1 none
      grants := { ids := true, table := true } } ]

/-- The object that the request is sent to. -/
def pairParent : Handle := { id := 2, generation := 2 }

/-- The pair is created with a queue that is empty. -/
def pairOutcome
    (initialObjects : Nat) :
    Except Fault (Except Error (List Handle) × Connection) :=
  construct (fun _ => some childInterface) pairRequest
    { objects := ((pairInitial initialObjects).run pairHistory).2
      queue := Tx.Queue.init 64 0
      storage :=
        { blocks := Ownership.sampleBlocks, fds := Ownership.sampleFds } }
    pairParent pairPayload (fun _ => { ids := true, table := true })
    { blocks := 4, fds := 4 }

/-- With four places in the table, both objects get their version. -/
theorem constructor_negotiates_iff_sample :
    Negotiates pairCreations ((pairInitial 4).run pairHistory).2 pairParent
      (pairOutcome 4) := by
  refine (constructor_negotiates_iff (pairInitial_created rfl)
    pairHistory _ _ _ pairRequest _ pairPayload _ _).mpr
    fun object _ _ _ position typed => Or.inl ?_
  obtain ⟨interface, context, found⟩ := typed
  have bound : position < 2 := (List.getElem?_eq_some_iff.mp found).1
  have room : ((pairInitial 4).run pairHistory).2.objectNamespace.table.count +
      2 ≤ ((pairInitial 4).run pairHistory).2.objectNamespace.table.maxEntries :=
    by decide
  exact (Nat.add_le_add_left bound.le _).trans room

/-- With a full table, a client moves it for the first object of a pair, and
reads the version of their parent from the old storage for the second. -/
theorem constructor_reads_stale_parent :
    ClientObjects.Created (pairInitial 2) ∧
      ¬Negotiates pairCreations ((pairInitial 2).run pairHistory).2 pairParent
        (pairOutcome 2) := by
  refine ⟨pairInitial_created rfl, fun negotiates => ?_⟩
  exact negotiates.1 rfl

end Sample
end Client
end Wayring
