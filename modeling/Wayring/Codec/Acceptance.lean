import Wayring.Codec.Grammar
import Wayring.Objects.SharedOwnership
import Wayring.Transport.Ownership

/-!
# Accepted messages

A decoder accepts the bytes of its signature with objects that its namespace
has, and then takes the descriptors of the message off the front of a queue.
A message that it refuses leaves the queue as it was.
-/

namespace Wayring
namespace Codec

/-! ## Objects -/

/-- A namespace on a shared pool, and the entries it owns. -/
structure SharedObjects where
  pool : SharedObjectPool
  objects : SharedNamespace
  owned : List Nat
  owns : SharedNamespace.Owns pool objects owned

namespace SharedObjects

/-- The object of an ID. -/
def Holds
    (shared : SharedObjects)
    (id : Nat)
    (object : Object) : Prop :=
  ∃ index, index ∈ shared.owned ∧ (shared.pool.node index).id = id ∧
    (shared.pool.node index).object = object

/-- An ID is looked up to the object that holds it. -/
theorem get_eq_some_iff
    (shared : SharedObjects)
    {id : Nat} {object : Object} :
    (shared.objects.get shared.pool id).1 = some object ↔
      shared.Holds id object := by
  have found : (shared.objects.get shared.pool id).1 =
      (SharedNamespace.ownedIndex shared.pool shared.owned id).map
        fun index => (shared.pool.node index).object := by
    rw [← (shared.owns.find_spec id).1, Option.map_map]
    rfl
  rw [found, Option.map_eq_some_iff]
  constructor
  · rintro ⟨index, owned, same⟩
    obtain ⟨member, named⟩ := shared.owns.ownedIndex_eq_some_iff.mp owned
    exact ⟨index, member, named, same⟩
  · rintro ⟨index, member, named, same⟩
    exact ⟨index, shared.owns.ownedIndex_eq_some_iff.mpr ⟨member, named⟩, same⟩

end SharedObjects

/-- Where a decoder looks its objects up.  A plain decoder does not; the
namespaces of a server may be on a shared pool. -/
inductive Lookup
  | plain
  | request (objects : Namespace)
  | shared (objects : SharedObjects)
  | event (objects : Namespace)

/-- How a decoder checks the objects that are named. -/
def Lookup.validation : Lookup → Validation
  | .plain => .none
  | .request objects => .request objects.get
  | .shared held => .request fun id => (held.objects.get held.pool id).1
  | .event objects => .event objects.eventArgument

/-- An object has the interface that an argument declares, if it does. -/
def Declared (interface : Option String) (object : Object) : Prop :=
  ∀ name ∈ interface, object.interface.name = name

/-- An object argument is in order, and reads as some ID or as none. -/
inductive Lookup.Permits
    (interface : Option String)
    (id : UInt32) : Lookup → Option UInt32 → Prop
  | plain : Permits interface id .plain (some id)
  | request
      {objects : Namespace} {object : Object}
      (found : objects.table.get id.toNat = some object)
      (live : object.destroyed = false)
      (declared : Declared interface object) :
      Permits interface id (.request objects) (some id)
  | shared
      {objects : SharedObjects} {object : Object}
      (found : objects.Holds id.toNat object)
      (declared : Declared interface object) :
      Permits interface id (.shared objects) (some id)
  | event
      {objects : Namespace} {object : Object}
      (found : objects.table.get id.toNat = some object)
      (live : object.destroyed = false)
      (declared : Declared interface object) :
      Permits interface id (.event objects) (some id)
  | tombstone
      {objects : Namespace} {object : Object}
      (found : objects.table.get id.toNat = some object)
      (destroyed : object.destroyed = true) :
      Permits interface id (.event objects) none

/-- An ID is looked up to a live object. -/
theorem Namespace.get_eq_some_iff
    {objects : Namespace} {id : Nat} {object : Object} :
    objects.get id = some object ↔
      objects.table.get id = some object ∧ object.destroyed = false := by
  simp only [Namespace.get, Option.bind_eq_bind, Option.bind_eq_some_iff]
  constructor
  · rintro ⟨found, here, same⟩
    split_ifs at same with destroyed
    cases same
    exact ⟨here, by simpa using destroyed⟩
  · rintro ⟨here, live⟩
    exact ⟨object, here, by simp [live]⟩

/-- Comparing the interface of an object. -/
theorem compare_iff
    {interface : Option String} {object : Object} {id : UInt32}
    {answer : Option UInt32} :
    (if ∃ name ∈ interface, object.interface.name ≠ name then
        .error .wrongInterface
      else .ok (some id) : Except Error (Option UInt32)) = .ok answer ↔
      answer = some id ∧ Declared interface object := by
  by_cases disputed : ∃ name ∈ interface, object.interface.name ≠ name
  · rw [if_pos disputed]
    obtain ⟨name, member, other⟩ := disputed
    constructor
    · intro same
      cases same
    · rintro ⟨_, declared⟩
      exact absurd (declared name member) other
  · rw [if_neg disputed]
    constructor
    · intro same
      cases same
      refine ⟨rfl, fun name member => ?_⟩
      by_contra other
      exact disputed ⟨name, member, other⟩
    · rintro ⟨rfl, _⟩
      rfl

/-- Checking an object of a request. -/
theorem check_request_iff
    {get : Nat → Option Object} {interface : Option String} {id : UInt32}
    {answer : Option UInt32} :
    (Validation.request get).check interface id = .ok answer ↔
      ∃ object, get id.toNat = some object ∧ answer = some id ∧
        Declared interface object := by
  simp only [Validation.check]
  cases found : get id.toNat with
  | none => simp
  | some object =>
      simp only [compare_iff, Option.some.injEq, exists_eq_left']

/-- A check succeeds exactly where the lookup permits the answer. -/
theorem Lookup.check_iff
    (lookup : Lookup)
    {interface : Option String} {id : UInt32} {answer : Option UInt32} :
    lookup.validation.check interface id = .ok answer ↔
      lookup.Permits interface id answer := by
  cases lookup with
  | plain =>
      constructor
      · intro checked
        cases Except.ok.inj checked
        exact .plain
      · rintro ⟨⟩
        rfl
  | request objects =>
      rw [Lookup.validation, check_request_iff]
      constructor
      · rintro ⟨object, found, rfl, declared⟩
        obtain ⟨here, live⟩ := Namespace.get_eq_some_iff.mp found
        exact .request here live declared
      · intro permits
        cases permits with
        | request found live declared =>
            exact ⟨_, Namespace.get_eq_some_iff.mpr ⟨found, live⟩, rfl,
              declared⟩
  | shared held =>
      rw [Lookup.validation, check_request_iff]
      constructor
      · rintro ⟨object, found, rfl, declared⟩
        exact .shared (held.get_eq_some_iff.mp found) declared
      · intro permits
        cases permits with
        | shared found declared =>
            exact ⟨_, held.get_eq_some_iff.mpr found, rfl, declared⟩
  | event objects =>
      simp only [Lookup.validation, Validation.check, Namespace.eventArgument]
      cases found : objects.table.get id.toNat with
      | none =>
          constructor
          · intro checked
            cases checked
          · intro permits
            cases permits with
            | event here => cases found.symm.trans here
            | tombstone here => cases found.symm.trans here
      | some object =>
          cases destroyed : object.destroyed with
          | true =>
              simp only [destroyed, if_true]
              constructor
              · intro checked
                cases checked
                exact .tombstone found destroyed
              · intro permits
                cases permits with
                | event here live =>
                    cases found.symm.trans here
                    cases destroyed.symm.trans live
                | tombstone => rfl
          | false =>
              simp only [destroyed, Bool.false_eq_true, if_false, compare_iff]
              constructor
              · rintro ⟨rfl, declared⟩
                exact .event found destroyed declared
              · intro permits
                cases permits with
                | event here _ declared =>
                    cases found.symm.trans here
                    exact ⟨rfl, declared⟩
                | tombstone here gone =>
                    cases found.symm.trans here
                    cases destroyed.symm.trans gone

/-- An argument is in order, and reads as some value. -/
def Accepts
    (lookup : Lookup) : (type : ArgumentType) → type.Read → type.Read → Prop
  | .object interface true, spelled, value =>
      match (spelled : Option UInt32) with
      | none => value = none
      | some id => lookup.Permits interface id value
  | .object interface false, spelled, value =>
      ∃ permitted, lookup.Permits interface (spelled : UInt32) permitted ∧
        value = permitted.getD 0
  | _, spelled, value => value = spelled

/-- Each argument is read as the next value. -/
def AcceptsAll
    (lookup : Lookup) :
    (signature : Signature) → Decoded signature → Decoded signature → Prop
  | [], _, _ => True
  | type :: rest, spelled, values =>
      Accepts lookup type spelled.1 values.1 ∧
        AcceptsAll lookup rest spelled.2 values.2

/-- An argument is valid exactly when the lookup accepts it. -/
theorem validateField_iff
    (lookup : Lookup)
    {type : ArgumentType} {spelled value : type.Read} :
    validateField lookup.validation type spelled = .ok value ↔
      Accepts lookup type spelled value := by
  cases type with
  | object interface allowNull =>
      cases allowNull with
      | true =>
          change Option UInt32 at spelled
          cases spelled with
          | none =>
              exact ⟨fun same => (Except.ok.inj same).symm,
                fun same => congrArg Except.ok same.symm⟩
          | some id => exact lookup.check_iff
      | false =>
          change UInt32 at spelled value
          simp only [validateField, Accepts, ← lookup.check_iff]
          cases lookup.validation.check interface spelled with
          | error cause => simp [Bind.bind, Except.bind]
          | ok permitted =>
              simp only [Bind.bind, Except.bind, Except.ok.injEq,
                exists_eq_left']
              exact ⟨fun same => (Except.ok.inj same).symm,
                fun same => congrArg Except.ok same.symm⟩
  | _ =>
      exact ⟨fun same => (Except.ok.inj same).symm,
        fun same => congrArg Except.ok same.symm⟩

/-- Arguments are valid exactly when the lookup accepts all of them. -/
theorem validateFields_iff
    (lookup : Lookup)
    {signature : Signature} {spelled values : Decoded signature} :
    validateFields lookup.validation signature spelled = .ok values ↔
      AcceptsAll lookup signature spelled values := by
  induction signature with
  | nil => exact ⟨fun _ => trivial, fun _ => rfl⟩
  | cons type rest validate_ih =>
      simp only [validateFields, AcceptsAll, ← validateField_iff,
        ← validate_ih]
      cases validateField lookup.validation type spelled.1 with
      | error cause => simp [Bind.bind, Except.bind]
      | ok value =>
          cases validateFields lookup.validation rest spelled.2 with
          | error cause => simp [Bind.bind, Except.bind]
          | ok later =>
              obtain ⟨first, rest⟩ := values
              simp only [Bind.bind, Except.bind, Except.ok.injEq]
              exact ⟨fun same => Prod.mk.inj (Except.ok.inj same),
                fun same => congrArg Except.ok (Prod.ext same.1 same.2)⟩

/-! ## Payloads -/

/-- What the bytes of a message say about an argument of its payload. -/
def ArgumentType.read : (type : ArgumentType) → type.Field → type.Read
  | .int, value => value
  | .uint, value => value
  | .fixed, value => value
  | .enumeration _, value => value
  | .string _, value => value
  | .object _ _, value => value
  | .newId _, value => value
  | .dynamicNewId, value => value
  | .array _, value => value
  | .fd, _ => ()

/-- A payload without its descriptors. -/
def Payload.decoded :
    (signature : Signature) → Payload signature → Decoded signature
  | [], _ => ()
  | type :: rest, payload => (type.read payload.1, decoded rest payload.2)

variable {signature : Signature} {queue : FdQueue} {fds : SharedFds}
  {items : List Fd} {chain : List Nat}

/-- A popped argument reads as it was spelled. -/
theorem popField_read
    {type : ArgumentType} {value : type.Read} {field : type.Field}
    {next : FdQueue} {after : SharedFds}
    (popped : popField type value queue fds = (.ok field, next, after)) :
    type.read field = value := by
  cases type with
  | fd => rfl
  | _ =>
      cases popped
      rfl

/-- Popped arguments read as they were spelled. -/
theorem popFields_decoded
    {values : Decoded signature} {payload : Payload signature}
    (popped : (popFields signature values queue fds).1 = .ok payload) :
    Payload.decoded signature payload = values := by
  induction signature generalizing queue fds with
  | nil => rfl
  | cons type rest pop_ih =>
      simp only [popFields] at popped
      generalize first : popField type values.1 queue fds = answer at popped
      obtain ⟨result, next, after⟩ := answer
      cases result with
      | error cause => cases popped
      | ok field =>
          change Except.map
            (fun payload => ((field, payload) : Payload (type :: rest)))
            (popFields rest values.2 next after).1 = .ok payload at popped
          cases later : (popFields rest values.2 next after).1 with
          | error cause =>
              rw [later] at popped
              cases popped
          | ok payloadLater =>
              rw [later] at popped
              cases popped
              exact Prod.ext (popField_read first) (pop_ih later)

/-- A payload is what its bytes say and its descriptors. -/
theorem Payload.eq_of_parts
    {payload other : Payload signature}
    (decoded : Payload.decoded signature payload =
      Payload.decoded signature other)
    (descriptors : Payload.fds signature payload =
      Payload.fds signature other) : payload = other := by
  induction signature with
  | nil => rfl
  | cons type rest parts_ih =>
      obtain ⟨field, later⟩ := payload
      obtain ⟨otherField, otherLater⟩ := other
      obtain ⟨sameField, sameLater⟩ := Prod.mk.inj decoded
      cases type with
      | fd =>
          obtain ⟨sameFd, descriptors⟩ := List.cons.inj descriptors
          exact Prod.ext sameFd (parts_ih sameLater descriptors)
      | _ => exact Prod.ext sameField (parts_ih sameLater descriptors)

/-- A decoder answers with the payloads that the grammar, the namespace, and
the queue give. -/
theorem decode_eq_ok_iff
    [Native]
    (lookup : Lookup)
    {bytes : List UInt8} {payload : Payload signature}
    (stores : queue.Stores fds items chain)
    (wellFormed : fds.WellFormed) :
    (decode signature lookup.validation bytes queue fds).1 = .ok payload ↔
      ∃ spelled, Spells signature spelled bytes ∧
        AcceptsAll lookup signature spelled
          (Payload.decoded signature payload) ∧
        fdCount signature ≤ items.length ∧
        Payload.fds signature payload = items.take (fdCount signature) := by
  have spec := @decode_spec queue fds items chain signature _
    lookup.validation bytes stores wellFormed
  constructor
  · intro accepted
    simp only [accepted] at spec
    obtain ⟨enough, descriptors, _⟩ := spec
    unfold decode at accepted
    cases result : read signature lookup.validation bytes with
    | error cause =>
        rw [result] at accepted
        cases accepted
    | ok values =>
        simp only [result] at accepted
        split_ifs at accepted with short
        obtain ⟨spelled, inGrammar, inOrder⟩ := read_eq_ok_iff.mp result
        rw [← popFields_decoded accepted] at inOrder
        exact ⟨spelled, inGrammar, (validateFields_iff lookup).mp inOrder,
          enough, descriptors⟩
  · rintro ⟨spelled, inGrammar, accepts, enough, descriptors⟩
    have result : read signature lookup.validation bytes =
        .ok (Payload.decoded signature payload) :=
      read_eq_ok_iff.mpr
        ⟨spelled, inGrammar, (validateFields_iff lookup).mpr accepts⟩
    obtain ⟨other, next, after, popped, same, _⟩ :=
      @popFields_spec queue fds items chain signature
        (Payload.decoded signature payload) stores wellFormed enough
    have short : ¬(0 < fdCount signature ∧
        queue.count < fdCount signature) := by
      rw [stores.count]
      omega
    rw [decode, result]
    simp only [if_neg short, popped]
    have decoded := popFields_decoded (congrArg Prod.fst popped)
    rw [Payload.eq_of_parts decoded (same.trans descriptors.symm)]

/-- On every queue of received descriptors, in every run, decoding succeeds
exactly on the arguments of the signature with nothing behind them, with
objects in order, and with enough descriptors.  It pops the descriptors of the
message in order, or leaves the queue as it was. -/
theorem decoding_is_all_or_nothing
    [Native]
    {blockSize blockCount blockRoom capacity fdRoom : Nat}
    {blocks : SharedBlocks} {fds : SharedFds}
    (blocksReady : SharedBlocks.init blockSize blockCount blockRoom =
      .ok blocks)
    (fdsReady : SharedFds.init capacity fdRoom = .ok fds)
    (byteBudget descriptorBudget receiveBudget : Nat)
    (calls : List Ownership.Call)
    {queue : FdQueue}
    (received : (Ownership.run calls (.start { blocks, fds } byteBudget
      descriptorBudget receiveBudget)).2.received = some queue)
    (signature : Signature)
    (lookup : Lookup)
    (bytes : List UInt8) :
    let world := (Ownership.run calls (.start { blocks, fds } byteBudget
      descriptorBudget receiveBudget)).2
    let outcome :=
      decode signature lookup.validation bytes queue world.storage.fds
    ∃ items, queue.copyTo world.storage.fds queue.count = .ok items ∧
      (∀ payload, outcome.1 = .ok payload ↔
        ∃ spelled, Spells signature spelled bytes ∧
          AcceptsAll lookup signature spelled
            (Payload.decoded signature payload) ∧
          fdCount signature ≤ items.length ∧
          Payload.fds signature payload = items.take (fdCount signature)) ∧
      (∀ payload, outcome.1 = .ok payload →
        outcome.2.1.copyTo outcome.2.2 outcome.2.1.count =
          .ok (items.drop (fdCount signature))) ∧
      ∀ cause, outcome.1 = .error cause →
        outcome.2 = (queue, world.storage.fds) := by
  intro world outcome
  have wellFormed : Storage.WellFormed { blocks, fds } :=
    ⟨(SharedBlocks.init_spec blocksReady).1, SharedFds.init_spec fdsReady⟩
  obtain ⟨sent, taken, sound, _⟩ := Ownership.run_spec
    (.start wellFormed byteBudget descriptorBudget receiveBudget) calls
  obtain ⟨poolsNow, _, takenChain, _, holds, _⟩ := sound
  cases holds with
  | gone gone => cases gone.symm.trans received
  | @present other items chain present stores =>
      cases present.symm.trans received
      have spec := @decode_spec queue world.storage.fds taken takenChain
        signature _ lookup.validation bytes stores poolsNow.fds
      refine ⟨taken, FdQueue.copyTo_spec stores stores.count.ge,
        fun payload => decode_eq_ok_iff lookup stores poolsNow.fds,
        fun payload accepted => ?_, fun cause refused => ?_⟩
      · simp only at spec
        rw [accepted] at spec
        obtain ⟨_, _, storesNow, _⟩ := spec
        exact FdQueue.copyTo_spec storesNow storesNow.count.ge
      · simp only at spec
        rw [refused] at spec
        exact spec

section Sample

/-- A little-endian machine. -/
local instance samplesNative : Native := ⟨.little⟩

/-- Two descriptors are received. -/
def sampleReceipt : List Ownership.Call :=
  [ .enqueueRights
      [24, 0, 0, 0, 0, 0, 0, 0, 1, 0, 0, 0, 1, 0, 0, 0,
        9, 0, 0, 0, 10, 0, 0, 0] 0 ]

/-- The world after the descriptors of a message were received. -/
def sampleReceived : Ownership.World :=
  (Ownership.run sampleReceipt
    (.start { blocks := Ownership.sampleBlocks, fds := Ownership.sampleFds } 16
      4 4)).2

/-- The queue that holds them. -/
def sampleQueue : FdQueue :=
  sampleReceived.received.getD (FdQueue.init 0)

theorem decoding_is_all_or_nothing_sample :
    (decode [.uint, .fd] Lookup.plain.validation [7, 0, 0, 0] sampleQueue
      sampleReceived.storage.fds).1 =
        .ok ((7, 9, ()) : UInt32 × Fd × Unit) := by
  obtain ⟨items, copied, accepted, _⟩ :=
    @decoding_is_all_or_nothing samplesNative 4 2 2 4 4 Ownership.sampleBlocks
      Ownership.sampleFds rfl rfl 16 4 4 sampleReceipt sampleQueue rfl
      [.uint, .fd] .plain [7, 0, 0, 0]
  have itemsNow : items = [9, 10] := Except.ok.inj (copied.symm.trans rfl)
  subst itemsNow
  refine (accepted _).mpr ⟨((7 : UInt32), (), ()), ?_, ⟨rfl, rfl, trivial⟩, by decide,
    rfl⟩
  exact ⟨[7, 0, 0, 0], [], rfl, ⟨rfl, rfl⟩, [], [], rfl, rfl, rfl⟩

end Sample

end Codec
end Wayring
