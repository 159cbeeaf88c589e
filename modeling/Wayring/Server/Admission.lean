import Wayring.Objects.SharedOwnership
import Wayring.Server.Clients

/-!
# Admission of clients

An accepted descriptor ends up in the record of one new client, or is closed
once.  An admission that fails takes back all it took: the slot, the record, the
objects, and the place in the submission queue.
-/

namespace Wayring

/-! ## Objects in use -/

namespace SharedObjectPool

/-- Entries that some namespace owns. -/
def inUse (pool : SharedObjectPool) : Int :=
  pool.nodes.length - pool.availableCount

/-- Every reserved entry is free. -/
def Solvent (pool : SharedObjectPool) : Prop :=
  pool.reservedCount ≤ pool.availableCount

/-- The entries in use and the reserved ones have changed by so much. -/
structure Moves
    (before after : SharedObjectPool)
    (used : Int) : Prop where
  inUse : after.inUse = before.inUse + used
  reserved : after.reservedCount = before.reservedCount
  solvent : after.Solvent

variable {pool : SharedObjectPool}

theorem Moves.refl (solvent : pool.Solvent) : Moves pool pool 0 where
  inUse := (Int.add_zero _).symm
  reserved := rfl
  solvent := solvent

/-- Taking an entry uses one more. -/
theorem acquire_moves
    (solvent : pool.Solvent)
    (granted : Bool) :
    match pool.acquire granted with
    | (.error _, after) => after = pool
    | (.ok _, after) => Moves pool after 1 := by
  unfold Solvent at solvent
  unfold acquire
  split_ifs with spent full room
  · rfl
  · exact
      { inUse := by
          simp only [inUse, List.length_append, List.length_singleton]
          omega
        reserved := rfl
        solvent := solvent }
  · rfl
  · unfold acquirePhysical
    cases pool.freeHead with
    | none => rfl
    | some index =>
        refine { inUse := ?_, reserved := rfl, solvent := ?_ }
        · simp only [inUse]
          omega
        · simp only [Solvent]
          omega

/-- Giving a chain of entries back. -/
theorem releaseChain_moves
    (solvent : pool.Solvent)
    (head tail count : Nat) :
    Moves pool (pool.releaseChain (some head) (some tail) count) (-count) where
  inUse := by
    simp only [inUse, releaseChain, length_modifyNode, Nat.cast_add]
    omega
  reserved := rfl
  solvent := by
    simp only [Solvent, releaseChain, modifyNode] at solvent ⊢
    omega

end SharedObjectPool

namespace SharedNamespace

variable {pool : SharedObjectPool} {objects : SharedNamespace}

/-- Writing a taken entry moves nothing. -/
theorem insertAcquired_moves
    (index id : Nat) (interface : Interface) (version : Nat)
    (context : Option Nat) :
    let outcome :=
      objects.insertAcquired pool index id interface version context
    outcome.2.2.nodes.length = pool.nodes.length ∧
      outcome.2.2.availableCount = pool.availableCount ∧
      outcome.2.2.reservedCount = pool.reservedCount ∧
      outcome.2.1.count = objects.count + 1 ∧
      outcome.2.1.ownerTail = some index ∧
      (objects.ownerTail = none → outcome.2.1.ownerHead = some index) := by
  have activated : ∀ objects : SharedNamespace,
      (objects.activateBucket id).count = objects.count ∧
      (objects.activateBucket id).ownerTail = objects.ownerTail := by
    intro objects
    unfold activateBucket
    dsimp only
    split_ifs
    · exact ⟨rfl, rfl⟩
    · exact ⟨rfl, rfl⟩
  obtain ⟨count, tail⟩ := activated objects
  simp only [insertAcquired, setBucketHead, tail]
  cases objects.ownerTail with
  | none =>
      simp [SharedObjectPool.takeGeneration, SharedObjectPool.modifyNode, count]
  | some last =>
      simp [SharedObjectPool.takeGeneration, SharedObjectPool.modifyNode, count]

/-- Looking an object up changes the cache only. -/
theorem find_keeps (id : Nat) :
    let after := (objects.find pool id).2
    after.ownerHead = objects.ownerHead ∧
      after.ownerTail = objects.ownerTail ∧ after.count = objects.count := by
  unfold find
  dsimp only
  split_ifs
  · exact ⟨rfl, rfl, rfl⟩
  · exact ⟨rfl, rfl, rfl⟩
  · cases objects.findUncached pool id with
    | none => exact ⟨rfl, rfl, rfl⟩
    | some location => exact ⟨rfl, rfl, rfl⟩

/-- An insertion uses one more entry, or none. -/
theorem insert_moves
    (solvent : pool.Solvent)
    (id : Nat) (interface : Interface) (version : Nat)
    (context : Option Nat) (granted : Bool) :
    match objects.insert pool id interface version context granted with
    | (.error _, after, poolAfter) => poolAfter = pool ∧
        after.ownerHead = objects.ownerHead ∧
        after.ownerTail = objects.ownerTail
    | (.ok _, after, poolAfter) => SharedObjectPool.Moves pool poolAfter 1 ∧
        after.count = objects.count + 1 ∧
        (objects.ownerTail = none → ∃ index,
          after.ownerHead = some index ∧ after.ownerTail = some index) := by
  unfold insert
  split_ifs with zero
  · exact ⟨rfl, rfl, rfl⟩
  cases interface.validateVersion version with
  | error cause => exact ⟨rfl, rfl, rfl⟩
  | ok _ =>
      obtain ⟨head, tail, count⟩ := @find_keeps pool objects id
      generalize objects.find pool id = found at head tail count ⊢
      obtain ⟨location, cached⟩ := found
      dsimp only at head tail count ⊢
      split_ifs with duplicate full
      · exact ⟨rfl, head, tail⟩
      · exact ⟨rfl, head, tail⟩
      have moves := SharedObjectPool.acquire_moves solvent granted
      generalize pool.acquire granted = acquired at moves ⊢
      obtain ⟨result, taken⟩ := acquired
      cases result with
      | error cause => exact ⟨moves, head, tail⟩
      | ok index =>
          obtain ⟨length, available, reserved, counted, last, first⟩ :=
            @insertAcquired_moves taken cached index id interface version
              context
          dsimp only at moves ⊢
          refine ⟨
            { inUse := ?_
              reserved := reserved.trans moves.reserved
              solvent := ?_ }, by rw [counted, count],
            fun none => ⟨index, first (tail.trans none), last⟩⟩
          · rw [← moves.inUse, SharedObjectPool.inUse, length, available]
            rfl
          · rw [SharedObjectPool.Solvent, reserved, available]
            exact moves.solvent

end SharedNamespace

namespace SharedServerObjects

variable {pool : SharedObjectPool}

/-- A new client uses one entry, and gives it back when it is torn down. -/
theorem init_moves
    (solvent : pool.Solvent)
    (buckets : List SharedObjectBucket) (connectionGeneration quota : Nat)
    (display : Interface) (displayContext : Option Nat) (granted : Bool) :
    match init pool buckets connectionGeneration quota display displayContext
      false granted with
    | (.error _, after) => after = pool
    | (.ok objects, after) => SharedObjectPool.Moves pool after 1 ∧
        SharedObjectPool.Moves pool (objects.deinit after none).2 0 := by
  unfold init
  cases created : SharedNamespace.init buckets connectionGeneration quota with
  | error cause => rfl
  | ok objects =>
      have fresh : objects.ownerHead = none ∧ objects.ownerTail = none ∧
          objects.count = 0 := by
        unfold SharedNamespace.init at created
        split_ifs at created
        cases created
        exact ⟨rfl, rfl, rfl⟩
      obtain ⟨noHead, noTail, empty⟩ := fresh
      have moves := @SharedNamespace.insert_moves pool objects solvent displayId
        display 1 displayContext granted
      simp only [Bool.false_eq_true, if_false]
      generalize objects.insert pool displayId display 1 displayContext
        granted = outcome at moves ⊢
      obtain ⟨result, after, poolAfter⟩ := outcome
      cases result with
      | error cause =>
          obtain ⟨rfl, head, _⟩ := moves
          simp only [SharedNamespace.deinit, head, noHead]
          rfl
      | ok handle =>
          obtain ⟨moved, counted, placed⟩ := moves
          obtain ⟨index, head, tail⟩ := placed noTail
          refine ⟨moved, ?_⟩
          have released := SharedObjectPool.releaseChain_moves moved.solvent
            index index after.count
          simp only [deinit, SharedNamespace.deinit, head, tail]
          exact
            { inUse := by
                rw [released.inUse, moved.inUse, counted, empty]
                simp
              reserved := released.reserved.trans moved.reserved
              solvent := released.solvent }

end SharedServerObjects

/-! ## One admission -/

namespace SharedClients

variable {clients after : SharedClients} {peer : Peer} {fd : Fd}

/-- Every client record stands beside the connection record of its peer. -/
structure Sound (clients : SharedClients) : Prop where
  consistent : clients.reactor.Consistent
  solvent : clients.objectPool.Solvent
  present : ∀ slot client, clients.record slot = some client →
    client.peer.slot = slot ∧
      ∃ actor, clients.reactor.Present client.peer actor

/-- Nothing is left of a failed admission: the count of active slots, all
connection and client records, the submission queue, and the count of objects
in use are as before. -/
structure Untouched (clients after : SharedClients) : Prop where
  restored : Reactor.Restored clients.reactor after.reactor
  record : ∀ slot, after.record slot = clients.record slot
  objects : SharedObjectPool.Moves clients.objectPool after.objectPool 0

/-- A descriptor has one new client: its connection record holds the
descriptor, and no other record has changed. -/
structure Joined
    (clients after : SharedClients)
    (peer : Peer)
    (fd : Fd) : Prop where
  receiving : Reactor.Receiving clients.reactor after.reactor peer fd
  vacant : clients.record peer.slot = none
  joined : ∃ client, after.record peer.slot = some client ∧ client.peer = peer
  others : ∀ slot, slot ≠ peer.slot → after.record slot = clients.record slot
  objects : SharedObjectPool.Moves clients.objectPool after.objectPool 1

/-- Growth leaves the records alone. -/
theorem growRecords_spec
    (clients : SharedClients) (slot room : Nat) :
    ∃ records,
      (clients.growRecords slot room).2 = { clients with records } ∧
      (∀ index, record { clients with records } index =
        clients.record index) ∧
      ∀ roomLeft, (clients.growRecords slot room).1 = .ok roomLeft →
        slot < records.length := by
  unfold growRecords
  split_ifs with inside
  · exact ⟨clients.records, rfl, fun _ => rfl, fun _ _ => inside⟩
  cases room with
  | zero =>
      exact ⟨clients.records, rfl, fun _ => rfl, fun _ failed => nomatch failed⟩
  | succ room =>
      refine ⟨_, rfl, fun index => ?_, fun _ _ => ?_⟩
      · unfold record
        simp only [List.getElem?_append, List.getElem?_replicate]
        split_ifs with first second
        · rfl
        · rw [List.getElem?_eq_none (by omega)]
          rfl
        · rw [List.getElem?_eq_none (by omega)]
      · simp only [List.length_append, List.length_replicate]
        omega

/-- Writing a record changes that record alone. -/
theorem record_setRecord
    {slot : Nat}
    (inside : slot < clients.records.length)
    (new : Option ClientRecord) (index : Nat) :
    (clients.setRecord slot new).record index =
      if index = slot then new else clients.record index := by
  unfold record setRecord
  by_cases here : index = slot
  · rw [if_pos here, here, List.getElem?_set_self inside]
    rfl
  · rw [if_neg here, List.getElem?_set_ne (Ne.symm here)]

theorem Sound.untouched (sound : clients.Sound) : Untouched clients clients where
  restored := ⟨sound.consistent, rfl, fun _ => rfl, rfl⟩
  record _ := rfl
  objects := .refl sound.solvent

/-- The clients while an admission is under way: a connection record was
added. -/
structure Attaching
    (clients middle : SharedClients)
    (peer : Peer)
    (fd : Fd) : Prop where
  attached : ∃ receivedFdBudget transmitByteBudget transmitFdBudget,
    Reactor.Attached clients.reactor middle.reactor peer
      { actor := Actor.initSharedFragments peer.slot peer.generation
          receivedFdBudget transmitByteBudget transmitFdBudget
        fd }
  ring : middle.reactor.ring = clients.reactor.ring
  record : ∀ slot, middle.record slot = clients.record slot

/-- An admission that fails on the way is undone. -/
theorem Attaching.unwind
    {middle : SharedClients}
    (attaching : Attaching clients middle peer fd)
    (objects : SharedObjectPool.Moves clients.objectPool middle.objectPool 0)
    (cause : Error) :
    ∃ after, middle.unwind peer cause = (.error cause, [fd], after) ∧
      Untouched clients after := by
  obtain ⟨_, _, _, attached⟩ := attaching.attached
  obtain ⟨reactor, abandoned, restored⟩ :=
    attached.abandon attaching.ring cause
  refine ⟨{ middle with reactor }, by rw [SharedClients.unwind, abandoned],
    { restored, record := attaching.record, objects }⟩

/-- The objects and the first receive of a new client. -/
theorem Attaching.admitObjects
    {middle : SharedClients}
    (sound : clients.Sound)
    (attaching : Attaching clients middle peer fd)
    (pool : middle.objectPool = clients.objectPool)
    (inside : peer.slot < middle.records.length)
    (vacant : clients.record peer.slot = none)
    (display : Interface) (credentials : Credentials)
    (displayContext : Option Nat) (granted : Bool) :
    match middle.admitObjects display peer credentials displayContext granted
      with
    | (.error _, closed, after) => closed = [fd] ∧ Untouched clients after
    | (.ok admitted, closed, after) => admitted = peer ∧ closed = [] ∧
        Joined clients after peer fd := by
  have moves := SharedServerObjects.init_moves (pool ▸ sound.solvent)
    (List.replicate middle.bucketsPerClient {}) peer.generation
    middle.objectQuota display displayContext granted
  unfold SharedClients.admitObjects
  generalize SharedServerObjects.init middle.objectPool
    (List.replicate middle.bucketsPerClient {}) peer.generation
    middle.objectQuota display displayContext false granted = outcome
    at moves ⊢
  obtain ⟨result, objectPool⟩ := outcome
  rw [pool] at moves
  have still (objectPool : SharedObjectPool) :
      Attaching clients { middle with objectPool } peer fd :=
    ⟨attaching.attached, attaching.ring, attaching.record⟩
  cases result with
  | error cause =>
      cases moves
      obtain ⟨after, unwound, untouched⟩ :=
        (still clients.objectPool).unwind (.refl sound.solvent) cause
      simp only [unwound]
      exact ⟨trivial, untouched⟩
  | ok objects =>
      obtain ⟨used, released⟩ := moves
      obtain ⟨_, _, _, attached⟩ := attaching.attached
      have received := attached.prepareReceive attaching.ring
      simp only
      generalize middle.reactor.prepareReceive peer = outcome at received ⊢
      obtain ⟨result, reactor⟩ := outcome
      cases result with
      | error cause =>
          cases received
          obtain ⟨after, unwound, untouched⟩ :=
            (still (objects.deinit objectPool none).2).unwind released cause
          simp only [unwound]
          exact ⟨trivial, untouched⟩
      | ok _ =>
          have written := @record_setRecord { middle with reactor, objectPool }
            peer.slot inside (some { peer, credentials, objects })
          refine ⟨rfl, rfl,
            { receiving := received
              vacant
              joined := ⟨_, (written peer.slot).trans (if_pos rfl), rfl⟩
              others := fun slot other => ?_
              objects := used }⟩
          exact ((written slot).trans (if_neg other)).trans
            (attaching.record slot)

/-- An admission of an accepted descriptor. -/
theorem admit_spec
    (sound : clients.Sound)
    (display : Interface) (accepted : Listener.Accepted) (config : ActorConfig)
    (displayContext : Option Nat) (answers : AdmissionAnswers) :
    match clients.admitPeer display accepted config displayContext answers with
    | (.error _, closed, after) =>
        closed = [accepted.fd] ∧ Untouched clients after
    | (.ok peer, closed, after) =>
        closed = [] ∧ Joined clients after peer accepted.fd := by
  unfold admitPeer
  cases peerCredentials answers.credentials with
  | error cause => exact ⟨rfl, sound.untouched⟩
  | ok credentials =>
      have attached := Reactor.attachClosing_spec sound.consistent accepted.fd
        config answers.attachRoom
      simp only
      generalize clients.reactor.attachClosing accepted.fd config
        answers.attachRoom = outcome at attached ⊢
      obtain ⟨result, closed, reactor⟩ := outcome
      cases result with
      | error cause =>
          obtain ⟨rfl, restored⟩ := attached
          exact ⟨rfl, restored, fun _ => rfl, .refl sound.solvent⟩
      | ok peer =>
          obtain ⟨rfl, ring, attached⟩ := attached
          obtain ⟨records, grown, same, inside⟩ :=
            growRecords_spec { clients with reactor } peer.slot answers.room
          simp only at same ⊢
          generalize growRecords { clients with reactor } peer.slot
            answers.room = outcome at grown inside ⊢
          obtain ⟨result, middle⟩ := outcome
          simp only at grown
          subst grown
          have attaching :
              Attaching clients { clients with reactor, records } peer
                accepted.fd :=
            ⟨⟨_, _, _, attached⟩, ring, same⟩
          have vacant : clients.record peer.slot = none := by
            cases found : clients.record peer.slot with
            | none => rfl
            | some client =>
                obtain ⟨same, actor, there, _⟩ := sound.present _ _ found
                rw [same, Reactor.actor, attached.vacant] at there
                cases there
          cases result with
          | error cause =>
              obtain ⟨after, unwound, untouched⟩ :=
                attaching.unwind (.refl sound.solvent) cause
              simp only [unwound]
              exact ⟨rfl, untouched⟩
          | ok room =>
              have free : (record { clients with reactor, records }
                  peer.slot).isSome = false := by
                rw [same]
                exact congrArg Option.isSome vacant
              simp only [free, Bool.false_eq_true, if_false]
              split_ifs with short
              · obtain ⟨after, unwound, untouched⟩ :=
                  attaching.unwind (.refl sound.solvent) .outOfMemory
                simp only [unwound]
                exact ⟨rfl, untouched⟩
              · have finished := attaching.admitObjects sound rfl
                  (inside room rfl) vacant display credentials displayContext
                  (2 < room)
                generalize admitObjects { clients with reactor, records }
                  display peer credentials displayContext (2 < room) = outcome
                  at finished ⊢
                obtain ⟨result, more, after⟩ := outcome
                cases result with
                | error cause => exact finished
                | ok admitted =>
                    obtain ⟨rfl, closed, joined⟩ := finished
                    exact ⟨closed, joined⟩

/-- A client of an earlier state whose connection is still there. -/
theorem Sound.of_kept
    (sound : clients.Sound)
    (consistent : after.reactor.Consistent)
    (solvent : after.objectPool.Solvent)
    (present : ∀ slot client, after.record slot = some client →
      clients.record slot = some client ∧
        after.reactor.actor slot = clients.reactor.actor slot ∨
      client.peer.slot = slot ∧
        ∃ actor, after.reactor.Present client.peer actor) : after.Sound where
  consistent := consistent
  solvent := solvent
  present slot client found := by
    rcases present slot client found with ⟨before, same⟩ | new
    · obtain ⟨rfl, actor, there, generation⟩ := sound.present slot client before
      exact ⟨rfl, actor, same.trans there, generation⟩
    · exact new

/-- A server that was left alone is sound. -/
theorem Untouched.sound
    (untouched : Untouched clients after)
    (sound : clients.Sound) : after.Sound :=
  sound.of_kept untouched.restored.consistent untouched.objects.solvent
    fun slot _ found => .inl
      ⟨(untouched.record slot).symm.trans found,
        congrArg (Option.map ConnectionRecord.actor)
          (untouched.restored.record slot)⟩

/-- A server with a new client is sound. -/
theorem Joined.sound
    (joined : Joined clients after peer fd)
    (sound : clients.Sound) : after.Sound := by
  refine sound.of_kept joined.receiving.consistent joined.objects.solvent
    fun slot client found => ?_
  by_cases here : slot = peer.slot
  · obtain ⟨new, there, rfl⟩ := joined.joined
    obtain ⟨record, owner, _, generation⟩ := joined.receiving.owner
    rw [here, there, Option.some.injEq] at found
    subst found
    exact .inr ⟨here.symm, record.actor,
      congrArg (Option.map ConnectionRecord.actor) owner, generation⟩
  · exact .inl
      ⟨(joined.others slot here).symm.trans found,
        congrArg (Option.map ConnectionRecord.actor)
          (joined.receiving.others slot here)⟩

end SharedClients

/-! ## Accepted descriptors -/

namespace Listener

/-- Every descriptor that an accept delivers is handed on or closed. -/
theorem complete_accept
    {listener : Listener} {completion : Cqe} {token : Token}
    (decoded : Token.decode completion.userData = .ok token)
    (isAccept : token.operation = .accept) :
    match listener.complete completion with
    | (.ok (.accepted new), closed, _) =>
        accepted completion = some new.fd ∧ closed = []
    | (_, closed, _) => closed = (accepted completion).toList := by
  unfold complete
  simp only [decoded, isAccept, if_true]
  split_ifs with stale
  · rfl
  · unfold completeAccept
    dsimp only
    generalize listener.state.step _ = stepped
    cases stepped with
    | error cause => rfl
    | ok state =>
        simp only [accepted]
        cases completion.result with
        | count fd => exact ⟨rfl, rfl⟩
        | failed cause =>
            dsimp only
            split_ifs
            · rfl
            · rfl

end Listener

namespace Runtime

variable {runtime : Runtime} {completion : Cqe}

/-- What becomes of the descriptor that a completion delivers: it has one new
client, or it was closed once and nothing is left of its admission. -/
def Settled
    (completion : Cqe)
    (runtime : Runtime)
    (outcome : Except Error (Option Peer) × List Fd × Runtime) : Prop :=
  match outcome with
  | (.ok (some peer), closed, after) =>
      closed = [] ∧ ∃ fd, Listener.accepted completion = some fd ∧
        SharedClients.Joined runtime.clients after.clients peer fd
  | (_, closed, after) =>
      closed = (Listener.accepted completion).toList ∧
        SharedClients.Untouched runtime.clients after.clients

/-- The completion of an accept settles what becomes of the descriptor. -/
theorem completeListener_settled
    (sound : runtime.clients.Sound)
    {token : Token}
    (decoded : Token.decode completion.userData = .ok token)
    (isAccept : token.operation = .accept)
    (display : Interface) (displayContext : Option Nat)
    (answers : AdmissionAnswers) :
    Settled completion runtime
      (runtime.completeListener display completion displayContext answers) := by
  have delivered := @Listener.complete_accept runtime.endpoint.listener
    completion token decoded isAccept
  unfold completeListener
  generalize runtime.endpoint.listener.complete completion = outcome
    at delivered ⊢
  obtain ⟨result, closed, listener⟩ := outcome
  cases result with
  | error cause => exact ⟨delivered, sound.untouched⟩
  | ok event =>
      cases event with
      | acceptStopped => exact ⟨delivered, sound.untouched⟩
      | cancelComplete => exact ⟨delivered, sound.untouched⟩
      | accepted new =>
          obtain ⟨isNew, rfl⟩ := delivered
          have admitted := SharedClients.admit_spec sound display new
            runtime.actorConfig displayContext answers
          simp only
          generalize runtime.clients.admitPeer display new runtime.actorConfig
            displayContext answers = outcome at admitted ⊢
          obtain ⟨result, closed, clients⟩ := outcome
          cases result with
          | error cause =>
              obtain ⟨rfl, untouched⟩ := admitted
              refine ⟨?_, untouched⟩
              rw [isNew]
              rfl
          | ok peer =>
              obtain ⟨rfl, joined⟩ := admitted
              exact ⟨rfl, new.fd, isNew, joined⟩

/-- A routed completion settles what becomes of the descriptor. -/
theorem onCompletion_settled
    (sound : runtime.clients.Sound)
    {token : Token}
    (decoded : Token.decode completion.userData = .ok token)
    (isAccept : token.operation = .accept)
    (display : Interface) (displayContext : Option Nat)
    (answers : AdmissionAnswers) :
    Settled completion runtime
      (runtime.onCompletion display completion displayContext answers) := by
  unfold onCompletion Reactor.routeAny
  simp only [decoded, isAccept, if_true]
  split_ifs with owned
  · have settled := completeListener_settled sound decoded isAccept display
      displayContext answers
    simp only
    generalize runtime.completeListener display completion displayContext
      answers = outcome at settled ⊢
    exact settled
  · exact ⟨rfl, sound.untouched⟩

end Runtime
end Wayring
