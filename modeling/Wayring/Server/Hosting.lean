import Wayring.Reactor.Kernel
import Wayring.Server.Admission

/-!
# Hosting clients

Everything that happens to the clients of a server between two accepts, and
what becomes of accepted descriptors from any state that is reached.
-/

namespace Wayring

/-! ## Connections at work -/

namespace Reactor

variable {reactor : Reactor}

/-- Connections were served, but none was added or released. -/
structure Served (reactor after : Reactor) : Prop where
  consistent : after.Consistent
  slots : after.slots = reactor.slots

/-- The calls that add no connection and release none. -/
def Call.serves : Call → Bool
  | .attach _ _ _ | .destroyPeer _ => false
  | _ => true

/-- What serves a client changes no slot and no record. -/
theorem served_step
    [Native]
    (attended : reactor.Attended)
    {call : Call}
    (serves : call.serves = true) :
    Served reactor (step call reactor).2 := by
  refine ⟨(attended.step call).consistent, ?_⟩
  cases call with
  | attach socketFd config room => cases serves
  | destroyPeer peer => cases serves
  | prepareReceive peer => exact slots_prepareReceive peer
  | prepareSend peer =>
      simp only [step, prepareSend]
      repeat' split
      all_goals rfl
  | prepareClose peer =>
      simp only [step, prepareClose]
      repeat' split
      all_goals rfl
  | enqueue peer bytes descriptors room =>
      exact @slots_onActor reactor Unit (fun actor storage =>
        actor.enqueue storage bytes descriptors room) peer
  | beginClose peer => exact slots_onActor peer
  | postError peer objectId code message room =>
      exact @slots_onActor reactor Unit (fun actor storage =>
        actor.postError storage objectId code message room) peer
  | complete completion => exact slots_onCompletion completion
  | deferReceive peer => exact (Relinked.deferReceive reactor peer).slots
  | releaseReceived peer completion =>
      exact (Relinked.releaseReceived reactor peer completion).slots
  | noteReceiveBufferReturned completion =>
      exact (Relinked.noteReceiveBufferReturned reactor completion).slots
  | prepareDeferredReceives =>
      exact @prepareDeferredReceives_keeps reactor
        (fun other => other.slots = reactor.slots)
        (fun _ _ relinked kept => relinked.slots.trans kept)
        (fun _ peer kept => (slots_prepareReceive peer).trans kept) rfl
  | submit free => rfl

/-- Connections that are served stay where they are. -/
theorem Served.present
    (served : Served reactor after)
    (consistent : reactor.Consistent)
    {peer : Peer} {actor : Actor}
    (present : reactor.Present peer actor) :
    ∃ actor, after.Present peer actor := by
  have active := served.consistent.active peer.slot
  rw [served.slots, consistent.active, present.1] at active
  obtain ⟨next, found, generation⟩ := Option.map_eq_some_iff.mp active.symm
  exact ⟨next, found, generation.trans present.2⟩

end Reactor

/-! ## Objects at work -/

/-- A call on the objects of a client, or on the pool they are in. -/
inductive ObjectCall
  | insert (id : Nat) (interface : Interface) (version : Nat)
      (context : Option Nat) (granted : Bool)
  | insertReserved (id : Nat) (interface : Interface) (version : Nat)
      (context : Option Nat)
  | insertServer (interface : Interface) (version : Nat)
      (context : Option Nat) (granted : Bool)
  | find (id : Nat)
  | remove (handle : Handle)
  | reserve (count : Nat)
  | restoreReservation
  deriving DecidableEq, Repr

namespace ObjectCall

/-- What a call does.  Only an entry that is free can be reserved again. -/
def apply
    (objects : SharedNamespace)
    (pool : SharedObjectPool) :
    ObjectCall → SharedNamespace × SharedObjectPool
  | .insert id interface version context granted =>
      (objects.insert pool id interface version context granted).2
  | .insertReserved id interface version context =>
      (objects.insertReserved pool id interface version context).2
  | .insertServer interface version context granted =>
      (objects.insertServer pool interface version context granted).2
  | .find id => ((objects.find pool id).2, pool)
  | .remove handle => (objects.remove pool handle).2
  | .reserve count => (objects, (pool.reserve count).2)
  | .restoreReservation =>
      if pool.reservedCount < pool.availableCount then
        (objects, pool.restoreReservation)
      else (objects, pool)

end ObjectCall

namespace SharedNamespace

variable {pool : SharedObjectPool} {objects : SharedNamespace}

/-- A removal gives one entry back, or none. -/
theorem remove_solvent
    (solvent : pool.Solvent)
    (handle : Handle) : (objects.remove pool handle).2.2.Solvent := by
  unfold remove
  cases objects.findUncached pool handle.id with
  | none => exact solvent
  | some location =>
      have one : pool.reservedCount ≤ pool.availableCount + 1 :=
        Nat.le_succ_of_le solvent
      by_cases stale :
          (pool.node location.index).generation ≠ handle.generation
      · simp only [if_pos stale]
        exact solvent
      · simp only [if_neg stale]
        cases location.previous <;>
          cases (pool.node location.index).ownerPrevious <;>
          cases (pool.node location.index).ownerNext <;> exact one

theorem insert_solvent
    (solvent : pool.Solvent)
    (id : Nat) (interface : Interface) (version : Nat)
    (context : Option Nat) (granted : Bool) :
    (objects.insert pool id interface version context
      granted).2.2.Solvent := by
  have moves := @insert_moves pool objects solvent id interface version context
    granted
  generalize objects.insert pool id interface version context granted = outcome
    at moves ⊢
  obtain ⟨result, after, poolAfter⟩ := outcome
  cases result with
  | error cause =>
      obtain ⟨rfl, _⟩ := moves
      exact solvent
  | ok handle => exact moves.1.solvent

/-- Writing a taken entry leaves the counts of the pool alone. -/
theorem insertAcquired_solvent
    (solvent : pool.Solvent)
    (index id : Nat) (interface : Interface) (version : Nat)
    (context : Option Nat) :
    (objects.insertAcquired pool index id interface version
      context).2.2.Solvent := by
  obtain ⟨_, available, reserved, _⟩ :=
    @insertAcquired_moves pool objects index id interface version context
  rw [SharedObjectPool.Solvent, available, reserved]
  exact solvent

theorem acquireReserved_solvent
    (solvent : pool.Solvent) : pool.acquireReserved.2.Solvent := by
  unfold SharedObjectPool.Solvent at solvent ⊢
  unfold SharedObjectPool.acquireReserved
  split_ifs with none
  · exact solvent
  · unfold SharedObjectPool.acquirePhysical
    dsimp only
    cases pool.freeHead with
    | none =>
        dsimp only
        omega
    | some index =>
        dsimp only
        omega

theorem insertReserved_solvent
    (solvent : pool.Solvent)
    (id : Nat) (interface : Interface) (version : Nat)
    (context : Option Nat) :
    (objects.insertReserved pool id interface version
      context).2.2.Solvent := by
  unfold insertReserved
  split_ifs with zero
  · exact solvent
  cases interface.validateVersion version with
  | error cause => exact solvent
  | ok _ =>
      dsimp only
      split_ifs with duplicate full
      · exact solvent
      · exact solvent
      have taken := acquireReserved_solvent solvent
      generalize pool.acquireReserved = acquired at taken ⊢
      obtain ⟨result, after⟩ := acquired
      cases result with
      | error cause => exact taken
      | ok index =>
          exact insertAcquired_solvent taken index id interface version context

theorem insertServer_solvent
    (solvent : pool.Solvent)
    (interface : Interface) (version : Nat) (context : Option Nat)
    (granted : Bool) :
    (objects.insertServer pool interface version context
      granted).2.2.Solvent := by
  unfold insertServer
  cases interface.validateVersion version with
  | error cause => exact solvent
  | ok _ =>
      dsimp only
      split_ifs with full spent
      · exact solvent
      · exact solvent
      have taken := SharedObjectPool.acquire_moves solvent granted
      generalize pool.acquire granted = acquired at taken ⊢
      obtain ⟨result, after⟩ := acquired
      cases result with
      | error cause =>
          cases taken
          exact solvent
      | ok index =>
          exact insertAcquired_solvent taken.solvent index _ interface version
            context

end SharedNamespace

theorem ObjectCall.apply_solvent
    {pool : SharedObjectPool} {objects : SharedNamespace}
    (solvent : pool.Solvent)
    (call : ObjectCall) : (call.apply objects pool).2.Solvent := by
  cases call with
  | insert id interface version context granted =>
      exact SharedNamespace.insert_solvent solvent id interface version context
        granted
  | insertReserved id interface version context =>
      exact SharedNamespace.insertReserved_solvent solvent id interface version
        context
  | insertServer interface version context granted =>
      exact SharedNamespace.insertServer_solvent solvent interface version
        context granted
  | find id => exact solvent
  | remove handle => exact SharedNamespace.remove_solvent solvent handle
  | reserve count =>
      change (pool.reserve count).2.Solvent
      unfold SharedObjectPool.Solvent at solvent ⊢
      unfold SharedObjectPool.reserve
      split_ifs with many
      · exact solvent
      · dsimp only
        omega
  | restoreReservation =>
      simp only [ObjectCall.apply]
      split_ifs with free
      · exact free
      · exact solvent

namespace SharedServerObjects

/-- A removal, also one by the hook, leaves the pool solvent. -/
theorem registry_solvent :
    registry.Keeps fun state => state.2.Solvent where
  look solvent _ := solvent
  remove := by
    intro state call key value next solvent removed
    obtain ⟨server, pool⟩ := state
    have canceled : (server.cancel pool call).2.2.Solvent := by
      cases call with
      | client handle =>
          have taken := @SharedNamespace.remove_solvent pool server.objects
            solvent handle
          simp only [cancel, cancelClient]
          split_ifs with outside
          · exact solvent
          · generalize server.objects.remove pool handle = outcome at taken ⊢
            obtain ⟨object, objects, after⟩ := outcome
            cases object with
            | none => exact taken
            | some object => exact taken
      | server handle =>
          have taken := @SharedNamespace.remove_solvent pool server.objects
            solvent handle
          simp only [cancel, cancelLocal]
          split_ifs with outside
          · exact solvent
          · generalize server.objects.remove pool handle = outcome at taken ⊢
            obtain ⟨object, objects, after⟩ := outcome
            cases object with
            | none => exact taken
            | some object => exact taken
    simp only [registry] at removed
    generalize server.cancel pool call = outcome at canceled removed
    obtain ⟨result, after⟩ := outcome
    cases result with
    | error cause => cases removed
    | ok object =>
        cases removed
        exact canceled

/-- A sweep keeps the pool solvent, whatever its hook does. -/
theorem sweep_solvent
    (hook : RemovalHook (SharedServerObjects × SharedObjectPool))
    (fuel : Nat)
    {notices : List (RemovalNotice (SharedServerObjects × SharedObjectPool))}
    {state : SharedServerObjects × SharedObjectPool}
    (solvent : state.2.Solvent) :
    (sweep hook fuel notices state).2.2.Solvent := by
  induction fuel generalizing notices state with
  | zero => exact solvent
  | succ fuel sweep_ih =>
      obtain ⟨server, pool⟩ := state
      unfold sweep
      cases server.objects.ownerTail with
      | none => exact solvent
      | some tail =>
          dsimp only
          have removed := @SharedNamespace.remove_solvent pool server.objects
            solvent
            { id := (pool.node tail).id
              generation := (pool.node tail).generation }
          generalize server.objects.remove pool
            { id := (pool.node tail).id
              generation := (pool.node tail).generation } = outcome
            at removed ⊢
          obtain ⟨object, objects, after⟩ := outcome
          cases object with
          | none => exact removed
          | some object =>
              exact sweep_ih (registry_solvent.notify hook removed)

theorem releaseAll_solvent
    {pool : SharedObjectPool}
    (solvent : pool.Solvent)
    (objects : SharedNamespace) : (objects.deinit pool).Solvent := by
  unfold SharedNamespace.deinit
  cases objects.ownerHead with
  | none => exact solvent
  | some head =>
      cases objects.ownerTail with
      | none => exact solvent
      | some tail =>
          exact (SharedObjectPool.releaseChain_moves solvent head tail
            objects.count).solvent

theorem deinit_solvent
    {pool : SharedObjectPool}
    (solvent : pool.Solvent)
    (server : SharedServerObjects)
    (hook : Option (RemovalHook (SharedServerObjects × SharedObjectPool))) :
    (server.deinit pool hook).2.Solvent := by
  cases hook with
  | none => exact releaseAll_solvent solvent server.objects
  | some hook =>
      exact releaseAll_solvent
        (@sweep_solvent hook server.objects.count [] (server, pool) solvent) _

end SharedServerObjects

/-! ## Reachable servers -/

namespace SharedClients

/-- A call on the objects of the client in a slot. -/
def onObjects
    (clients : SharedClients)
    (slot : Nat)
    (call : ObjectCall) : SharedClients :=
  match clients.record slot with
  | none => clients
  | some client =>
      let (objects, objectPool) :=
        call.apply client.objects.objects clients.objectPool
      setRecord { clients with objectPool } slot
        (some { client with objects := { objects } })

variable {clients : SharedClients}

/-- A record is at a slot of the server's. -/
theorem lt_of_record
    {slot : Nat} {client : ClientRecord}
    (found : clients.record slot = some client) :
    slot < clients.records.length := by
  unfold record at found
  by_contra outside
  rw [List.getElem?_eq_none (Nat.le_of_not_lt outside)] at found
  cases found

/-- A call on the objects of a client keeps the server sound. -/
theorem Sound.onObjects
    (sound : clients.Sound)
    (slot : Nat)
    (call : ObjectCall) : (clients.onObjects slot call).Sound := by
  unfold SharedClients.onObjects
  cases found : clients.record slot with
  | none => exact sound
  | some client =>
      have solvent := @ObjectCall.apply_solvent clients.objectPool
        client.objects.objects sound.solvent call
      refine sound.of_kept sound.consistent solvent fun index other there => ?_
      rw [@record_setRecord { clients with
        objectPool := (call.apply client.objects.objects
          clients.objectPool).2 } slot (lt_of_record found)] at there
      split_ifs at there with here
      · cases there
        subst here
        exact .inr (sound.present index client found)
      · exact .inl ⟨there, rfl⟩

/-- Serving a client keeps the server sound. -/
theorem Sound.served
    (sound : clients.Sound)
    {reactor : Reactor}
    (served : Reactor.Served clients.reactor reactor) :
    Sound { clients with reactor } where
  consistent := served.consistent
  solvent := sound.solvent
  present slot client found := by
    obtain ⟨same, actor, present⟩ := sound.present slot client found
    exact ⟨same, served.present sound.consistent present⟩

/-- A client that is turned away keeps the server sound. -/
theorem Sound.attachClosing
    (sound : clients.Sound)
    (socketFd : Fd) (config : ActorConfig) (room : Nat) :
    Sound { clients with
      reactor := (clients.reactor.attachClosing socketFd config room).2.2 } := by
  have spec :=
    Reactor.attachClosing_spec sound.consistent socketFd config room
  generalize clients.reactor.attachClosing socketFd config room = outcome
    at spec ⊢
  obtain ⟨result, closed, reactor⟩ := outcome
  cases result with
  | error cause =>
      obtain ⟨_, restored⟩ := spec
      exact sound.of_kept restored.consistent sound.solvent
        fun slot _ found => .inl ⟨found,
          congrArg (Option.map ConnectionRecord.actor) (restored.record slot)⟩
  | ok peer =>
      obtain ⟨_, _, attached⟩ := spec
      refine sound.of_kept attached.consistent sound.solvent
        fun slot client found => .inl ⟨found, ?_⟩
      obtain ⟨rfl, actor, there, _⟩ := sound.present slot client found
      have other : client.peer.slot ≠ peer.slot := by
        intro here
        rw [here, Reactor.actor, attached.vacant] at there
        cases there
      exact congrArg (Option.map ConnectionRecord.actor)
        ((attached.record _).trans (if_neg other))

/-- A closing peer is destroyed, or nothing happens. -/
theorem destroyClosing_eq
    {reactor : Reactor}
    (consistent : reactor.Consistent)
    (peer : Peer) :
    match reactor.destroyClosing peer with
    | (.error _, _, after) => after = reactor
    | (.ok _, _, after) => after.Consistent ∧ ∀ slot, after.actor slot =
        if slot = peer.slot then none else reactor.actor slot := by
  have spec := Reactor.destroyPeer_spec consistent peer
  unfold Reactor.destroyClosing
  cases reactor.getRecord peer with
  | error cause => rfl
  | ok record =>
      dsimp only
      generalize reactor.destroyPeer peer = outcome at spec ⊢
      obtain ⟨result, after⟩ := outcome
      cases result with
      | error cause => exact spec
      | ok _ =>
          obtain ⟨actor, destroyed⟩ := spec
          exact ⟨destroyed.consistent, destroyed.actor⟩

/-- A connection that no client record names can be released. -/
theorem Sound.destroyClosing
    (sound : clients.Sound)
    {peer : Peer}
    (unclaimed : clients.record peer.slot = none) :
    Sound { clients with
      reactor := (clients.reactor.destroyClosing peer).2.2 } := by
  have spec := destroyClosing_eq sound.consistent peer
  generalize clients.reactor.destroyClosing peer = outcome at spec ⊢
  obtain ⟨result, closed, reactor⟩ := outcome
  cases result with
  | error cause =>
      cases spec
      exact sound
  | ok _ =>
      refine sound.of_kept spec.1 sound.solvent
        fun slot client found => .inl ⟨found, ?_⟩
      refine (spec.2 slot).trans (if_neg ?_)
      rintro rfl
      exact Option.some_ne_none client (found.symm.trans unclaimed)

/-- A client that leaves keeps the server sound. -/
theorem Sound.destroy
    (sound : clients.Sound)
    (peer : Peer)
    (hook : Option
      (RemovalHook (SharedServerObjects × SharedObjectPool))) :
    (clients.destroy peer hook).2.2.Sound := by
  unfold SharedClients.destroy
  cases clients.reactor.getActor peer with
  | error cause => exact sound
  | ok actor =>
      dsimp only
      split_ifs with busy
      · exact sound
      cases got : clients.get peer with
      | error cause => exact sound
      | ok client =>
          have inside : peer.slot < clients.records.length := by
            unfold SharedClients.get at got
            cases found : clients.record peer.slot with
            | some client => exact lt_of_record found
            | none =>
                rw [found] at got
                cases actorFound : clients.reactor.getActor peer with
                | error cause =>
                    rw [actorFound] at got
                    cases got
                | ok actor =>
                    rw [actorFound] at got
                    cases got
          have written := @record_setRecord { clients with
            objectPool := (client.objects.deinit clients.objectPool hook).2 }
            peer.slot inside none
          have cleared : Sound (setRecord { clients with
              objectPool := (client.objects.deinit clients.objectPool hook).2 }
              peer.slot none) := by
            refine sound.of_kept sound.consistent
              (SharedServerObjects.deinit_solvent sound.solvent client.objects
                hook) fun slot other there => ?_
            rw [written] at there
            split_ifs at there
            exact .inl ⟨there, rfl⟩
          have released := @Sound.destroyClosing _ cleared peer
            ((written peer.slot).trans (if_pos rfl))
          simp only [setRecord] at released ⊢
          generalize clients.reactor.destroyClosing peer = outcome
            at released ⊢
          obtain ⟨result, closed, reactor⟩ := outcome
          cases result with
          | error cause => exact released
          | ok _ => exact released

end SharedClients

namespace Runtime

/-- The states of a server from its start.  Its listener is armed, stopped, and
completed; clients are admitted, served, and released; and the reactor may have
connections that are nobody's client. -/
inductive Reachable (display : Interface) : Runtime → Prop
  | init
    {free sendDescriptorCapacity sendControlStride : Nat}
    {fragmentBlocks : SharedBlocks}
    {storage : Storage}
    {objectCapacity objectQuota bucketsPerClient : Nat}
    {granted : Bool}
    {clients : SharedClients}
    (fd : Fd)
    (actorConfig : ActorConfig)
    (created : SharedClients.init
        (Reactor.start free sendDescriptorCapacity sendControlStride
          fragmentBlocks storage)
        objectCapacity objectQuota bucketsPerClient granted = .ok clients) :
      Reachable display { endpoint := { fd }, clients, actorConfig }
  | prepareAccept
    {runtime : Runtime}
    (before : Reachable display runtime) :
      Reachable display
        (runtime.onListener fun listener shared =>
          listener.prepare shared runtime.endpoint.fd).2
  | prepareStop
    {runtime : Runtime}
    (before : Reachable display runtime) :
      Reachable display (runtime.onListener Listener.prepareStop).2
  | onCompletion
    {runtime : Runtime}
    (completion : Cqe)
    (displayContext : Option Nat)
    (answers : AdmissionAnswers)
    (before : Reachable display runtime) :
      Reachable display
        (runtime.onCompletion display completion displayContext answers).2.2
  | completeListener
    {runtime : Runtime}
    (completion : Cqe)
    (displayContext : Option Nat)
    (answers : AdmissionAnswers)
    (before : Reachable display runtime) :
      Reachable display
        (runtime.completeListener display completion displayContext
          answers).2.2
  | served
    {runtime : Runtime}
    {reactor : Reactor}
    (served : Reactor.Served runtime.clients.reactor reactor)
    (before : Reachable display runtime) :
      Reachable display
        { runtime with clients := { runtime.clients with reactor } }
  | attachClosing
    {runtime : Runtime}
    (socketFd : Fd)
    (config : ActorConfig)
    (room : Nat)
    (before : Reachable display runtime) :
      Reachable display
        { runtime with clients := { runtime.clients with
          reactor := (runtime.clients.reactor.attachClosing socketFd config
            room).2.2 } }
  | destroyClosing
    {runtime : Runtime}
    {peer : Peer}
    (unclaimed : runtime.clients.record peer.slot = none)
    (before : Reachable display runtime) :
      Reachable display
        { runtime with clients := { runtime.clients with
          reactor := (runtime.clients.reactor.destroyClosing peer).2.2 } }
  | onObjects
    {runtime : Runtime}
    (slot : Nat)
    (call : ObjectCall)
    (before : Reachable display runtime) :
      Reachable display
        { runtime with clients := runtime.clients.onObjects slot call }
  | destroy
    {runtime : Runtime}
    (peer : Peer)
    (hook : Option (RemovalHook (SharedServerObjects × SharedObjectPool)))
    (before : Reachable display runtime) :
      Reachable display
        { runtime with clients := (runtime.clients.destroy peer hook).2.2 }

variable {runtime : Runtime} {display : Interface}

/-- A new server is sound. -/
theorem sound_init
    {free sendDescriptorCapacity sendControlStride objectCapacity objectQuota
      bucketsPerClient : Nat}
    {fragmentBlocks : SharedBlocks} {storage : Storage} {granted : Bool}
    {clients : SharedClients}
    (created : SharedClients.init
      (Reactor.start free sendDescriptorCapacity sendControlStride
        fragmentBlocks storage)
      objectCapacity objectQuota bucketsPerClient granted = .ok clients) :
    clients.Sound := by
  unfold SharedClients.init at created
  split_ifs at created with invalid
  unfold SharedObjectPool.init at created
  split_ifs at created
  · cases created
  · cases created
    exact
      { consistent :=
          { slots := Slots.wellFormed_empty
            active := fun _ => rfl
            named := fun _ _ found => nomatch found }
        solvent := Nat.zero_le _
        present := fun _ _ found => nomatch found }
  · cases created

/-- A completion of the listener keeps the server sound. -/
theorem completeListener_sound
    (sound : runtime.clients.Sound)
    (completion : Cqe) (displayContext : Option Nat)
    (answers : AdmissionAnswers) :
    (runtime.completeListener display completion displayContext
      answers).2.2.clients.Sound := by
  unfold completeListener
  generalize runtime.endpoint.listener.complete completion = outcome
  obtain ⟨result, closed, listener⟩ := outcome
  cases result with
  | error cause => exact sound
  | ok event =>
      cases event with
      | acceptStopped => exact sound
      | cancelComplete => exact sound
      | accepted new =>
          have admitted := SharedClients.admit_spec sound display new
            runtime.actorConfig displayContext answers
          dsimp only
          generalize runtime.clients.admitPeer display new runtime.actorConfig
            displayContext answers = outcome at admitted ⊢
          obtain ⟨result, closed, clients⟩ := outcome
          cases result with
          | error cause => exact admitted.2.sound sound
          | ok peer => exact admitted.2.sound sound

/-- Every client of a reachable server has its connection. -/
theorem Reachable.sound
    (reached : Reachable display runtime) : runtime.clients.Sound := by
  induction reached with
  | init fd actorConfig created => exact sound_init created
  | prepareAccept before sound_ih =>
      exact ⟨sound_ih.consistent.withRing _, sound_ih.solvent, sound_ih.present⟩
  | prepareStop before sound_ih =>
      exact ⟨sound_ih.consistent.withRing _, sound_ih.solvent, sound_ih.present⟩
  | @onCompletion runtime completion displayContext answers before sound_ih =>
      have completed := @completeListener_sound runtime display sound_ih
        completion displayContext answers
      unfold Runtime.onCompletion
      generalize runtime.clients.reactor.routeAny
        (some runtime.endpoint.listener) completion = routed
      obtain ⟨target, closed⟩ := routed
      cases target with
      | none => exact sound_ih
      | some target =>
          cases target with
          | listener => exact completed
          | connection routed => exact sound_ih
  | completeListener completion displayContext answers before sound_ih =>
      exact completeListener_sound sound_ih completion displayContext answers
  | served served before sound_ih => exact sound_ih.served served
  | attachClosing socketFd config room before sound_ih =>
      exact sound_ih.attachClosing socketFd config room
  | destroyClosing unclaimed before sound_ih =>
      exact sound_ih.destroyClosing unclaimed
  | onObjects slot call before sound_ih => exact sound_ih.onObjects slot call
  | destroy peer hook before sound_ih => exact sound_ih.destroy peer hook

/-- From every state that a server reaches, whatever the kernel and the
allocator answer: an accept that completes, routed or given to the listener
directly, has its descriptor in the connection of exactly one new client or
closes it once, and then the count of active slots, all connection and client
records, the submission queue, and the count of objects in use are as before.
Without a listener the descriptor is closed.  A socket that is attached without
an accept has its connection, with its receive queued or not, or is closed in
the same way. -/
theorem accepted_descriptors_are_owned_or_closed
    (reached : Reachable display runtime)
    (displayContext : Option Nat)
    (answers : AdmissionAnswers) :
    (∀ completion token,
      Token.decode completion.userData = .ok token →
      token.operation = .accept →
      Settled completion runtime
          (runtime.onCompletion display completion displayContext answers) ∧
        Settled completion runtime
          (runtime.completeListener display completion displayContext
            answers) ∧
        runtime.clients.reactor.routeAny none completion =
          (none, (Listener.accepted completion).toList)) ∧
    ∀ socketFd config room,
      (match runtime.clients.reactor.attachReceiving socketFd config room with
        | (.error _, closed, after) => closed = [socketFd] ∧
            Reactor.Restored runtime.clients.reactor after
        | (.ok peer, closed, after) => closed = [] ∧
            Reactor.Receiving runtime.clients.reactor after peer socketFd) ∧
      match runtime.clients.reactor.attachClosing socketFd config room with
      | (.error _, closed, after) => closed = [socketFd] ∧
          Reactor.Restored runtime.clients.reactor after
      | (.ok peer, closed, after) => closed = [] ∧
          after.ring = runtime.clients.reactor.ring ∧
          ∃ record, record.fd = socketFd ∧
            Reactor.Attached runtime.clients.reactor after peer record := by
  have sound := reached.sound
  refine ⟨fun completion token decoded isAccept =>
      ⟨onCompletion_settled sound decoded isAccept display displayContext
          answers,
        completeListener_settled sound decoded isAccept display displayContext
          answers, ?_⟩,
    fun socketFd config room =>
      ⟨Reactor.attachReceiving_spec sound.consistent socketFd config room, ?_⟩⟩
  · simp only [Reactor.routeAny, decoded, isAccept, Option.any_none,
      Bool.false_eq_true, if_false, if_true]
    rfl
  · have attached :=
      Reactor.attachClosing_spec sound.consistent socketFd config room
    generalize runtime.clients.reactor.attachClosing socketFd config room =
      outcome at attached ⊢
    obtain ⟨result, closed, after⟩ := outcome
    cases result with
    | error cause => exact attached
    | ok peer => exact ⟨attached.1, attached.2.1, _, rfl, attached.2.2⟩

/-! ### A sample accept -/

/-- A display without messages. -/
def hostingDisplay : Interface where
  name := "wl_display"
  version := 1
  requests := []
  events := []

/-- A server before its first accept. -/
def hostingRuntime : Runtime where
  endpoint := { fd := 3 }
  clients :=
    { reactor := Reactor.start 8 4 64 { blockSize := 4 }
        { blocks := { blockSize := 4 }, fds := {} }
      objectPool :=
        { nodes := [{ ownerNext := none }]
          freeHead := some 0
          availableCount := 1 }
      objectQuota := 2
      bucketsPerClient := 2 }
  actorConfig :=
    { receivedFdBudget := 4, transmitByteBudget := 64, transmitFdBudget := 4 }

/-- The server with its accept armed. -/
def armedRuntime : Runtime :=
  (hostingRuntime.onListener fun listener shared =>
    listener.prepare shared hostingRuntime.endpoint.fd).2

/-- An accept of descriptor 9. -/
def sampleAccept : Cqe where
  userData := (Listener.token 1 .accept).encode
  result := .count 9
  more := true

/-- There is room for the connection, but not for the buckets of the client. -/
def sampleAnswers : AdmissionAnswers where
  credentials := some ({ pid := 1, uid := 2, gid := 3 }, 12)
  attachRoom := 8
  room := 2

theorem accepted_descriptors_are_owned_or_closed_sample :
    let outcome := armedRuntime.onCompletion hostingDisplay sampleAccept none
      sampleAnswers
    outcome.1 = .error .outOfMemory ∧ outcome.2.1 = [9] ∧
      SharedClients.Untouched armedRuntime.clients outcome.2.2.clients := by
  have created : SharedClients.init
      (Reactor.start 8 4 64 { blockSize := 4 }
        { blocks := { blockSize := 4 }, fds := {} })
      1 2 2 true = .ok hostingRuntime.clients := rfl
  have reached : Reachable hostingDisplay armedRuntime :=
    .prepareAccept (.init 3 hostingRuntime.actorConfig created)
  have settled := ((accepted_descriptors_are_owned_or_closed reached none
    sampleAnswers).1 sampleAccept (Listener.token 1 .accept)
    (Token.decode_encode (by decide) (by decide)) rfl).1
  have failed : (armedRuntime.onCompletion hostingDisplay sampleAccept none
      sampleAnswers).1 = .error .outOfMemory := by decide +kernel
  generalize armedRuntime.onCompletion hostingDisplay sampleAccept none
    sampleAnswers = outcome at settled failed ⊢
  obtain ⟨result, closed, after⟩ := outcome
  cases failed
  exact ⟨rfl, settled⟩

end Runtime
end Wayring
