import Wayring.Server.Tenancy

/-!
# A slot's next client

Clients come and go, and slots stay.  Unless a registry was refused for lack of
a node in a slot without a stamp, a client leaves its slot as it was before any
client had it, and the next one is served as the first one was.
-/

namespace Wayring
namespace Publisher

variable {Clients : Type} {hosts : Hosts Clients}
  {publisher later : Publisher Clients} {peer : Peer} {registry : Handle}
  {grants : PublisherGrants}

/-! ## Storage -/

/-- The storage that a registry of the peer takes is there or granted. -/
structure Affords
    (publisher : Publisher Clients)
    (peer : Peer)
    (grants : PublisherGrants) : Prop where
  place : peer.slot < publisher.publishBlocked.length ∨ grants.blocked = true
  slot : peer.slot < publisher.registries.slots.length ∨ grants.slot = true
  node : ¬publisher.registries.Exhausted grants.node
  offers : grants.offers = true

/-- The storage that a sync of the peer takes is there or granted. -/
structure AffordsSync
    (publisher : Publisher Clients)
    (peer : Peer)
    (grants : PublisherGrants) : Prop where
  place : peer.slot < publisher.publishBlocked.length ∨ grants.blocked = true
  slot : peer.slot < publisher.syncBarriers.slots.length ∨ grants.slot = true
  node : ¬publisher.syncBarriers.Exhausted grants.node

/-- A registry of the peer would stamp its slot and get no node. -/
def Strands
    (publisher : Publisher Clients)
    (peer : Peer)
    (grants : PublisherGrants) : Prop :=
  (peer.slot < publisher.publishBlocked.length ∨ grants.blocked = true) ∧
    publisher.registries.Strands peer grants.slot grants.node

/-- What a new registry of the peer is owed: every global that it can see. -/
def listing
    (hosts : Hosts Clients)
    (publisher : Publisher Clients)
    (peer : Peer) : List Offer :=
  (publisher.globals.entries.filter fun entry =>
    publisher.visibleTo hosts peer entry.1 entry.2).map fun entry =>
      { global := entry.1
        state := .addPending
        epoch := publisher.registries.epoch + 1 }

/-- A place in the order of publication is there or granted. -/
theorem reservePublishSlot_ok_iff
    {slot : Nat} {granted : Bool} :
    (publisher.reservePublishSlot slot granted).1 = .ok () ↔
      slot < publisher.publishBlocked.length ∨ granted = true := by
  unfold reservePublishSlot
  split_ifs <;> simp_all

/-! ## Subscribing -/

/-- A registry that is refused leaves the subscriptions as they were unless its
slot is stranded.  One that is accepted is owed every visible global. -/
theorem Core.subscribe_spec
    {reply : Reply Clients Unit}
    (core : publisher.Core)
    (nonzero : peer.generation ≠ 0)
    (range : 2 ≤ registry.id ∧ registry.id < serverIdStart)
    (inhabited : publisher.registries.generation peer.slot ≠ 0 →
      (publisher.registries.slot peer.slot).count ≠ 0)
    (subscribes : publisher.subscribe hosts peer registry grants =
      some reply) :
    reply.publisher.syncBarriers = publisher.syncBarriers ∧
      match reply.result with
      | .error _ =>
          publisher.registries.Same reply.publisher.registries ↔
            ¬publisher.Strands peer grants
      | .ok _ =>
          reply.publisher.registries.known peer registry =
            some (publisher.listing hosts peer) ∧
          (∀ slot, reply.publisher.registries.generation slot =
            if slot = peer.slot then peer.generation
            else publisher.registries.generation slot) ∧
          ∀ slot, slot = peer.slot ∨
              (publisher.registries.slot slot).count ≠ 0 →
            (reply.publisher.registries.slot slot).count ≠ 0 := by
  obtain ⟨sameRegistries, sameBarriers, sameGlobals, -⟩ :=
    @reservePublishSlot_same Clients publisher peer.slot grants.blocked
  have sameClients := @reservePublishSlot_clients Clients publisher peer.slot
    grants.blocked
  have places := @reservePublishSlot_ok_iff Clients publisher peer.slot
    grants.blocked
  unfold Publisher.subscribe at subscribes
  cases reserved : publisher.reservePublishSlot peer.slot grants.blocked with
  | mk result first =>
  rw [reserved] at sameRegistries sameBarriers sameGlobals sameClients
  rw [reserved] at places subscribes
  simp only at sameRegistries sameBarriers sameGlobals sameClients places
  cases result with
  | error cause =>
      cases subscribes
      refine ⟨sameBarriers, ?_⟩
      change publisher.registries.Same first.registries ↔ _
      rw [sameRegistries]
      refine iff_of_true .refl fun strands => ?_
      cases places.mpr strands.1
  | ok _ =>
  have place := places.mp rfl
  dsimp only at subscribes
  cases added : first.registries.add peer registry grants.slot grants.node with
  | mk result registries =>
  rw [added] at subscribes
  rw [sameRegistries] at added
  cases result with
  | error cause =>
      cases subscribes
      refine ⟨sameBarriers, ?_⟩
      have refused := core.registries.add_refused nonzero added
      exact refused.trans (not_congr (and_iff_right place).symm)
  | ok index =>
  dsimp only at subscribes
  have spared : ¬publisher.Strands peer grants := by
    rintro ⟨-, granted, unstamped, exhausted⟩
    have fresh := (core.registries.known_add nonzero range added 0 []).1
    have adds := core.registries.add_ok_iff nonzero (Or.inl unstamped) fresh
      grants.slot grants.node
    exact (adds.mp ⟨index, congrArg Prod.fst added⟩).2 exhausted
  cases offers : grants.offers with
  | false =>
      rw [offers] at subscribes
      simp only [Bool.not_false, if_true] at subscribes
      cases removed : registries.remove peer registry with
      | mk result restored =>
      rw [removed] at subscribes
      cases result with
      | error cause => cases subscribes
      | ok _ =>
          cases subscribes
          refine ⟨sameBarriers, iff_of_true ?_ spared⟩
          exact core.registries.add_remove range nonzero inhabited added removed
  | true =>
      rw [offers] at subscribes
      cases subscribes
      refine ⟨sameBarriers, ?_, ?_⟩
      · obtain ⟨-, -, -, epoch, -, -, -, known⟩ :=
          core.registries.known_add nonzero range added (registries.epoch + 1)
            (publisher.listing hosts peer)
        have sees : ∀ handle global,
            first.visibleTo hosts peer handle global =
              publisher.visibleTo hosts peer handle global := by
          intro handle global
          unfold visibleTo
          rw [sameClients]
        have owed := known peer registry
        rw [if_pos ⟨rfl, rfl⟩] at owed
        rw [← owed]
        unfold listing
        simp only [sees, sameGlobals, ← epoch]
        rfl
      · obtain ⟨chains, free, listed⟩ := core.registries
        obtain ⟨⟨vacant, laterListed⟩, -, -, stamps, -⟩ :=
          listed.add_ok range nonzero added
        refine ⟨stamps, fun slot kept => ?_⟩
        change (registries.slot slot).count ≠ 0
        rw [laterListed.count]
        by_cases here : slot = peer.slot
        · subst here
          rw [Function.update_self]
          simp
        · rw [Function.update_of_ne here, ← listed.count]
          exact kept.resolve_left here

/-- A registry of a peer that its slot does not keep out is accepted where
there is storage for it. -/
theorem Core.subscribe_ok_iff
    {reply : Reply Clients Unit}
    (core : publisher.Core)
    (nonzero : peer.generation ≠ 0)
    (welcome : publisher.registries.generation peer.slot = 0 ∨
      publisher.registries.generation peer.slot = peer.generation)
    (fresh : publisher.registries.known peer registry = none)
    (subscribes : publisher.subscribe hosts peer registry grants =
      some reply) :
    reply.result = .ok () ↔ publisher.Affords peer grants := by
  obtain ⟨sameRegistries, -⟩ :=
    @reservePublishSlot_same Clients publisher peer.slot grants.blocked
  have places := @reservePublishSlot_ok_iff Clients publisher peer.slot
    grants.blocked
  have adds := core.registries.add_ok_iff nonzero welcome fresh grants.slot
    grants.node
  unfold Publisher.subscribe at subscribes
  cases reserved : publisher.reservePublishSlot peer.slot grants.blocked with
  | mk result first =>
  rw [reserved] at sameRegistries places subscribes
  simp only at sameRegistries places
  cases result with
  | error cause =>
      cases subscribes
      refine iff_of_false (fun answer => by cases answer) fun affords => ?_
      cases places.mpr affords.place
  | ok _ =>
  have place := places.mp rfl
  dsimp only at subscribes
  cases added : first.registries.add peer registry grants.slot grants.node with
  | mk result registries =>
  rw [added] at subscribes
  rw [← sameRegistries, added] at adds
  rw [sameRegistries] at adds
  cases result with
  | error cause =>
      cases subscribes
      refine iff_of_false (fun answer => by cases answer) fun affords => ?_
      obtain ⟨index, is⟩ := adds.mpr ⟨affords.slot, affords.node⟩
      cases is
  | ok index =>
  dsimp only at subscribes
  obtain ⟨slot, node⟩ := adds.mp ⟨index, rfl⟩
  cases offers : grants.offers with
  | false =>
      rw [offers] at subscribes
      simp only [Bool.not_false, if_true] at subscribes
      cases removed : registries.remove peer registry with
      | mk result restored =>
      rw [removed] at subscribes
      cases result with
      | error cause => cases subscribes
      | ok _ =>
          cases subscribes
          refine iff_of_false (fun answer => by cases answer) fun affords => ?_
          cases offers.symm.trans affords.offers
  | true =>
      rw [offers] at subscribes
      cases subscribes
      exact iff_of_true rfl ⟨place, slot, node, offers⟩

/-- What the runtime relies on does not depend on the clients. -/
theorem Core.besides
    (core : publisher.Core)
    (clients : Clients) : Core { publisher with clients } :=
  ((Follows.refl core).withClients clients).core

/-- Stamps stay good while clients stay. -/
theorem Tenanted.besides
    {clients : Clients}
    (tenanted : Tenanted hosts publisher)
    (stay : hosts.Stay publisher.clients clients) :
    Tenanted hosts { publisher with clients } :=
  ⟨tenanted.inhabited,
    fun slot stamped => stay _ (tenanted.registered slot stamped),
    fun slot stamped => stay _ (tenanted.waiting slot stamped)⟩

/-- What a request for a registry can come to. -/
inductive Subscribing
    (hosts : Hosts Clients)
    (publisher : Publisher Clients)
    (peer : Peer) (name : Nat) (context : Option Nat)
    (grants : PublisherGrants) : Reply Clients DisplayAction → Prop
  | absent {cause : Error}
      (gone : hosts.get publisher.clients peer = .error cause) :
      Subscribing hosts publisher peer name context grants
        (.failed (.base cause) publisher)
  | unmade {cause : Error} {clients : Clients}
      (there : hosts.get publisher.clients peer = .ok ())
      (inserted : hosts.insertClient publisher.clients peer name wlRegistry 1
        context = (.error cause, clients)) :
      Subscribing hosts publisher peer name context grants
        (.failed (.base cause) { publisher with clients })
  | refused {registry : Handle} {clients last : Clients}
      {inner : Reply Clients Unit} {cause : GlobalError}
      (there : hosts.get publisher.clients peer = .ok ())
      (inserted : hosts.insertClient publisher.clients peer name wlRegistry 1
        context = (.ok registry, clients))
      (subscribes : subscribe hosts { publisher with clients } peer registry
        grants = some inner)
      (result : inner.result = .error cause)
      (cancels : hosts.cancelClient inner.publisher.clients peer registry =
        some last) :
      Subscribing hosts publisher peer name context grants
        { result := .error cause
          notices := inner.notices
          publisher := { inner.publisher with clients := last } }
  | made {registry : Handle} {clients : Clients} {inner : Reply Clients Unit}
      (there : hosts.get publisher.clients peer = .ok ())
      (inserted : hosts.insertClient publisher.clients peer name wlRegistry 1
        context = (.ok registry, clients))
      (subscribes : subscribe hosts { publisher with clients } peer registry
        grants = some inner)
      (result : inner.result = .ok ()) :
      Subscribing hosts publisher peer name context grants
        { result := .ok (.getRegistry registry)
          notices := inner.notices
          publisher := inner.publisher }

theorem subscribing
    {name : Nat} {context : Option Nat} {reply : Reply Clients DisplayAction}
    (replies : publisher.displayRequest hosts peer (.getRegistry name) context
      grants = some reply) :
    Subscribing hosts publisher peer name context grants reply := by
  unfold Publisher.displayRequest at replies
  cases got : hosts.get publisher.clients peer with
  | error cause =>
      rw [got] at replies
      cases replies
      exact .absent got
  | ok there =>
  cases there
  rw [got] at replies
  dsimp only at replies
  cases inserted : hosts.insertClient publisher.clients peer name wlRegistry 1
      context with
  | mk result clients =>
  rw [inserted] at replies
  cases result with
  | error cause =>
      cases replies
      exact .unmade got inserted
  | ok registry =>
      obtain ⟨inner, subscribes, rest⟩ := Option.bind_eq_some_iff.mp replies
      cases result : inner.result with
      | error cause =>
          rw [result] at rest
          obtain ⟨last, cancels, ⟨⟩⟩ := Option.bind_eq_some_iff.mp rest
          exact .refused got inserted subscribes result cancels
      | ok answer =>
          rw [result] at rest
          cases rest
          exact .made got inserted subscribes result

/-- The call asks for a registry that would strand its slot. -/
def Call.Strands
    (hosts : Hosts Clients)
    (publisher : Publisher Clients) : Call Clients → Prop
  | .displayRequest peer (.getRegistry name) context grants =>
      hosts.get publisher.clients peer = .ok () ∧
        (∃ registry, (hosts.insertClient publisher.clients peer name wlRegistry
          1 context).1 = .ok registry) ∧
        publisher.Strands peer grants
  | _ => False

/-- A sync of a peer that its slot does not keep out is accepted where there is
storage for it. -/
theorem Core.completeSync_ok_iff
    {callback : Handle} {callbackData : Nat} {object : Object}
    (core : publisher.Core)
    (there : hosts.get publisher.clients peer = .ok ())
    (resolved : (hosts.resolve publisher.clients peer callback).1 = some object)
    (interface : object.interface = Server.wlCallback)
    (welcome : publisher.syncBarriers.generation peer.slot = 0 ∨
      publisher.syncBarriers.generation peer.slot = peer.generation) :
    let reply := publisher.completeSync hosts peer callback callbackData grants
    (reply.result = .ok () ↔ publisher.AffordsSync peer grants) ∧
      (reply.result = .ok () →
        reply.publisher.syncBarriers.tickets peer =
          publisher.syncBarriers.tickets peer ++
            [(callback, publisher.registries.epoch)]) := by
  have nonzero := hosts.generation_ne_zero there
  unfold Publisher.completeSync
  rw [there]
  cases found : hosts.resolve publisher.clients peer callback with
  | mk content clients =>
  rw [found] at resolved
  cases resolved
  dsimp only
  rw [if_neg (not_not.mpr interface)]
  obtain ⟨sameRegistries, sameBarriers, -⟩ := @reservePublishSlot_same Clients
    { publisher with clients } peer.slot grants.blocked
  have places := @reservePublishSlot_ok_iff Clients
    { publisher with clients } peer.slot grants.blocked
  cases reserved : reservePublishSlot { publisher with clients } peer.slot
      grants.blocked with
  | mk result first =>
  rw [reserved] at sameRegistries sameBarriers places
  simp only at sameRegistries sameBarriers places
  cases result with
  | error cause =>
      refine ⟨iff_of_false (fun answer => by cases answer) fun affords => ?_,
        fun answer => by cases answer⟩
      cases places.mpr affords.place
  | ok _ =>
  have place := places.mp rfl
  have adds := @SyncBarriers.add_ok_iff publisher.syncBarriers peer callback
    callbackData first.registries.epoch grants.slot grants.node welcome
  rw [sameRegistries] at adds
  dsimp only
  rw [sameBarriers, sameRegistries]
  cases added : publisher.syncBarriers.add peer callback callbackData
      publisher.registries.epoch grants.slot grants.node with
  | mk result syncBarriers =>
  rw [added] at adds
  cases result with
  | error cause =>
      refine ⟨iff_of_false (fun answer => by cases answer) fun affords => ?_,
        fun answer => by cases answer⟩
      cases adds.mpr ⟨affords.slot, affords.node⟩
  | ok _ =>
      obtain ⟨slot, node⟩ := adds.mp rfl
      refine ⟨iff_of_true rfl ⟨place, slot, node⟩, fun _ => ?_⟩
      obtain ⟨-, -, tickets⟩ := core.barriers.tickets_add nonzero added
      change syncBarriers.tickets peer = _
      rw [tickets, Function.update_self]

/-! ## Leaving -/

/-- No slot is stamped for another client than the one that is there. -/
theorem Tenanted.welcome
    (tenanted : Tenanted hosts publisher)
    (lasting : hosts.Lasting)
    (there : hosts.get publisher.clients peer = .ok ()) :
    (publisher.registries.generation peer.slot = 0 ∨
        publisher.registries.generation peer.slot = peer.generation) ∧
      (publisher.syncBarriers.generation peer.slot = 0 ∨
        publisher.syncBarriers.generation peer.slot = peer.generation) := by
  constructor
  · by_contra! stamped
    have same := lasting.unique there (tenanted.registered _ stamped.1) rfl
    exact stamped.2 (congrArg Peer.generation same)
  · by_contra! stamped
    have same := lasting.unique there (tenanted.waiting _ stamped.1) rfl
    exact stamped.2 (congrArg Peer.generation same)

/-- What changes the clients besides the runtime lets none of them go. -/
def Call.Keeps
    (hosts : Hosts Clients) : Call Clients → Prop
  | .elsewhere change => ∀ clients, hosts.Stay clients (change clients)
  | _ => True

/-- No call of a run strands a slot. -/
def Spared
    (hosts : Hosts Clients) : List (Call Clients) → Publisher Clients → Prop
  | [], _ => True
  | call :: calls, publisher =>
      ¬Call.Strands hosts publisher call ∧
        ∀ notices later, publisher.step hosts call = some (notices, later) →
          Spared hosts calls later

/-- A call that strands no slot, before others that strand none. -/
theorem Spared.cons
    {call : Call Clients} {calls : List (Call Clients)} {notices : List Notice}
    (spared : ¬Call.Strands hosts publisher call)
    (steps : publisher.step hosts call = some (notices, later))
    (rest : Spared hosts calls later) :
    Spared hosts (call :: calls) publisher := by
  refine ⟨spared, fun others last again => ?_⟩
  cases steps.symm.trans again
  exact rest

/-- The slot of a client is its own, or as it was before any client had it.
Storage decides whether a registry or a sync of the client is accepted, and what
it is owed comes in the end. -/
structure Open
    (hosts : Hosts Clients)
    (publisher : Publisher Clients)
    (peer : Peer) : Prop where
  registered : publisher.registries.generation peer.slot = peer.generation ∨
    publisher.registries.slot peer.slot = {}
  waiting : publisher.syncBarriers.generation peer.slot = peer.generation ∨
    publisher.syncBarriers.slot peer.slot = {}
  subscribes : ∀ {name context grants registry clients},
    hosts.insertClient publisher.clients peer name wlRegistry 1 context =
        (.ok registry, clients) →
      publisher.registries.slot peer.slot = {} ∨
          publisher.registries.known peer registry = none →
        ∃ reply, publisher.displayRequest hosts peer (.getRegistry name) context
            grants = some reply ∧
          (reply.result = .ok (.getRegistry registry) ↔
            publisher.Affords peer grants) ∧
          (reply.result = .ok (.getRegistry registry) →
            reply.publisher.registries.known peer registry =
              some (listing hosts { publisher with clients } peer))
  syncs : ∀ {callback callbackData grants object},
    (hosts.resolve publisher.clients peer callback).1 = some object →
      object.interface = Server.wlCallback →
        let reply := publisher.completeSync hosts peer callback callbackData
          grants
        (reply.result = .ok () ↔ publisher.AffordsSync peer grants) ∧
          (reply.result = .ok () →
            reply.publisher.syncBarriers.tickets peer =
              publisher.syncBarriers.tickets peer ++
                [(callback, publisher.registries.epoch)])
  settles : ∀ {reply}, publisher.publishNext hosts = some reply →
    reply.result = .ok .complete →
      hosts.canDispatch publisher.clients peer = true →
        publisher.publishBlocked[peer.slot]? ≠ some peer.generation →
          (∀ registry global,
              (reply.publisher.stage peer registry global).since = none) ∧
            reply.publisher.syncBarriers.tickets peer = []

/-- A complete pass leaves nothing owed to a client that its slot does not keep
out. -/
theorem Core.settles_of_welcome
    {reply : Reply Clients PublishResult}
    (core : publisher.Core)
    (roomy : publisher.Roomy)
    (there : hosts.get publisher.clients peer = .ok ())
    (registered : publisher.registries.generation peer.slot = 0 ∨
      publisher.registries.generation peer.slot = peer.generation)
    (waiting : publisher.syncBarriers.generation peer.slot = 0 ∨
      publisher.syncBarriers.generation peer.slot = peer.generation)
    (publishes : publisher.publishNext hosts = some reply)
    (complete : reply.result = .ok .complete)
    (dispatches : hosts.canDispatch publisher.clients peer = true)
    (unblocked : publisher.publishBlocked[peer.slot]? ≠ some peer.generation) :
    reply.publisher.ledger.Settled peer := by
  have nonzero := hosts.generation_ne_zero there
  obtain ⟨drops, settles⟩ := core.visit_complete roomy publishes complete
    (ahead_nodup (Nat.le_refl _))
  by_cases idle : publisher.registries.generation peer.slot = 0 ∧
      publisher.syncBarriers.generation peer.slot = 0
  · obtain ⟨unregistered, unstamped⟩ := idle
    have settled : publisher.ledger.Settled peer := by
      refine ⟨fun registry global => ?_, ?_⟩
      · have unknown : publisher.registries.known peer registry = none := by
          apply core.registries.known_of_stale
          rw [unregistered]
          exact nonzero.symm
        change (publisher.stage peer registry global).since = none
        rw [stage_of_unknown unknown]
        rfl
      · apply SyncBarriers.tickets_of_stale
        rw [unstamped]
        exact nonzero.symm
    obtain ⟨same, visits, follows⟩ :=
      core.visit roomy hosts publisher.slotCount publisher.slotCount
    cases visits.symm.trans publishes
    exact settled.path drops follows.path
  · have visited : publisher.publicationPeer peer.slot = some peer := by
      unfold publicationPeer
      split_ifs with stamped unstamped
      · rw [registered.resolve_left stamped]
      · rw [waiting.resolve_left unstamped]
      · exact absurd ⟨not_not.mp stamped, not_not.mp unstamped⟩ idle
    exact settles peer (mem_ahead (publicationPeer_slot visited).2)
      ⟨visited, unblocked, dispatches, there⟩

/-- Where every stamp is for a client that is there, every client that is there
has a slot of its own. -/
theorem Core.opens
    (core : publisher.Core)
    (roomy : publisher.Roomy)
    (lasting : hosts.Lasting)
    (tenanted : Tenanted hosts publisher)
    (there : hosts.get publisher.clients peer = .ok ()) :
    Open hosts publisher peer := by
  have nonzero := hosts.generation_ne_zero there
  obtain ⟨registered, waiting⟩ := tenanted.welcome lasting there
  refine ⟨registered.symm.imp_right core.registries.slot_of_unstamped,
    waiting.symm.imp_right core.barriers.slot_of_unstamped, ?_, ?_, ?_⟩
  · intro name context grants registry clients inserted fresh
    have unknown : publisher.registries.known peer registry = none := by
      rcases fresh with empty | unknown
      · apply core.registries.known_of_stale
        rw [RegistrySubscriptions.generation, empty]
        exact nonzero.symm
      · exact unknown
    obtain ⟨reply, replies, -⟩ :=
      core.displayRequest hosts peer (.getRegistry name) context grants
    refine ⟨reply, replies, ?_⟩
    cases subscribing replies with
    | absent gone => cases gone.symm.trans there
    | unmade _ failed => cases failed.symm.trans inserted
    | refused _ made subscribes result =>
        cases made.symm.trans inserted
        have accepted := (core.besides clients).subscribe_ok_iff nonzero
          registered unknown subscribes
        rw [result] at accepted
        refine ⟨iff_of_false (fun answer => by cases answer) fun affords => ?_,
          fun answer => by cases answer⟩
        cases accepted.mpr ⟨affords.place, affords.slot, affords.node,
          affords.offers⟩
    | made _ made subscribes result =>
        cases made.symm.trans inserted
        have accepted := (core.besides clients).subscribe_ok_iff nonzero
          registered unknown subscribes
        obtain ⟨-, spec⟩ := (core.besides clients).subscribe_spec nonzero
          (hosts.insertClient_range inserted) (tenanted.inhabited _) subscribes
        rw [result] at spec
        obtain ⟨place, slot, node, offers⟩ := accepted.mp result
        exact ⟨iff_of_true rfl ⟨place, slot, node, offers⟩, fun _ => spec.1⟩
  · intro callback callbackData grants object resolved interface
    exact core.completeSync_ok_iff there resolved interface waiting
  · intro reply publishes complete dispatches unblocked
    exact core.settles_of_welcome roomy there registered waiting publishes
      complete dispatches unblocked

end Publisher

/-! ## Clients with objects and queues -/

namespace Guests

variable {guests later : Guests} {peer other : Peer}

variable [Native] {filter : Option (Peer → Handle → Global → Bool)}
  {binder : Binder}

end Guests

namespace Publisher

section Guests

attribute [local instance] Server.historyNative

end Guests

end Publisher
end Wayring
