import Wayring.Server.Publication

/-!
# What is written down

The result of an operation tells what it wrote into the ledger: an operation
that fails writes nothing, and one that succeeds writes that it did.  A sync is
answered while its callback is there, and dropped when it is gone.
-/

namespace Wayring

/-- Only the ends of lifetimes are written. -/
def Collected (notices : List Notice) : Prop :=
  ∀ notice ∈ notices, ∃ global, notice = .withdrawn global

/-- An operation that fails writes nothing.  One that succeeds writes an entry,
and then at most the ends of lifetimes. -/
def Reply.Writes {Clients α : Type}
    (reply : Reply Clients α)
    (entry : α → Notice) : Prop :=
  match reply.result with
  | .error _ => reply.notices = []
  | .ok value => ∃ more,
      reply.notices = entry value :: more ∧ Collected more

/-- A failed call writes nothing. -/
theorem Reply.Writes.failed {Clients α : Type}
    {entry : α → Notice}
    (cause : GlobalError) (publisher : Publisher Clients) :
    (Reply.failed cause publisher : Reply Clients α).Writes entry := rfl

/-- What was written is the entry, or the end of a lifetime. -/
theorem Reply.Writes.mem {Clients α : Type}
    {reply : Reply Clients α} {entry : α → Notice} {notice : Notice}
    (writes : reply.Writes entry)
    (member : notice ∈ reply.notices) :
    (∃ value, reply.result = .ok value ∧ notice = entry value) ∨
      ∃ global, notice = .withdrawn global := by
  unfold Reply.Writes at writes
  cases result : reply.result with
  | error cause =>
      rw [result] at writes
      simp only at writes
      rw [writes] at member
      cases member
  | ok value =>
      rw [result] at writes
      obtain ⟨more, notices, collected⟩ := writes
      rw [notices] at member
      rcases List.mem_cons.mp member with rfl | rest
      · exact .inl ⟨value, rfl, rfl⟩
      · exact .inr (collected notice rest)

namespace Publisher

variable {Clients : Type} {hosts : Hosts Clients}
  {publisher : Publisher Clients} {peer : Peer}
  {registry handle callback : Handle} {name : Nat}

/-! ## Results -/

/-- Collecting removed globals writes nothing but the ends of lifetimes. -/
theorem collect_collected
    (registries : RegistrySubscriptions)
    (fuel index : Nat)
    (globals : List RemovedGlobal) :
    Collected (collect registries fuel index globals).1 := by
  induction fuel generalizing index globals with
  | zero => exact fun notice member => absurd member List.not_mem_nil
  | succ fuel collect_ih =>
      unfold collect
      cases globals[index]? with
      | none => exact fun notice member => absurd member List.not_mem_nil
      | some removed =>
          dsimp only
          split_ifs
          · exact collect_ih (index + 1) globals
          · intro notice member
            rcases List.mem_cons.mp member with rfl | rest
            · exact ⟨_, rfl⟩
            · exact collect_ih index _ notice rest

/-- A global is published when it is added. -/
theorem addGlobalWithBinder_writes
    (hosts : Hosts Clients) (publisher : Publisher Clients)
    (interface : Interface) (version : Nat) (context bind : Option Nat)
    (granted : Bool) :
    let reply := publisher.addGlobalWithBinder hosts interface version context
      bind granted
    ∃ audience, reply.Writes fun handle => .published handle audience := by
  unfold addGlobalWithBinder
  split_ifs
  · exact ⟨[], .failed _ _⟩
  cases publisher.globals.addWithBinder interface version context bind with
  | mk result globals =>
  cases result with
  | error cause => exact ⟨[], .failed _ _⟩
  | ok handle =>
      dsimp only
      cases globals.get handle.id with
      | error cause => exact ⟨[], .failed _ _⟩
      | ok global =>
          exact ⟨_, [], rfl, fun _ member => absurd member List.not_mem_nil⟩

/-- A global is taken back in the log exactly if the call succeeds. -/
theorem removeGlobalWithCallback_writes
    {withdrawn : Option Nat} {granted : Bool} {reply : Reply Clients Unit}
    (replies : publisher.removeGlobalWithCallback handle withdrawn granted =
      some reply) : reply.Writes fun _ => .unpublished handle := by
  revert replies
  unfold removeGlobalWithCallback
  cases publisher.globals.resolve handle with
  | none =>
      rintro ⟨⟩
      exact .failed _ _
  | some global =>
      dsimp only
      split_ifs
      · rintro ⟨⟩
        exact .failed _ _
      cases publisher.globals.remove handle with
      | mk result globals =>
      cases result with
      | error cause =>
          rintro ⟨⟩
          exact .failed _ _
      | ok global =>
          intro replies
          obtain ⟨registries, _, rfl⟩ := Option.map_eq_some_iff.mp replies
          exact ⟨_, rfl, collect_collected _ _ _ _⟩

/-- A registry leaves in the log exactly if the call succeeds. -/
theorem removeRegistry_writes
    {reply : Reply Clients Object}
    (replies : publisher.removeRegistry hosts peer registry = some reply) :
    reply.Writes fun _ => .unsubscribed peer registry := by
  revert replies
  unfold removeRegistry
  cases hosts.get publisher.clients peer with
  | error cause =>
      rintro ⟨⟩
      exact .failed _ _
  | ok _ =>
  cases hosts.resolve publisher.clients peer registry with
  | mk found clients =>
  cases found with
  | none =>
      rintro ⟨⟩
      exact .failed _ _
  | some object =>
  dsimp only
  split_ifs
  · rintro ⟨⟩
    exact .failed _ _
  cases hosts.ensureDelete clients peer registry with
  | mk result clients =>
  cases result with
  | error cause =>
      rintro ⟨⟩
      exact .failed _ _
  | ok _ =>
  cases publisher.registries.remove peer registry with
  | mk result registries =>
  cases result with
  | error cause =>
      rintro ⟨⟩
      exact .failed _ _
  | ok _ =>
      intro replies
      obtain ⟨clients, _, ⟨⟩⟩ := Option.bind_eq_some_iff.mp replies
      exact ⟨_, rfl, collect_collected _ _ _ _⟩

/-- An acknowledgment is of a global of that name. -/
theorem ackGlobalRemove_writes
    (hosts : Hosts Clients) (publisher : Publisher Clients)
    (peer : Peer) (registry : Handle) (name : Nat) :
    let reply := publisher.ackGlobalRemove hosts peer registry name
    ∃ global : Handle, (reply.result = .ok () → global.id = name) ∧
      reply.Writes fun _ => .acknowledged peer registry global := by
  have fails : ∀ cause (publisher : Publisher Clients),
      let reply : Reply Clients Unit := .failed cause publisher
      ∃ global : Handle, (reply.result = .ok () → global.id = name) ∧
        reply.Writes fun _ => .acknowledged peer registry global :=
    fun cause publisher => ⟨registry, nofun, .failed cause publisher⟩
  unfold ackGlobalRemove
  cases hosts.get publisher.clients peer with
  | error cause => exact fails _ _
  | ok _ =>
  cases hosts.resolve publisher.clients peer registry with
  | mk found clients =>
  cases found with
  | none => exact fails _ _
  | some object =>
  dsimp only
  split_ifs with wrong unserved
  · exact fails _ _
  · exact fails _ _
  cases publisher.registries.locate peer.slot registry with
  | none => exact fails _ _
  | some location =>
  obtain ⟨previous, position⟩ := location
  dsimp only
  cases index : RegistrySubscriptions.offerIndex
      (publisher.registries.node position) name with
  | none => exact fails _ _
  | some index' =>
  obtain ⟨bound, named, -⟩ := List.findIdx?_eq_some_iff_getElem.mp index
  rw [decide_eq_true_eq] at named
  dsimp only
  rw [List.getElem?_eq_getElem bound]
  dsimp only
  split_ifs
  · exact fails _ _
  · exact ⟨_, fun _ => named, _, rfl, collect_collected _ _ _ _⟩

/-- A sync waits from now on. -/
theorem completeSync_writes
    (hosts : Hosts Clients) (publisher : Publisher Clients)
    (peer : Peer) (callback : Handle) (callbackData : Nat)
    (grants : PublisherGrants) :
    ∃ epoch, (publisher.completeSync hosts peer callback callbackData
      grants).Writes fun _ => .requested peer callback epoch := by
  unfold completeSync
  cases hosts.get publisher.clients peer with
  | error cause => exact ⟨0, .failed _ _⟩
  | ok _ =>
  cases hosts.resolve publisher.clients peer callback with
  | mk found clients =>
  cases found with
  | none => exact ⟨0, .failed _ _⟩
  | some object =>
  dsimp only
  split_ifs
  · exact ⟨0, .failed _ _⟩
  cases reservePublishSlot { publisher with clients } peer.slot
      grants.blocked with
  | mk result first =>
  cases result with
  | error cause => exact ⟨0, .failed _ _⟩
  | ok _ =>
  dsimp only
  cases first.syncBarriers.add peer callback callbackData
      first.registries.epoch grants.slot grants.node with
  | mk result syncBarriers =>
  cases result with
  | error cause => exact ⟨0, .failed _ _⟩
  | ok _ => exact ⟨_, [], rfl, fun _ member => absurd member List.not_mem_nil⟩

/-- A client leaves in the log exactly if the call succeeds. -/
theorem destroyClient_writes
    {reply : Reply Clients Unit}
    (replies : publisher.destroyClient hosts peer = some reply) :
    reply.Writes fun _ => .left peer := by
  revert replies
  unfold destroyClient
  cases hosts.canDeinit publisher.clients peer with
  | error cause =>
      rintro ⟨⟩
      exact .failed _ _
  | ok quiet =>
  cases quiet with
  | false =>
      rintro ⟨⟩
      exact .failed _ _
  | true =>
  dsimp only
  cases hosts.get publisher.clients peer with
  | error cause =>
      rintro ⟨⟩
      exact .failed _ _
  | ok _ =>
      intro replies
      obtain ⟨clients, _, ⟨⟩⟩ := Option.bind_eq_some_iff.mp replies
      exact ⟨_, rfl, collect_collected _ _ _ _⟩

/-- A bind writes nothing. -/
theorem bindGlobal_writes
    {request : BindRequest} {reply : Reply Clients Handle}
    (replies : publisher.bindGlobal hosts peer request = some reply) :
    reply.notices = [] := by
  revert replies
  unfold bindGlobal
  cases publisher.definition hosts peer request.name with
  | error cause =>
      rintro ⟨⟩
      rfl
  | ok found =>
  dsimp only
  cases hosts.get publisher.clients peer with
  | error cause =>
      rintro ⟨⟩
      rfl
  | ok _ =>
  dsimp only
  generalize bindClient hosts publisher.clients peer request
    found.2.interface found.2.version
    (if found.2.bind = none then found.2.context else none) = outcome
  obtain ⟨result, clients⟩ := outcome
  cases result with
  | error cause =>
      rintro ⟨⟩
      rfl
  | ok resource =>
  dsimp only
  split_ifs
  · rintro ⟨⟩
    rfl
  generalize hosts.activate clients found.2 _ = outcome
  obtain ⟨result, clients⟩ := outcome
  cases result with
  | error cause =>
      intro replies
      obtain ⟨clients, _, ⟨⟩⟩ := Option.bind_eq_some_iff.mp replies
      rfl
  | ok context =>
      intro replies
      obtain ⟨clients, _, ⟨⟩⟩ := Option.bind_eq_some_iff.mp replies
      rfl

/-- A registry is subscribed when it is made. -/
theorem subscribe_writes
    {grants : PublisherGrants} {reply : Reply Clients Unit}
    (replies : publisher.subscribe hosts peer registry grants = some reply) :
    ∃ shown, reply.Writes fun _ => .subscribed peer registry shown := by
  revert replies
  unfold subscribe
  cases publisher.reservePublishSlot peer.slot grants.blocked with
  | mk result first =>
  cases result with
  | error cause =>
      rintro ⟨⟩
      exact ⟨[], .failed _ _⟩
  | ok _ =>
  dsimp only
  cases first.registries.add peer registry grants.slot grants.node with
  | mk result registries =>
  cases result with
  | error cause =>
      rintro ⟨⟩
      exact ⟨[], .failed _ _⟩
  | ok index =>
  dsimp only
  split_ifs
  · cases registries.remove peer registry with
    | mk result registries =>
    cases result with
    | error cause => rintro ⟨⟩
    | ok _ =>
        rintro ⟨⟩
        exact ⟨[], .failed _ _⟩
  · rintro ⟨⟩
    exact ⟨_, [], rfl, fun _ member => absurd member List.not_mem_nil⟩

/-- A display request writes at most that a registry was subscribed. -/
theorem displayRequest_writes
    {request : DisplayRequest} {context : Option Nat}
    {grants : PublisherGrants} {reply : Reply Clients DisplayAction}
    (replies : publisher.displayRequest hosts peer request context grants =
      some reply) :
    ∀ notice ∈ reply.notices,
      (∃ registry shown, reply.result = .ok (.getRegistry registry) ∧
        notice = .subscribed peer registry shown) ∨
      ∃ global, notice = .withdrawn global := by
  have silent : ∀ {reply : Reply Clients DisplayAction}, reply.notices = [] →
      ∀ notice ∈ reply.notices,
        (∃ registry shown, reply.result = .ok (.getRegistry registry) ∧
          notice = .subscribed peer registry shown) ∨
        ∃ global, notice = .withdrawn global := by
    intro reply none notice member
    rw [none] at member
    cases member
  revert replies
  unfold displayRequest
  cases hosts.get publisher.clients peer with
  | error cause =>
      rintro ⟨⟩
      exact silent rfl
  | ok _ =>
  cases request with
  | sync callback =>
      dsimp only
      cases hosts.insertClient publisher.clients peer callback
          Server.wlCallback 1 context with
      | mk result clients =>
      cases result with
      | error cause =>
          rintro ⟨⟩
          exact silent rfl
      | ok callback =>
          rintro ⟨⟩
          exact silent rfl
  | getRegistry registry =>
      dsimp only
      cases hosts.insertClient publisher.clients peer registry wlRegistry 1
          context with
      | mk result clients =>
      cases result with
      | error cause =>
          rintro ⟨⟩
          exact silent rfl
      | ok registry =>
          intro replies
          obtain ⟨inner, subscribes, rest⟩ := Option.bind_eq_some_iff.mp replies
          obtain ⟨shown, writes⟩ := subscribe_writes subscribes
          cases result : inner.result with
          | error cause =>
              rw [result] at rest
              obtain ⟨clients, _, ⟨⟩⟩ := Option.bind_eq_some_iff.mp rest
              unfold Reply.Writes at writes
              rw [result] at writes
              exact silent writes
          | ok _ =>
              rw [result] at rest
              cases rest
              intro notice member
              refine (writes.mem member).imp_left ?_
              rintro ⟨_, _, rfl⟩
              exact ⟨registry, shown, rfl, rfl⟩

/-! ## Syncs -/

/-- A refusal is not idle. -/
theorem refused_ne_idle
    (cause : Error) (publisher : Publisher Clients) :
    (Served.refused cause publisher).result ≠ .ok .idle := by
  unfold Served.refused
  dsimp only
  split_ifs <;> exact fun same => by cases same

/-- Sending an event is not idle. -/
theorem publishOffer_ne_idle
    {next : Pending} {served : Served Clients}
    (publishes : publisher.publishOffer hosts peer next = some served) :
    served.result ≠ .ok .idle := by
  unfold Publisher.publishOffer at publishes
  dsimp only at publishes
  repeat' split at publishes
  all_goals
    cases publishes
  · exact refused_ne_idle _ _
  · exact fun same => by cases same
  · exact refused_ne_idle _ _
  · exact fun same => by cases same

/-- A sync is answered when `done` is queued for a callback that is there, and
dropped when its callback is gone.  What a registry was told was queued for
it. -/
def Settles
    (hosts : Hosts Clients)
    (clients : Clients) : Notice → Prop
  | .answered peer callback _ =>
      (∃ object, (hosts.resolve clients peer callback).1 = some object) ∧
        ∃ callbackData before after,
          hosts.send before peer (.done callback callbackData) = (.ok (), after)
  | .abandoned peer callback _ => (hosts.resolve clients peer callback).1 = none
  | .announced peer registry handle _ => ∃ global before after,
      hosts.send before peer (.global registry handle.id global) =
        (.ok (), after)
  | .revoked peer registry handle _ => ∃ before after,
      hosts.send before peer (.globalRemove registry handle.id) =
        (.ok (), after)
  | _ => True

/-- The same objects are found. -/
def Alike (hosts : Hosts Clients) (clients start : Clients) : Prop :=
  ∀ peer handle, (hosts.resolve clients peer handle).1 =
    (hosts.resolve start peer handle).1

/-- Looking up an object changes no client. -/
theorem Alike.resolve
    {clients start : Clients}
    (alike : Alike hosts clients start)
    (peer : Peer) (handle : Handle) :
    Alike hosts (hosts.resolve clients peer handle).2 start :=
  fun other name => hosts.resolve_resolve.trans (alike other name)

/-- Collecting settles no sync. -/
theorem settles_of_collected
    {notices : List Notice}
    (collected : Collected notices)
    (hosts : Hosts Clients) (clients : Clients) :
    ∀ notice ∈ notices, Settles hosts clients notice := by
  intro notice member
  obtain ⟨global, rfl⟩ := collected notice member
  exact trivial

/-- A registry was told what is written down. -/
theorem publishOffer_settles
    {next : Pending} {served : Served Clients}
    (publishes : publisher.publishOffer hosts peer next = some served)
    (start : Clients) :
    ∀ notice ∈ served.notices, Settles hosts start notice := by
  unfold Publisher.publishOffer at publishes
  dsimp only at publishes
  repeat' split at publishes
  all_goals
    cases publishes <;> intro notice member
  · cases member
  · cases List.mem_singleton.mp member
    exact ⟨_, _, _, ‹_›⟩
  · cases member
  · cases List.mem_singleton.mp member
    exact ⟨_, _, ‹_›⟩

/-- Serving a peer settles its syncs as their callbacks say, and finds the
objects that are there while it goes on. -/
theorem serve_settles
    {fuel : Nat} {served : Served Clients} {start : Clients}
    (alike : Alike hosts publisher.clients start)
    (serves : serve hosts peer fuel publisher = some served) :
    (∀ notice ∈ served.notices, Settles hosts start notice) ∧
      (served.result = .ok .idle →
        Alike hosts served.publisher.clients start) := by
  induction fuel generalizing publisher served with
  | zero => cases serves
  | succ fuel serve_ih =>
      revert serves
      unfold Publisher.serve
      cases publisher.due peer with
      | some barrier =>
          have found := alike peer barrier.callback
          have alikeNow := alike.resolve peer barrier.callback
          dsimp only
          generalize hosts.resolve publisher.clients peer barrier.callback =
            outcome at found alikeNow ⊢
          obtain ⟨object, clients⟩ := outcome
          cases object with
          | none =>
              intro serves
              obtain ⟨syncBarriers, _, rest⟩ :=
                Option.bind_eq_some_iff.mp serves
              obtain ⟨inner, served, ⟨⟩⟩ := Option.bind_eq_some_iff.mp rest
              obtain ⟨settles, still⟩ := serve_ih alikeNow served
              refine ⟨fun notice member => ?_, still⟩
              rcases List.mem_cons.mp member with rfl | later
              · exact found.symm
              · exact settles notice later
          | some object =>
              dsimp only
              cases sent : hosts.send clients peer
                  (.done barrier.callback barrier.callbackData) with
              | mk result after =>
              cases result with
              | error cause =>
                  rintro ⟨⟩
                  exact ⟨fun notice member => absurd member List.not_mem_nil,
                    fun idle => absurd idle (refused_ne_idle _ _)⟩
              | ok _ =>
                  intro serves
                  obtain ⟨syncBarriers, _, ⟨⟩⟩ :=
                    Option.bind_eq_some_iff.mp serves
                  refine ⟨fun notice member => ?_, fun idle => by cases idle⟩
                  cases List.mem_singleton.mp member
                  exact ⟨⟨object, found.symm⟩, _, _, _, sent⟩
      | none =>
          dsimp only
          cases publisher.registries.nextPending peer with
          | none =>
              rintro ⟨⟩
              exact ⟨fun notice member => absurd member List.not_mem_nil,
                fun _ => alike⟩
          | some next =>
              have alikeNow := alike.resolve peer
                (publisher.registries.node next.node).handle
              dsimp only
              split_ifs
              · cases publisher.registries.remove peer
                    (publisher.registries.node next.node).handle with
                | mk result registries =>
                cases result with
                | error cause => rintro ⟨⟩
                | ok _ =>
                    intro serves
                    obtain ⟨inner, served, rfl⟩ :=
                      Option.map_eq_some_iff.mp serves
                    obtain ⟨settles, still⟩ := serve_ih alikeNow served
                    refine ⟨fun notice member => ?_, still⟩
                    rcases List.mem_append.mp member with first | later
                    · rcases List.mem_cons.mp first with rfl | collected
                      · exact trivial
                      · exact settles_of_collected (collect_collected _ _ _ _)
                          hosts start notice collected
                    · exact settles notice later
              · intro publishes
                exact ⟨publishOffer_settles publishes start,
                  fun idle => absurd idle (publishOffer_ne_idle publishes)⟩

/-- Serving a peer abandons only syncs whose callback is gone. -/
theorem publishPeer_settles
    {served : Served Clients} {start : Clients}
    (alike : Alike hosts publisher.clients start)
    (serves : publisher.publishPeer hosts peer = some served) :
    (∀ notice ∈ served.notices, Settles hosts start notice) ∧
      (served.result = .ok .idle →
        Alike hosts served.publisher.clients start) := by
  revert serves
  unfold Publisher.publishPeer
  split_ifs
  · rintro ⟨⟩
    exact ⟨fun notice member => absurd member List.not_mem_nil, fun _ => alike⟩
  cases hosts.get publisher.clients peer with
  | error cause =>
      rintro ⟨⟩
      exact ⟨fun notice member => absurd member List.not_mem_nil,
        fun _ => alike⟩
  | ok _ => exact serve_settles alike

theorem visit_settles
    {slotCount visits : Nat} {reply : Reply Clients PublishResult}
    {start : Clients}
    (alike : Alike hosts publisher.clients start)
    (replies : visit hosts slotCount visits publisher = some reply) :
    ∀ notice ∈ reply.notices, Settles hosts start notice := by
  induction visits generalizing publisher reply with
  | zero =>
      cases replies
      exact fun notice member => absurd member List.not_mem_nil
  | succ visits visit_ih =>
      revert replies
      unfold visit
      dsimp only
      generalize (if publisher.publishCursor ≥ slotCount then 0
        else publisher.publishCursor) = slot
      cases publicationPeer { publisher with publishCursor := slot + 1 }
          slot with
      | none => exact visit_ih alike
      | some peer =>
          dsimp only
          cases publisher.publishBlocked[slot]? with
          | none => rintro ⟨⟩
          | some generation =>
              dsimp only
              split_ifs
              · exact visit_ih alike
              cases serves : publishPeer hosts
                  { publisher with publishCursor := slot + 1 } peer with
              | none => rintro ⟨⟩
              | some served =>
                  obtain ⟨settles, still⟩ := @publishPeer_settles _ _
                    { publisher with publishCursor := slot + 1 } _ _ _ alike serves
                  dsimp only
                  cases result : served.result with
                  | error cause =>
                      rintro ⟨⟩
                      exact settles
                  | ok service =>
                      cases service with
                      | idle =>
                          intro replies
                          obtain ⟨inner, visited, rfl⟩ :=
                            Option.map_eq_some_iff.mp replies
                          intro notice member
                          rcases List.mem_append.mp member with first | later
                          · exact settles notice first
                          · exact visit_ih (still result) visited notice later
                      | sent =>
                          rintro ⟨⟩
                          exact settles
                      | blocked =>
                          rintro ⟨⟩
                          exact settles

/-- No other entry settles a sync. -/
theorem settles_of_writes {α : Type}
    {reply : Reply Clients α} {entry : α → Notice}
    (writes : reply.Writes entry)
    (start : Clients)
    (settles : ∀ value, Settles hosts start (entry value)) :
    ∀ notice ∈ reply.notices, Settles hosts start notice := by
  intro notice member
  rcases writes.mem member with ⟨value, _, rfl⟩ | ⟨global, rfl⟩
  · exact settles value
  · exact trivial

/-- A call answers a sync only while its callback is there, and drops one only
when its callback is gone. -/
theorem step_settles
    {call : Call Clients} {notices : List Notice} {later : Publisher Clients}
    (steps : publisher.step hosts call = some (notices, later)) :
    ∀ notice ∈ notices, Settles hosts publisher.clients notice := by
  cases call with
  | displayRequest peer request context grants =>
      obtain ⟨reply, replies, ⟨⟩⟩ := Option.map_eq_some_iff.mp steps
      intro notice member
      rcases displayRequest_writes replies notice member with
        ⟨_, _, _, rfl⟩ | ⟨_, rfl⟩ <;> exact trivial
  | addGlobal interface version context bind granted =>
      cases steps
      obtain ⟨audience, writes⟩ := addGlobalWithBinder_writes hosts publisher
        interface version context bind granted
      exact settles_of_writes writes _ fun _ => trivial
  | bindGlobal peer request =>
      obtain ⟨reply, replies, ⟨⟩⟩ := Option.map_eq_some_iff.mp steps
      rw [bindGlobal_writes replies]
      exact fun notice member => absurd member List.not_mem_nil
  | completeSync peer callback callbackData grants =>
      cases steps
      obtain ⟨epoch, writes⟩ := completeSync_writes hosts publisher peer callback
        callbackData grants
      exact settles_of_writes writes _ fun _ => trivial
  | removeRegistry peer registry =>
      obtain ⟨reply, replies, ⟨⟩⟩ := Option.map_eq_some_iff.mp steps
      exact settles_of_writes (removeRegistry_writes replies) _ fun _ => trivial
  | removeGlobal handle withdrawn granted =>
      obtain ⟨reply, replies, ⟨⟩⟩ := Option.map_eq_some_iff.mp steps
      exact settles_of_writes (removeGlobalWithCallback_writes replies) _
        fun _ => trivial
  | ackGlobalRemove peer registry name =>
      cases steps
      obtain ⟨global, _, writes⟩ := ackGlobalRemove_writes hosts publisher peer
        registry name
      exact settles_of_writes writes _ fun _ => trivial
  | publishNext =>
      obtain ⟨reply, replies, ⟨⟩⟩ := Option.map_eq_some_iff.mp steps
      exact visit_settles (fun _ _ => rfl) replies
  | destroyClient peer =>
      obtain ⟨reply, replies, ⟨⟩⟩ := Option.map_eq_some_iff.mp steps
      exact settles_of_writes (destroyClient_writes replies) _ fun _ => trivial
  | elsewhere change =>
      cases steps
      exact fun notice member => absurd member List.not_mem_nil

end Publisher
end Wayring
