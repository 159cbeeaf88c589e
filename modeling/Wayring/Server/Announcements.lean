import Wayring.Server.Answers
import Wayring.Server.Guests
import Wayring.Server.History

/-!
# What clients see of globals

Every run of the runtime is a path of the ledger, so what holds of every such
path holds of what clients are sent: events come in the order in which they
became owed, a registry hears of a global once and of its removal once, and
syncs are answered in turn.
-/

namespace Wayring

namespace Publisher

variable {Clients : Type} {hosts : Hosts Clients} {clients : Clients}
  {publisher later : Publisher Clients} {maxGlobals registryCapacity : Nat}
  {globalsGranted registriesGranted syncsGranted : Bool}
  {calls : List (Call Clients)} {log : List Notice}

/-- A new runtime has an empty ledger. -/
theorem init_spec
    (created : init clients maxGlobals registryCapacity globalsGranted
      registriesGranted syncsGranted = .ok publisher) :
    publisher.Core ∧ publisher.Roomy ∧ publisher.ledger = .empty := by
  unfold init at created
  cases madeGlobals : Globals.init maxGlobals globalsGranted with
  | error cause =>
      rw [madeGlobals] at created
      cases created
  | ok globals =>
  cases madeRegistries : RegistrySubscriptions.init registryCapacity
      registriesGranted with
  | error cause =>
      rw [madeGlobals, madeRegistries] at created
      cases created
  | ok registries =>
  cases madeSyncs : SyncBarriers.init registryCapacity syncsGranted with
  | error cause =>
      rw [madeGlobals, madeRegistries, madeSyncs] at created
      cases created
  | ok syncBarriers =>
  rw [madeGlobals, madeRegistries, madeSyncs] at created
  cases created
  have noRegistries : registries = {} := by
    unfold RegistrySubscriptions.init at madeRegistries
    split_ifs at madeRegistries
    cases madeRegistries
    rfl
  have noSyncs : syncBarriers = {} := by
    unfold SyncBarriers.init at madeSyncs
    split_ifs at madeSyncs
    cases madeSyncs
    rfl
  subst noRegistries noSyncs
  obtain ⟨sound, -, unresolved⟩ := Globals.init_sound madeGlobals
  have unknown : ∀ peer registry,
      RegistrySubscriptions.known {} peer registry = none := by
    intro peer registry
    apply RegistrySubscriptions.valid_empty.known_of_absent
    rfl
  have unserved : ∀ peer, SyncBarriers.tickets {} peer = [] := by
    intro peer
    unfold SyncBarriers.tickets
    split_ifs <;> rfl
  refine ⟨⟨RegistrySubscriptions.valid_empty, SyncBarriers.valid_empty, sound,
    ?_, ?_, ?_, ?_, List.nodup_nil⟩, ?_, ?_⟩
  · intro peer registry offers known
    cases (unknown peer registry).symm.trans known
  · intro peer registry offers known
    cases (unknown peer registry).symm.trans known
  · intro handle member
    cases member
  · intro handle member
    cases member
  · intro slot stamped
    rcases stamped with registered | waiting
    · exact absurd rfl registered
    · exact absurd rfl waiting
  · apply Ledger.ext
    case clock => rfl
    case live =>
      funext handle
      change ((globals.resolve handle).isSome : Prop) = False
      rw [unresolved]
      exact eq_false Bool.false_ne_true
    case removed =>
      funext handle
      exact eq_false List.not_mem_nil
    case registered =>
      funext peer registry
      change ((RegistrySubscriptions.known {} peer registry).isSome : Prop) =
        False
      rw [unknown]
      exact eq_false Bool.false_ne_true
    case stage =>
      funext peer registry handle
      change RegistrySubscriptions.stageOf
        ((RegistrySubscriptions.known {} peer registry).getD []) handle = _
      rw [unknown]
      rfl
    case queue =>
      funext peer
      exact unserved peer

/-! ## An example runtime -/

/-- One registry, and syncs, for clients that never run out of room.  They keep
the IDs of the objects that are gone. -/
def boardHosts : Hosts (List Nat) where
  get _ peer := if peer.generation = 0 then .error .staleHandle else .ok ()
  canDispatch _ _ := true
  canDeinit _ _ := .ok true
  visible _ _ _ _ := .ok true
  resolve gone _ handle :=
    (if handle.id ∈ gone then none
      else some
        { interface := if handle.id = 2 then wlRegistry else Server.wlCallback
          version := 1 }, gone)
  insertClient gone _ id _ _ _ :=
    if 2 ≤ id ∧ id < serverIdStart then (.ok { id, generation := 1 }, gone)
    else (.error .invalidClientId, gone)
  cancelClient gone _ _ := some gone
  activate gone _ _ := (.ok none, gone)
  setContext gone _ _ _ := some gone
  send gone _ _ := (.ok (), gone)
  ensureDelete gone _ _ := (.ok (), gone)
  deleteClient gone _ handle := some (handle.id :: gone)
  destroy gone _ := some gone
  generation_ne_zero := by
    intro clients peer got zero
    rw [if_pos zero] at got
    cases got
  insertClient_range := by
    intro clients peer id interface version context handle later inserted
    split_ifs at inserted with range
    · cases inserted
      exact range
    · cases inserted
  get_resolve := rfl
  canDispatch_resolve := rfl
  resolve_resolve := rfl
  insertClient_cancels := fun _ => rfl
  activate_cancels := fun _ => rfl
  cancels_setContext := fun _ => rfl
  ensureDelete_deletes := fun _ _ _ _ _ => rfl
  destroy_isSome := fun _ _ => rfl

/-- Every allocation succeeds. -/
def boardGrants : PublisherGrants where
  blocked := true
  slot := true
  node := true
  offers := true

/-- The only peer. -/
def boardPeer : Peer where
  slot := 0
  generation := 1

/-- Its registry. -/
def boardRegistry : Handle where
  id := 2
  generation := 1

/-- The global that is announced. -/
def boardGlobal : Handle where
  id := 1
  generation := 1

/-- A runtime with room for four globals, registries and syncs. -/
def board : Publisher (List Nat) where
  clients := []
  globals.table.slots := List.replicate 8 none
  globals.table.maxEntries := 4

theorem board_created : init [] 4 4 true true true = .ok board := rfl

/-- A registry hears of a global, and the first of two syncs is answered.  The
callback of the second goes, and then the global. -/
def boardCalls : List (Call (List Nat)) :=
  [.displayRequest boardPeer (.getRegistry 2) none boardGrants,
    .addGlobal Server.wlCallback 1 none none true,
    .completeSync boardPeer { id := 3, generation := 1 } 7 boardGrants,
    .completeSync boardPeer { id := 4, generation := 1 } 8 boardGrants,
    .publishNext, .publishNext, .elsewhere fun gone => 4 :: gone,
    .removeGlobal boardGlobal none true, .publishNext]

section Guests

attribute [local instance] Server.historyNative

/-- Two connections have their displays. -/
def guestOperations : List SharedOperation :=
  [.init 0 1 4, .insert 0 1 wlDisplay 1 none true, .init 1 1 4,
    .insert 1 1 wlDisplay 1 none true]

/-- The objects of the connections, in a pool that grows. -/
def guestWorld : SharedWorld :=
  let start := SharedWorld.start (SharedObjectPool.fresh 4) fun _ => 2
  ((start.run guestOperations).map Prod.snd).getD start

theorem guestWorld_sound : guestWorld.Sound := by
  have start : (SharedWorld.start (SharedObjectPool.fresh 4) fun _ => 2).Sound :=
    .start (show SharedObjectPool.init 4 true =
      .ok (SharedObjectPool.fresh 4) from rfl) fun _ => by decide
  refine @SharedWorld.Sound.run _ _ guestOperations _ start ?_ rfl
  simp [guestOperations, SharedOperation.ShowsDisplay]

/-- A client with an empty queue. -/
def firstGuest : Guest where
  actor := Actor.initSharedFragments 0 1 4 256 4
  storage := Server.historyStorage
  room := { blocks := 4, fds := 0 }
  granted := true
  named := by decide
  wellFormed := Server.historyStorage_wellFormed
  queued := ⟨[], [], [], [], .init _ _ _⟩

/-- Globals that give the objects bound to them no context. -/
def plainBinder : Binder where
  activate guests _ _ := (.ok none, guests)
  leaves := id

/-- A server of clients with objects and queues. -/
def guestHosts : Hosts Guests := Guests.hosts none plainBinder

/-- The runtime of a server with two clients. -/
def guestBoard : Publisher Guests where
  clients :=
    { world := guestWorld
      slots := fun slot => if slot < 2 then some firstGuest else none
      sound := guestWorld_sound }
  globals.table.slots := List.replicate 8 none
  globals.table.maxEntries := 4

theorem guestBoard_created :
    init guestBoard.clients 4 4 true true true = .ok guestBoard := rfl

/-- Both clients get a registry.  One binds a global with its activation, and
leaves in the end. -/
def guestCalls : List (Call Guests) :=
  [.displayRequest boardPeer (.getRegistry 2) none boardGrants,
    .displayRequest { slot := 1, generation := 1 } (.getRegistry 2) none
      boardGrants,
    .addGlobal Server.wlCallback 1 none (some 0) true, .publishNext,
    .publishNext,
    .bindGlobal boardPeer
      { name := 1, interface := "wl_callback", version := 1, id := 3 },
    .displayRequest boardPeer (.sync 4) none boardGrants,
    .completeSync boardPeer { id := 4, generation := 6 } 7 boardGrants,
    .publishNext, .removeGlobal boardGlobal none true, .publishNext,
    .removeRegistry boardPeer { id := 2, generation := 3 },
    .destroyClient boardPeer]

end Guests

/-! ## Runs -/

/-- No assertion of the runtime fails in any run, publication comes to an end
every time, and what was done is a path of the ledger. -/
theorem runs_follow_the_ledger
    (created : init clients maxGlobals registryCapacity globalsGranted
      registriesGranted syncsGranted = .ok publisher)
    (calls : List (Call Clients)) :
    ∃ log later, run hosts calls publisher = some (log, later) ∧
      Ledger.Path .empty log later.ledger := by
  obtain ⟨core, roomy, start⟩ := init_spec created
  obtain ⟨log, later, runs, follows⟩ := core.run roomy hosts calls
  exact ⟨log, later, runs, start ▸ follows.path⟩

theorem runs_follow_the_ledger_sample :
    (∃ log later, run boardHosts boardCalls board = some (log, later) ∧
        Ledger.Path .empty log later.ledger) ∧
      ∃ log later, run guestHosts guestCalls guestBoard = some (log, later) ∧
        Ledger.Path .empty log later.ledger :=
  ⟨runs_follow_the_ledger board_created boardCalls,
    runs_follow_the_ledger guestBoard_created guestCalls⟩

/-- What a run leaves, and the path that it took. -/
theorem path_of_run
    (created : init clients maxGlobals registryCapacity globalsGranted
      registriesGranted syncsGranted = .ok publisher)
    (ran : run hosts calls publisher = some (log, later)) :
    later.Core ∧ Ledger.Path .empty log later.ledger ∧
      (Ledger.published log).Nodup := by
  obtain ⟨core, roomy, start⟩ := init_spec created
  obtain ⟨entries, last, runs, follows⟩ := core.run roomy hosts calls
  cases ran.symm.trans runs
  exact ⟨follows.core, start ▸ follows.path,
    .of_map _ follows.names.once⟩

/-- Events are queued to a client in the order in which they became owed, and
the answer to a sync after what was owed when it arrived and before what was
owed later.  Every event has its cause. -/
theorem events_come_in_order
    (created : init clients maxGlobals registryCapacity globalsGranted
      registriesGranted syncsGranted = .ok publisher)
    (ran : run hosts calls publisher = some (log, later))
    (peer : Peer) :
    (Ledger.stamps peer log).Pairwise (· ≤ ·) ∧
      ∀ front entry back, log = front ++ entry :: back →
        Ledger.Entry.Justified front entry := by
  obtain ⟨-, path, -⟩ := path_of_run created ran
  refine ⟨(path.inOrder peer).sorted, ?_⟩
  rintro front entry back rfl
  exact path.justified

theorem events_come_in_order_sample :
    ∃ log later, run boardHosts boardCalls board = some (log, later) ∧
        (Ledger.stamps boardPeer log).Pairwise (· ≤ ·) ∧
        Ledger.stamps boardPeer log = [4, 5, 6] := by
  have ran : run boardHosts boardCalls board = some (_, _) := rfl
  exact ⟨_, _, ran, (events_come_in_order board_created ran boardPeer).1, rfl⟩

/-- A registry hears of a global once while it is live, and then at most once
that it is gone. -/
theorem registries_hear_once
    (created : init clients maxGlobals registryCapacity globalsGranted
      registriesGranted syncsGranted = .ok publisher)
    (ran : run hosts calls publisher = some (log, later))
    (peer : Peer) (registry global : Handle) :
    Ledger.heard peer registry global log <+: [.announced, .revoked] ∧
      ∀ front entry back since, log = front ++ entry :: back →
        (entry = .announced peer registry global since →
          global ∈ Ledger.published front ∧
            global ∉ Ledger.unpublished front) ∧
        (entry = .revoked peer registry global since →
          global ∈ Ledger.unpublished front) := by
  obtain ⟨-, path, distinct⟩ := path_of_run created ran
  refine ⟨path.heard_once distinct peer registry global, ?_⟩
  rintro front entry back since rfl
  refine ⟨(path.told_when distinct).1, ?_⟩
  rintro rfl
  obtain ⟨before, cause, after, rfl, is, -⟩ := path.justified
  subst is
  rw [Ledger.unpublished, List.filterMap_append, List.mem_append]
  exact Or.inr List.mem_cons_self

theorem registries_hear_once_sample :
    ∃ log later, run boardHosts boardCalls board = some (log, later) ∧
        Ledger.heard boardPeer boardRegistry boardGlobal log <+:
          [.announced, .revoked] ∧
        (Ledger.heard boardPeer boardRegistry boardGlobal log).length = 2 := by
  have ran : run boardHosts boardCalls board = some (_, _) := rfl
  exact ⟨_, _, ran, (registries_hear_once board_created ran boardPeer
    boardRegistry boardGlobal).1, rfl⟩

/-- Syncs leave a client's queue in the order in which they came, each once:
none is lost and none is answered twice.  One that is accepted is written down.
It is answered while its callback is there, and dropped only when that is
gone. -/
theorem syncs_are_settled_in_turn
    (created : init clients maxGlobals registryCapacity globalsGranted
      registriesGranted syncsGranted = .ok publisher)
    (ran : run hosts calls publisher = some (log, later))
    (peer : Peer) :
    Ledger.asked peer log =
        Ledger.settled peer log ++ later.syncBarriers.tickets peer ∧
      (∀ callback callbackData grants, ∃ epoch,
        (later.completeSync hosts peer callback callbackData grants).Writes
          fun _ => .requested peer callback epoch) ∧
      ∀ call notices next, later.step hosts call = some (notices, next) →
        ∀ notice ∈ notices, Settles hosts later.clients notice := by
  obtain ⟨-, path, -⟩ := path_of_run created ran
  exact ⟨path.tickets peer, completeSync_writes hosts later peer,
    fun call notices next => step_settles⟩

/-- Of two syncs, the first was answered, and the second is dropped when its
turn comes. -/
theorem syncs_are_settled_in_turn_sample :
    ∃ log later notices next,
      run boardHosts boardCalls.dropLast board = some (log, later) ∧
        Ledger.asked boardPeer log =
          Ledger.settled boardPeer log ++
            later.syncBarriers.tickets boardPeer ∧
        Ledger.settled boardPeer log = [({ id := 3, generation := 1 }, 2)] ∧
        later.step boardHosts .publishNext = some (notices, next) ∧
        notices =
          [.abandoned boardPeer { id := 4, generation := 1 } 2,
            .revoked boardPeer boardRegistry boardGlobal 3] ∧
        ∀ notice ∈ notices, Settles boardHosts later.clients notice := by
  obtain ⟨⟨log, later⟩, ran⟩ :
      ∃ done, run boardHosts boardCalls.dropLast board = some done :=
    Option.isSome_iff_exists.mp rfl
  have settled : (run boardHosts boardCalls.dropLast board).map (fun done =>
      Ledger.settled boardPeer done.1) =
        some [({ id := 3, generation := 1 }, 2)] := rfl
  have dropped : (run boardHosts boardCalls.dropLast board).bind (fun done =>
      (done.2.step boardHosts .publishNext).map Prod.fst) =
        some [.abandoned boardPeer { id := 4, generation := 1 } 2,
          .revoked boardPeer boardRegistry boardGlobal 3] := rfl
  rw [ran] at settled dropped
  obtain ⟨⟨notices, next⟩, steps, same⟩ := Option.map_eq_some_iff.mp dropped
  obtain ⟨asked, -, settles⟩ :=
    syncs_are_settled_in_turn board_created ran boardPeer
  exact ⟨log, later, notices, next, ran, asked, Option.some.inj settled, steps,
    same, settles _ _ _ steps⟩

/-- A global that was removed is kept until it is withdrawn, and withdrawn at
most once.  The additions and removals that succeed are those that are written
down. -/
theorem removed_globals_end_once
    (created : init clients maxGlobals registryCapacity globalsGranted
      registriesGranted syncsGranted = .ok publisher)
    (ran : run hosts calls publisher = some (log, later))
    (global : Handle) :
    (Ledger.withdrawn log).count global ≤ 1 ∧
      ((later.globals.resolve global).isSome ↔
        global ∈ Ledger.published log ∧ global ∉ Ledger.unpublished log) ∧
      (global ∈ later.removedHandles ↔
        global ∈ Ledger.unpublished log ∧ global ∉ Ledger.withdrawn log) ∧
      (∀ interface version context bind granted, ∃ audience,
        (later.addGlobalWithBinder hosts interface version context bind
          granted).Writes fun handle => .published handle audience) ∧
      ∀ withdrawn granted reply,
        later.removeGlobalWithCallback global withdrawn granted = some reply →
          reply.Writes fun _ => .unpublished global := by
  obtain ⟨-, path, distinct⟩ := path_of_run created ran
  have lives := path.lives distinct global
  exact ⟨lives.once, lives.live, lives.removed,
    addGlobalWithBinder_writes hosts later,
    fun withdrawn granted reply => removeGlobalWithCallback_writes⟩

theorem removed_globals_end_once_sample :
    ∃ log later,
      run boardHosts
        (boardCalls ++ [.ackGlobalRemove boardPeer boardRegistry 1]) board =
          some (log, later) ∧
        (Ledger.withdrawn log).count boardGlobal ≤ 1 ∧
        Ledger.withdrawn log = [boardGlobal] := by
  have ran : run boardHosts
      (boardCalls ++ [.ackGlobalRemove boardPeer boardRegistry 1]) board =
        some (_, _) := rfl
  exact ⟨_, _, ran, (removed_globals_end_once board_created ran
    boardGlobal).1, rfl⟩

/-! ## Requests -/

section Requests

variable {peer : Peer} {registry handle : Handle} {name : Nat}
  {global : Global}

/-- An offer of the name of a removed global is of that global. -/
theorem Core.removed_unique
    {offers : List Offer} {offer : Offer}
    (core : publisher.Core)
    (removed : handle ∈ publisher.removedHandles)
    (known : publisher.registries.known peer registry = some offers)
    (member : offer ∈ offers)
    (named : offer.global.id = handle.id) : offer.global = handle := by
  rcases core.offered peer registry offers known offer member with
    ⟨-, live⟩ | ⟨-, also⟩
  · exact absurd named (core.apart handle removed _ live)
  · exact List.inj_on_of_nodup_map core.removedOnce also removed named

/-- A peer is offered a name that is not live when a registry of it was told of
the removed global, or is to be told. -/
theorem Core.offeredToPeer_iff
    (core : publisher.Core)
    (removed : handle ∈ publisher.removedHandles) :
    publisher.registries.offeredToPeer peer handle.id = true ↔
      ∃ registry, publisher.stage peer registry handle ≠ .unknown := by
  obtain ⟨chains, free, listed⟩ := core.registries
  rw [listed.offeredToPeer_iff]
  constructor
  · rintro ⟨registry, offers, known, offer, member, named⟩
    have same := core.removed_unique removed known member named
    refine ⟨registry, ?_⟩
    rw [stage_of_known known, RegistrySubscriptions.stageOf_of_mem
      (core.once peer registry offers known) member same]
    exact RegistrySubscriptions.stage_ne_unknown offer
  · rintro ⟨registry, told⟩
    obtain ⟨offers, offer, known, member, named, -⟩ := exists_of_stage told
    exact ⟨registry, offers, known, offer, member, congrArg Handle.id named⟩

/-- No two removed globals have one name. -/
theorem Core.find_removed
    {removed : RemovedGlobal}
    (core : publisher.Core) :
    (publisher.removedGlobals.find? fun removed =>
        removed.handle.id = name) = some removed ↔
      removed ∈ publisher.removedGlobals ∧ removed.handle.id = name := by
  constructor
  · intro found
    exact ⟨List.mem_of_find?_eq_some found,
      by simpa using List.find?_some found⟩
  · rintro ⟨member, named⟩
    cases found : publisher.removedGlobals.find? fun removed =>
        removed.handle.id = name with
    | none =>
        rw [List.find?_eq_none] at found
        exact absurd (decide_eq_true named) (found _ member)
    | some first =>
        have also : first.handle.id = name := by
          simpa using List.find?_some found
        have ids : (publisher.removedGlobals.map fun removed =>
            removed.handle.id).Nodup := by
          have once := core.removedOnce
          unfold removedHandles at once
          rwa [List.map_map] at once
        rw [List.inj_on_of_nodup_map ids (List.mem_of_find?_eq_some found)
          member (also.trans named.symm)]

/-- The offers of a removed global are held by the registries that were told of
it and have not acknowledged its end. -/
theorem Core.retains
    (core : publisher.Core)
    (path : Ledger.Path .empty log publisher.ledger)
    (removed : handle ∈ publisher.removedHandles)
    (peer : Peer) (registry : Handle) :
    publisher.stage peer registry handle ≠ .unknown ↔
      Ledger.retained peer registry handle log ≠ [] := by
  rw [← path.retained]
  change _ ↔ (publisher.stage peer registry handle).retained ≠ []
  constructor
  · intro told
    obtain ⟨offers, offer, known, member, named, is⟩ := exists_of_stage told
    have fallen : ¬ offer.Stands := by
      rcases core.offered peer registry offers known offer member with
        ⟨-, live⟩ | ⟨fallen, -⟩
      · exact absurd (congrArg Handle.id named) (core.apart handle removed _
          live)
      · exact fallen
    rw [is]
    unfold Offer.Stands at fallen
    unfold Offer.stage
    cases state : offer.state <;> simp_all [Ledger.Stage.retained]
  · rintro held unknown
    rw [unknown] at held
    exact held rfl

/-- A client can bind the live globals that it sees, and the removed ones that
one of its registries has an offer of. -/
theorem Core.definition_iff
    (core : publisher.Core)
    (peer : Peer) (name : Nat) (handle : Handle) (global : Global) :
    publisher.definition hosts peer name = .ok (handle, global) ↔
      handle.id = name ∧
        (publisher.globals.resolve handle = some global ∧
            hosts.visible publisher.clients peer handle global = .ok true ∨
          (∃ withdrawn,
            ⟨handle, global, withdrawn⟩ ∈ publisher.removedGlobals) ∧
            ∃ registry, publisher.stage peer registry handle ≠ .unknown) := by
  unfold definition
  cases found : publisher.globals.lookupHandle name with
  | some live =>
      obtain ⟨named, stored, resolves⟩ :=
        Globals.lookupHandle_eq_some_iff.mp found
      dsimp only
      rw [resolves]
      dsimp only
      constructor
      · intro answer
        cases seen : hosts.visible publisher.clients peer live stored with
        | error cause =>
            rw [seen] at answer
            cases answer
        | ok visible =>
            rw [seen] at answer
            cases visible with
            | false => cases answer
            | true =>
                cases answer
                exact ⟨named, Or.inl ⟨resolves, seen⟩⟩
      · rintro ⟨also, ⟨resolvesToo, seen⟩ | ⟨⟨withdrawn, member⟩, -⟩⟩
        · cases Globals.resolve_unique resolves resolvesToo
            (named.trans also.symm)
          cases resolves.symm.trans resolvesToo
          rw [seen]
        · refine absurd (named.trans also.symm)
            (core.apart handle (List.mem_map_of_mem member) live ?_)
          rw [resolves]
          rfl
  | none =>
      have dead := Globals.lookupHandle_eq_none_iff.mp found
      dsimp only
      constructor
      · intro answer
        split_ifs at answer with offered
        cases kept : publisher.removedGlobals.find? fun removed =>
            removed.handle.id = name with
        | none =>
            rw [kept] at answer
            cases answer
        | some removed =>
            rw [kept] at answer
            cases answer
            obtain ⟨member, named⟩ := core.find_removed.mp kept
            refine ⟨named, Or.inr ⟨⟨removed.withdrawn, member⟩, ?_⟩⟩
            rw [← core.offeredToPeer_iff (List.mem_map_of_mem member), named]
            exact offered
      · rintro ⟨named, ⟨resolves, -⟩ | ⟨⟨withdrawn, member⟩, told⟩⟩
        · rw [dead handle named] at resolves
          cases resolves
        · have offered := (core.offeredToPeer_iff
            (List.mem_map_of_mem member)).mpr told
          rw [named] at offered
          rw [if_pos offered, core.find_removed.mpr ⟨member, named⟩]

/-- In every run, a client can bind exactly the live globals that it sees, and
the removed ones that one of its registries was told of and has not
acknowledged the end of. -/
theorem binds_follow_the_offers
    (created : init clients maxGlobals registryCapacity globalsGranted
      registriesGranted syncsGranted = .ok publisher)
    (ran : run hosts calls publisher = some (log, later))
    (peer : Peer) (name : Nat) (handle : Handle) (global : Global) :
    (later.definition hosts peer name = .ok (handle, global) ↔
      handle.id = name ∧
        (later.globals.resolve handle = some global ∧
            hosts.visible later.clients peer handle global = .ok true ∨
          (∃ withdrawn, ⟨handle, global, withdrawn⟩ ∈ later.removedGlobals) ∧
            ∃ registry, later.stage peer registry handle ≠ .unknown)) ∧
      (handle ∈ later.removedHandles → ∀ registry,
        (later.stage peer registry handle ≠ .unknown ↔
          Ledger.retained peer registry handle log ≠ [])) := by
  obtain ⟨core, path, -⟩ := path_of_run created ran
  exact ⟨core.definition_iff peer name handle global,
    fun removed => core.retains path removed peer⟩

theorem binds_follow_the_offers_sample :
    ∃ log later, run boardHosts boardCalls board = some (log, later) ∧
        later.globals.resolve boardGlobal = none ∧
        later.definition boardHosts boardPeer 1 = .ok (boardGlobal,
          { interface := Server.wlCallback, version := 1 }) := by
  obtain ⟨⟨log, later⟩, ran⟩ :
      ∃ done, run boardHosts boardCalls board = some done :=
    Option.isSome_iff_exists.mp rfl
  have dead : (run boardHosts boardCalls board).map (fun done =>
      done.2.globals.resolve boardGlobal) = some none := rfl
  have kept : (run boardHosts boardCalls board).map (fun done =>
      done.2.removedGlobals) =
        some [⟨boardGlobal, ⟨Server.wlCallback, 1, none, none⟩, none⟩] := rfl
  have told : (run boardHosts boardCalls board).map (fun done =>
      Ledger.retained boardPeer boardRegistry boardGlobal done.1) =
        some [.announced, .revoked] := rfl
  rw [ran, Option.map_some, Option.some_inj] at dead kept told
  obtain ⟨binds, held⟩ := binds_follow_the_offers board_created ran boardPeer 1
    boardGlobal { interface := Server.wlCallback, version := 1 }
  have removed : ⟨boardGlobal, ⟨Server.wlCallback, 1, none, none⟩, none⟩ ∈
      later.removedGlobals := by
    rw [kept]
    exact List.mem_cons_self
  refine ⟨log, later, ran, dead, binds.mpr ⟨rfl, Or.inr ⟨⟨none, removed⟩,
    boardRegistry, (held (List.mem_map_of_mem removed) _).mpr ?_⟩⟩⟩
  rw [told]
  exact List.cons_ne_nil _ _

/-- A registry can acknowledge the end of what is gone for it. -/
theorem Core.acknowledges_iff
    {object : Object}
    (core : publisher.Core)
    (there : hosts.get publisher.clients peer = .ok ())
    (resolves : (hosts.resolve publisher.clients peer registry).1 = some object)
    (registers : object.interface = wlRegistry)
    (name : Nat) :
    (publisher.ackGlobalRemove hosts peer registry name).result = .ok () ↔
      ∃ global : Handle, global.id = name ∧
        publisher.stage peer registry global = .gone := by
  have offered : ∀ {global : Handle}, global.id = name →
      publisher.stage peer registry global = .gone →
        ∃ offers offer,
          publisher.registries.known peer registry = some offers ∧
            offer ∈ offers ∧ offer.global.id = name ∧ offer.stage = .gone := by
    intro global named gone
    obtain ⟨offers, offer, known, member, same, is⟩ :=
      exists_of_stage (gone.trans_ne Ledger.Stage.noConfusion)
    exact ⟨offers, offer, known, member, same ▸ named, is ▸ gone⟩
  unfold Publisher.ackGlobalRemove
  rw [there]
  dsimp only
  cases answer : hosts.resolve publisher.clients peer registry with
  | mk found remaining =>
  rw [answer] at resolves
  cases resolves
  dsimp only
  rw [if_neg (not_not.mpr registers)]
  cases served : publisher.registries.serves peer with
  | false =>
      refine iff_of_false (fun ok => by cases ok) ?_
      rintro ⟨global, named, gone⟩
      obtain ⟨offers, offer, known, -⟩ := offered named gone
      rw [RegistrySubscriptions.known_eq, served] at known
      cases known
  | true =>
  simp only [Bool.not_true, Bool.false_eq_true, if_false]
  cases located : publisher.registries.locate peer.slot registry with
  | none =>
      refine iff_of_false (fun ok => by cases ok) ?_
      rintro ⟨global, named, gone⟩
      obtain ⟨offers, offer, known, -⟩ := offered named gone
      rw [RegistrySubscriptions.known_eq, served, if_pos rfl,
        RegistrySubscriptions.offersOf, located] at known
      cases known
  | some location =>
  obtain ⟨previous, position⟩ := location
  obtain ⟨known, -⟩ := core.registries.located served located
  have once := core.once peer registry _ known
  dsimp only
  cases index : RegistrySubscriptions.offerIndex
      (publisher.registries.node position) name with
  | none =>
      refine iff_of_false (fun ok => by cases ok) ?_
      rintro ⟨global, named, gone⟩
      obtain ⟨offers, offer, also, member, same, -⟩ := offered named gone
      cases known.symm.trans also
      have some_index := RegistrySubscriptions.offerIndex_isSome.mpr
        ⟨offer, member, same⟩
      rw [index] at some_index
      cases some_index
  | some at_index =>
  obtain ⟨bound, is, -⟩ := List.findIdx?_eq_some_iff_getElem.mp index
  rw [decide_eq_true_eq] at is
  have held := List.getElem?_eq_getElem bound
  dsimp only
  rw [held]
  dsimp only
  have member := List.getElem_mem bound
  generalize (publisher.registries.node position).offers[at_index] = offer
    at is held member
  by_cases sent : offer.state = .removalSent
  · rw [if_neg (not_not.mpr sent)]
    refine iff_of_true rfl ⟨offer.global, is, ?_⟩
    rw [stage_of_known known,
      RegistrySubscriptions.stageOf_of_mem once member rfl]
    exact RegistrySubscriptions.stage_eq_gone_iff.mpr sent
  · rw [if_pos sent]
    refine iff_of_false (fun ok => by cases ok) ?_
    rintro ⟨global, named, gone⟩
    obtain ⟨offers, other, also, stored, same, stage⟩ := offered named gone
    cases known.symm.trans also
    rw [once.unique member stored (same.trans is.symm)] at stage
    exact sent (RegistrySubscriptions.stage_eq_gone_iff.mp stage)

/-- No two globals of one name are offered to a registry. -/
theorem Core.gone_unique
    {other : Handle}
    (core : publisher.Core)
    (gone : publisher.stage peer registry handle = .gone)
    (also : publisher.stage peer registry other = .gone)
    (same : handle.id = other.id) : handle = other := by
  obtain ⟨offers, offer, known, member, rfl, -⟩ :=
    exists_of_stage (gone.trans_ne Ledger.Stage.noConfusion)
  obtain ⟨others, second, knownToo, stored, rfl, -⟩ :=
    exists_of_stage (also.trans_ne Ledger.Stage.noConfusion)
  cases known.symm.trans knownToo
  rw [(core.once peer registry _ known).unique stored member same]

/-- Looking at an acknowledgment leaves the clients as they are, except for what
a lookup changes. -/
theorem ackGlobalRemove_clients
    (hosts : Hosts Clients) (publisher : Publisher Clients)
    (peer : Peer) (registry : Handle) (name : Nat) :
    let reply := publisher.ackGlobalRemove hosts peer registry name
    reply.publisher.clients = publisher.clients ∨
      reply.publisher.clients =
        (hosts.resolve publisher.clients peer registry).2 := by
  unfold ackGlobalRemove
  cases hosts.get publisher.clients peer with
  | error cause => exact .inl rfl
  | ok _ =>
  cases hosts.resolve publisher.clients peer registry with
  | mk found clients =>
  cases found with
  | none => exact .inr rfl
  | some object =>
  dsimp only
  split_ifs
  · exact .inr rfl
  · exact .inr rfl
  cases publisher.registries.locate peer.slot registry with
  | none => exact .inr rfl
  | some location =>
  dsimp only
  cases RegistrySubscriptions.offerIndex
      (publisher.registries.node location.2) name with
  | none => exact .inr rfl
  | some index =>
  dsimp only
  cases (publisher.registries.node location.2).offers[index]? with
  | none => exact .inr rfl
  | some offer =>
  dsimp only
  split_ifs
  · exact .inr rfl
  · exact .inr rfl

/-- In every run, a registry can acknowledge exactly the removals that it was
told of and did not acknowledge yet.  One that is accepted is written down and
gives up the offer, so that it cannot be repeated; one that is refused writes
nothing. -/
theorem acknowledgments_follow_removals
    {object : Object}
    (created : init clients maxGlobals registryCapacity globalsGranted
      registriesGranted syncsGranted = .ok publisher)
    (ran : run hosts calls publisher = some (log, later))
    (there : hosts.get later.clients peer = .ok ())
    (resolves : (hosts.resolve later.clients peer registry).1 = some object)
    (registers : object.interface = wlRegistry) :
    let reply := later.ackGlobalRemove hosts peer registry name
    (reply.result = .ok () ↔
      ∃ global : Handle, global.id = name ∧
        Ledger.retained peer registry global log = [.announced, .revoked]) ∧
      (reply.result = .ok () → ∃ (global : Handle) (more : List Notice),
        global.id = name ∧
          Ledger.retained peer registry global log = [.announced, .revoked] ∧
          reply.notices = .acknowledged peer registry global :: more ∧
          Collected more ∧
          reply.publisher.stage peer registry global = .unknown ∧
          (reply.publisher.ackGlobalRemove hosts peer registry
            name).result ≠ .ok ()) ∧
      (reply.result ≠ .ok () → reply.notices = []) := by
  obtain ⟨core, path, -⟩ := path_of_run created ran
  have held : ∀ global : Handle,
      Ledger.retained peer registry global log = [.announced, .revoked] ↔
        later.stage peer registry global = .gone := by
    intro global
    rw [← path.retained]
    exact Ledger.Stage.retained_eq_iff
  have accepts := core.acknowledges_iff there resolves registers name
  have follows : Follows later
      (later.ackGlobalRemove hosts peer registry name).notices
      (later.ackGlobalRemove hosts peer registry name).publisher :=
    core.ackGlobalRemove peer registry name
  have clients := ackGlobalRemove_clients hosts later peer registry name
  obtain ⟨global, ofName, writes⟩ :=
    ackGlobalRemove_writes hosts later peer registry name
  generalize later.ackGlobalRemove hosts peer registry name = reply at *
  refine ⟨by simp only [held, accepts], fun ok => ?_, fun refused => ?_⟩
  · have named := ofName ok
    unfold Reply.Writes at writes
    rw [ok] at writes
    obtain ⟨more, notices, collected⟩ := writes
    have taken := follows.path
    rw [notices] at taken
    cases taken with
    | cons step rest =>
    cases step with
    | acknowledged gone =>
    have stages := rest.stage_of_withdrawn collected
    have forgotten : reply.publisher.stage peer registry global = .unknown := by
      change reply.publisher.ledger.stage peer registry global = _
      rw [stages]
      exact if_pos ⟨rfl, rfl, rfl⟩
    refine ⟨global, more, named, (held global).mpr gone, notices, collected,
      forgotten, ?_⟩
    have thereStill : hosts.get reply.publisher.clients peer = .ok () := by
      rcases clients with same | looked
      · rw [same, there]
      · rw [looked, hosts.get_resolve, there]
    have resolvesStill : (hosts.resolve reply.publisher.clients peer
        registry).1 = some object := by
      rcases clients with same | looked
      · rw [same, resolves]
      · rw [looked, hosts.resolve_resolve, resolves]
    rw [Ne, follows.core.acknowledges_iff thereStill resolvesStill registers]
    rintro ⟨other, also, goneStill⟩
    have before : later.stage peer registry other = .gone := by
      by_contra alive
      change reply.publisher.ledger.stage peer registry other = _ at goneStill
      rw [stages] at goneStill
      rcases Ledger.setStage_stage peer registry global .unknown peer registry
        other with same | set
      · exact alive (same.symm.trans goneStill)
      · cases set.symm.trans goneStill
    rw [core.gone_unique before gone (also.trans named.symm), forgotten]
      at goneStill
    cases goneStill
  · unfold Reply.Writes at writes
    cases result : reply.result with
    | error cause =>
        rw [result] at writes
        exact writes
    | ok _ => exact absurd result refused

/-- The registry acknowledges what it was told of, and cannot do so again. -/
theorem acknowledgments_follow_removals_sample :
    ∃ log later, run boardHosts boardCalls board = some (log, later) ∧
        Ledger.retained boardPeer boardRegistry boardGlobal log =
          [.announced, .revoked] ∧
        let reply := later.ackGlobalRemove boardHosts boardPeer boardRegistry 1
        reply.result = .ok () ∧
          (reply.publisher.ackGlobalRemove boardHosts boardPeer boardRegistry
            1).result ≠ .ok () := by
  obtain ⟨⟨log, later⟩, ran⟩ :
      ∃ done, run boardHosts boardCalls board = some done :=
    Option.isSome_iff_exists.mp rfl
  have told : (run boardHosts boardCalls board).map (fun done =>
      Ledger.retained boardPeer boardRegistry boardGlobal done.1) =
        some [.announced, .revoked] := rfl
  have gone : (run boardHosts boardCalls board).map (fun done =>
      done.2.clients) = some [4] := rfl
  rw [ran, Option.map_some, Option.some_inj] at told gone
  have resolves : (boardHosts.resolve later.clients boardPeer
      boardRegistry).1 = some { interface := wlRegistry, version := 1 } := by
    dsimp only at gone
    rw [gone]
    rfl
  obtain ⟨accepts, once, -⟩ := acknowledgments_follow_removals board_created
    ran rfl resolves rfl
  have accepted := accepts.mpr ⟨boardGlobal, rfl, told⟩
  obtain ⟨-, -, -, -, -, -, -, refuses⟩ := once accepted
  exact ⟨log, later, ran, told, accepted, refuses⟩

end Requests

end Publisher
end Wayring
