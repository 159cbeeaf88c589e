import Wayring.Server.Announcements

/-!
# The lifetime of removed globals

A global that was removed stays for the registries that have an offer of it,
under its own name and with its own definition.  The operation that ends its
last offer withdraws it.
-/

namespace Wayring
namespace Publisher

variable {Clients : Type} {hosts : Hosts Clients}
  {publisher later : Publisher Clients} {peer : Peer} {registry : Handle}

/-! ## Offers of removed globals -/

/-- Every removed global has an offer. -/
def Tidy (publisher : Publisher Clients) : Prop :=
  ∀ removed ∈ publisher.removedGlobals,
    publisher.registries.hasOffers removed.handle.id = true

/-- Feeds that know of a global are registered. -/
theorem ledger_open (publisher : Publisher Clients) :
    publisher.ledger.Open := by
  intro peer registry handle told
  obtain ⟨offers, offer, known, -⟩ := exists_of_stage told
  change (publisher.registries.known peer registry).isSome
  rw [known]
  rfl

/-- The offers of removed globals are what registries know of them. -/
theorem Core.tidy_iff
    (core : publisher.Core) :
    publisher.Tidy ↔ publisher.ledger.Held := by
  constructor
  · intro tidy handle member
    obtain ⟨removed, kept, rfl⟩ := List.mem_map.mp member
    obtain ⟨peer, registry, offers, known, offer, offered, named⟩ :=
      (core.registries.hasOffers_iff _).mp (tidy removed kept)
    have same := core.removed_unique member known offered named
    refine ⟨peer, registry, ?_⟩
    change publisher.stage peer registry removed.handle ≠ .unknown
    rw [stage_of_known known, RegistrySubscriptions.stageOf_of_mem
      (core.once peer registry offers known) offered same]
    exact RegistrySubscriptions.stage_ne_unknown offer
  · intro held removed kept
    obtain ⟨peer, registry, told⟩ :=
      held removed.handle (List.mem_map_of_mem kept)
    obtain ⟨offers, offer, known, member, named, -⟩ := exists_of_stage told
    exact (core.registries.hasOffers_iff _).mpr
      ⟨peer, registry, offers, known, offer, member, congrArg Handle.id named⟩

/-- What takes no offer leaves every removed global with one. -/
theorem Follows.tidy
    {notices : List Notice}
    (follows : Follows publisher notices later)
    (core : publisher.Core)
    (keeps : ∀ notice ∈ notices, notice.releases = false)
    (tidy : publisher.Tidy) : later.Tidy :=
  follows.core.tidy_iff.mpr <| follows.path.stays_held keeps
    publisher.ledger_open (core.tidy_iff.mp tidy)

/-! ## Operations -/

section Operations

variable {handle : Handle} {notices : List Notice}

end Operations

/-! ## Publication -/

section Serving

variable {served : Served Clients}

end Serving

/-! ## Runs -/

section Runs

variable {handle : Handle} {global : Global} {call : Call Clients}
  {calls : List (Call Clients)} {notices log : List Notice}

/-- The definition that a call publishes, and the handle that it gets. -/
def defines
    (hosts : Hosts Clients)
    (publisher : Publisher Clients) :
    Call Clients → Option (Handle × Global)
  | .addGlobal interface version context bind granted =>
      match (publisher.addGlobalWithBinder hosts interface version context bind
          granted).result with
      | .ok handle => some (handle, { interface, version, context, bind })
      | .error _ => none
  | _ => none

/-- The definitions that a run publishes. -/
def definitions
    (hosts : Hosts Clients) :
    List (Call Clients) → Publisher Clients → List (Handle × Global)
  | [], _ => []
  | call :: calls, publisher =>
      match publisher.step hosts call with
      | none => []
      | some (_, later) =>
          (publisher.defines hosts call).toList ++
            definitions hosts calls later

end Runs

/-! ## Lifetimes -/

section Lifetimes

variable {handle : Handle} {global : Global} {name : Nat}
  {clients : Clients} {maxGlobals registryCapacity : Nat}
  {globalsGranted registriesGranted syncsGranted : Bool}
  {call : Call Clients} {calls : List (Call Clients)}
  {notices log : List Notice} {next : Publisher Clients}

/-- A registry of the peer holds an offer of the global. -/
def Offers
    (publisher : Publisher Clients)
    (peer : Peer)
    (handle : Handle) : Prop :=
  ∃ registry offers, publisher.registries.known peer registry = some offers ∧
    ∃ offer ∈ offers, offer.global = handle

/-- What a registry holds an offer of is known to it. -/
theorem Core.offers_iff
    (core : publisher.Core) :
    publisher.Offers peer handle ↔
      ∃ registry, publisher.stage peer registry handle ≠ .unknown := by
  constructor
  · rintro ⟨registry, offers, known, offer, member, named⟩
    refine ⟨registry, ?_⟩
    rw [stage_of_known known, RegistrySubscriptions.stageOf_of_mem
      (core.once peer registry offers known) member named]
    exact RegistrySubscriptions.stage_ne_unknown offer
  · rintro ⟨registry, told⟩
    obtain ⟨offers, offer, known, member, named, -⟩ := exists_of_stage told
    exact ⟨registry, offers, known, offer, member, named⟩

/-- What is known of a global that is not live is known of a removed one. -/
theorem Core.removed_of_offers
    (core : publisher.Core)
    (offers : publisher.Offers peer handle)
    (dead : publisher.globals.resolve handle = none) :
    handle ∈ publisher.removedHandles := by
  obtain ⟨registry, found, known, offer, member, rfl⟩ := offers
  rcases core.offered peer registry found known offer member with
    ⟨-, live⟩ | ⟨-, removed⟩
  · rw [dead] at live
    cases live
  · exact removed

/-- What is known of a run: its ledger, and the definitions that it published. -/
structure Recorded
    (hosts : Hosts Clients)
    (calls : List (Call Clients))
    (start : Publisher Clients)
    (log : List Notice)
    (later : Publisher Clients) : Prop where
  core : later.Core
  roomy : later.Roomy
  tidy : later.Tidy
  path : Ledger.Path .empty log later.ledger
  names : ((definitions hosts calls start).map fun entry =>
    entry.1.id).Nodup
  published : Ledger.published log =
    (definitions hosts calls start).map Prod.fst
  defined : ∀ {handle global}, later.Defines handle global →
    (handle, global) ∈ definitions hosts calls start

namespace Recorded

variable {start : Publisher Clients}

/-- What the log says of a global holds. -/
theorem lives
    (recorded : Recorded hosts calls start log later)
    (handle : Handle) : Ledger.Lives handle log later.ledger := by
  refine recorded.path.lives ?_ handle
  rw [recorded.published]
  refine .of_map Handle.id ?_
  rw [List.map_map]
  exact recorded.names

/-- One definition is published under a handle. -/
theorem unique
    {other : Global}
    (recorded : Recorded hosts calls start log later)
    (member : (handle, global) ∈ definitions hosts calls start)
    (also : (handle, other) ∈ definitions hosts calls start) :
    global = other :=
  congrArg Prod.snd
    (List.inj_on_of_nodup_map recorded.names member also rfl)

/-- A live global was not taken back. -/
theorem stays
    (recorded : Recorded hosts calls start log later)
    (resolves : later.globals.resolve handle = some global) :
    handle ∉ Ledger.unpublished log := by
  refine ((recorded.lives handle).live.mp ?_).2
  change (later.globals.resolve handle).isSome
  rw [resolves]
  rfl

/-- A global that was published and not taken back is live. -/
theorem resolves
    (recorded : Recorded hosts calls start log later)
    (member : (handle, global) ∈ definitions hosts calls start)
    (stays : handle ∉ Ledger.unpublished log) :
    later.globals.resolve handle = some global := by
  have wasPublished : handle ∈ Ledger.published log := by
    rw [recorded.published]
    exact List.mem_map_of_mem member
  obtain ⟨other, resolved⟩ := Option.isSome_iff_exists.mp
    ((recorded.lives handle).live.mpr ⟨wasPublished, stays⟩)
  rw [recorded.unique member (recorded.defined (Or.inl resolved))]
  exact resolved

/-- What was taken back and is still offered is kept. -/
theorem removed
    (recorded : Recorded hosts calls start log later)
    (gone : handle ∈ Ledger.unpublished log)
    (offers : later.Offers peer handle) :
    handle ∈ later.removedHandles := by
  refine recorded.core.removed_of_offers offers ?_
  cases resolves : later.globals.resolve handle with
  | none => rfl
  | some global => exact absurd gone (recorded.stays resolves)

/-- A name stands for what was published under it. -/
theorem stands
    (recorded : Recorded hosts calls start log later)
    (peer : Peer) (name : Nat) (handle : Handle) (global : Global) :
    later.definition hosts peer name = .ok (handle, global) ↔
      handle.id = name ∧ (handle, global) ∈ definitions hosts calls start ∧
        (handle ∉ Ledger.unpublished log ∧
            hosts.visible later.clients peer handle global = .ok true ∨
          handle ∈ Ledger.unpublished log ∧ later.Offers peer handle) := by
  rw [recorded.core.definition_iff, ← recorded.core.offers_iff]
  refine and_congr_right fun _ => ⟨?_, ?_⟩
  · rintro (⟨live, seen⟩ | ⟨⟨withdrawn, member⟩, offers⟩)
    · exact ⟨recorded.defined (Or.inl live),
        Or.inl ⟨recorded.stays live, seen⟩⟩
    · exact ⟨recorded.defined (Or.inr ⟨withdrawn, member⟩),
        Or.inr ⟨((recorded.lives handle).removed.mp
          (List.mem_map_of_mem member)).1, offers⟩⟩
  · rintro ⟨member, ⟨stays, seen⟩ | ⟨gone, offers⟩⟩
    · exact Or.inl ⟨recorded.resolves member stays, seen⟩
    · obtain ⟨⟨kept, other, withdrawn⟩, removed, rfl⟩ :=
        List.mem_map.mp (recorded.removed gone offers)
      rw [recorded.unique member
        (recorded.defined (Or.inr ⟨withdrawn, removed⟩))]
      exact Or.inr ⟨⟨withdrawn, removed⟩, offers⟩

/-- What was removed and not withdrawn is offered to somebody. -/
theorem held
    (recorded : Recorded hosts calls start log later)
    (gone : handle ∈ Ledger.unpublished log)
    (kept : handle ∉ Ledger.withdrawn log) :
    ∃ peer, later.Offers peer handle := by
  obtain ⟨peer, registry, told⟩ := recorded.core.tidy_iff.mp recorded.tidy
    handle ((recorded.lives handle).removed.mpr ⟨gone, kept⟩)
  exact ⟨peer, recorded.core.offers_iff.mpr ⟨registry, told⟩⟩

/-- What was withdrawn is offered to nobody. -/
theorem forgotten
    (recorded : Recorded hosts calls start log later)
    (ended : handle ∈ Ledger.withdrawn log)
    (peer : Peer) : ¬ later.Offers peer handle := fun offers =>
  have lives := recorded.lives handle
  (lives.removed.mp (recorded.removed (lives.wasUnpublished ended) offers)).2
    ended

end Recorded

end Lifetimes

end Publisher
end Wayring
