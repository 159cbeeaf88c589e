import Wayring.Server.Publisher

/-!
# The ledger of a publication runtime

Seen from outside, the runtime is a ledger: which globals are live, what every
registry was told of each, and which syncs wait for an answer.  Every operation
moves that ledger along the steps that a ledger allows, and lists exactly those
steps.
-/

namespace Wayring

/-! ## What a list of offers stands for -/

/-- What an offer says that its registry was told. -/
def Offer.stage (offer : Offer) : Ledger.Stage :=
  match offer.state with
  | .addPending => .owed offer.epoch
  | .offered => .told
  | .removePending => .leaving offer.epoch
  | .removalSent => .gone

/-- Whether an offer is of a global that is still live. -/
def Offer.Stands (offer : Offer) : Prop :=
  offer.state = .addPending ∨ offer.state = .offered

namespace RegistrySubscriptions

/-- What a registry with these offers was told of a global. -/
def stageOf (offers : List Offer) (handle : Handle) : Ledger.Stage :=
  ((offers.find? fun offer => offer.global = handle).map Offer.stage).getD
    .unknown

/-- No global is offered twice. -/
def Once (offers : List Offer) : Prop :=
  (offers.map fun offer => offer.global.id).Nodup

section Stages

variable {offers : List Offer} {offer : Offer} {handle : Handle}
  {since index epoch : Nat}

/-- An offer is of a global that is known. -/
theorem stage_ne_unknown (offer : Offer) : offer.stage ≠ .unknown := by
  unfold Offer.stage
  cases offer.state <;> simp

/-- A global is gone for a registry once its removal was sent. -/
theorem stage_eq_gone_iff :
    offer.stage = .gone ↔ offer.state = .removalSent := by
  unfold Offer.stage
  cases offer.state <;> simp

/-- Something is owed since the epoch of a pending offer. -/
theorem stage_since_eq_some_iff :
    offer.stage.since = some since ↔
      offer.state.pending = true ∧ offer.epoch = since := by
  unfold Offer.stage OfferState.pending
  cases offer.state <;> simp [Ledger.Stage.since]

/-- A registry knows a global through one offer. -/
theorem Once.unique
    {other : Offer}
    (once : Once offers)
    (member : offer ∈ offers)
    (also : other ∈ offers)
    (same : other.global.id = offer.global.id) : other = offer :=
  List.inj_on_of_nodup_map once also member same

/-- A global without an offer is unknown. -/
theorem stageOf_of_absent
    (absent : ∀ offer ∈ offers, offer.global ≠ handle) :
    stageOf offers handle = .unknown := by
  have missing : offers.find? (fun offer => offer.global = handle) = none := by
    rw [List.find?_eq_none]
    intro offer member
    simpa using absent offer member
  rw [stageOf, missing]
  rfl

/-- The stage of a global is that of its offer. -/
theorem stageOf_of_mem
    (once : Once offers)
    (member : offer ∈ offers)
    (named : offer.global = handle) :
    stageOf offers handle = offer.stage := by
  cases found : offers.find? fun offer => offer.global = handle with
  | none =>
      rw [List.find?_eq_none] at found
      exact absurd (decide_eq_true named) (found offer member)
  | some other =>
      have same : other.global = handle := by
        simpa using List.find?_some found
      have equal : other = offer := by
        apply once.unique member (List.mem_of_find?_eq_some found)
        rw [same, named]
      rw [stageOf, found, equal]
      rfl

/-- A global that is known has an offer. -/
theorem exists_of_stageOf
    (known : stageOf offers handle ≠ .unknown) :
    ∃ offer ∈ offers, offer.global = handle ∧
      stageOf offers handle = offer.stage := by
  cases found : offers.find? fun offer => offer.global = handle with
  | none =>
      rw [stageOf, found] at known
      exact absurd rfl known
  | some offer =>
      refine ⟨offer, List.mem_of_find?_eq_some found, ?_, ?_⟩
      · simpa using List.find?_some found
      · rw [stageOf, found]
        rfl

/-- Two lists agree on a global when they have the same offers of it. -/
theorem stageOf_congr
    {later : List Offer}
    (once : Once offers)
    (laterOnce : Once later)
    (same : ∀ offer : Offer, offer.global = handle →
      (offer ∈ later ↔ offer ∈ offers)) :
    stageOf later handle = stageOf offers handle := by
  by_cases held : ∃ offer ∈ offers, offer.global = handle
  · obtain ⟨offer, member, named⟩ := held
    rw [stageOf_of_mem once member named,
      stageOf_of_mem laterOnce ((same offer named).mpr member) named]
  · rw [stageOf_of_absent fun offer member named => held ⟨offer, member, named⟩,
      stageOf_of_absent fun offer member named =>
        held ⟨offer, (same offer named).mp member, named⟩]

/-- A new offer keeps the offers apart. -/
theorem Once.append
    (once : Once offers)
    (fresh : ∀ other ∈ offers, other.global.id ≠ offer.global.id) :
    Once (offers ++ [offer]) := by
  unfold Once at *
  rw [List.map_append, List.nodup_append]
  refine ⟨once, List.nodup_singleton _, ?_⟩
  intro first before second after
  obtain ⟨other, member, rfl⟩ := List.mem_map.mp before
  rw [List.map_singleton, List.mem_singleton] at after
  rw [after]
  exact fresh other member

/-- A new offer sets the stage of its global alone. -/
theorem stageOf_append
    (once : Once offers)
    (fresh : ∀ other ∈ offers, other.global.id ≠ offer.global.id) :
    stageOf (offers ++ [offer]) handle =
      if handle = offer.global then offer.stage
      else stageOf offers handle := by
  have whole := once.append fresh
  split_ifs with same
  · exact stageOf_of_mem whole
      (List.mem_append_right _ (List.mem_singleton_self offer)) same.symm
  · apply stageOf_congr once whole
    intro other named
    rw [List.mem_append, List.mem_singleton, or_iff_left]
    rintro rfl
    exact same named.symm

/-- An offer changes in place, and stays an offer of the same global. -/
theorem set_offer
    {entry : Offer}
    (offer : Offer)
    (once : Once offers)
    (held : offers[index]? = some entry)
    (named : offer.global = entry.global) :
    Once (offers.set index offer) ∧
      (∀ other, other ∈ offers.set index offer ↔
        other = offer ∨ other ∈ offers ∧ other ≠ entry) ∧
      ∀ handle, stageOf (offers.set index offer) handle =
        if handle = entry.global then offer.stage
        else stageOf offers handle := by
  have bound := (List.getElem?_eq_some_iff.mp held).1
  have after : Once (offers.set index offer) := by
    unfold Once at *
    rw [List.map_set]
    have same : (offers.map fun offer => offer.global.id).set index
        offer.global.id = offers.map fun offer => offer.global.id := by
      apply List.ext_getElem?
      intro position
      rw [List.getElem?_set]
      split_ifs with here inside
      · subst here
        rw [List.getElem?_map, held, named]
        rfl
      · rw [List.length_map] at inside
        exact absurd (here ▸ bound) inside
      · rfl
    rw [same]
    exact once
  have members : ∀ other, other ∈ offers.set index offer ↔
      other = offer ∨ other ∈ offers ∧ other ≠ entry := by
    intro other
    rw [List.mem_iff_getElem?]
    constructor
    · rintro ⟨position, there⟩
      rw [List.getElem?_set] at there
      split_ifs at there with here
      · exact Or.inl (Option.some.inj there).symm
      · right
        refine ⟨List.mem_of_getElem? there, ?_⟩
        rintro rfl
        apply here
        have ids : (offers.map fun offer => offer.global.id)[index]? =
            (offers.map fun offer => offer.global.id)[position]? := by
          rw [List.getElem?_map, List.getElem?_map, held, there]
        exact (List.getElem?_inj (by rwa [List.length_map]) once).mp ids
    · rintro (rfl | ⟨member, apart⟩)
      · exact ⟨index, by rw [List.getElem?_set_self bound]⟩
      · obtain ⟨position, there⟩ := List.mem_iff_getElem?.mp member
        refine ⟨position, ?_⟩
        rw [List.getElem?_set_ne, there]
        rintro rfl
        rw [held] at there
        exact apart (Option.some.inj there).symm
  refine ⟨after, members, fun handle => ?_⟩
  split_ifs with same
  · exact stageOf_of_mem after ((members offer).mpr (Or.inl rfl))
      (named.trans same.symm)
  · apply stageOf_congr once after
    intro other is
    rw [members]
    constructor
    · rintro (rfl | ⟨member, -⟩)
      · exact absurd (is.symm.trans named) same
      · exact member
    · intro member
      refine Or.inr ⟨member, ?_⟩
      rintro rfl
      exact same is.symm

/-- An offer is dropped. -/
theorem erase_offer
    {entry : Offer}
    (once : Once offers)
    (held : offers[index]? = some entry) :
    Once (offers.eraseIdx index) ∧
      (∀ other, other ∈ offers.eraseIdx index ↔
        other ∈ offers ∧ other ≠ entry) ∧
      ∀ handle, stageOf (offers.eraseIdx index) handle =
        if handle = entry.global then .unknown
        else stageOf offers handle := by
  have after : Once (offers.eraseIdx index) :=
    once.sublist ((List.eraseIdx_sublist offers index).map _)
  have distinct : offers.Nodup := List.Nodup.of_map _ once
  have members : ∀ other, other ∈ offers.eraseIdx index ↔
      other ∈ offers ∧ other ≠ entry := by
    intro other
    rw [List.mem_eraseIdx_iff_getElem?]
    constructor
    · rintro ⟨position, apart, there⟩
      refine ⟨List.mem_of_getElem? there, ?_⟩
      rintro rfl
      apply apart
      exact (List.getElem?_inj (List.getElem?_eq_some_iff.mp there).1
        distinct).mp (there.trans held.symm)
    · rintro ⟨member, apart⟩
      obtain ⟨position, there⟩ := List.mem_iff_getElem?.mp member
      refine ⟨position, ?_, there⟩
      rintro rfl
      rw [held] at there
      exact apart (Option.some.inj there).symm
  refine ⟨after, members, fun handle => ?_⟩
  have stored := List.mem_of_getElem? held
  split_ifs with same
  · apply stageOf_of_absent
    intro other member named
    obtain ⟨before, apart⟩ := (members other).mp member
    exact apart (once.unique stored before (by rw [named, same]))
  · apply stageOf_congr once after
    intro other is
    rw [members, and_iff_left]
    rintro rfl
    exact same is.symm

/-- What is left when a name is withdrawn: other names, and removals that are
owed. -/
theorem mem_retracted
    {name : Nat} :
    offer ∈ retracted name epoch offers ↔
      offer ∈ offers ∧ offer.global.id ≠ name ∨
        ∃ before ∈ offers, before.global.id = name ∧
          before.state ≠ .addPending ∧
          offer = { before with state := .removePending, epoch } := by
  unfold retracted
  rw [List.mem_filterMap]
  constructor
  · rintro ⟨before, member, becomes⟩
    split_ifs at becomes with other adding
    · cases becomes
      exact Or.inl ⟨member, other⟩
    · cases becomes
      exact Or.inr ⟨before, member, not_not.mp other, adding, rfl⟩
  · rintro (⟨member, other⟩ | ⟨before, member, named, told, rfl⟩)
    · exact ⟨offer, member, if_pos other⟩
    · refine ⟨before, member, ?_⟩
      rw [if_neg (not_not.mpr named), if_neg told]

/-- The ids of the offers that a retraction leaves. -/
theorem retracted_once
    {name : Nat}
    (once : Once offers) : Once (retracted name epoch offers) := by
  have ids : ((retracted name epoch offers).map fun offer =>
      offer.global.id).Sublist (offers.map fun offer => offer.global.id) := by
    unfold retracted
    rw [List.map_filterMap, ← List.filterMap_eq_map]
    induction offers with
    | nil => exact List.Sublist.slnil
    | cons offer rest ih =>
        have tail := ih (List.nodup_cons.mp once).2
        rw [List.filterMap_cons]
        simp only [List.filterMap_cons, Function.comp_apply]
        split_ifs
        · exact tail.cons_cons _
        · exact tail.cons _
        · exact tail.cons_cons _
  exact once.sublist ids

/-- A retraction moves one global on, and no other. -/
theorem stageOf_retracted
    (once : Once offers)
    (stands : ∀ offer ∈ offers, offer.global.id = handle.id →
      offer.global = handle ∧ offer.Stands)
    (other : Handle) :
    stageOf (retracted handle.id epoch offers) other =
      if other = handle then (stageOf offers other).retracted epoch
      else stageOf offers other := by
  have laterOnce : Once (retracted handle.id epoch offers) :=
    retracted_once once
  by_cases named : other = handle
  · subst named
    rw [if_pos rfl]
    by_cases held : ∃ offer ∈ offers, offer.global = other
    · obtain ⟨offer, member, named⟩ := held
      rw [stageOf_of_mem once member named]
      have id : offer.global.id = other.id := by rw [named]
      rcases (stands offer member id).2 with adding | told
      · rw [stageOf_of_absent, Offer.stage, adding]
        · rfl
        · intro later left is
          rcases mem_retracted.mp left with
            ⟨-, apart⟩ | ⟨before, stored, same, apart, rfl⟩
          · exact apart (by rw [is])
          · rw [once.unique member stored (same.trans id.symm)] at apart
            exact apart adding
      · have left : { offer with state := .removePending, epoch } ∈
            retracted other.id epoch offers :=
          mem_retracted.mpr (Or.inr ⟨offer, member, id,
            by rw [told]; exact OfferState.noConfusion, rfl⟩)
        rw [stageOf_of_mem laterOnce left named, Offer.stage, Offer.stage,
          told]
        rfl
    · rw [stageOf_of_absent fun offer member is => held ⟨offer, member, is⟩,
        stageOf_of_absent]
      · rfl
      · intro later left is
        rcases mem_retracted.mp left with
          ⟨-, apart⟩ | ⟨before, stored, same, -, rfl⟩
        · exact apart (by rw [is])
        · exact held ⟨before, stored, is⟩
  · rw [if_neg named]
    apply stageOf_congr once laterOnce
    intro offer is
    rw [mem_retracted]
    constructor
    · rintro (⟨member, -⟩ | ⟨before, stored, same, -, rfl⟩)
      · exact member
      · exact absurd (is.symm.trans (stands before stored same).1) named
    · intro member
      left
      refine ⟨member, fun same => named ?_⟩
      exact is.symm.trans (stands offer member same).1

/-- A first list of offers, one for each global shown. -/
theorem stageOf_shown
    {shown : List Handle}
    (handle : Handle) :
    stageOf (shown.map fun global => ⟨global, .addPending, epoch⟩) handle =
      if handle ∈ shown then .owed epoch else .unknown := by
  induction shown with
  | nil => rfl
  | cons first rest ih =>
      unfold stageOf at *
      rw [List.map_cons, List.find?_cons]
      by_cases same : first = handle
      · subst same
        simp [Offer.stage]
      · have apart : handle ≠ first := fun is => same is.symm
        simp only [same, decide_false, List.mem_cons, apart, false_or]
        exact ih

/-- What a new registry is shown is shown once. -/
theorem once_shown
    {shown : List Handle}
    (distinct : (shown.map Handle.id).Nodup) :
    Once (shown.map fun global => ⟨global, .addPending, epoch⟩) := by
  unfold Once
  rw [List.map_map]
  exact distinct

end Stages

end RegistrySubscriptions

namespace Publisher

variable {Clients : Type}

/-! ## The ledger -/

/-- The globals that were removed and not withdrawn yet. -/
def removedHandles (publisher : Publisher Clients) : List Handle :=
  publisher.removedGlobals.map RemovedGlobal.handle

/-- What a handle stands for while its global is kept. -/
def Defines
    (publisher : Publisher Clients)
    (handle : Handle)
    (global : Global) : Prop :=
  publisher.globals.resolve handle = some global ∨
    ∃ withdrawn, ⟨handle, global, withdrawn⟩ ∈ publisher.removedGlobals

/-- What a registry was told of a global. -/
def stage
    (publisher : Publisher Clients)
    (peer : Peer)
    (registry handle : Handle) : Ledger.Stage :=
  RegistrySubscriptions.stageOf
    ((publisher.registries.known peer registry).getD []) handle

/-- The runtime as a ledger. -/
def ledger
    (publisher : Publisher Clients) : Ledger Peer Handle Handle Handle where
  clock := publisher.registries.epoch
  live := fun handle => (publisher.globals.resolve handle).isSome
  removed := fun handle => handle ∈ publisher.removedHandles
  registered := fun peer registry =>
    (publisher.registries.known peer registry).isSome
  stage := publisher.stage
  queue := publisher.syncBarriers.tickets

/-- What the runtime relies on between its operations. -/
structure Core (publisher : Publisher Clients) : Prop where
  registries : publisher.registries.Valid
  barriers : publisher.syncBarriers.Valid
  globals : publisher.globals.Sound
  once : ∀ peer registry offers,
    publisher.registries.known peer registry = some offers →
      RegistrySubscriptions.Once offers
  /-- An offer that stands is of a live global, and any other of a removed
  one. -/
  offered : ∀ peer registry offers,
    publisher.registries.known peer registry = some offers →
      ∀ offer ∈ offers,
        offer.Stands ∧ (publisher.globals.resolve offer.global).isSome ∨
          ¬ offer.Stands ∧ offer.global ∈ publisher.removedHandles
  removedIssued : ∀ handle ∈ publisher.removedHandles,
    publisher.globals.Issued handle.id
  apart : ∀ handle ∈ publisher.removedHandles, ∀ live,
    (publisher.globals.resolve live).isSome → live.id ≠ handle.id
  removedOnce : (publisher.removedHandles.map Handle.id).Nodup

/-- Every slot that publication can visit has an entry for backpressure. -/
def Roomy (publisher : Publisher Clients) : Prop :=
  ∀ slot, publisher.registries.generation slot ≠ 0 ∨
    publisher.syncBarriers.generation slot ≠ 0 →
      slot < publisher.publishBlocked.length

/-- Names that were issued stay issued, and new globals have new names. -/
structure Names
    (before : Globals)
    (notices : List Notice)
    (after : Globals) : Prop where
  kept : ∀ name, before.Issued name → after.Issued name
  fresh : ∀ handle ∈ Ledger.published notices,
    ¬ before.Issued handle.id ∧ after.Issued handle.id
  once : ((Ledger.published notices).map Handle.id).Nodup

/-- An operation that listed what it did, and kept what the runtime relies
on. -/
structure Follows
    (before : Publisher Clients)
    (notices : List Notice)
    (after : Publisher Clients) : Prop where
  core : after.Core
  path : Ledger.Path before.ledger notices after.ledger
  room : before.Roomy → after.Roomy
  names : Names before.globals notices after.globals
  /-- Definitions stay as they were published. -/
  origin : ∀ handle global, after.Defines handle global →
    before.Defines handle global ∨ handle ∈ Ledger.published notices

section Following

variable {before middle after : Publisher Clients} {front back : List Notice}
  {notice : Notice}

/-- Where nothing is published, the globals are named as before. -/
theorem Names.quiet
    {globals : Globals} {notices : List Notice}
    (quiet : Ledger.published notices = []) :
    Names globals notices globals := by
  refine ⟨fun _ => id, ?_, ?_⟩
  · rw [quiet]
    exact fun handle member => absurd member List.not_mem_nil
  · rw [quiet]
    exact List.nodup_nil

/-- The globals are named by all that was published. -/
theorem Names.trans
    {first second third : Globals}
    (earlier : Names first front second)
    (later : Names second back third) :
    Names first (front ++ back) third := by
  refine ⟨fun name issued => later.kept name (earlier.kept name issued),
    ?_, ?_⟩
  · intro handle member
    rw [Ledger.published_append, List.mem_append] at member
    rcases member with old | new
    · exact ⟨(earlier.fresh handle old).1,
        later.kept _ (earlier.fresh handle old).2⟩
    · exact ⟨fun issued => (later.fresh handle new).1
        (earlier.kept _ issued), (later.fresh handle new).2⟩
  · rw [Ledger.published_append, List.map_append, List.nodup_append]
    refine ⟨earlier.once, later.once, ?_⟩
    intro name old other new same
    obtain ⟨handle, published, rfl⟩ := List.mem_map.mp old
    obtain ⟨another, publishedToo, rfl⟩ := List.mem_map.mp new
    exact (later.fresh another publishedToo).1
      (same ▸ (earlier.fresh handle published).2)

/-- Clients, and who is blocked, are not in the ledger. -/
theorem Core.congr
    (core : before.Core)
    (registries : after.registries = before.registries)
    (barriers : after.syncBarriers = before.syncBarriers)
    (globals : after.globals = before.globals)
    (removed : after.removedGlobals = before.removedGlobals) :
    after.Core ∧ after.ledger = before.ledger := by
  cases before
  cases after
  simp only at registries barriers globals removed
  subst registries barriers globals removed
  exact ⟨⟨core.registries, core.barriers, core.globals, core.once,
    core.offered, core.removedIssued, core.apart, core.removedOnce⟩, rfl⟩

/-- Other syncs, with nothing else changed. -/
theorem Core.withBarriers
    {syncBarriers : SyncBarriers}
    (core : before.Core)
    (valid : syncBarriers.Valid) : Core { before with syncBarriers } :=
  ⟨core.registries, valid, core.globals, core.once, core.offered,
    core.removedIssued, core.apart, core.removedOnce⟩

/-- Other registries, whose offers are again of live or removed globals. -/
theorem Core.withRegistries
    {registries : RegistrySubscriptions}
    (core : before.Core)
    (valid : registries.Valid)
    (offers : ∀ peer registry offers,
      registries.known peer registry = some offers →
        before.registries.known peer registry = some offers ∨
          RegistrySubscriptions.Once offers ∧
            ∀ offer ∈ offers,
              offer.Stands ∧ (before.globals.resolve offer.global).isSome ∨
                ¬ offer.Stands ∧ offer.global ∈ before.removedHandles) :
    Core { before with registries } where
  registries := valid
  barriers := core.barriers
  globals := core.globals
  once peer registry found held := by
    rcases offers peer registry found held with old | new
    · exact core.once peer registry found old
    · exact new.1
  offered peer registry found held := by
    rcases offers peer registry found held with old | new
    · exact core.offered peer registry found old
    · exact new.2
  removedIssued := core.removedIssued
  apart := core.apart
  removedOnce := core.removedOnce

theorem Follows.refl (core : before.Core) : Follows before [] before :=
  ⟨core, .nil, id, .quiet rfl, fun _ _ => Or.inl⟩

/-- Where no global is new, definitions are as they were. -/
theorem Defines.of_fewer
    {handle : Handle} {global : Global}
    (defines : after.Defines handle global)
    (globals : after.globals = before.globals)
    (fewer : after.removedGlobals ⊆ before.removedGlobals) :
    before.Defines handle global := by
  rcases defines with live | ⟨withdrawn, member⟩
  · exact Or.inl (globals ▸ live)
  · exact Or.inr ⟨withdrawn, fewer member⟩

/-- A step, up to how its outcome is written. -/
theorem step_of
    {ledger expected later : Ledger Peer Handle Handle Handle}
    (step : Ledger.Step ledger notice expected)
    (same : later = expected) : Ledger.Step ledger notice later :=
  same ▸ step

/-- Only the clients changed. -/
theorem Follows.aside
    (core : before.Core)
    (registries : after.registries = before.registries)
    (barriers : after.syncBarriers = before.syncBarriers)
    (globals : after.globals = before.globals)
    (removed : after.removedGlobals = before.removedGlobals)
    (blocked : before.publishBlocked.length ≤ after.publishBlocked.length) :
    Follows before [] after := by
  obtain ⟨kept, same⟩ := core.congr registries barriers globals removed
  refine ⟨kept, same ▸ .nil, fun roomy slot stamped => ?_,
    globals ▸ .quiet rfl, fun handle global defines =>
      Or.inl (defines.of_fewer globals (removed ▸ List.Subset.refl _))⟩
  rw [registries, barriers] at stamped
  exact Nat.lt_of_lt_of_le (roomy slot stamped) blocked

/-- What clients keep for themselves is not in the ledger. -/
theorem Follows.withClients
    (follows : Follows before front middle)
    (clients : Clients) : Follows before front { middle with clients } := by
  have same : Core { middle with clients } ∧
      ledger { middle with clients } = middle.ledger :=
    follows.core.congr rfl rfl rfl rfl
  exact ⟨same.1, follows.path, follows.room, follows.names, follows.origin⟩

theorem Follows.trans
    (first : Follows before front middle)
    (second : Follows middle back after) :
    Follows before (front ++ back) after :=
  ⟨second.core, first.path.append second.path,
    fun roomy => second.room (first.room roomy),
    first.names.trans second.names, fun handle global defines => by
      rw [Ledger.published_append, List.mem_append]
      rcases second.origin handle global defines with between | late
      · exact (first.origin handle global between).imp_right Or.inl
      · exact Or.inr (Or.inr late)⟩

/-- One entry of the ledger. -/
theorem Follows.single
    (core : after.Core)
    (step : Ledger.Step before.ledger notice after.ledger)
    (room : before.Roomy → after.Roomy)
    (same : after.globals = before.globals)
    (fewer : after.removedGlobals ⊆ before.removedGlobals)
    (quiet : notice.publishes = none) : Follows before [notice] after := by
  refine ⟨core, .single step, room, same ▸ .quiet ?_,
    fun handle global defines => Or.inl (defines.of_fewer same fewer)⟩
  rw [Ledger.published, List.filterMap_cons_none quiet, List.filterMap_nil]

/-- Slots that registries are new in have been made room for. -/
theorem Roomy.withRegistries
    {registries : RegistrySubscriptions}
    (roomy : before.Roomy)
    (stamps : ∀ slot, registries.generation slot ≠ 0 →
      before.registries.generation slot ≠ 0 ∨
        slot < before.publishBlocked.length) :
    Roomy { before with registries } := by
  intro slot stamped
  rcases stamped with registered | waiting
  · rcases stamps slot registered with old | room
    · exact roomy slot (Or.inl old)
    · exact room
  · exact roomy slot (Or.inr waiting)

theorem Roomy.withDirectory
    {registries : RegistrySubscriptions}
    (roomy : before.Roomy)
    (directory : registries.slots = before.registries.slots) :
    Roomy { before with registries } := by
  apply roomy.withRegistries
  intro slot stamped
  unfold RegistrySubscriptions.generation RegistrySubscriptions.slot at stamped
  rw [directory] at stamped
  exact Or.inl stamped

theorem Roomy.withBarriers
    {syncBarriers : SyncBarriers}
    (roomy : before.Roomy)
    (stamps : ∀ slot, syncBarriers.generation slot ≠ 0 →
      before.syncBarriers.generation slot ≠ 0 ∨
        slot < before.publishBlocked.length) :
    Roomy { before with syncBarriers } := by
  intro slot stamped
  rcases stamped with registered | waiting
  · exact roomy slot (Or.inl registered)
  · rcases stamps slot waiting with old | room
    · exact roomy slot (Or.inr old)
    · exact room

end Following

section Reading

variable {publisher : Publisher Clients} {peer : Peer}
  {registry handle : Handle} {offers : List Offer} {offer : Offer}

/-- The stage of a global for a registry is that of its offer. -/
theorem stage_of_known
    (known : publisher.registries.known peer registry = some offers) :
    publisher.stage peer registry handle =
      RegistrySubscriptions.stageOf offers handle := by
  rw [stage, known]
  rfl

/-- A registry that is not there knows no global. -/
theorem stage_of_unknown
    (unknown : publisher.registries.known peer registry = none) :
    publisher.stage peer registry handle = .unknown := by
  rw [stage, unknown]
  rfl

/-- Every stage but `unknown` comes from an offer. -/
theorem exists_of_stage
    (told : publisher.stage peer registry handle ≠ .unknown) :
    ∃ offers offer,
      publisher.registries.known peer registry = some offers ∧
        offer ∈ offers ∧ offer.global = handle ∧
        publisher.stage peer registry handle = offer.stage := by
  cases known : publisher.registries.known peer registry with
  | none => exact absurd (stage_of_unknown known) told
  | some offers =>
      rw [stage_of_known known] at told ⊢
      obtain ⟨offer, member, named, is⟩ :=
        RegistrySubscriptions.exists_of_stageOf told
      exact ⟨offers, offer, rfl, member, named, is⟩

/-- Offers of one name are of one global. -/
theorem Core.offered_unique
    (core : publisher.Core)
    (live : (publisher.globals.resolve handle).isSome)
    (known : publisher.registries.known peer registry = some offers)
    (member : offer ∈ offers)
    (named : offer.global.id = handle.id) :
    offer.global = handle ∧ offer.Stands := by
  rcases core.offered peer registry offers known offer member with
    ⟨stands, lives⟩ | ⟨-, removed⟩
  · obtain ⟨first, resolves⟩ := Option.isSome_iff_exists.mp lives
    obtain ⟨second, also⟩ := Option.isSome_iff_exists.mp live
    exact ⟨Globals.resolve_unique resolves also named, stands⟩
  · exact absurd named.symm (core.apart _ removed handle live)

/-- The first moment of all owed offers is the earliest of the ledger. -/
theorem earliest_of
    {moment : Nat}
    (first : ∀ registry offers,
      publisher.registries.known peer registry = some offers →
        ∀ offer ∈ offers, offer.state.pending = true →
          moment ≤ offer.epoch) :
    publisher.ledger.Earliest peer moment := by
  intro registry handle since owes
  have told : publisher.stage peer registry handle ≠ .unknown := by
    intro unknown
    rw [show publisher.ledger.stage = publisher.stage from rfl,
      unknown] at owes
    cases owes
  obtain ⟨offers, offer, known, member, -, is⟩ := exists_of_stage told
  rw [show publisher.ledger.stage = publisher.stage from rfl, is,
    RegistrySubscriptions.stage_since_eq_some_iff] at owes
  rw [← owes.2]
  exact first registry offers known offer member owes.1

end Reading

/-! ## Ends of lifetimes -/

section Collection

variable {publisher : Publisher Clients} {removed : RemovedGlobal}
  {removedGlobals : List RemovedGlobal}

/-- Swapping with the last item takes one item out. -/
theorem swapRemove_perm
    {α : Type} {items : List α} {item : α} {index : Nat}
    (held : items[index]? = some item) :
    (item :: swapRemove items index).Perm items := by
  rcases List.eq_nil_or_concat items with rfl | ⟨front, last, rfl⟩
  · cases held
  · have taken : swapRemove (front ++ [last]) index =
        ((front ++ [last]).set index last).dropLast := by
      simp [swapRemove]
    rw [List.concat_eq_append] at held ⊢
    rw [taken]
    by_cases inside : index < front.length
    · rw [List.getElem?_append_left inside] at held
      rw [List.set_append_left _ _ inside, List.dropLast_concat]
      obtain ⟨bound, is⟩ := List.getElem?_eq_some_iff.mp held
      have split : front = front.take index ++ item ::
          front.drop (index + 1) := by
        rw [← is, List.cons_getElem_drop_succ, List.take_append_drop]
      rw [List.set_eq_take_append_cons_drop, if_pos bound]
      nth_rewrite 3 [split]
      rw [List.append_assoc, List.cons_append]
      refine List.Perm.trans ?_ List.perm_middle.symm
      refine List.Perm.cons _ (List.Perm.append_left _ ?_)
      exact (List.perm_append_singleton last _).symm
    · have bound := (List.getElem?_eq_some_iff.mp held).1
      have here : index = front.length := by
        rw [List.length_append, List.length_singleton] at bound
        omega
      subst here
      rw [List.getElem?_append_right (Nat.le_refl _), Nat.sub_self] at held
      cases held
      rw [List.set_append_right _ _ (Nat.le_refl _), Nat.sub_self,
        List.set_cons_zero, List.dropLast_concat]
      exact (List.perm_append_singleton _ _).symm

/-- A removed global that nobody has an offer of is withdrawn. -/
theorem Core.withdraw
    (core : publisher.Core)
    (taken : (removed :: removedGlobals).Perm publisher.removedGlobals)
    (unheld : publisher.registries.hasOffers removed.handle.id = false) :
    Core { publisher with removedGlobals } ∧
      Ledger.Step publisher.ledger (.withdrawn removed.handle)
        (ledger { publisher with removedGlobals }) := by
  have handles : (removed.handle :: removedGlobals.map
      RemovedGlobal.handle).Perm publisher.removedHandles :=
    taken.map RemovedGlobal.handle
  have distinct := (handles.map Handle.id).nodup_iff.mpr core.removedOnce
  rw [List.map_cons, List.nodup_cons] at distinct
  have fewer : ∀ handle, handle ∈ removedGlobals.map RemovedGlobal.handle ↔
      handle ∈ publisher.removedHandles ∧ handle ≠ removed.handle := by
    intro handle
    rw [← handles.mem_iff, List.mem_cons]
    constructor
    · intro member
      refine ⟨Or.inr member, ?_⟩
      rintro rfl
      exact distinct.1 (List.mem_map_of_mem member)
    · rintro ⟨rfl | member, apart⟩
      · exact absurd rfl apart
      · exact member
  have unoffered : ∀ peer registry offers,
      publisher.registries.known peer registry = some offers →
        ∀ offer ∈ offers, offer.global.id ≠ removed.handle.id := by
    intro peer registry offers known offer member named
    have held := (core.registries.hasOffers_iff _).mpr
      ⟨peer, registry, offers, known, offer, member, named⟩
    rw [unheld] at held
    cases held
  constructor
  · refine ⟨core.registries, core.barriers, core.globals, core.once, ?_, ?_,
      ?_, distinct.2⟩
    · intro peer registry offers known offer member
      rcases core.offered peer registry offers known offer member with
        stands | ⟨fallen, gone⟩
      · exact Or.inl stands
      · refine Or.inr ⟨fallen, (fewer _).mpr ⟨gone, fun same => ?_⟩⟩
        exact unoffered peer registry offers known offer member
          (congrArg Handle.id same)
    · intro handle member
      exact core.removedIssued handle ((fewer handle).mp member).1
    · intro handle member
      exact core.apart handle ((fewer handle).mp member).1
  · have waits : publisher.ledger.removed removed.handle :=
      handles.mem_iff.mp List.mem_cons_self
    refine step_of (.withdrawn waits ?_) (Ledger.ext rfl rfl ?_ rfl rfl rfl)
    · intro peer registry
      by_contra told
      obtain ⟨offers, offer, known, member, named, -⟩ := exists_of_stage told
      exact unoffered peer registry offers known offer member
        (congrArg Handle.id named)
    · funext handle
      simp only [Function.update_apply]
      apply propext
      split_ifs with same
      · subst same
        exact iff_of_false (fun member => ((fewer _).mp member).2 rfl) id
      · exact (fewer handle).trans (and_iff_left same)

/-- Collecting drops removed globals that nobody retains. -/
theorem collect_follows
    {fuel index : Nat}
    (core : publisher.Core) :
    let outcome := collect publisher.registries fuel index
      publisher.removedGlobals
    Follows publisher outcome.1
      { publisher with removedGlobals := outcome.2 } := by
  induction fuel generalizing publisher index with
  | zero => exact .refl core
  | succ fuel ih =>
      unfold collect
      cases held : publisher.removedGlobals[index]? with
      | none => exact .refl core
      | some removed =>
          cases offered :
              publisher.registries.hasOffers removed.handle.id with
          | true =>
              simp only [offered, if_true]
              exact ih core
          | false =>
              simp only [offered, Bool.false_eq_true, if_false]
              obtain ⟨kept, step⟩ := core.withdraw (swapRemove_perm held)
                offered
              have fewer : swapRemove publisher.removedGlobals index ⊆
                  publisher.removedGlobals := fun other member =>
                (swapRemove_perm held).mem_iff.mp
                  (List.mem_cons_of_mem _ member)
              exact (Follows.single kept step id rfl fewer rfl).trans
                (ih kept)

/-- Ending lifetimes withdraws globals, and changes nothing else. -/
theorem Core.collectRemovedGlobals
    (core : publisher.Core) :
    Follows publisher publisher.collectRemovedGlobals.1
      publisher.collectRemovedGlobals.2 :=
  collect_follows core

end Collection

/-! ## Registries -/

section Subscribing

variable {hosts : Hosts Clients} {publisher : Publisher Clients} {peer : Peer}
  {registry : Handle} {grants : PublisherGrants}
  {registries : RegistrySubscriptions}

/-- Room for a peer in the publishing order changes nothing else. -/
theorem reservePublishSlot_same
    (slot : Nat) (granted : Bool) :
    let later := (publisher.reservePublishSlot slot granted).2
    later.registries = publisher.registries ∧
      later.syncBarriers = publisher.syncBarriers ∧
      later.globals = publisher.globals ∧
      later.removedGlobals = publisher.removedGlobals ∧
      publisher.publishBlocked.length ≤ later.publishBlocked.length := by
  unfold reservePublishSlot
  split_ifs
  · exact ⟨rfl, rfl, rfl, rfl, Nat.le_refl _⟩
  · refine ⟨rfl, rfl, rfl, rfl, ?_⟩
    rw [List.length_append]
    exact Nat.le_add_right _ _
  · exact ⟨rfl, rfl, rfl, rfl, Nat.le_refl _⟩

theorem reservePublishSlot_clients
    {slot : Nat} {granted : Bool} :
    (publisher.reservePublishSlot slot granted).2.clients =
      publisher.clients := by
  unfold Publisher.reservePublishSlot
  split_ifs <;> rfl

/-- A peer has a place in the publishing order once it was reserved. -/
theorem lt_of_reservePublishSlot
    {slot : Nat} {granted : Bool} {later : Publisher Clients}
    (reserved : publisher.reservePublishSlot slot granted = (.ok (), later)) :
    slot < later.publishBlocked.length := by
  unfold reservePublishSlot at reserved
  split_ifs at reserved with inside
  · cases reserved
    exact inside
  · cases reserved
    rw [List.length_append, List.length_replicate]
    omega
  · cases reserved

/-- Registries that hold the same offers are the same to the ledger. -/
theorem Follows.reregister
    (core : publisher.Core)
    (valid : registries.Valid)
    (epoch : registries.epoch = publisher.registries.epoch)
    (known : ∀ peer registry, registries.known peer registry =
      publisher.registries.known peer registry)
    (stamps : ∀ slot, registries.generation slot ≠ 0 →
      publisher.registries.generation slot ≠ 0 ∨
        slot < publisher.publishBlocked.length) :
    Follows publisher [] { publisher with registries } := by
  have same : ledger { publisher with registries } = publisher.ledger := by
    apply Ledger.ext
    case clock => exact epoch
    case registered =>
      funext peer registry
      exact congrArg (fun offers => (Option.isSome offers : Prop))
        (known peer registry)
    case stage =>
      funext peer registry handle
      exact congrArg (fun offers : Option (List Offer) =>
        RegistrySubscriptions.stageOf (offers.getD []) handle)
        (known peer registry)
    all_goals rfl
  refine ⟨core.withRegistries valid fun peer registry offers held => ?_,
    same ▸ .nil, fun roomy => roomy.withRegistries stamps, .quiet rfl,
    fun handle global => Or.inl⟩
  exact Or.inl ((known peer registry) ▸ held)

/-- The globals shown to a new registry are live, and each is there once. -/
theorem Core.shown
    (core : publisher.Core)
    (visible : Handle × Global → Bool) :
    let shown := (publisher.globals.entries.filter visible).map Prod.fst
    (∀ handle ∈ shown, (publisher.globals.resolve handle).isSome) ∧
      (shown.map Handle.id).Nodup := by
  intro shown
  have live : ∀ handle ∈ shown,
      (publisher.globals.resolve handle).isSome := by
    intro handle member
    obtain ⟨⟨found, global⟩, entry, rfl⟩ := List.mem_map.mp member
    rw [core.globals.mem_entries.mp (List.mem_of_mem_filter entry)]
    rfl
  refine ⟨live, List.Nodup.map_on ?_ ?_⟩
  · intro first before second after same
    obtain ⟨one, resolves⟩ := Option.isSome_iff_exists.mp (live first before)
    obtain ⟨two, also⟩ := Option.isSome_iff_exists.mp (live second after)
    exact Globals.resolve_unique resolves also same
  · exact core.globals.entries_nodup.sublist
      ((List.filter_sublist).map Prod.fst)

/-- A new registry is owed what it is shown. -/
theorem Follows.subscribed
    {shown : List Handle}
    (core : publisher.Core)
    (live : ∀ handle ∈ shown, (publisher.globals.resolve handle).isSome)
    (distinct : (shown.map Handle.id).Nodup)
    (fresh : publisher.registries.known peer registry = none)
    (valid : registries.Valid)
    (epoch : registries.epoch = publisher.registries.epoch + 1)
    (known : ∀ other name, registries.known other name =
      if other = peer ∧ name = registry then
        some (shown.map fun global =>
          ⟨global, .addPending, publisher.registries.epoch + 1⟩)
      else publisher.registries.known other name)
    (stamps : ∀ slot, registries.generation slot ≠ 0 →
      publisher.registries.generation slot ≠ 0 ∨
        slot < publisher.publishBlocked.length) :
    Follows publisher [.subscribed peer registry shown]
      { publisher with registries } := by
  refine .single ?_ ?_ (fun roomy => roomy.withRegistries stamps) rfl
    (List.Subset.refl _) rfl
  · refine core.withRegistries valid fun other name offers held => ?_
    rw [known] at held
    split_ifs at held
    · cases held
      refine Or.inr ⟨RegistrySubscriptions.once_shown distinct, ?_⟩
      intro offer member
      obtain ⟨handle, is, rfl⟩ := List.mem_map.mp member
      exact Or.inl ⟨Or.inl rfl, live handle is⟩
    · exact Or.inl held
  · have unregistered : ¬ publisher.ledger.registered peer registry := by
      change ¬ (publisher.registries.known peer registry).isSome
      rw [fresh]
      exact Bool.false_ne_true
    refine step_of (.subscribed unregistered live)
      (Ledger.ext epoch rfl rfl ?_ ?_ rfl)
    · funext other name
      change ((registries.known other name).isSome : Prop) = _
      rw [known]
      apply propext
      split_ifs with here
      · exact iff_of_true rfl (Or.inl here)
      · exact (or_iff_right here).symm
    · funext other name handle
      dsimp only
      change stage _ other name handle = _
      split_ifs with here shows
      · rw [stage_of_known ((known other name).trans (if_pos here)),
          RegistrySubscriptions.stageOf_shown, if_pos shows]
        rfl
      · rw [stage_of_known ((known other name).trans (if_pos here)),
          RegistrySubscriptions.stageOf_shown, if_neg shows]
      · unfold stage
        rw [(known other name).trans (if_neg here)]
        rfl

/-- A new registry is shown every live global. -/
theorem Core.subscribe
    (core : publisher.Core)
    (hosts : Hosts Clients)
    (grants : PublisherGrants)
    (nonzero : peer.generation ≠ 0)
    (range : 2 ≤ registry.id ∧ registry.id < serverIdStart) :
    ∃ reply, publisher.subscribe hosts peer registry grants = some reply ∧
      Follows publisher reply.notices reply.publisher := by
  unfold Publisher.subscribe
  obtain ⟨sameRegistries, sameBarriers, sameGlobals, sameRemoved, longer⟩ :=
    @reservePublishSlot_same Clients publisher peer.slot grants.blocked
  cases reserved : publisher.reservePublishSlot peer.slot grants.blocked with
  | mk result first =>
  rw [reserved] at sameRegistries sameBarriers sameGlobals sameRemoved longer
  have aside : Follows publisher [] first :=
    .aside core sameRegistries sameBarriers sameGlobals sameRemoved longer
  cases result with
  | error cause => exact ⟨_, rfl, aside⟩
  | ok _ =>
      have firstCore := aside.core
      have room := lt_of_reservePublishSlot reserved
      cases added : first.registries.add peer registry grants.slot
          grants.node with
      | mk result registries =>
      cases result with
      | error cause =>
          obtain ⟨valid, epoch, stamps, known⟩ :=
            firstCore.registries.known_add_error nonzero range added
          simp only [added]
          refine ⟨_, rfl, aside.trans (.reregister firstCore valid epoch known
            fun slot stamped => ?_)⟩
          exact (stamps slot stamped).imp_right
            fun here : slot = peer.slot => here ▸ room
      | ok index =>
          simp only [added]
          cases granted : grants.offers with
          | false =>
              obtain ⟨fresh, -, stamps, epoch, valid, registered, known, -⟩ :=
                firstCore.registries.known_add nonzero range added 0 []
              cases removed : registries.remove peer registry with
              | mk result restored =>
              rcases valid.remove peer registry with
                ⟨-, unknown⟩ | ⟨outcome, -⟩
              · rw [unknown] at registered
                cases registered
              · rw [removed] at outcome
                simp only at outcome
                subst outcome
                obtain ⟨restoredValid, restoredEpoch, kept, -,
                  restoredKnown⟩ := valid.known_remove removed
                refine ⟨_, rfl, aside.trans (.reregister firstCore
                  restoredValid (restoredEpoch.trans epoch) ?_ ?_)⟩
                · intro other name
                  rw [restoredKnown, known]
                  split_ifs with here
                  · rw [here.1, here.2, fresh]
                  · rfl
                · intro slot stamped
                  exact (stamps slot (kept slot stamped)).imp_right
                    fun here : slot = peer.slot => here ▸ room
          | true =>
              obtain ⟨fresh, written, stamps, epoch, -, -, -, known⟩ :=
                firstCore.registries.known_add nonzero range added
                  (registries.epoch + 1)
                  ((first.globals.entries.filter fun entry =>
                    first.visibleTo hosts peer entry.1 entry.2).map
                      fun entry =>
                        ⟨entry.1, .addPending, registries.epoch + 1⟩)
              obtain ⟨live, distinct⟩ := firstCore.shown fun entry =>
                first.visibleTo hosts peer entry.1 entry.2
              refine ⟨_, rfl, aside.trans (.subscribed firstCore live distinct
                fresh written (congrArg (· + 1) epoch) ?_ ?_)⟩
              · intro other name
                rw [← epoch, List.map_map]
                exact known other name
              · intro slot stamped
                exact (stamps slot stamped).imp_right
                  fun here : slot = peer.slot => here ▸ room

/-- Subscribing leaves the clients alone. -/
theorem subscribe_clients
    {grants : PublisherGrants} {reply : Reply Clients Unit}
    (subscribes : publisher.subscribe hosts peer registry grants =
      some reply) : reply.publisher.clients = publisher.clients := by
  have reserved := @reservePublishSlot_clients Clients publisher peer.slot
    grants.blocked
  unfold Publisher.subscribe at subscribes
  generalize publisher.reservePublishSlot peer.slot grants.blocked = outcome
    at reserved subscribes
  obtain ⟨result, first⟩ := outcome
  cases result with
  | error cause =>
      cases subscribes
      exact reserved
  | ok _ =>
      simp only at subscribes
      repeat' split at subscribes
      all_goals cases subscribes <;> exact reserved

/-- A request of wl_display is served as the ledger has it. -/
theorem Core.displayRequest
    (core : publisher.Core)
    (hosts : Hosts Clients)
    (peer : Peer) (request : DisplayRequest) (context : Option Nat)
    (grants : PublisherGrants) :
    ∃ reply,
      publisher.displayRequest hosts peer request context grants =
          some reply ∧
        Follows publisher reply.notices reply.publisher := by
  unfold Publisher.displayRequest
  cases got : hosts.get publisher.clients peer with
  | error cause => exact ⟨_, rfl, .refl core⟩
  | ok _ =>
      have nonzero := hosts.generation_ne_zero got
      cases request with
      | sync callback =>
          cases inserted : hosts.insertClient publisher.clients peer callback
              Server.wlCallback 1 context with
          | mk result clients =>
          cases result with
          | error cause =>
              simp only [inserted]
              exact ⟨_, rfl, (Follows.refl core).withClients clients⟩
          | ok handle =>
              simp only [inserted]
              exact ⟨_, rfl, (Follows.refl core).withClients clients⟩
      | getRegistry name =>
          cases inserted : hosts.insertClient publisher.clients peer name
              wlRegistry 1 context with
          | mk result clients =>
          have aside := (Follows.refl core).withClients clients
          cases result with
          | error cause =>
              simp only [inserted]
              exact ⟨_, rfl, aside⟩
          | ok registry =>
              obtain ⟨reply, subscribes, follows⟩ :=
                aside.core.subscribe hosts grants nonzero
                  (hosts.insertClient_range inserted)
              simp only [inserted, subscribes, Option.bind_eq_bind,
                Option.bind_some]
              cases result : reply.result with
              | error cause =>
                  obtain ⟨canceled, cancels⟩ := Option.isSome_iff_exists.mp
                    (hosts.insertClient_cancels inserted)
                  have same : reply.publisher.clients = clients :=
                    subscribe_clients subscribes
                  simp only [same, cancels, Option.bind_some]
                  exact ⟨_, rfl, (aside.trans follows).withClients _⟩
              | ok _ => exact ⟨_, rfl, aside.trans follows⟩

end Subscribing

/-! ## Changes to one registry -/

section Telling

variable {hosts : Hosts Clients} {publisher : Publisher Clients} {peer : Peer}
  {registry global : Handle} {registries : RegistrySubscriptions}
  {offers later : List Offer} {notice : Notice}

/-- A registry is told of one global. -/
theorem Follows.tell
    {stage : Ledger.Stage}
    (core : publisher.Core)
    (before : publisher.registries.known peer registry = some offers)
    (valid : registries.Valid)
    (epoch : registries.epoch = publisher.registries.epoch)
    (directory : registries.slots = publisher.registries.slots)
    (known : ∀ other name, registries.known other name =
      if other = peer ∧ name = registry then some later
      else publisher.registries.known other name)
    (once : RegistrySubscriptions.Once later)
    (offered : ∀ offer ∈ later,
      offer.Stands ∧ (publisher.globals.resolve offer.global).isSome ∨
        ¬ offer.Stands ∧ offer.global ∈ publisher.removedHandles)
    (stages : ∀ handle, RegistrySubscriptions.stageOf later handle =
      if handle = global then stage
      else RegistrySubscriptions.stageOf offers handle)
    (step : Ledger.Step publisher.ledger notice
      (publisher.ledger.setStage peer registry global stage))
    (quiet : notice.publishes = none) :
    Follows publisher [notice] { publisher with registries } := by
  refine .single ?_ ?_ (fun roomy => roomy.withDirectory directory) rfl
    (List.Subset.refl _) quiet
  · refine core.withRegistries valid fun other name found held => ?_
    rw [known] at held
    split_ifs at held
    · cases held
      exact Or.inr ⟨once, offered⟩
    · exact Or.inl held
  · refine step_of step (Ledger.ext epoch rfl rfl ?_ ?_ rfl)
    · funext other name
      change ((registries.known other name).isSome : Prop) =
        (publisher.registries.known other name).isSome
      rw [known]
      split_ifs with here
      · rw [here.1, here.2, before]
        rfl
      · rfl
    · funext other name handle
      dsimp only [Ledger.setStage]
      change Publisher.stage _ other name handle =
        _
      split_ifs with here
      · rw [stage_of_known ((known other name).trans
          (if_pos ⟨here.1, here.2.1⟩)), stages, if_pos here.2.2]
      · by_cases same : other = peer ∧ name = registry
        · rw [stage_of_known ((known other name).trans (if_pos same)), stages,
            if_neg fun is => here ⟨same.1, same.2, is⟩]
          rw [same.1, same.2]
          exact (stage_of_known before).symm
        · unfold Publisher.stage
          rw [(known other name).trans (if_neg same)]
          rfl

/-- A registry ends: its peer is owed nothing more for it. -/
theorem Follows.unsubscribed
    (core : publisher.Core)
    (removed : publisher.registries.remove peer registry =
      (.ok (), registries)) :
    Follows publisher [.unsubscribed peer registry]
      { publisher with registries } := by
  obtain ⟨valid, epoch, stamps, registered, known⟩ :=
    core.registries.known_remove removed
  refine .single ?_ ?_ (fun roomy =>
    roomy.withRegistries fun slot stamped => Or.inl (stamps slot stamped))
    rfl (List.Subset.refl _) rfl
  · refine core.withRegistries valid fun other name offers held => ?_
    rw [known] at held
    split_ifs at held
    exact Or.inl held
  · have registers : publisher.ledger.registered peer registry := registered
    refine step_of (.unsubscribed registers)
      (Ledger.ext epoch rfl rfl ?_ ?_ rfl)
    · funext other name
      change ((registries.known other name).isSome : Prop) = _
      rw [known]
      apply propext
      split_ifs with here
      · exact iff_of_false Bool.false_ne_true fun both => both.1 here
      · exact (and_iff_right here).symm
    · funext other name handle
      dsimp only
      change Publisher.stage _ other name handle = _
      split_ifs with here
      · exact stage_of_unknown ((known other name).trans (if_pos here))
      · unfold Publisher.stage
        rw [(known other name).trans (if_neg here)]
        rfl

/-- A registry that is removed forgets the globals. -/
theorem Core.removeRegistry
    (core : publisher.Core)
    (peer : Peer) (registry : Handle) :
    ∃ reply, publisher.removeRegistry hosts peer registry = some reply ∧
      Follows publisher reply.notices reply.publisher := by
  unfold Publisher.removeRegistry
  cases got : hosts.get publisher.clients peer with
  | error cause => exact ⟨_, rfl, .refl core⟩
  | ok _ =>
      have deletes := @Hosts.ensureDelete_deletes _ hosts publisher.clients
      cases resolves : hosts.resolve publisher.clients peer registry with
      | mk found clients =>
      cases found with
      | none => exact ⟨_, rfl, (Follows.refl core).withClients clients⟩
      | some object =>
          by_cases wrong : object.interface ≠ wlRegistry
          · simp only [if_pos wrong]
            exact ⟨_, rfl, (Follows.refl core).withClients clients⟩
          · simp only [if_neg wrong]
            cases ensured : hosts.ensureDelete clients peer registry with
            | mk result roomy =>
            cases result with
            | error cause =>
                exact ⟨_, rfl, (Follows.refl core).withClients roomy⟩
            | ok _ =>
                cases removed : publisher.registries.remove peer
                    registry with
                | mk result registries =>
                cases result with
                | error cause =>
                    have same : registries = publisher.registries := by
                      rcases core.registries.remove peer registry with
                        ⟨refused, -⟩ | ⟨outcome, -⟩
                      · rw [refused] at removed
                        cases removed
                        rfl
                      · rw [removed] at outcome
                        cases outcome
                    subst same
                    exact ⟨_, rfl, (Follows.refl core).withClients roomy⟩
                | ok _ =>
                    have range : 2 ≤ registry.id ∧
                        registry.id < serverIdStart := by
                      rcases core.registries.remove peer registry with
                        ⟨refused, -⟩ | ⟨-, -, known, -⟩
                      · rw [refused] at removed
                        cases removed
                      · obtain ⟨offers, known⟩ :=
                          Option.isSome_iff_exists.mp known
                        exact core.registries.known_range known
                    obtain ⟨left, deleted⟩ := Option.isSome_iff_exists.mp
                      (@deletes roomy peer registry object got
                        (by rw [resolves]) (not_not.mp wrong) range
                        (by rw [resolves, ensured]))
                    have aside := (Follows.refl core).withClients left
                    have ended := Follows.unsubscribed aside.core removed
                    simp only [deleted, Option.bind_eq_bind, Option.bind_some]
                    exact ⟨_, rfl, (aside.trans ended).trans
                      ended.core.collectRemovedGlobals⟩

/-- A registry acknowledges that a global is gone. -/
theorem Core.acknowledge
    {index : Nat} {offer : Offer}
    (core : publisher.Core)
    (before : publisher.registries.known peer registry = some offers)
    (writes : registries.Valid ∧
      registries.epoch = publisher.registries.epoch ∧
      ∀ other name, registries.known other name =
        if other = peer ∧ name = registry then some (offers.eraseIdx index)
        else publisher.registries.known other name)
    (directory : registries.slots = publisher.registries.slots)
    (held : offers[index]? = some offer)
    (sent : offer.state = .removalSent) :
    Follows publisher [.acknowledged peer registry offer.global]
      { publisher with registries } := by
  obtain ⟨valid, epoch, known⟩ := writes
  have once := core.once peer registry offers before
  obtain ⟨laterOnce, members, stages⟩ :=
    RegistrySubscriptions.erase_offer once held
  refine .tell core before valid epoch directory known laterOnce ?_ stages
    (.acknowledged ?_) rfl
  · intro other member
    exact core.offered peer registry offers before other
      ((members other).mp member).1
  · change publisher.stage peer registry offer.global = .gone
    rw [stage_of_known before, RegistrySubscriptions.stageOf_of_mem once
      (List.mem_of_getElem? held) rfl, Offer.stage, sent]

/-- An acknowledgment forgets the removed global. -/
theorem Core.ackGlobalRemove
    (core : publisher.Core)
    (peer : Peer) (registry : Handle) (name : Nat) :
    let reply := publisher.ackGlobalRemove hosts peer registry name
    Follows publisher reply.notices reply.publisher := by
  unfold Publisher.ackGlobalRemove
  cases hosts.get publisher.clients peer with
  | error cause => exact .refl core
  | ok _ =>
      cases hosts.resolve publisher.clients peer registry with
      | mk found clients =>
      have aside := (Follows.refl core).withClients clients
      cases found with
      | none => exact aside
      | some object =>
          dsimp only
          by_cases wrong : object.interface ≠ wlRegistry
          · simp only [if_pos wrong]
            exact aside
          · simp only [if_neg wrong]
            cases served : publisher.registries.serves peer with
            | false => exact aside
            | true =>
                simp only [Bool.not_true, Bool.false_eq_true, if_false]
                cases located :
                    publisher.registries.locate peer.slot registry with
                | none => exact aside
                | some location =>
                    obtain ⟨previous, position⟩ := location
                    dsimp only
                    cases RegistrySubscriptions.offerIndex
                        (publisher.registries.node position) name with
                    | none => exact aside
                    | some index =>
                        dsimp only
                        cases held : (publisher.registries.node
                            position).offers[index]? with
                        | none => exact aside
                        | some offer =>
                            dsimp only
                            by_cases early : offer.state ≠ .removalSent
                            · simp only [if_pos early]
                              exact aside
                            · simp only [if_neg early]
                              obtain ⟨known, writes⟩ :=
                                core.registries.located served located
                              have told := aside.core.acknowledge known
                                (writes _) rfl held (not_not.mp early)
                              exact (aside.trans told).trans
                                told.core.collectRemovedGlobals

end Telling

/-! ## Globals come and go -/

section Publishing

variable {hosts : Hosts Clients} {publisher : Publisher Clients} {peer : Peer}
  {handle : Handle} {global : Global} {globals : Globals}
  {registries : RegistrySubscriptions} {offers : List Offer}

/-- A global that is offered has had its name issued. -/
theorem Core.offered_issued
    {registry : Handle} {offer : Offer}
    (core : publisher.Core)
    (known : publisher.registries.known peer registry = some offers)
    (member : offer ∈ offers) : publisher.globals.Issued offer.global.id := by
  rcases core.offered peer registry offers known offer member with
    ⟨-, live⟩ | ⟨-, removed⟩
  · obtain ⟨global, resolves⟩ := Option.isSome_iff_exists.mp live
    exact core.globals.issued resolves
  · exact core.removedIssued _ removed

/-- Some of the slots have a peer that is now owed an offer. -/
structure Audience
    (before : Publisher Clients)
    (offer : Offer)
    (slots : List Nat)
    (audience : List Peer)
    (after : RegistrySubscriptions) : Prop where
  valid : after.Valid
  directory : after.slots = before.registries.slots
  clock : after.epoch = before.registries.epoch
  inside : ∀ peer ∈ audience,
    peer.slot ∈ slots ∧ before.subscriber peer.slot = peer
  known : ∀ peer registry, after.known peer registry =
    (before.registries.known peer registry).map fun offers =>
      if peer ∈ audience then offers ++ [offer] else offers

/-- A slot without the peer's registries adds nobody. -/
theorem Audience.skip
    {offer : Offer} {slots : List Nat} {audience : List Peer}
    (reached : Audience publisher offer slots audience registries)
    (slot : Nat) :
    Audience publisher offer (slot :: slots) audience registries :=
  { reached with
    inside := fun peer member =>
      ⟨List.mem_cons_of_mem _ (reached.inside peer member).1,
        (reached.inside peer member).2⟩ }

/-- The registries of another slot join the audience. -/
theorem Audience.join
    {offer : Offer} {slots : List Nat} {audience : List Peer} {slot : Nat}
    (valid : publisher.registries.Valid)
    (fresh : slot ∉ slots)
    (reached : Audience
      { publisher with registries := publisher.registries.offerTo slot offer }
      offer slots audience registries) :
    Audience publisher offer (slot :: slots)
      (publisher.subscriber slot :: audience) registries := by
  obtain ⟨-, offeredSlots, offeredEpoch, offered⟩ :=
    valid.known_offerTo slot offer
  have subscribers : ∀ position, subscriber
      { publisher with
        registries := publisher.registries.offerTo slot offer } position =
      publisher.subscriber position := by
    intro position
    unfold subscriber RegistrySubscriptions.generation
      RegistrySubscriptions.slot
    rw [offeredSlots]
  refine ⟨reached.valid, reached.directory.trans offeredSlots,
    reached.clock.trans offeredEpoch, ?_, ?_⟩
  · intro peer member
    rcases List.mem_cons.mp member with rfl | later
    · exact ⟨List.mem_cons_self, rfl⟩
    · obtain ⟨inside, subscribes⟩ := reached.inside peer later
      exact ⟨List.mem_cons_of_mem _ inside,
        (subscribers _).symm.trans subscribes⟩
  · intro peer registry
    rw [reached.known peer registry]
    change (RegistrySubscriptions.known
      (publisher.registries.offerTo slot offer) peer registry).map _ = _
    rw [offered]
    cases before : publisher.registries.known peer registry with
    | none => rfl
    | some offers =>
        obtain ⟨-, stamp⟩ := valid.known_stamp
          (Option.isSome_iff_exists.mpr ⟨offers, before⟩)
        have subscribes : publisher.subscriber peer.slot = peer := by
          unfold subscriber
          rw [stamp]
        simp only [Option.map_some]
        by_cases here : peer.slot = slot
        · subst here
          have absent : peer ∉ audience := fun member =>
            fresh (reached.inside peer member).1
          rw [if_pos rfl, if_neg absent, subscribes,
            if_pos List.mem_cons_self]
        · have other : peer ≠ publisher.subscriber slot :=
            fun same => here (congrArg Peer.slot same)
          simp only [if_neg here, List.mem_cons, other, false_or]

/-- The registries of the slots that see a global get an offer of it. -/
theorem offerAll_spec
    {offer : Offer} {slots : List Nat}
    (valid : publisher.registries.Valid)
    (distinct : slots.Nodup) :
    let outcome := offerAll hosts handle global offer slots publisher
    ∃ registries, outcome.2 = { publisher with registries } ∧
      Audience publisher offer slots outcome.1 registries := by
  induction slots generalizing publisher with
  | nil =>
      refine ⟨publisher.registries, rfl, valid, rfl, rfl, ?_, ?_⟩
      · intro peer member
        cases member
      · intro peer registry
        simp [offerAll]
  | cons slot rest ih =>
      obtain ⟨fresh, distinctRest⟩ := List.nodup_cons.mp distinct
      obtain ⟨unchanged, same, skipped⟩ := ih valid distinctRest
      unfold offerAll
      dsimp only
      split_ifs with unstamped unseen
      · exact ⟨unchanged, same, skipped.skip slot⟩
      · exact ⟨unchanged, same, skipped.skip slot⟩
      · obtain ⟨registries, is, reached⟩ := @ih
          { publisher with
            registries := publisher.registries.offerTo slot offer }
          (valid.known_offerTo slot offer).1 distinctRest
        exact ⟨registries, is, reached.join valid fresh⟩

/-- What the audience of a new global knows once it is owed the global. -/
theorem Audience.known_published
    {slots : List Nat} {audience : List Peer} {offer : Offer} {epoch : Nat}
    (core : publisher.Core)
    (reached : Audience
      { publisher with registries := { publisher.registries with epoch } }
      offer slots audience registries)
    (peer : Peer) (registry : Handle) :
    registries.known peer registry =
      (publisher.registries.known peer registry).map fun offers =>
        if peer ∈ audience then offers ++ [offer] else offers := by
  rw [reached.known]
  exact congrArg _ ((core.registries.known_epoch _).2 peer registry)

/-- A name that was not issued is in no offer. -/
theorem Core.unoffered
    {registry : Handle}
    (core : publisher.Core)
    (unissued : ¬ publisher.globals.Issued handle.id)
    (held : publisher.registries.known peer registry = some offers) :
    ∀ offer ∈ offers, offer.global.id ≠ handle.id := by
  intro offer member same
  exact unissued (same ▸ core.offered_issued held member)

/-- A global that every registry was told of is published. -/
theorem Core.published
    {audience : List Peer} {epoch : Nat}
    (core : publisher.Core)
    (sound : globals.Sound)
    (issued : ∀ name, publisher.globals.Issued name → globals.Issued name)
    (unissued : ¬ publisher.globals.Issued handle.id)
    (resolve : globals.resolve =
      Function.update publisher.globals.resolve handle (some global))
    (valid : registries.Valid)
    (known : ∀ peer registry, registries.known peer registry =
      (publisher.registries.known peer registry).map fun offers =>
        if peer ∈ audience then offers ++ [⟨handle, .addPending, epoch⟩]
        else offers) :
    Core { publisher with globals, registries } := by
  have resolves : ∀ other,
      (publisher.globals.resolve other).isSome →
        (globals.resolve other).isSome := by
    intro other live
    rw [resolve, Function.update_apply]
    split_ifs
    · rfl
    · exact live
  refine ⟨valid, core.barriers, sound, ?_, ?_, ?_, ?_, core.removedOnce⟩
  · intro peer registry offers held
    change registries.known peer registry = some offers at held
    rw [known, Option.map_eq_some_iff] at held
    obtain ⟨before, was, rfl⟩ := held
    split_ifs
    · exact (core.once peer registry before was).append
        (core.unoffered unissued was)
    · exact core.once peer registry before was
  · intro peer registry offers held offer member
    change registries.known peer registry = some offers at held
    rw [known, Option.map_eq_some_iff] at held
    obtain ⟨before, was, rfl⟩ := held
    have old : offer ∈ before ∨ offer = ⟨handle, .addPending, epoch⟩ := by
      split_ifs at member
      · simpa using member
      · exact Or.inl member
    rcases old with member | rfl
    · rcases core.offered peer registry before was offer member with
        ⟨stands, live⟩ | fallen
      · exact Or.inl ⟨stands, resolves _ live⟩
      · exact Or.inr fallen
    · refine Or.inl ⟨Or.inl rfl, ?_⟩
      change (globals.resolve handle).isSome
      rw [resolve, Function.update_self]
      rfl
  · intro removed member
    exact issued _ (core.removedIssued removed member)
  · intro removed member live isLive
    change (globals.resolve live).isSome at isLive
    rw [resolve, Function.update_apply] at isLive
    split_ifs at isLive with new
    · rw [new]
      intro same
      exact unissued (same ▸ core.removedIssued removed member)
    · exact core.apart removed member live isLive

/-- The entry of a global that is published. -/
theorem Core.publishes
    {audience : List Peer}
    (core : publisher.Core)
    (unissued : ¬ publisher.globals.Issued handle.id)
    (resolve : globals.resolve =
      Function.update publisher.globals.resolve handle (some global))
    (clock : registries.epoch = publisher.registries.epoch + 1)
    (known : ∀ peer registry, registries.known peer registry =
      (publisher.registries.known peer registry).map fun offers =>
        if peer ∈ audience then
          offers ++ [⟨handle, .addPending, publisher.registries.epoch + 1⟩]
        else offers) :
    Ledger.Step publisher.ledger (.published handle audience)
      (ledger { publisher with globals, registries }) := by
  have dead : ¬ publisher.ledger.live handle := by
    intro live
    obtain ⟨global, resolves⟩ := Option.isSome_iff_exists.mp live
    exact unissued (core.globals.issued resolves)
  refine step_of (.published dead ?_)
    (Ledger.ext clock ?_ rfl ?_ ?_ rfl)
  · intro peer registry
    by_contra told
    obtain ⟨offers, offer, held, member, named, -⟩ := exists_of_stage told
    exact core.unoffered unissued held offer member
      (congrArg Handle.id named)
  · funext other
    change ((globals.resolve other).isSome : Prop) = _
    rw [resolve]
    simp only [Function.update_apply]
    split_ifs
    · exact eq_true rfl
    · rfl
  · funext peer registry
    change ((registries.known peer registry).isSome : Prop) = _
    rw [known, Option.isSome_map]
    rfl
  · funext peer registry other
    dsimp only
    change Publisher.stage _ peer registry other = _
    cases was : publisher.registries.known peer registry with
    | none =>
        rw [stage_of_unknown (by rw [show
          Publisher.registries _ = registries from rfl, known, was]; rfl),
          if_neg]
        · exact (stage_of_unknown was).symm
        · rintro ⟨-, -, registered⟩
          change (publisher.registries.known peer registry).isSome
            at registered
          rw [was] at registered
          cases registered
    | some before =>
        have now := known peer registry
        rw [was, Option.map_some] at now
        rw [stage_of_known now]
        have once := core.once peer registry before was
        have apart := core.unoffered unissued was
        split_ifs with present new new
        · rw [RegistrySubscriptions.stageOf_append once apart, if_pos new.1]
          rfl
        · rw [RegistrySubscriptions.stageOf_append once apart, if_neg]
          · exact (stage_of_known was).symm
          · intro same
            refine new ⟨same, present, ?_⟩
            exact Option.isSome_iff_exists.mpr ⟨before, was⟩
        · exact absurd new.2.1 present
        · exact (stage_of_known was).symm

/-- A new global is owed to its audience. -/
theorem Follows.published
    {slots : List Nat} {audience : List Peer}
    (core : publisher.Core)
    (sound : globals.Sound)
    (issued : ∀ name, publisher.globals.Issued name → globals.Issued name)
    (unissued : ¬ publisher.globals.Issued handle.id)
    (resolve : globals.resolve =
      Function.update publisher.globals.resolve handle (some global))
    (reached : Audience
      { publisher with
        registries := { publisher.registries with
          epoch := publisher.registries.epoch + 1 } }
      ⟨handle, .addPending, publisher.registries.epoch + 1⟩ slots audience
      registries) :
    Follows publisher [.published handle audience]
      { publisher with globals, registries } := by
  have known := reached.known_published core
  refine ⟨core.published sound issued unissued resolve reached.valid known,
    .single (core.publishes unissued resolve reached.clock known),
    fun roomy => roomy.withDirectory reached.directory,
    ⟨issued, ?_, List.nodup_singleton handle.id⟩, ?_⟩
  · intro other member
    cases List.mem_singleton.mp member
    have stored : globals.resolve handle = some global := by
      rw [resolve, Function.update_self]
    exact ⟨unissued, sound.issued stored⟩
  · rintro other thing (live | ⟨withdrawn, member⟩)
    · change globals.resolve other = some thing at live
      rw [resolve, Function.update_apply] at live
      split_ifs at live with new
      · exact Or.inr (List.mem_singleton.mpr new)
      · exact Or.inl (Or.inl live)
    · exact Or.inl (Or.inr ⟨withdrawn, member⟩)

theorem Core.addGlobalWithBinder
    (core : publisher.Core)
    (interface : Interface) (version : Nat) (context bind : Option Nat)
    (granted : Bool) :
    let reply := publisher.addGlobalWithBinder hosts interface version context
      bind granted
    Follows publisher reply.notices reply.publisher := by
  unfold Publisher.addGlobalWithBinder
  cases granted with
  | false => exact .refl core
  | true =>
      simp only [Bool.not_true, Bool.false_eq_true, if_false]
      have outcome := core.globals.addWithBinder interface version context bind
      cases added : publisher.globals.addWithBinder interface version context
          bind with
      | mk result globals =>
      rw [added] at outcome
      obtain ⟨sound, issued, effect⟩ := outcome
      cases result with
      | error cause =>
          refine ⟨⟨core.registries, core.barriers, sound, core.once, ?_, ?_,
            ?_, core.removedOnce⟩, ?_, id, ⟨issued,
            fun handle member => absurd member List.not_mem_nil,
            List.nodup_nil⟩, ?_⟩
          · intro peer registry offers known offer member
            change offer.Stands ∧ (globals.resolve offer.global).isSome ∨ _
            rw [show globals.resolve = _ from effect]
            exact core.offered peer registry offers known offer member
          · intro handle member
            exact issued _ (core.removedIssued handle member)
          · intro handle member live isLive
            change (globals.resolve live).isSome at isLive
            rw [show globals.resolve = _ from effect] at isLive
            exact core.apart handle member live isLive
          · have same : ledger { publisher with globals } =
                publisher.ledger := by
              refine Ledger.ext rfl ?_ rfl rfl rfl rfl
              funext handle
              change ((globals.resolve handle).isSome : Prop) = _
              rw [show globals.resolve = _ from effect]
              rfl
            exact same ▸ .nil
          · rintro handle global (live | kept)
            · change globals.resolve handle = some global at live
              rw [show globals.resolve = _ from effect] at live
              exact Or.inl (Or.inl live)
            · exact Or.inl (Or.inr kept)
      | ok handle =>
          obtain ⟨unissued, -, resolve⟩ := effect
          have stored : globals.resolve handle =
              some { interface, version, context, bind } := by
            rw [show globals.resolve = _ from resolve, Function.update_self]
          simp only [Globals.get_of_resolve stored]
          obtain ⟨registries, is, reached⟩ := @offerAll_spec Clients hosts
            { publisher with
              globals
              registries := { publisher.registries with
                epoch := publisher.registries.epoch + 1 } }
            handle { interface, version, context, bind }
            ⟨handle, .addPending, publisher.registries.epoch + 1⟩
            (List.range publisher.registries.slots.length)
            (core.registries.known_epoch _).1 List.nodup_range
          dsimp only [RegistrySubscriptions.advanceEpoch]
          rw [is]
          exact .published core sound issued unissued resolve
            ⟨reached.valid, reached.directory, reached.clock, reached.inside,
              reached.known⟩

/-- A global that every registry was told of is withdrawn. -/
theorem Core.retracted
    {removedGlobals : List RemovedGlobal} {epoch : Nat}
    (core : publisher.Core)
    (handles : removedGlobals.map RemovedGlobal.handle =
      publisher.removedHandles ++ [handle])
    (live : publisher.globals.resolve handle = some global)
    (sound : globals.Sound)
    (nextName : globals.nextName = publisher.globals.nextName)
    (resolve : globals.resolve =
      Function.update publisher.globals.resolve handle none)
    (valid : registries.Valid)
    (known : ∀ peer registry, registries.known peer registry =
      (publisher.registries.known peer registry).map
        (RegistrySubscriptions.retracted handle.id epoch)) :
    Core { publisher with globals, registries, removedGlobals } := by
  have lives : (publisher.globals.resolve handle).isSome := by
    rw [live]
    rfl
  have remains : ∀ other, (globals.resolve other).isSome →
      other ≠ handle ∧ (publisher.globals.resolve other).isSome := by
    intro other isLive
    rw [resolve, Function.update_apply] at isLive
    split_ifs at isLive with same
    · cases isLive
    · exact ⟨same, isLive⟩
  have apart : ∀ other, other ≠ handle →
      (publisher.globals.resolve other).isSome → other.id ≠ handle.id := by
    intro other different isLive same
    obtain ⟨found, resolves⟩ := Option.isSome_iff_exists.mp isLive
    exact different (Globals.resolve_unique resolves live same)
  refine ⟨valid, core.barriers, sound, ?_, ?_, ?_, ?_, ?_⟩
  · intro peer registry offers held
    change registries.known peer registry = some offers at held
    rw [known, Option.map_eq_some_iff] at held
    obtain ⟨before, was, rfl⟩ := held
    exact RegistrySubscriptions.retracted_once
      (core.once peer registry before was)
  · intro peer registry offers held offer member
    change registries.known peer registry = some offers at held
    rw [known, Option.map_eq_some_iff] at held
    obtain ⟨before, was, rfl⟩ := held
    change offer.Stands ∧ (globals.resolve offer.global).isSome ∨
      ¬ offer.Stands ∧
        offer.global ∈ removedGlobals.map RemovedGlobal.handle
    rw [handles, List.mem_append, List.mem_singleton]
    rcases RegistrySubscriptions.mem_retracted.mp member with
      ⟨stored, other⟩ | ⟨earlier, stored, named, -, rfl⟩
    · rcases core.offered peer registry before was offer stored with
        ⟨stands, isLive⟩ | ⟨fallen, gone⟩
      · refine Or.inl ⟨stands, ?_⟩
        rw [resolve, Function.update_apply, if_neg]
        · exact isLive
        · exact fun same => other (congrArg Handle.id same)
      · exact Or.inr ⟨fallen, Or.inl gone⟩
    · right
      refine ⟨?_, Or.inr (core.offered_unique lives was stored named).1⟩
      rintro (adding | told)
      · cases adding
      · cases told
  · intro removed member
    change removed ∈ removedGlobals.map RemovedGlobal.handle at member
    rw [handles, List.mem_append, List.mem_singleton] at member
    change globals.Issued removed.id
    unfold Globals.Issued
    rw [nextName]
    rcases member with old | rfl
    · exact core.removedIssued removed old
    · exact core.globals.issued live
  · intro removed member other isLive
    change removed ∈ removedGlobals.map RemovedGlobal.handle at member
    rw [handles, List.mem_append, List.mem_singleton] at member
    obtain ⟨different, wasLive⟩ := remains other isLive
    rcases member with old | rfl
    · exact core.apart removed old other wasLive
    · exact apart other different wasLive
  · change ((removedGlobals.map RemovedGlobal.handle).map Handle.id).Nodup
    rw [handles, List.map_append, List.nodup_append]
    refine ⟨core.removedOnce, List.nodup_singleton _, ?_⟩
    intro first old second new
    obtain ⟨removed, member, rfl⟩ := List.mem_map.mp old
    rw [List.map_singleton, List.mem_singleton] at new
    rw [new]
    exact (core.apart removed member handle lives).symm

/-- The entry of a global that is withdrawn. -/
theorem Core.retracts
    {removedGlobals : List RemovedGlobal}
    (core : publisher.Core)
    (handles : removedGlobals.map RemovedGlobal.handle =
      publisher.removedHandles ++ [handle])
    (lives : (publisher.globals.resolve handle).isSome)
    (resolve : globals.resolve =
      Function.update publisher.globals.resolve handle none)
    (clock : registries.epoch = publisher.registries.epoch + 1)
    (known : ∀ peer registry, registries.known peer registry =
      (publisher.registries.known peer registry).map
        (RegistrySubscriptions.retracted handle.id
          (publisher.registries.epoch + 1))) :
    Ledger.Step publisher.ledger (.unpublished handle)
      (ledger { publisher with globals, registries, removedGlobals }) := by
  refine step_of (.unpublished lives) (Ledger.ext clock ?_ ?_ ?_ ?_ rfl)
  · funext other
    change ((globals.resolve other).isSome : Prop) = _
    rw [resolve]
    simp only [Function.update_apply]
    split_ifs
    · exact eq_false Bool.false_ne_true
    · rfl
  · funext other
    change (other ∈ removedGlobals.map RemovedGlobal.handle) = _
    rw [handles, List.mem_append, List.mem_singleton]
    simp only [Function.update_apply]
    split_ifs with same
    · exact eq_true (Or.inr same)
    · exact propext (or_iff_left same)
  · funext peer registry
    change ((registries.known peer registry).isSome : Prop) = _
    rw [known, Option.isSome_map]
    rfl
  · funext peer registry other
    dsimp only
    change Publisher.stage _ peer registry other = _
    have now := known peer registry
    cases was : publisher.registries.known peer registry with
    | none =>
        rw [was, Option.map_none] at now
        rw [stage_of_unknown now]
        rw [show publisher.ledger.stage peer registry other = .unknown from
          stage_of_unknown was]
        split_ifs <;> rfl
    | some before =>
        rw [was, Option.map_some] at now
        rw [stage_of_known now, RegistrySubscriptions.stageOf_retracted
          (core.once peer registry before was)
          (fun offer member named =>
            core.offered_unique lives was member named),
          ← stage_of_known was]
        split_ifs <;> rfl

/-- A live global is removed: nobody may bind it any more unless an offer of
it is left. -/
theorem Core.retract
    {withdrawn : Option Nat}
    (core : publisher.Core)
    (live : publisher.globals.resolve handle = some global)
    (sound : globals.Sound)
    (nextName : globals.nextName = publisher.globals.nextName)
    (resolve : globals.resolve =
      Function.update publisher.globals.resolve handle none) :
    ∃ registries, publisher.registries.retract handle.id = some registries ∧
      Follows publisher [.unpublished handle]
        { publisher with
          globals
          registries
          removedGlobals := publisher.removedGlobals ++
            [{ handle, global, withdrawn }] } := by
  have handles : (publisher.removedGlobals ++
      [RemovedGlobal.mk handle global withdrawn]).map RemovedGlobal.handle =
        publisher.removedHandles ++ [handle] := by
    rw [List.map_append]
    rfl
  have lives : (publisher.globals.resolve handle).isSome := by
    rw [live]
    rfl
  obtain ⟨registries, retracts, valid, directory, clock, known⟩ :=
    core.registries.known_retract handle.id
      fun peer registry offers held offer member named =>
        (core.offered_unique lives held member named).2
  have issues : ∀ name, publisher.globals.Issued name →
      globals.Issued name := by
    intro name issued
    unfold Globals.Issued
    rw [nextName]
    exact issued
  refine ⟨registries, retracts,
    core.retracted handles live sound nextName resolve valid known,
    .single (core.retracts handles lives resolve clock known),
    fun roomy => roomy.withDirectory directory, ⟨issues,
    fun handle member => absurd member List.not_mem_nil, List.nodup_nil⟩, ?_⟩
  rintro other thing (stays | ⟨ending, member⟩)
  · change globals.resolve other = some thing at stays
    rw [resolve, Function.update_apply] at stays
    split_ifs at stays
    exact Or.inl (Or.inl stays)
  · rcases List.mem_append.mp member with old | new
    · exact Or.inl (Or.inr ⟨ending, old⟩)
    · cases List.mem_singleton.mp new
      exact Or.inl (Or.inl live)

theorem Core.removeGlobalWithCallback
    (core : publisher.Core)
    (handle : Handle) (withdrawn : Option Nat) (granted : Bool) :
    ∃ reply,
      publisher.removeGlobalWithCallback handle withdrawn granted =
          some reply ∧
        Follows publisher reply.notices reply.publisher := by
  unfold Publisher.removeGlobalWithCallback
  cases live : publisher.globals.resolve handle with
  | none => exact ⟨_, rfl, .refl core⟩
  | some global =>
      cases granted with
      | false => exact ⟨_, rfl, .refl core⟩
      | true =>
          simp only [Bool.not_true, Bool.false_eq_true, if_false]
          have outcome := core.globals.remove handle
          cases removed : publisher.globals.remove handle with
          | mk result globals =>
          rw [removed] at outcome
          obtain ⟨sound, nextName, effect⟩ := outcome
          cases result with
          | error cause =>
              obtain ⟨-, absent, -⟩ := effect
              rw [live] at absent
              cases absent
          | ok taken =>
              obtain ⟨stored, resolve⟩ := effect
              obtain ⟨registries, retracts, follows⟩ :=
                @Core.retract _ _ _ _ _ withdrawn core stored sound nextName
                  resolve
              simp only [retracts, Option.map_some]
              exact ⟨_, rfl, follows.trans follows.core.collectRemovedGlobals⟩

end Publishing

/-! ## Binds and syncs -/

section Syncing

variable {hosts : Hosts Clients} {publisher : Publisher Clients} {peer : Peer}

/-- The object of a binding can be taken out again. -/
theorem bindClient_cancels
    {request : BindRequest} {interface : Interface} {advertisedVersion : Nat}
    {context : Option Nat} {clients later : Clients} {resource : Handle}
    (binds : bindClient hosts clients peer request interface advertisedVersion
      context = (.ok resource, later)) :
    (hosts.cancelClient later peer resource).isSome := by
  unfold bindClient at binds
  split_ifs at binds
  · cases binds
  · cases binds
  cases inserted : hosts.insertClient clients peer request.id interface
      request.version context with
  | mk result clients =>
  rw [inserted] at binds
  cases result with
  | error cause => cases binds
  | ok made =>
      cases binds
      exact hosts.insertClient_cancels inserted

/-- Binding changes nothing but the clients. -/
theorem Core.bindGlobal
    (core : publisher.Core)
    (peer : Peer) (request : BindRequest) :
    ∃ reply, publisher.bindGlobal hosts peer request = some reply ∧
      Follows publisher reply.notices reply.publisher := by
  unfold Publisher.bindGlobal
  cases publisher.definition hosts peer request.name with
  | error cause => exact ⟨_, rfl, .refl core⟩
  | ok found =>
      obtain ⟨handle, global⟩ := found
      dsimp only
      cases hosts.get publisher.clients peer with
      | error cause => exact ⟨_, rfl, .refl core⟩
      | ok _ =>
          dsimp only
          cases binds : bindClient hosts publisher.clients peer request
              global.interface global.version
              (if global.bind = none then global.context else none) with
          | mk result clients =>
          have aside := (Follows.refl core).withClients clients
          cases result with
          | error cause => exact ⟨_, rfl, aside⟩
          | ok resource =>
              dsimp only
              by_cases plain : global.bind = none
              · simp only [if_pos plain]
                exact ⟨_, rfl, aside⟩
              · simp only [if_neg plain]
                have cancels := @Hosts.activate_cancels _ hosts clients global
                  { peer, global := handle, resource
                    version := request.version } (bindClient_cancels binds)
                cases activated : hosts.activate clients global
                    { peer, global := handle, resource
                      version := request.version } with
                | mk outcome active =>
                rw [activated] at cancels
                cases outcome with
                | error cause =>
                    obtain ⟨canceled, canceledNow⟩ :=
                      Option.isSome_iff_exists.mp cancels
                    simp only [canceledNow, Option.bind_eq_bind,
                      Option.bind_some]
                    exact ⟨_, rfl, (Follows.refl core).withClients _⟩
                | ok context =>
                    obtain ⟨written, isWritten⟩ := Option.isSome_iff_exists.mp
                      (@Hosts.cancels_setContext _ hosts active peer resource
                        context cancels)
                    simp only [isWritten, Option.bind_eq_bind,
                      Option.bind_some]
                    exact ⟨_, rfl, (Follows.refl core).withClients _⟩

/-- A sync is queued behind what is owed already, or refused. -/
theorem Core.completeSync
    (core : publisher.Core)
    (peer : Peer) (callback : Handle) (callbackData : Nat)
    (grants : PublisherGrants) :
    let reply := publisher.completeSync hosts peer callback callbackData grants
    Follows publisher reply.notices reply.publisher := by
  unfold Publisher.completeSync
  cases got : hosts.get publisher.clients peer with
  | error cause => exact .refl core
  | ok _ =>
      have nonzero := hosts.generation_ne_zero got
      cases hosts.resolve publisher.clients peer callback with
      | mk found clients =>
      have aside := (Follows.refl core).withClients clients
      cases found with
      | none => exact aside
      | some object =>
          dsimp only
          by_cases wrong : object.interface ≠ Server.wlCallback
          · simp only [if_pos wrong]
            exact aside
          · simp only [if_neg wrong]
            obtain ⟨sameRegistries, sameBarriers, sameGlobals, sameRemoved,
              longer⟩ := @reservePublishSlot_same Clients { publisher with clients }
                peer.slot grants.blocked
            cases reserved : reservePublishSlot { publisher with clients }
                peer.slot grants.blocked with
            | mk result first =>
            rw [reserved] at sameRegistries sameBarriers
            rw [reserved] at sameGlobals sameRemoved longer
            have reserves : Follows publisher [] first :=
              .aside core sameRegistries sameBarriers sameGlobals sameRemoved
                longer
            have firstCore := reserves.core
            cases result with
            | error cause => exact reserves
            | ok _ =>
                have room := lt_of_reservePublishSlot reserved
                dsimp only
                cases added : first.syncBarriers.add peer callback
                    callbackData first.registries.epoch grants.slot
                    grants.node with
                | mk result syncBarriers =>
                cases result with
                | error cause =>
                    obtain ⟨valid, stamps, tickets⟩ :=
                      firstCore.barriers.tickets_add_error nonzero added
                    have same : ledger { first with syncBarriers } =
                        first.ledger :=
                      Ledger.ext rfl rfl rfl rfl rfl tickets
                    exact reserves.trans ⟨firstCore.withBarriers valid,
                      same ▸ .nil,
                      fun roomy => roomy.withBarriers fun slot stamped =>
                        (stamps slot stamped).imp_right
                          fun here : slot = peer.slot => here ▸ room,
                      .quiet rfl, fun handle global => Or.inl⟩
                | ok _ =>
                    obtain ⟨valid, stamps, tickets⟩ :=
                      firstCore.barriers.tickets_add nonzero added
                    refine reserves.trans (.single
                      (firstCore.withBarriers valid) (step_of .requested
                        (Ledger.ext rfl rfl rfl rfl rfl ?_))
                      (fun roomy => roomy.withBarriers fun slot stamped =>
                        (stamps slot stamped).imp_right
                          fun here : slot = peer.slot => here ▸ room)
                      rfl (List.Subset.refl _) rfl)
                    funext other
                    change syncBarriers.tickets other = _
                    rw [tickets]
                    simp only [Function.update_apply]
                    split_ifs <;> rfl

/-- A client leaves with its registries and its syncs. -/
theorem Core.destroyClient
    (core : publisher.Core)
    (peer : Peer) :
    ∃ reply, publisher.destroyClient hosts peer = some reply ∧
      Follows publisher reply.notices reply.publisher := by
  unfold Publisher.destroyClient
  cases quiet : hosts.canDeinit publisher.clients peer with
  | error cause => exact ⟨_, rfl, .refl core⟩
  | ok settled =>
      cases settled with
      | false => exact ⟨_, rfl, .refl core⟩
      | true =>
          dsimp only
          cases got : hosts.get publisher.clients peer with
          | error cause => exact ⟨_, rfl, .refl core⟩
          | ok _ =>
              obtain ⟨left, isLeft⟩ := Option.isSome_iff_exists.mp
                (hosts.destroy_isSome quiet got)
              obtain ⟨valid, epoch, registryStamps, known⟩ :=
                core.registries.known_removePeer peer
              obtain ⟨barriers, syncStamps, tickets⟩ :=
                core.barriers.tickets_removePeer peer
              have kept : Core { publisher with
                  registries := publisher.registries.removePeer peer } := by
                refine core.withRegistries valid
                  fun other name offers held => ?_
                rw [known] at held
                split_ifs at held
                exact Or.inl held
              have gone : Follows publisher [.left peer]
                  { publisher with
                    registries := publisher.registries.removePeer peer
                    syncBarriers := publisher.syncBarriers.removePeer peer
                    clients := left } := by
                refine .single ?_ ?_ (fun roomy slot stamped =>
                  roomy slot (stamped.imp (registryStamps slot)
                    (syncStamps slot))) rfl (List.Subset.refl _) rfl
                · have both := kept.withBarriers barriers
                  refine And.left (both.congr ?_ ?_ ?_ ?_)
                  all_goals rfl
                · refine step_of .left (Ledger.ext epoch rfl rfl ?_ ?_ ?_)
                  · funext other name
                    change (((publisher.registries.removePeer peer).known
                      other name).isSome : Prop) = _
                    rw [known]
                    apply propext
                    split_ifs with same
                    · exact iff_of_false Bool.false_ne_true
                        fun both => both.1 same
                    · exact (and_iff_right same).symm
                  · funext other name handle
                    dsimp only
                    change Publisher.stage _ other name handle = _
                    split_ifs with same
                    · exact stage_of_unknown
                        ((known other name).trans (if_pos same))
                    · unfold Publisher.stage
                      rw [(known other name).trans (if_neg same)]
                      rfl
                  · funext other
                    change (publisher.syncBarriers.removePeer peer).tickets
                      other = _
                    rw [tickets]
                    simp only [Function.update_apply]
                    split_ifs <;> rfl
              simp only [isLeft, Option.bind_eq_bind, Option.bind_some]
              exact ⟨_, rfl, gone.trans gone.core.collectRemovedGlobals⟩

end Syncing

/-! ## Publication -/

section Serving

variable {hosts : Hosts Clients} {publisher : Publisher Clients} {peer : Peer}
  {next : Pending} {barrier : Candidate} {served : Served Clients}

/-- The registry that an owed event is for. -/
def registryOf (publisher : Publisher Clients) (next : Pending) : Handle :=
  (publisher.registries.node next.node).handle

/-- The next owed event is an offer that the peer knows, and its offers can be
written.  No event owed to the peer is older. -/
theorem Core.nextPending
    (core : publisher.Core)
    (found : publisher.registries.nextPending peer = some next) :
    let offers := (publisher.registries.node next.node).offers
    publisher.ledger.Earliest peer next.epoch ∧
      publisher.registries.known peer (publisher.registryOf next) =
        some offers ∧
      (∃ entry, offers[next.offer]? = some entry ∧
        entry.state.pending = true ∧ next.epoch = entry.epoch) ∧
      ∀ later,
        (publisher.registries.setOffers next.node later).Valid ∧
          ∀ other name, (publisher.registries.setOffers next.node
            later).known other name =
              if other = peer ∧ name = publisher.registryOf next then
                some later
              else publisher.registries.known other name := by
  intro offers
  obtain ⟨chains, free, listed⟩ := core.registries
  have outcome := listed.nextPending peer
  rw [found] at outcome
  obtain ⟨serves, member, entry, earliest⟩ := outcome
  refine ⟨earliest_of earliest, ?_, entry,
    fun later => listed.known_setOffers serves member later⟩
  rw [RegistrySubscriptions.known_eq, if_pos serves]
  exact listed.toSound.offersOf_node member

/-- A peer that is owed nothing has every owed event after any moment. -/
theorem Core.earliest_of_idle
    (core : publisher.Core)
    (idle : publisher.registries.nextPending peer = none)
    (moment : Nat) : publisher.ledger.Earliest peer moment := by
  obtain ⟨chains, free, listed⟩ := core.registries
  have outcome := listed.nextPending peer
  rw [idle] at outcome
  apply earliest_of
  intro registry offers known offer member pending
  rw [outcome registry offers known offer member] at pending
  cases pending

/-- A sync is due when everything owed before it arrived has gone out. -/
theorem Core.due_some
    (core : publisher.Core)
    (due : publisher.due peer = some barrier) :
    publisher.syncBarriers.head peer = some barrier ∧
      publisher.ledger.Earliest peer (barrier.epochLimit + 1) := by
  unfold Publisher.due at due
  obtain ⟨head, passed⟩ := Option.filter_eq_some_iff.mp due
  refine ⟨head, ?_⟩
  cases found : publisher.registries.nextPending peer with
  | none => exact core.earliest_of_idle found _
  | some next =>
      simp only [found, Option.all_some, decide_eq_true_eq] at passed
      intro registry handle since owes
      exact Nat.le_trans passed
        ((core.nextPending found).1 registry handle since owes)

/-- While no sync is due, the oldest one came after the next event. -/
theorem Core.due_none
    (core : publisher.Core)
    (due : publisher.due peer = none)
    (found : publisher.registries.nextPending peer = some next) :
    publisher.ledger.Unbarred peer next.epoch := by
  intro ticket limit first
  change (publisher.syncBarriers.tickets peer).head? = _ at first
  unfold Publisher.due at due
  cases head : publisher.syncBarriers.head peer with
  | none =>
      rw [core.barriers.tickets_idle head] at first
      cases first
  | some barrier =>
      obtain ⟨later, rest, queue, -⟩ := core.barriers.tickets_head head
      rw [queue] at first
      cases first
      simp only [head, found, Option.all_some, Option.filter_some,
        decide_eq_true_eq, ite_eq_right_iff] at due
      by_contra late
      have passed := due (Nat.lt_of_not_le late)
      cases passed

/-- A sync that is due leaves the queue, answered or not. -/
theorem Core.settle
    (core : publisher.Core)
    (due : publisher.due peer = some barrier) :
    ∃ syncBarriers rest,
      publisher.syncBarriers.complete barrier = some syncBarriers ∧
      publisher.syncBarriers.tickets peer =
        (barrier.callback, barrier.epochLimit) :: rest ∧
      syncBarriers.tickets peer = rest ∧
      syncBarriers.generation = publisher.syncBarriers.generation ∧
      Follows publisher [.answered peer barrier.callback barrier.epochLimit]
        { publisher with syncBarriers } ∧
      Follows publisher [.abandoned peer barrier.callback barrier.epochLimit]
        { publisher with syncBarriers } := by
  obtain ⟨head, earliest⟩ := core.due_some due
  obtain ⟨syncBarriers, rest, queue, completes, valid, stamps, tickets⟩ :=
    core.barriers.tickets_head head
  have first : publisher.ledger.queue peer =
      (barrier.callback, barrier.epochLimit) :: rest := queue
  have kept : Core { publisher with syncBarriers } :=
    core.withBarriers valid
  have room : publisher.Roomy → Roomy { publisher with syncBarriers } :=
    fun roomy => roomy.withBarriers fun slot stamped =>
      Or.inl (stamps ▸ stamped)
  refine ⟨syncBarriers, rest, completes, queue,
    by rw [tickets, Function.update_self], stamps,
    .single kept ?_ room rfl (List.Subset.refl _) rfl,
    .single kept ?_ room rfl (List.Subset.refl _) rfl⟩
  · refine step_of (.answered first earliest)
      (Ledger.ext rfl rfl rfl rfl rfl ?_)
    funext other
    change syncBarriers.tickets other = _
    rw [tickets]
    simp only [Function.update_apply]
    split_ifs <;> rfl
  · refine step_of (.abandoned first earliest)
      (Ledger.ext rfl rfl rfl rfl rfl ?_)
    funext other
    change syncBarriers.tickets other = _
    rw [tickets]
    simp only [Function.update_apply]
    split_ifs <;> rfl

/-- The next owed event goes out, unless the queue has no room. -/
theorem Core.publishOffer
    (core : publisher.Core)
    (hosts : Hosts Clients)
    (found : publisher.registries.nextPending peer = some next)
    (unbarred : publisher.ledger.Unbarred peer next.epoch) :
    ∃ served, publisher.publishOffer hosts peer next = some served ∧
      Follows publisher served.notices served.publisher := by
  obtain ⟨earliest, known, ⟨entry, held, pending, since⟩, writes⟩ :=
    core.nextPending found
  have once := core.once peer _ _ known
  have member := List.mem_of_getElem? held
  have stage : publisher.ledger.stage peer (publisher.registryOf next)
      entry.global = entry.stage :=
    (stage_of_known known).trans
      (RegistrySubscriptions.stageOf_of_mem once member rfl)
  unfold Publisher.publishOffer
  dsimp only
  rw [held]
  dsimp only
  rw [since] at earliest unbarred
  cases state : entry.state with
  | addPending =>
      obtain ⟨later, members, stages⟩ := RegistrySubscriptions.set_offer
        { entry with state := .offered } once held rfl
      have live : (publisher.globals.resolve entry.global).isSome := by
        rcases core.offered peer _ _ known entry member with
          ⟨-, live⟩ | ⟨fallen, -⟩
        · exact live
        · exact absurd (Or.inl state) fallen
      obtain ⟨global, resolves⟩ := Option.isSome_iff_exists.mp live
      simp only [resolves]
      cases hosts.send publisher.clients peer
          (.global (publisher.registries.node next.node).handle
            entry.global.id global) with
      | mk result clients =>
      cases result with
      | error cause =>
          exact ⟨_, rfl, (Follows.refl core).withClients clients⟩
      | ok _ =>
          have owed : publisher.ledger.stage peer (publisher.registryOf next)
              entry.global = .owed entry.epoch := by
            rw [stage, Offer.stage, state]
          have told : Follows publisher
              [.announced peer (publisher.registryOf next) entry.global
                entry.epoch]
              { publisher with
                registries := publisher.registries.setOffers next.node
                  ((publisher.registries.node next.node).offers.set next.offer
                    { entry with state := .offered }) } := by
            refine .tell core known (writes _).1 rfl rfl (writes _).2 later ?_
              stages (.announced live owed earliest unbarred) rfl
            intro offer present
            rcases (members offer).mp present with rfl | ⟨old, -⟩
            · exact Or.inl ⟨Or.inr rfl, live⟩
            · exact core.offered peer _ _ known offer old
          exact ⟨_, rfl, told.withClients clients⟩
  | removePending =>
      obtain ⟨later, members, stages⟩ := RegistrySubscriptions.set_offer
        { entry with state := .removalSent } once held rfl
      have gone : ¬ entry.Stands ∧
          entry.global ∈ publisher.removedHandles := by
        rcases core.offered peer _ _ known entry member with
          ⟨stands, -⟩ | fallen
        · rcases stands with adding | told
          · rw [state] at adding
            cases adding
          · rw [state] at told
            cases told
        · exact fallen
      have dead : ¬ publisher.ledger.live entry.global := fun live =>
        core.apart _ gone.2 _ live rfl
      cases hosts.send publisher.clients peer
          (.globalRemove (publisher.registries.node next.node).handle
            entry.global.id) with
      | mk result clients =>
      cases result with
      | error cause =>
          exact ⟨_, rfl, (Follows.refl core).withClients clients⟩
      | ok _ =>
          have leaving : publisher.ledger.stage peer
              (publisher.registryOf next) entry.global =
                .leaving entry.epoch := by
            rw [stage, Offer.stage, state]
          have told : Follows publisher
              [.revoked peer (publisher.registryOf next) entry.global
                entry.epoch]
              { publisher with
                registries := publisher.registries.setOffers next.node
                  ((publisher.registries.node next.node).offers.set next.offer
                    { entry with state := .removalSent }) } := by
            refine .tell core known (writes _).1 rfl rfl (writes _).2 later ?_
              stages (.revoked dead leaving earliest unbarred) rfl
            intro offer present
            rcases (members offer).mp present with rfl | ⟨old, -⟩
            · refine Or.inr ⟨?_, gone.2⟩
              rintro (adding | told)
              · cases adding
              · cases told
            · exact core.offered peer _ _ known offer old
          exact ⟨_, rfl, told.withClients clients⟩
  | offered =>
      rw [state] at pending
      cases pending
  | removalSent =>
      rw [state] at pending
      cases pending

/-- What a peer can make publication drop: its syncs and its registries. -/
def backlog (publisher : Publisher Clients) (peer : Peer) : Nat :=
  (publisher.syncBarriers.tickets peer).length +
    (publisher.registries.registered peer).length

/-- Serving comes to an end, and writes what it did into the ledger. -/
theorem Core.serve
    {fuel : Nat}
    (core : publisher.Core)
    (enough : publisher.backlog peer < fuel) :
    ∃ served, serve hosts peer fuel publisher = some served ∧
      Follows publisher served.notices served.publisher := by
  induction fuel generalizing publisher with
  | zero => exact absurd enough (Nat.not_lt_zero _)
  | succ fuel ih =>
      unfold Publisher.serve
      cases due : publisher.due peer with
      | some barrier =>
          obtain ⟨syncBarriers, rest, completes, queue, tickets, -, answered,
            abandoned⟩ := core.settle due
          dsimp only
          cases hosts.resolve publisher.clients peer barrier.callback with
          | mk object clients =>
          cases object with
          | none =>
              have dropped := abandoned.withClients clients
              have fewer : backlog
                  { publisher with clients, syncBarriers } peer < fuel := by
                unfold backlog at enough ⊢
                change (syncBarriers.tickets peer).length +
                  (publisher.registries.registered peer).length < fuel
                rw [queue, List.length_cons] at enough
                rw [tickets]
                omega
              obtain ⟨served, serves, follows⟩ := ih dropped.core fewer
              simp only [completes, Option.bind_eq_bind, Option.bind_some,
                serves]
              exact ⟨_, rfl, dropped.trans follows⟩
          | some found =>
              dsimp only
              cases hosts.send clients peer
                  (.done barrier.callback barrier.callbackData) with
              | mk result clients =>
              cases result with
              | error cause =>
                  exact ⟨_, rfl, (Follows.refl core).withClients clients⟩
              | ok _ =>
                  simp only [completes]
                  exact ⟨_, rfl, answered.withClients clients⟩
      | none =>
          dsimp only
          cases found : publisher.registries.nextPending peer with
          | none => exact ⟨_, rfl, .refl core⟩
          | some next =>
              obtain ⟨-, known, -, -⟩ := core.nextPending found
              dsimp only
              have aside := (Follows.refl core).withClients
                (hosts.resolve publisher.clients peer
                  (publisher.registries.node next.node).handle).2
              by_cases ended : ((hosts.resolve publisher.clients peer
                  (publisher.registries.node next.node).handle).1.all
                    fun object => object.interface ≠ wlRegistry) = true
              · rw [if_pos ended]
                cases removed : publisher.registries.remove peer
                    (publisher.registries.node next.node).handle with
                | mk result registries =>
                rcases core.registries.remove peer
                    (publisher.registries.node next.node).handle with
                  ⟨-, unknown⟩ | ⟨outcome, -⟩
                · cases unknown.symm.trans known
                · rw [removed] at outcome
                  simp only at outcome
                  subst outcome
                  have gone := Follows.unsubscribed aside.core removed
                  have collected := gone.core.collectRemovedGlobals
                  have fewer : backlog (Publisher.collectRemovedGlobals
                      { publisher with
                        clients := (hosts.resolve publisher.clients peer
                          (publisher.registries.node next.node).handle).2
                        registries }).2 peer < fuel := by
                    have less :=
                      core.registries.registered_remove removed
                    unfold backlog at enough ⊢
                    change (publisher.syncBarriers.tickets peer).length +
                      (registries.registered peer).length < fuel
                    omega
                  obtain ⟨served, serves, follows⟩ :=
                    ih collected.core fewer
                  dsimp only
                  rw [serves]
                  exact ⟨_, rfl,
                    (aside.trans gone).trans (collected.trans follows)⟩
              · rw [if_neg ended]
                obtain ⟨served, serves, follows⟩ :=
                  aside.core.publishOffer hosts found
                    (core.due_none due found)
                exact ⟨served, serves, aside.trans follows⟩

/-- Serving a peer follows the ledger. -/
theorem Core.publishPeer
    (core : publisher.Core)
    (hosts : Hosts Clients)
    (peer : Peer) :
    ∃ served, publisher.publishPeer hosts peer = some served ∧
      Follows publisher served.notices served.publisher := by
  unfold Publisher.publishPeer
  split_ifs with stopped
  · exact ⟨_, rfl, .refl core⟩
  · cases hosts.get publisher.clients peer with
    | error cause => exact ⟨_, rfl, .refl core⟩
    | ok _ =>
        apply core.serve
        have syncs := core.barriers.tickets_length peer
        have kept := core.registries.registered_length peer
        unfold backlog
        omega

/-- A slot that publication visits has an entry for backpressure. -/
theorem Roomy.blocked
    {slot : Nat}
    (roomy : publisher.Roomy)
    (visits : publisher.publicationPeer slot = some peer) :
    ∃ generation, publisher.publishBlocked[slot]? = some generation := by
  have bound : slot < publisher.publishBlocked.length := by
    apply roomy
    unfold publicationPeer at visits
    split_ifs at visits with registered waiting
    · exact Or.inl registered
    · exact Or.inr waiting
  exact ⟨_, List.getElem?_eq_getElem bound⟩

/-- A pass over the peers comes to an end and follows the ledger. -/
theorem Core.visit
    (core : publisher.Core)
    (roomy : publisher.Roomy)
    (hosts : Hosts Clients)
    (slotCount visits : Nat) :
    ∃ reply, visit hosts slotCount visits publisher = some reply ∧
      Follows publisher reply.notices reply.publisher := by
  induction visits generalizing publisher with
  | zero =>
      refine ⟨_, rfl, .aside core rfl rfl rfl rfl ?_⟩
      exact Nat.le_of_eq (by simp)
  | succ visits ih =>
      unfold Publisher.visit
      generalize (if publisher.publishCursor ≥ slotCount then 0
        else publisher.publishCursor) = slot
      have moved : Follows publisher []
          { publisher with publishCursor := slot + 1 } :=
        .aside core rfl rfl rfl rfl (Nat.le_refl _)
      have movedRoomy := moved.room roomy
      obtain ⟨skipped, skips, skipFollows⟩ := ih moved.core movedRoomy
      dsimp only
      cases visited : publicationPeer
          { publisher with publishCursor := slot + 1 } slot with
      | none => exact ⟨skipped, skips, moved.trans skipFollows⟩
      | some peer =>
          obtain ⟨generation, blocked⟩ := movedRoomy.blocked visited
          change publisher.publishBlocked[slot]? = some generation at blocked
          dsimp only
          rw [blocked]
          dsimp only
          by_cases skip : generation = peer.generation
          · rw [if_pos skip]
            exact ⟨skipped, skips, moved.trans skipFollows⟩
          · rw [if_neg skip]
            obtain ⟨served, serves, follows⟩ :=
              moved.core.publishPeer hosts peer
            rw [serves]
            have whole := moved.trans follows
            dsimp only
            cases served.result with
            | error cause => exact ⟨_, rfl, whole⟩
            | ok service =>
                cases service with
                | idle =>
                    obtain ⟨reply, replies, rest⟩ :=
                      ih follows.core (whole.room roomy)
                    rw [replies]
                    exact ⟨_, rfl, whole.trans rest⟩
                | sent => exact ⟨_, rfl, whole⟩
                | blocked =>
                    have marked : Follows served.publisher []
                        { served.publisher with
                          publishBlocked :=
                            served.publisher.publishBlocked.set slot
                              peer.generation } :=
                      .aside whole.core rfl rfl rfl rfl
                        (Nat.le_of_eq (by rw [List.length_set]))
                    exact ⟨_, rfl, marked.core, whole.path,
                      fun roomy => marked.room (whole.room roomy),
                      whole.names, whole.origin⟩

end Serving

/-! ## Runs -/

section Runs

variable {hosts : Hosts Clients} {publisher : Publisher Clients}

/-- No assertion of the runtime fails, and every operation moves the ledger
along steps that it allows. -/
theorem Core.step
    (core : publisher.Core)
    (roomy : publisher.Roomy)
    (hosts : Hosts Clients)
    (call : Call Clients) :
    ∃ notices later, publisher.step hosts call = some (notices, later) ∧
      Follows publisher notices later := by
  cases call with
  | displayRequest peer request context grants =>
      obtain ⟨reply, replies, follows⟩ :=
        core.displayRequest hosts peer request context grants
      exact ⟨_, _, by rw [Publisher.step, replies]; rfl, follows⟩
  | addGlobal interface version context bind granted =>
      exact ⟨_, _, rfl,
        core.addGlobalWithBinder interface version context bind granted⟩
  | bindGlobal peer request =>
      obtain ⟨reply, replies, follows⟩ := core.bindGlobal peer request
      exact ⟨_, _, by rw [Publisher.step, replies]; rfl, follows⟩
  | completeSync peer callback callbackData grants =>
      exact ⟨_, _, rfl, core.completeSync peer callback callbackData grants⟩
  | removeRegistry peer registry =>
      obtain ⟨reply, replies, follows⟩ := core.removeRegistry peer registry
      exact ⟨_, _, by rw [Publisher.step, replies]; rfl, follows⟩
  | removeGlobal handle withdrawn granted =>
      obtain ⟨reply, replies, follows⟩ :=
        core.removeGlobalWithCallback handle withdrawn granted
      exact ⟨_, _, by rw [Publisher.step, replies]; rfl, follows⟩
  | ackGlobalRemove peer registry name =>
      exact ⟨_, _, rfl, core.ackGlobalRemove peer registry name⟩
  | publishNext =>
      obtain ⟨reply, replies, follows⟩ :=
        core.visit roomy hosts publisher.slotCount publisher.slotCount
      refine ⟨_, _, ?_, follows⟩
      rw [Publisher.step, Publisher.publishNext, replies]
      rfl
  | destroyClient peer =>
      obtain ⟨reply, replies, follows⟩ := core.destroyClient peer
      exact ⟨_, _, by rw [Publisher.step, replies]; rfl, follows⟩
  | elsewhere change =>
      exact ⟨_, _, rfl, (Follows.refl core).withClients _⟩

/-- Every run comes to an end, and its log is a path of the ledger. -/
theorem Core.run
    (core : publisher.Core)
    (roomy : publisher.Roomy)
    (hosts : Hosts Clients)
    (calls : List (Call Clients)) :
    ∃ log later, run hosts calls publisher = some (log, later) ∧
      Follows publisher log later := by
  induction calls generalizing publisher with
  | nil => exact ⟨_, _, rfl, .refl core⟩
  | cons call calls ih =>
      obtain ⟨notices, middle, steps, first⟩ := core.step roomy hosts call
      obtain ⟨log, later, runs, second⟩ := ih first.core (first.room roomy)
      refine ⟨notices ++ log, later, ?_, first.trans second⟩
      rw [Publisher.run, steps]
      simp only [Option.bind_eq_bind, Option.bind_some, runs]

end Runs

end Publisher
end Wayring
