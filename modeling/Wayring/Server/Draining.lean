import Wayring.Server.Announcements

/-!
# Publication catches up

Publication goes round the slots.  A pass that says that it is complete has
left nothing owed to any client that was not blocked before.
-/

namespace Wayring
namespace Publisher

variable {Clients : Type} {hosts : Hosts Clients}
  {publisher later : Publisher Clients} {peer : Peer}

/-! ## One peer -/

/-- What serving the peer of a slot leaves alone. -/
structure Passed
    (hosts : Hosts Clients)
    (slot : Nat)
    (before : Publisher Clients)
    (notices : List Notice)
    (after : Publisher Clients) : Prop where
  drops : ∀ notice ∈ notices, notice.Drops
  blocked : after.publishBlocked = before.publishBlocked
  cursor : after.publishCursor = before.publishCursor
  elsewhere : ∀ other, other ≠ slot →
    after.publicationPeer other = before.publicationPeer other
  get : ∀ peer, hosts.get after.clients peer = hosts.get before.clients peer
  dispatch : ∀ peer, hosts.canDispatch after.clients peer =
    hosts.canDispatch before.clients peer

theorem Passed.refl
    (slot : Nat) : Passed hosts slot publisher [] publisher :=
  ⟨fun _ member => absurd member List.not_mem_nil, rfl, rfl,
    fun _ _ => rfl, fun _ => rfl, fun _ => rfl⟩

theorem Passed.trans
    {slot : Nat} {middle : Publisher Clients} {front back : List Notice}
    (first : Passed hosts slot publisher front middle)
    (second : Passed hosts slot middle back later) :
    Passed hosts slot publisher (front ++ back) later where
  drops notice member := by
    rcases List.mem_append.mp member with early | late
    · exact first.drops notice early
    · exact second.drops notice late
  blocked := second.blocked.trans first.blocked
  cursor := second.cursor.trans first.cursor
  elsewhere other apart :=
    (second.elsewhere other apart).trans (first.elsewhere other apart)
  get peer := (second.get peer).trans (first.get peer)
  dispatch peer := (second.dispatch peer).trans (first.dispatch peer)

/-- Nothing is owed to a peer that publication finds idle. -/
theorem Core.settled_of_idle
    (core : publisher.Core)
    (due : publisher.due peer = none)
    (idle : publisher.registries.nextPending peer = none) :
    publisher.ledger.Settled peer := by
  constructor
  · intro registry global
    by_contra owed
    obtain ⟨since, is⟩ := Option.ne_none_iff_exists'.mp owed
    exact Nat.not_succ_le_self since
      (core.earliest_of_idle idle (since + 1) registry global since is)
  · unfold Publisher.due at due
    cases head : publisher.syncBarriers.head peer with
    | none => exact core.barriers.tickets_idle head
    | some barrier =>
        rw [head, idle] at due
        cases due

/-- A registry that is dropped takes nothing from other slots. -/
theorem Core.passed_unsubscribed
    {registry : Handle} {registries : RegistrySubscriptions}
    (core : publisher.Core)
    (hosts : Hosts Clients)
    (removed : publisher.registries.remove peer registry =
      (.ok (), registries)) :
    let dropped : Publisher Clients :=
      { publisher with
        clients := (hosts.resolve publisher.clients peer registry).2
        registries }
    Passed hosts peer.slot publisher
      (.unsubscribed peer registry :: dropped.collectRemovedGlobals.1)
      dropped.collectRemovedGlobals.2 := by
  intro dropped
  rcases core.registries.remove peer registry with
    ⟨refused, -⟩ | ⟨-, -, -, -, -, stamps, -⟩
  · rw [refused] at removed
    cases removed
  rw [removed] at stamps
  refine ⟨?_, rfl, rfl, ?_, fun other => hosts.get_resolve,
    fun other => hosts.canDispatch_resolve⟩
  · intro notice member
    rcases List.mem_cons.mp member with rfl | rest
    · exact trivial
    · obtain ⟨global, rfl⟩ := collect_collected _ _ _ _ notice rest
      exact trivial
  · intro other apart
    have same : registries.generation other =
        publisher.registries.generation other :=
      (stamps other).resolve_right fun here => apart here.1
    unfold publicationPeer
    change (if registries.generation other ≠ 0 then
      some (Peer.mk other (registries.generation other)) else _) = _
    rw [same]
    rfl

/-- A sync that is dropped takes nothing from other slots. -/
theorem passed_abandoned
    {callback : Handle} {object : Option Object} {clients : Clients}
    {syncBarriers : SyncBarriers}
    (limit : Nat)
    (stamps : syncBarriers.generation = publisher.syncBarriers.generation)
    (resolved : hosts.resolve publisher.clients peer callback =
      (object, clients)) :
    Passed hosts peer.slot publisher [.abandoned peer callback limit]
      { publisher with clients, syncBarriers } := by
  refine ⟨?_, rfl, rfl, ?_, ?_, ?_⟩
  · intro notice member
    cases List.mem_singleton.mp member
    exact trivial
  · intro other _
    unfold publicationPeer
    dsimp only
    rw [stamps]
  · intro other
    have same := @Hosts.get_resolve Clients hosts publisher.clients peer
      callback other
    rwa [resolved] at same
  · intro other
    have same := @Hosts.canDispatch_resolve Clients hosts publisher.clients
      peer callback other
    rwa [resolved] at same

/-- A peer that is served until it is idle is owed nothing. -/
theorem Core.serve_idle
    {fuel : Nat} {served : Served Clients}
    (core : publisher.Core)
    (serves : Publisher.serve hosts peer fuel publisher = some served)
    (idle : served.result = .ok .idle) :
    Passed hosts peer.slot publisher served.notices served.publisher ∧
      served.publisher.ledger.Settled peer := by
  induction fuel generalizing publisher served with
  | zero => cases serves
  | succ fuel ih =>
      unfold Publisher.serve at serves
      cases due : publisher.due peer with
      | some barrier =>
          obtain ⟨syncBarriers, rest, completes, -, -, stamps, -,
            abandoned⟩ := core.settle due
          rw [due] at serves
          dsimp only at serves
          cases resolved : hosts.resolve publisher.clients peer
              barrier.callback with
          | mk object clients =>
          rw [resolved] at serves
          cases object with
          | none =>
              simp only [completes, Option.bind_eq_bind,
                Option.bind_some] at serves
              have dropped := abandoned.withClients clients
              cases inner : Publisher.serve hosts peer fuel
                  { publisher with clients, syncBarriers } with
              | none =>
                  rw [inner] at serves
                  cases serves
              | some after =>
                  rw [inner] at serves
                  cases serves
                  obtain ⟨passed, settled⟩ := ih dropped.core inner idle
                  have first := passed_abandoned barrier.epochLimit stamps
                    resolved
                  exact ⟨first.trans passed, settled⟩
          | some found =>
              dsimp only at serves
              cases sent : hosts.send clients peer
                  (.done barrier.callback barrier.callbackData) with
              | mk result clients =>
              rw [sent] at serves
              cases result with
              | error cause =>
                  cases serves
                  exact absurd idle (refused_ne_idle _ _)
              | ok _ =>
                  simp only [completes, Option.bind_eq_bind,
                    Option.bind_some] at serves
                  cases serves
                  cases idle
      | none =>
          rw [due] at serves
          dsimp only at serves
          cases found : publisher.registries.nextPending peer with
          | none =>
              rw [found] at serves
              cases serves
              exact ⟨.refl _, core.settled_of_idle due found⟩
          | some next =>
              obtain ⟨-, known, -, -⟩ := core.nextPending found
              rw [found] at serves
              dsimp only at serves
              have aside := (Follows.refl core).withClients
                (hosts.resolve publisher.clients peer
                  (publisher.registries.node next.node).handle).2
              split_ifs at serves with ended
              · cases removed : publisher.registries.remove peer
                    (publisher.registries.node next.node).handle with
                | mk result registries =>
                rcases core.registries.remove peer
                    (publisher.registries.node next.node).handle with
                  ⟨-, unknown⟩ | ⟨outcome, -⟩
                · cases unknown.symm.trans known
                · rw [removed] at outcome serves
                  simp only at outcome
                  subst outcome
                  dsimp only at serves
                  have gone := Follows.unsubscribed aside.core removed
                  have collected := gone.core.collectRemovedGlobals
                  cases inner : Publisher.serve hosts peer fuel
                      (Publisher.collectRemovedGlobals
                        { publisher with
                          clients := (hosts.resolve publisher.clients peer
                            (publisher.registries.node next.node).handle).2
                          registries }).2 with
                  | none =>
                      rw [inner] at serves
                      cases serves
                  | some after =>
                      rw [inner] at serves
                      cases serves
                      obtain ⟨passed, settled⟩ :=
                        ih collected.core inner idle
                      have first := core.passed_unsubscribed hosts removed
                      exact ⟨first.trans passed, settled⟩
              · exact absurd idle (publishOffer_ne_idle serves)

/-- A peer that is idle was served in full. -/
theorem Core.publishPeer_idle
    {served : Served Clients}
    (core : publisher.Core)
    (serves : publisher.publishPeer hosts peer = some served)
    (idle : served.result = .ok .idle) :
    Passed hosts peer.slot publisher served.notices served.publisher ∧
      (hosts.canDispatch publisher.clients peer = true →
        hosts.get publisher.clients peer = .ok () →
          served.publisher.ledger.Settled peer) := by
  unfold Publisher.publishPeer at serves
  split_ifs at serves with stopped
  · cases serves
    refine ⟨.refl _, fun dispatches => ?_⟩
    rw [dispatches] at stopped
    cases stopped
  · cases got : hosts.get publisher.clients peer with
    | error cause =>
        rw [got] at serves
        cases serves
        exact ⟨.refl _, fun _ there => by cases there⟩
    | ok _ =>
        rw [got] at serves
        obtain ⟨passed, settled⟩ := core.serve_idle serves idle
        exact ⟨passed, fun _ _ => settled⟩

/-! ## One pass -/

/-- The slots that so many visits from a cursor go to. -/
def ahead (slotCount : Nat) : Nat → Nat → List Nat
  | _, 0 => []
  | cursor, visits + 1 =>
      let slot := if cursor ≥ slotCount then 0 else cursor
      slot :: ahead slotCount (slot + 1) visits

/-- A pass visits the slots in a circle from the cursor on. -/
theorem ahead_eq
    {slotCount cursor visits : Nat}
    (some_slot : 0 < slotCount) :
    ahead slotCount cursor visits =
      (List.range visits).map fun step =>
        ((if cursor ≥ slotCount then 0 else cursor) + step) % slotCount := by
  induction visits generalizing cursor with
  | zero => rfl
  | succ visits ih =>
      have inside : (if cursor ≥ slotCount then 0 else cursor) <
          slotCount := by
        split_ifs <;> omega
      unfold ahead
      dsimp only
      generalize (if cursor ≥ slotCount then 0 else cursor) = slot at inside
      rw [ih, List.range_succ_eq_map, List.map_cons, List.map_map]
      congr 1
      · exact (Nat.mod_eq_of_lt inside).symm
      apply List.map_congr_left
      intro step _
      have next : (if slot + 1 ≥ slotCount then 0 else slot + 1) =
          (slot + 1) % slotCount := by
        split_ifs with last
        · rw [show slot + 1 = slotCount by omega, Nat.mod_self]
        · rw [Nat.mod_eq_of_lt (by omega)]
      rw [next, Nat.mod_add_mod, Function.comp_apply]
      congr 1
      omega

/-- A pass goes to no slot twice. -/
theorem ahead_nodup
    {slotCount cursor visits : Nat}
    (enough : visits ≤ slotCount) :
    (ahead slotCount cursor visits).Nodup := by
  rcases Nat.eq_zero_or_pos slotCount with none | some_slot
  · rw [none, Nat.le_zero] at enough
    rw [enough]
    exact List.nodup_nil
  · rw [ahead_eq some_slot]
    refine List.Nodup.map_on ?_ List.nodup_range
    intro first before second after same
    rw [List.mem_range] at before after
    have equal := Nat.ModEq.add_left_cancel' _ same
    rwa [Nat.ModEq, Nat.mod_eq_of_lt (by omega),
      Nat.mod_eq_of_lt (by omega)] at equal

/-- A pass goes to every slot. -/
theorem mem_ahead
    {slotCount cursor slot : Nat}
    (bound : slot < slotCount) :
    slot ∈ ahead slotCount cursor slotCount := by
  rw [ahead_eq (Nat.zero_lt_of_lt bound), List.mem_map]
  have inside : (if cursor ≥ slotCount then 0 else cursor) < slotCount := by
    split_ifs <;> omega
  generalize (if cursor ≥ slotCount then 0 else cursor) = start at inside
  by_cases later : start ≤ slot
  · refine ⟨slot - start, List.mem_range.mpr (by omega), ?_⟩
    rw [Nat.add_sub_cancel' later, Nat.mod_eq_of_lt bound]
  · refine ⟨slot + slotCount - start, List.mem_range.mpr (by omega), ?_⟩
    rw [show start + (slot + slotCount - start) = slot + slotCount by omega,
      Nat.add_mod_right, Nat.mod_eq_of_lt bound]

/-- A peer that publication serves when it comes to it.  A slot with registries
or syncs answers for the peer that it is stamped for, so a later peer of a slot
that kept an old stamp is passed over. -/
structure Ready
    (hosts : Hosts Clients)
    (publisher : Publisher Clients)
    (peer : Peer) : Prop where
  visited : publisher.publicationPeer peer.slot = some peer
  unblocked : publisher.publishBlocked[peer.slot]? ≠ some peer.generation
  dispatches : hosts.canDispatch publisher.clients peer = true
  there : hosts.get publisher.clients peer = .ok ()

/-- A peer stays ready while other slots are visited. -/
theorem Ready.passed
    {slot : Nat} {notices : List Notice}
    (ready : Ready hosts publisher peer)
    (passed : Passed hosts slot publisher notices later)
    (apart : peer.slot ≠ slot) : Ready hosts later peer where
  visited := (passed.elsewhere _ apart).trans ready.visited
  unblocked := passed.blocked ▸ ready.unblocked
  dispatches := (passed.dispatch peer).trans ready.dispatches
  there := (passed.get peer).trans ready.there

/-- The peer of a slot is at that slot. -/
theorem publicationPeer_slot
    {slot : Nat}
    (visited : publisher.publicationPeer slot = some peer) :
    peer.slot = slot ∧ slot < publisher.slotCount := by
  unfold publicationPeer at visited
  unfold slotCount
  split_ifs at visited with registered waiting
  · cases visited
    exact ⟨rfl, Nat.lt_of_lt_of_le
      (RegistrySubscriptions.generation_lt registered) (Nat.le_max_left _ _)⟩
  · cases visited
    exact ⟨rfl, Nat.lt_of_lt_of_le
      (SyncBarriers.generation_lt waiting) (Nat.le_max_right _ _)⟩

/-- Visits that end with nobody to report have served every peer that was
ready. -/
theorem Core.visit_complete
    {slotCount visits : Nat} {reply : Reply Clients PublishResult}
    (core : publisher.Core)
    (roomy : publisher.Roomy)
    (pass : Publisher.visit hosts slotCount visits publisher =
      some reply)
    (complete : reply.result = .ok .complete)
    (distinct : (ahead slotCount publisher.publishCursor visits).Nodup) :
    (∀ notice ∈ reply.notices, notice.Drops) ∧
      ∀ peer, peer.slot ∈ ahead slotCount publisher.publishCursor visits →
        Ready hosts publisher peer →
          reply.publisher.ledger.Settled peer := by
  induction visits generalizing publisher reply with
  | zero =>
      cases pass
      exact ⟨fun notice member => absurd member List.not_mem_nil,
        fun peer member => absurd member List.not_mem_nil⟩
  | succ visits ih =>
      unfold Publisher.visit at pass
      unfold ahead at distinct ⊢
      dsimp only at pass distinct ⊢
      generalize (if publisher.publishCursor ≥ slotCount then 0
        else publisher.publishCursor) = slot at pass distinct ⊢
      obtain ⟨fresh, rest⟩ := List.nodup_cons.mp distinct
      have moved : Follows publisher []
          { publisher with publishCursor := slot + 1 } :=
        .aside core rfl rfl rfl rfl (Nat.le_refl _)
      have ready_moved : ∀ peer, Ready hosts publisher peer →
          Ready hosts { publisher with publishCursor := slot + 1 } peer :=
        fun peer ready =>
          ⟨ready.visited, ready.unblocked, ready.dispatches, ready.there⟩
      have skip : (∀ peer, Ready hosts publisher peer → peer.slot ≠ slot) →
          Publisher.visit hosts slotCount visits
            { publisher with publishCursor := slot + 1 } = some reply →
          (∀ notice ∈ reply.notices, notice.Drops) ∧
            ∀ peer, peer.slot ∈ slot :: ahead slotCount (slot + 1) visits →
              Ready hosts publisher peer →
                reply.publisher.ledger.Settled peer := by
        intro unready onward
        obtain ⟨drops, settles⟩ := ih moved.core (moved.room roomy) onward
          complete rest
        refine ⟨drops, fun peer member ready => ?_⟩
        rcases List.mem_cons.mp member with here | further
        · exact absurd here (unready peer ready)
        · exact settles peer further (ready_moved peer ready)
      cases which : publicationPeer
          { publisher with publishCursor := slot + 1 } slot with
      | none =>
          rw [which] at pass
          refine skip ?_ pass
          rintro peer ready rfl
          cases which.symm.trans ready.visited
      | some current =>
          rw [which] at pass
          obtain ⟨same, -⟩ := publicationPeer_slot which
          have is_current : ∀ peer, Ready hosts publisher peer →
              peer.slot = slot → peer = current := by
            rintro peer ready rfl
            exact Option.some.inj (ready.visited.symm.trans which)
          dsimp only at pass
          cases blocked : publisher.publishBlocked[slot]? with
          | none =>
              rw [blocked] at pass
              cases pass
          | some generation =>
              rw [blocked] at pass
              dsimp only at pass
              split_ifs at pass with barred
              · refine skip ?_ pass
                intro peer ready here
                apply ready.unblocked
                rw [here, blocked, barred, is_current peer ready here]
              · obtain ⟨served, serves, follows⟩ :=
                  moved.core.publishPeer hosts current
                rw [serves] at pass
                dsimp only at pass
                cases outcome : served.result with
                | error cause =>
                    rw [outcome] at pass
                    cases pass
                    cases complete
                | ok service =>
                    rw [outcome] at pass
                    cases service with
                    | sent =>
                        cases pass
                        cases complete
                    | blocked =>
                        cases pass
                        cases complete
                    | idle =>
                        have whole := moved.trans follows
                        obtain ⟨passed, settled⟩ :=
                          moved.core.publishPeer_idle serves outcome
                        obtain ⟨last, onward, lastFollows⟩ :=
                          follows.core.visit (whole.room roomy) hosts
                            slotCount visits
                        rw [onward] at pass
                        cases pass
                        have cursor : served.publisher.publishCursor =
                            slot + 1 := passed.cursor
                        obtain ⟨drops, settles⟩ := ih follows.core
                          (whole.room roomy) onward complete
                          (cursor ▸ rest)
                        refine ⟨?_, fun peer member ready => ?_⟩
                        · intro notice member
                          rcases List.mem_append.mp member with early | late
                          · exact passed.drops notice early
                          · exact drops notice late
                        · rcases List.mem_cons.mp member with here | further
                          · cases is_current peer ready here
                            exact (settled ready.dispatches
                              ready.there).path drops lastFollows.path
                          · apply settles peer (cursor ▸ further)
                            apply (ready_moved peer ready).passed passed
                            rw [same]
                            rintro rfl
                            exact fresh further

/-- In every run, a pass of publication that says that it is complete leaves
nothing owed to any peer that it was to serve and that was not blocked. -/
theorem complete_passes_leave_nothing
    {clients : Clients} {maxGlobals registryCapacity : Nat}
    {globalsGranted registriesGranted syncsGranted : Bool}
    {calls : List (Call Clients)} {log : List Notice}
    {reply : Reply Clients PublishResult}
    (created : init clients maxGlobals registryCapacity globalsGranted
      registriesGranted syncsGranted = .ok publisher)
    (ran : run hosts calls publisher = some (log, later))
    (publishes : later.publishNext hosts = some reply)
    (complete : reply.result = .ok .complete)
    (ready : Ready hosts later peer) :
    (∀ registry global,
        (reply.publisher.stage peer registry global).since = none) ∧
      reply.publisher.syncBarriers.tickets peer = [] := by
  obtain ⟨core, roomy, -⟩ := init_spec created
  obtain ⟨entries, last, runs, follows⟩ := core.run roomy hosts calls
  cases ran.symm.trans runs
  obtain ⟨-, settles⟩ := follows.core.visit_complete (follows.room roomy)
    publishes complete (ahead_nodup (Nat.le_refl _))
  exact settles peer (mem_ahead (publicationPeer_slot ready.visited).2) ready

theorem complete_passes_leave_nothing_sample :
    ∃ log later reply,
      run boardHosts boardCalls board = some (log, later) ∧
        later.publishNext boardHosts = some reply ∧
        reply.result = .ok .complete ∧
        reply.publisher.syncBarriers.tickets boardPeer = [] := by
  have ran : run boardHosts boardCalls board = some (_, _) := rfl
  refine ⟨_, _, _, ran, rfl, rfl, ?_⟩
  exact (complete_passes_leave_nothing board_created ran rfl rfl
    ⟨rfl, by decide, rfl, rfl⟩).2

end Publisher
end Wayring
