import Wayring.Reactor.Outstanding

/-!
# The kernel and its storage

At every moment the flags of each actor say which operations the kernel has, so
no operation outlives the connection that it uses.
-/

namespace Wayring
namespace Reactor

open Function (update)

variable {reactor after : Reactor} {slot : Nat} {actor next : Actor}

/-- The transmit queue in a slot. -/
def transmits (reactor : Reactor) (slot : Nat) : Option Tx.Queue :=
  (reactor.actor slot).map Actor.transmit

/-- Actors and ring agree on the operations in the kernel, and every operation
belongs to an actor. -/
structure Attended (reactor : Reactor) : Prop where
  consistent : reactor.Consistent
  backed : ∃ blocks fds,
    Storage.Shared reactor.storage reactor.transmits blocks fds
  unread : ∀ slot actor, reactor.actor slot = some actor →
    actor.receivedFds.count = 0 ∧ actor.framer.lease = none
  tracked : ∀ slot actor, reactor.actor slot = some actor → ∀ operation,
    reactor.ring.kinds (actor.token operation).encode = actor.expected operation
  owned : ∀ submission ∈ reactor.ring.outstanding,
    ∃ slot actor operation, reactor.actor slot = some actor ∧
      submission.userData = (actor.token operation).encode

/-- Tokens of live actors fit their words. -/
theorem Consistent.token_bounds
    (consistent : reactor.Consistent)
    (found : reactor.actor slot = some actor) :
    actor.slot < Token.slotLimit ∧
      actor.generation < Token.generationLimit := by
  have isActive : reactor.slots.active slot = some actor.generation := by
    rw [consistent.active, found]
    rfl
  have inside := Slots.lt_of_active isActive
  have bounded := consistent.slots.bounded
  have generation := consistent.slots.generations slot
  rw [(Slots.active_eq_some_iff.mp isActive).2] at generation
  rw [consistent.named slot actor found]
  exact ⟨by omega, generation⟩

/-- Tokens of live actors are told apart. -/
theorem Consistent.token_inj
    {otherSlot : Nat} {other : Actor} {operation otherOperation : Operation}
    (consistent : reactor.Consistent)
    (found : reactor.actor slot = some actor)
    (foundOther : reactor.actor otherSlot = some other)
    (same : (actor.token operation).encode =
      (other.token otherOperation).encode) :
    slot = otherSlot ∧ operation = otherOperation := by
  obtain ⟨slotBelow, generationBelow⟩ := consistent.token_bounds found
  obtain ⟨otherSlotBelow, otherGenerationBelow⟩ :=
    consistent.token_bounds foundOther
  have tokens := @Token.encode_inj (actor.token operation)
    (other.token otherOperation) slotBelow generationBelow otherSlotBelow
    otherGenerationBelow same
  have slots : actor.slot = other.slot := congrArg Token.slot tokens
  rw [consistent.named slot actor found,
    consistent.named otherSlot other foundOther] at slots
  exact ⟨slots, congrArg Token.operation tokens⟩

/-- The operations of one actor change, in the actor and in the ring. -/
theorem Attended.change
    {ring : Ring} {storage : Storage}
    {expected : Operation → List Submission.Kind}
    (attended : reactor.Attended)
    (found : reactor.actor slot = some actor)
    (same : Actor.Same actor next)
    (keeps : Actor.Keeps actor next reactor.storage storage expected)
    (own : ∀ operation,
      ring.kinds (actor.token operation).encode = expected operation)
    (others : ∀ userData,
      (∀ operation, userData ≠ (actor.token operation).encode) →
        ring.kinds userData = reactor.ring.kinds userData)
    (owned : ∀ submission ∈ ring.outstanding,
      submission ∈ reactor.ring.outstanding ∨
        ∃ operation, submission.userData = (actor.token operation).encode) :
    (setActor { reactor with ring, storage } slot next).Attended := by
  have consistent := attended.consistent
  obtain ⟨blocks, fds, shared⟩ := attended.backed
  have isQueue : reactor.transmits slot = some actor.transmit := by
    rw [transmits, found]
    rfl
  obtain ⟨bytes, descriptors, stores⟩ := shared.stores slot _ isQueue
  obtain ⟨expectedEq, bytesNow, fdsNow, chainNow, fdChainNow, storesNow, step⟩ :=
    keeps bytes descriptors _ _ stores shared.wellFormed
  have actors : ∀ other, (setActor { reactor with ring, storage } slot
      next).actor other =
        if other = slot then some next else reactor.actor other := by
    intro other
    rw [actor_setActor]
    split_ifs with isSlot
    · change Option.map _ (reactor.actor slot) = _
      rw [found]
      rfl
    · rfl
  have tokens : ∀ operation, next.token operation = actor.token operation := by
    intro operation
    rw [Actor.token, Actor.token, same.slot, same.generation]
  exact
    { consistent := by
        have pools : Consistent { reactor with ring, storage } :=
          ⟨consistent.slots, consistent.active, consistent.named⟩
        exact pools.setActor found same.slot same.generation
      backed := by
        refine ⟨update blocks slot chainNow, update fds slot fdChainNow,
          shared.step step (fun other differs => ?_) (fun queue isNext => ?_)
            fun none => ?_⟩
        · rw [transmits, actors, if_neg differs]
          rfl
        · rw [transmits, actors, if_pos rfl] at isNext
          cases isNext
          exact ⟨bytesNow, fdsNow, storesNow⟩
        · rw [transmits, actors, if_pos rfl] at none
          cases none
      unread := fun other otherActor isOther => by
        rw [actors] at isOther
        split_ifs at isOther
        · cases isOther
          rw [same.receivedFds, same.framer]
          exact attended.unread slot actor found
        · exact attended.unread other otherActor isOther
      tracked := fun other otherActor isOther operation => by
        rw [actors] at isOther
        split_ifs at isOther with isSlot
        · cases isOther
          rw [tokens, expectedEq]
          exact own operation
        · refine (others _ fun otherOperation equal => isSlot ?_).trans
            (attended.tracked other otherActor isOther operation)
          exact (consistent.token_inj isOther found equal).1
      owned := fun submission member => by
        rcases owned submission member with old | ⟨operation, isToken⟩
        · obtain ⟨other, otherActor, operation, isOther, isToken⟩ :=
            attended.owned submission old
          by_cases isSlot : other = slot
          · subst isSlot
            rw [found] at isOther
            cases isOther
            exact ⟨other, next, operation, by rw [actors, if_pos rfl],
              isToken.trans (by rw [tokens])⟩
          · exact ⟨other, otherActor, operation,
              by rw [actors, if_neg isSlot, isOther], isToken⟩
        · exact ⟨slot, next, operation, by rw [actors, if_pos rfl],
            isToken.trans (by rw [tokens])⟩ }

/-- The kernel has the same operations as before. -/
theorem Attended.setActor
    {storage : Storage}
    (attended : reactor.Attended)
    (found : reactor.actor slot = some actor)
    (same : Actor.Same actor next)
    (keeps : Actor.Keeps actor next reactor.storage storage actor.expected) :
    (Reactor.setActor { reactor with storage } slot next).Attended :=
  @Attended.change _ _ _ _ reactor.ring _ _ attended found same keeps
    (attended.tracked slot actor found) (fun _ _ => rfl) fun _ => .inl

/-- The kernel gets an operation that the actor did not have. -/
theorem Attended.submitted
    {peer : Peer} {kind : Submission.Kind}
    (attended : reactor.Attended)
    (submitted : Submitted reactor after peer actor next kind)
    (same : Actor.Same actor next)
    (keeps : Actor.Keeps actor next reactor.storage reactor.storage
      next.expected)
    (idle : actor.expected kind.operation = [])
    (expected : ∀ operation, next.expected operation =
      if operation = kind.operation then [kind]
      else actor.expected operation) : after.Attended := by
  obtain ⟨ring, fd, queued, rfl⟩ := submitted.queued
  have found := submitted.present.1
  refine @Attended.change _ _ _ _ ring reactor.storage _ attended found same
    keeps (fun operation => ?_) (fun userData differs => ?_)
    fun submission member => ?_
  · rw [Ring.kinds_queue queued, expected, attended.tracked _ actor found]
    by_cases isOperation : operation = kind.operation
    · rw [if_pos (by rw [isOperation]), if_pos isOperation, isOperation, idle]
      rfl
    · rw [if_neg isOperation, if_neg fun equal => isOperation
        (attended.consistent.token_inj found found equal).2]
  · rw [Ring.kinds_queue queued, if_neg (differs kind.operation)]
  · rw [(Ring.queue_eq_ok_iff.mp queued).2, List.mem_append,
      List.mem_singleton] at member
    rcases member with old | rfl
    · exact .inl old
    · exact .inr ⟨_, rfl⟩

/-- A last completion takes an operation from the kernel, and from its actor. -/
theorem Attended.completed
    {ring : Ring} {storage : Storage} {completion : Cqe}
    {operation : Operation}
    (attended : reactor.Attended)
    (delivered : reactor.ring.deliver completion = some ring)
    (found : reactor.actor slot = some actor)
    (isToken : completion.userData = (actor.token operation).encode)
    (same : Actor.Same actor next)
    (keeps : Actor.Keeps actor next reactor.storage storage fun other =>
      if other = operation ∧ completion.more = false then []
      else actor.expected other) :
    (Reactor.setActor { reactor with ring, storage } slot next).Attended := by
  obtain ⟨submission, member, _, _, later, kinds, result⟩ :=
    Ring.deliver_spec delivered
  rw [isToken, attended.tracked slot actor found] at kinds
  cases more : completion.more with
  | true =>
      rw [if_pos more] at result
      subst result
      simp only [more, Bool.true_eq_false, and_false, if_false] at keeps
      exact attended.setActor found same keeps
  | false =>
      rw [if_neg (by simp [more])] at result
      obtain ⟨own, others, owned⟩ := result
      simp only [more, and_true] at keeps
      have single : later = [] := by
        cases operation <;> simp only [Actor.expected] at kinds
        case receive =>
          split_ifs at kinds
          simp_all
        case cancel =>
          split_ifs at kinds
          simp_all
        case send => split at kinds <;> simp_all
        all_goals cases kinds
      refine @Attended.change _ _ _ _ ring storage _ attended found same keeps
        (fun other => ?_) (fun userData differs => ?_) fun other inRing => ?_
      · split_ifs with isOperation
        · rw [isOperation, ← isToken, own, single]
        · rw [others, attended.tracked slot actor found]
          rw [isToken]
          exact fun equal => isOperation
            (attended.consistent.token_inj found found equal).2
      · exact others userData (isToken ▸ differs operation)
      · exact .inl (owned other inRing)

/-! ## Calls -/

/-- Relinking the deferred list keeps what the kernel attends to. -/
theorem Attended.relinked
    (attended : reactor.Attended)
    (relinked : Relinked reactor after) : after.Attended where
  consistent := relinked.consistent attended.consistent
  backed := by
    have queues : after.transmits = reactor.transmits := by
      funext slot
      rw [transmits, relinked.actor, transmits]
    rw [queues, relinked.storage]
    exact attended.backed
  unread slot actor found :=
    attended.unread slot actor ((relinked.actor slot).symm.trans found)
  tracked slot actor found := by
    rw [relinked.ring]
    exact attended.tracked slot actor ((relinked.actor slot).symm.trans found)
  owned submission member := by
    rw [relinked.ring] at member
    obtain ⟨slot, actor, operation, found, isToken⟩ :=
      attended.owned submission member
    exact ⟨slot, actor, operation, (relinked.actor slot).trans found, isToken⟩

/-- A prepared receive is attended to. -/
theorem Attended.prepareReceive
    (attended : reactor.Attended)
    (peer : Peer) : (reactor.prepareReceive peer).2.Attended := by
  have spec := prepareReceive_spec attended.consistent peer
  generalize reactor.prepareReceive peer = outcome at spec ⊢
  obtain ⟨result, after⟩ := outcome
  cases result with
  | error cause =>
      obtain ⟨rfl, _⟩ := spec
      exact attended
  | ok _ =>
      obtain ⟨actor, waits, submitted⟩ := spec
      refine attended.submitted submitted ⟨rfl, rfl, rfl, rfl⟩ (.state rfl)
        ?_ fun operation => ?_
      · rw [Submission.Kind.operation, Actor.expected, waits.2]
        rfl
      · cases operation <;> rfl

/-- A prepared send is attended to. -/
theorem Attended.prepareSend
    [Native]
    (attended : reactor.Attended)
    (peer : Peer) : (reactor.prepareSend peer).2.Attended := by
  have spec := prepareSend_spec attended.consistent peer
  generalize reactor.prepareSend peer = outcome at spec ⊢
  obtain ⟨result, after⟩ := outcome
  cases result with
  | error cause =>
      subst spec
      exact attended
  | ok _ =>
      obtain ⟨actor, snapshot, transmit, _, begins, submitted⟩ := spec
      obtain ⟨_, idle, rfl⟩ := begin_eq begins
      refine attended.submitted submitted ⟨rfl, rfl, rfl, rfl⟩
        (.began begins) ?_ fun operation => ?_
      · rw [Submission.Kind.operation, Actor.expected, idle]
      · cases operation <;> rfl

/-- Closing an actor leaves the kernel alone. -/
theorem expected_beginClose (actor : Actor) :
    actor.beginClose.expected = actor.expected :=
  Actor.expected_congr rfl rfl (Actor.cancelActive_closed _)

/-- A prepared cancellation is attended to. -/
theorem Attended.prepareClose
    (attended : reactor.Attended)
    (peer : Peer) : (reactor.prepareClose peer).2.Attended := by
  have spec := prepareClose_spec attended.consistent peer
  generalize reactor.prepareClose peer = outcome at spec ⊢
  obtain ⟨result, after⟩ := outcome
  cases result with
  | error cause =>
      subst spec
      exact attended
  | ok queued =>
      cases queued with
      | false =>
          obtain ⟨actor, present, _, _, rfl⟩ := spec
          have keeps : Actor.Keeps actor actor.beginClose reactor.storage
              reactor.storage actor.expected := by
            rw [← expected_beginClose]
            exact .state rfl
          exact attended.setActor present.1 ⟨rfl, rfl, rfl, rfl⟩ keeps
      | true =>
          obtain ⟨actor, unrequested, _, submitted⟩ := spec
          have notCanceling : actor.cancelActive = false := by
            unfold Actor.cancelRequested Phase.cancelRequested at unrequested
            unfold Actor.cancelActive Phase.cancelActive
            cases phase : actor.state.phase <;> rw [phase] at unrequested <;>
              first | rfl | cases unrequested
          refine attended.submitted submitted ⟨rfl, rfl, rfl, rfl⟩ (.state rfl)
            ?_ fun operation => ?_
          · rw [Submission.Kind.operation, Actor.expected, notCanceling]
            rfl
          · cases operation <;> rfl

/-- A call that keeps an actor's operations keeps what is attended to. -/
theorem Attended.onActor
    {α : Type}
    {operate : Actor → Storage → Except Error α × Actor × Storage}
    (attended : reactor.Attended)
    (peer : Peer)
    (same : ∀ actor storage, Actor.Same actor (operate actor storage).2.1)
    (keeps : ∀ actor storage,
      Actor.Keeps actor (operate actor storage).2.1 storage
        (operate actor storage).2.2 actor.expected) :
    (reactor.onActor peer operate).2.Attended := by
  unfold Reactor.onActor
  cases found : reactor.getActor peer with
  | error cause => exact attended
  | ok actor =>
      have present := attended.consistent.getActor_eq_ok_iff.mp found
      exact attended.setActor present.1 (same actor reactor.storage)
        (keeps actor reactor.storage)

/-- A completion finds the actor that its token names. -/
theorem Consistent.completeRouted_eq
    {completion : Cqe} {operation : Operation}
    (consistent : reactor.Consistent)
    (found : reactor.actor slot = some actor)
    (isToken : completion.userData = (actor.token operation).encode)
    (connection : operation ≠ .accept ∧ operation ≠ .acceptCancel) :
    reactor.route completion = some { slot, operation } ∧
      reactor.completeRouted { slot, operation } completion =
        let (result, next, storage) :=
          actor.completeRouted reactor.storage operation completion
        (result, Reactor.setActor { reactor with storage } slot next) := by
  obtain ⟨slotBelow, generationBelow⟩ := consistent.token_bounds found
  have isActive : reactor.slots.active actor.slot = some actor.generation := by
    rw [consistent.named slot actor found, consistent.active, found]
    rfl
  have decoded : Token.decode completion.userData =
      .ok (actor.token operation) := by
    rw [isToken]
    exact Token.decode_encode slotBelow generationBelow
  have routed : reactor.slots.routeToken (actor.token operation) =
      some { slot, operation } := by
    rw [Slots.routeToken_eq, Actor.token, if_pos isActive,
      consistent.named slot actor found]
  constructor
  · unfold route
    rw [decoded]
    cases operation with
    | accept => exact absurd rfl connection.1
    | acceptCancel => exact absurd rfl connection.2
    | _ => exact routed
  · have generation : ((reactor.record slot).map fun record =>
        record.actor.generation) = some actor.generation := by
      rw [Reactor.actor] at found
      have mapped := congrArg (Option.map Actor.generation) found
      rw [Option.map_map] at mapped
      exact mapped
    have got : reactor.getActor (reactor.routedPeer { slot, operation }) =
        .ok actor := by
      rw [consistent.getActor_eq_ok_iff, routedPeer, generation]
      exact ⟨found, rfl⟩
    unfold completeRouted
    rw [got]

/-- The kernel completes an operation of a live actor. -/
theorem Attended.delivered
    {completion : Cqe} {ring : Ring}
    (attended : reactor.Attended)
    (delivered : reactor.ring.deliver completion = some ring) :
    ∃ slot actor operation kind later, reactor.actor slot = some actor ∧
      completion.userData = (actor.token operation).encode ∧
      actor.expected operation = kind :: later ∧
      ∃ submission : Submission, submission.kind = kind ∧
        Ring.allows submission completion = true := by
  obtain ⟨submission, member, carries, allowed, later, kinds, _⟩ :=
    Ring.deliver_spec delivered
  obtain ⟨slot, actor, operation, found, isToken⟩ :=
    attended.owned submission member
  have userData := carries.symm.trans isToken
  rw [userData, attended.tracked slot actor found] at kinds
  exact ⟨slot, actor, operation, submission.kind, later, found, userData, kinds,
    submission, rfl, allowed⟩

/-- What a completion that the kernel may send does to its actor. -/
theorem Keeps.completeRouted
    {completion : Cqe} {operation : Operation} {submission : Submission}
    {later : List Submission.Kind} {storage : Storage}
    (expected : actor.expected operation = submission.kind :: later)
    (allowed : Ring.allows submission completion = true) :
    let outcome := actor.completeRouted storage operation completion
    Actor.Keeps actor outcome.2.1 storage outcome.2.2 fun other =>
      if other = operation ∧ completion.more = false then []
      else actor.expected other := by
  cases operation with
  | receive =>
      simp only [Actor.expected] at expected
      split_ifs at expected with receiving
      have kind := (List.cons_eq_cons.mp expected).1.symm
      have continues : completion.continues = completion.more := by
        unfold Ring.allows at allowed
        unfold Cqe.continues
        rw [kind] at allowed
        cases result : completion.result <;> cases more : completion.more <;>
          simp_all
      have keeps := @Actor.Keeps.completeReceive actor storage completion
        receiving
      rw [continues] at keeps
      have same := funext keeps.2
      exact same ▸ keeps.1
  | send =>
      simp only [Actor.expected] at expected
      cases active : actor.transmit.active with
      | none =>
          rw [active] at expected
          cases expected
      | some flight =>
          rw [active] at expected
          have kind := (List.cons_eq_cons.mp expected).1.symm
          unfold Ring.allows at allowed
          rw [kind] at allowed
          have last : completion.more = false := by
            cases result : completion.result <;> simp_all
          have within : ∀ length, completion.result = .count length →
              length ≤ flight.byteCount := by
            intro length result
            simp_all
          simp only [last, and_true]
          exact Actor.Keeps.completeSend active within
  | cancel =>
      simp only [Actor.expected] at expected
      split_ifs at expected with canceling
      have kind := (List.cons_eq_cons.mp expected).1.symm
      have last : completion.more = false := by
        unfold Ring.allows at allowed
        rw [kind] at allowed
        cases result : completion.result <;> simp_all
      have keeps := @Actor.Keeps.completeCancel actor storage completion
        canceling
      simp only [last, and_true]
      have same := funext keeps.2
      exact same ▸ keeps.1
  | accept => cases expected
  | acceptCancel => cases expected

/-- A completion ends what it is for, and nothing else. -/
theorem Attended.complete
    [Native]
    (attended : reactor.Attended)
    (completion : Cqe) : (reactor.onCompletion completion).2.Attended := by
  have consistent := attended.consistent
  unfold onCompletion
  cases delivered : reactor.ring.deliver completion with
  | none => exact attended
  | some ring =>
      obtain ⟨slot, actor, operation, _, later, found, isToken, expected,
        submission, rfl, allowed⟩ := attended.delivered delivered
      have connection : operation ≠ .accept ∧ operation ≠ .acceptCancel := by
        constructor
        all_goals
          rintro rfl
          cases expected
      have completes := @Consistent.completeRouted_eq
        { reactor with ring } slot actor completion operation
        (consistent.withRing ring) found isToken connection
      simp only [completes.1, completes.2]
      have keeps := @Keeps.completeRouted actor completion operation submission
        later reactor.storage expected allowed
      have same := @Actor.completeRouted_same actor reactor.storage operation
        completion
      generalize actor.completeRouted reactor.storage operation completion =
        outcome at keeps same ⊢
      obtain ⟨result, next, storage⟩ := outcome
      exact attended.completed delivered found isToken same keeps

/-- A fresh actor has nothing in the kernel, and nobody has its token. -/
theorem Attended.admitted
    {acquired : Option Nat} {new : Option Actor}
    (attended : reactor.Attended)
    (admitted : Admitted reactor after acquired new)
    (fresh : ∀ actor, new = some actor →
      actor.expected = (fun _ => []) ∧ actor.receivedFds.count = 0 ∧
      actor.framer.lease = none ∧ ∃ byteBudget fdBudget,
        actor.transmit = Tx.Queue.init byteBudget fdBudget) :
    after.Attended := by
  have kept : ∀ slot actor, reactor.actor slot = some actor →
      after.actor slot = some actor := by
    intro slot actor found
    rw [admitted.actor, if_neg, found]
    rintro ⟨_, isNew⟩
    rw [admitted.vacant slot isNew] at found
    cases found
  have owned : ∀ submission ∈ after.ring.outstanding,
      ∃ slot actor operation, reactor.actor slot = some actor ∧
        submission.userData = (actor.token operation).encode := by
    rw [admitted.ring]
    exact attended.owned
  refine ⟨admitted.consistent, ?_, fun slot actor found => ?_,
    fun slot actor found operation => ?_, fun submission member => ?_⟩
  · obtain ⟨blocks, fds, shared⟩ := attended.backed
    rw [admitted.storage]
    cases acquired with
    | none =>
        have queues : after.transmits = reactor.transmits := by
          funext slot
          rw [transmits, admitted.actor, if_neg (by simp), transmits]
        rw [queues]
        exact ⟨blocks, fds, shared⟩
    | some place =>
        cases new with
        | none =>
            have queues : after.transmits = reactor.transmits := by
              funext slot
              rw [transmits, admitted.actor, if_neg (by simp), transmits]
            rw [queues]
            exact ⟨blocks, fds, shared⟩
        | some actor =>
            obtain ⟨_, _, _, byteBudget, fdBudget, queueEq⟩ := fresh actor rfl
            have vacant : reactor.transmits place = none := by
              rw [transmits, admitted.vacant place rfl]
              rfl
            obtain ⟨noBlocks, noFds⟩ := shared.vacant place vacant
            refine ⟨blocks, fds, @Storage.Shared.replace _ _ _ _ _ place shared
              (fun other differs => ?_) ⟨actor.transmit, [], [], ?_, ?_⟩⟩
            · rw [transmits, admitted.actor, if_neg, transmits]
              rintro ⟨_, same⟩
              exact differs (Option.some.inj same).symm
            · rw [transmits, admitted.actor, if_pos ⟨rfl, rfl⟩]
              rfl
            · rw [noBlocks, noFds, queueEq]
              exact Tx.Queue.Stores.init _ _ _
  · rw [admitted.actor] at found
    split_ifs at found with isNew
    · exact ⟨(fresh actor found).2.1, (fresh actor found).2.2.1⟩
    · exact attended.unread slot actor found
  · rw [admitted.actor] at found
    split_ifs at found with isNew
    · rw [(fresh actor found).1, Ring.kinds, List.map_eq_nil_iff,
        List.filter_eq_nil_iff]
      intro submission member carries
      obtain ⟨other, otherActor, otherOperation, isOther, isToken⟩ :=
        owned submission member
      have foundNow : after.actor slot = some actor := by
        rw [admitted.actor, if_pos isNew, found]
      have same := admitted.consistent.token_inj foundNow (kept _ _ isOther)
        ((of_decide_eq_true carries).symm.trans isToken)
      rw [← same.1, admitted.vacant slot isNew.2] at isOther
      cases isOther
    · rw [admitted.ring]
      exact attended.tracked slot actor found operation
  · obtain ⟨slot, actor, operation, found, isToken⟩ := owned submission member
    exact ⟨slot, actor, operation, kept slot actor found, isToken⟩

/-- A new peer has nothing in flight. -/
theorem Attended.attach
    {socketFd : Fd} {config : ActorConfig} {room : Nat}
    (attended : reactor.Attended) :
    (reactor.attach socketFd config room).2.Attended := by
  have spec := @attach_spec reactor socketFd config room attended.consistent
  generalize reactor.attach socketFd config room = outcome at spec ⊢
  obtain ⟨result, after⟩ := outcome
  cases result with
  | error cause => exact attended.admitted spec fun _ none => nomatch none
  | ok peer =>
      refine attended.admitted spec.2 fun actor isNew => ?_
      cases isNew
      refine ⟨?_, rfl, rfl, _, _, rfl⟩
      funext operation
      cases operation <;> rfl

/-- An idle actor has nothing in the kernel. -/
theorem expected_eq_nil
    (idle : actor.canDeinit = true) : actor.expected = fun _ => [] := by
  unfold Actor.canDeinit Tx.Queue.sendActive at idle
  simp only [Bool.and_eq_true, Bool.not_eq_true', Option.isSome_eq_false_iff,
    Option.isNone_iff_eq_none] at idle
  obtain ⟨⟨receive, cancel⟩, send⟩ := idle
  funext operation
  cases operation with
  | receive =>
      rw [Actor.expected, receive]
      rfl
  | send => rw [Actor.expected, send]
  | cancel =>
      rw [Actor.expected, cancel]
      rfl
  | accept => rfl
  | acceptCancel => rfl

/-- An actor that read nothing gives back the entries of its queue. -/
theorem deinit_step
    {fragmentBlocks fragmentsNow : SharedBlocks} {storage storageNow : Storage}
    {bytes : List UInt8} {fds : List Fd} {chain fdChain : List Nat}
    (stores : actor.transmit.Stores storage bytes fds chain fdChain)
    (wellFormed : storage.WellFormed)
    (unread : actor.receivedFds.count = 0 ∧ actor.framer.lease = none)
    (deinit : actor.deinit fragmentBlocks storage =
      .ok (fragmentsNow, storageNow)) :
    Storage.Step storage storageNow chain [] fdChain [] := by
  obtain ⟨after, released, step⟩ := stores.deinit_spec wellFormed
  have framer : actor.framer.deinit fragmentBlocks = (.ok (), fragmentBlocks) := by
    rw [Framer.deinit, Framer.releaseLease, unread.2]
  have received : actor.receivedFds.deinit storage.fds =
      (.ok [], actor.receivedFds, storage.fds) := by
    rw [FdQueue.deinit, unread.1]
    rfl
  simp only [Actor.deinit, framer, received, released] at deinit
  cases deinit
  exact step

/-- A peer is destroyed when nothing of it is in flight. -/
theorem Attended.destroyPeer
    (attended : reactor.Attended)
    (peer : Peer) : (reactor.destroyPeer peer).2.Attended := by
  have spec := destroyPeer_spec attended.consistent peer
  generalize reactor.destroyPeer peer = outcome at spec ⊢
  obtain ⟨result, after⟩ := outcome
  cases result with
  | error cause =>
      cases spec
      exact attended
  | ok _ =>
      obtain ⟨actor, destroyed⟩ := spec
      have found := destroyed.present.1
      have idle := expected_eq_nil destroyed.idle
      refine ⟨destroyed.consistent, ?_, fun slot other isOther => ?_,
        fun slot other isOther operation => ?_, fun submission member => ?_⟩
      · obtain ⟨blocks, fds, shared⟩ := attended.backed
        have isQueue : reactor.transmits peer.slot = some actor.transmit := by
          rw [transmits, found]
          rfl
        obtain ⟨bytes, descriptors, stores⟩ := shared.stores _ _ isQueue
        have step := deinit_step stores shared.wellFormed
          (attended.unread _ actor found) destroyed.deinit
        refine ⟨update blocks peer.slot [], update fds peer.slot [],
          shared.step step (fun other differs => ?_) (fun queue isNone => ?_)
            fun _ => ⟨rfl, rfl⟩⟩
        · rw [transmits, destroyed.actor, if_neg differs, transmits]
        · rw [transmits, destroyed.actor, if_pos rfl] at isNone
          cases isNone
      · rw [destroyed.actor] at isOther
        split_ifs at isOther
        exact attended.unread slot other isOther
      · rw [destroyed.actor] at isOther
        split_ifs at isOther
        rw [destroyed.ring]
        exact attended.tracked slot other isOther operation
      · rw [destroyed.ring] at member
        obtain ⟨slot, other, operation, isOther, isToken⟩ :=
          attended.owned submission member
        have apart : slot ≠ peer.slot := by
          rintro rfl
          rw [found] at isOther
          cases isOther
          have none := attended.tracked _ actor found operation
          rw [idle, Ring.kinds, List.map_eq_nil_iff,
            List.filter_eq_nil_iff] at none
          exact none submission member (by simpa using isToken)
        exact ⟨slot, other, operation,
          by rw [destroyed.actor, if_neg apart, isOther], isToken⟩

/-! ## Runs -/

/-- A sweep changes links and queues receives. -/
theorem sweepDeferred_keeps
    {Kept : Reactor → Prop}
    (relinked : ∀ before after, Relinked before after →
      Kept before → Kept after)
    (receives : ∀ before peer, Kept before →
      Kept (before.prepareReceive peer).2)
    (kept : Kept reactor)
    (fuel prepared : Nat) : Kept (reactor.sweepDeferred fuel prepared).2 := by
  induction fuel generalizing reactor prepared with
  | zero => exact kept
  | succ fuel sweep_ih =>
      have removed : ∀ {other : Reactor} (slot : Nat), Kept other →
          Kept (other.removeDeferredReceive slot) := fun slot =>
        relinked _ _ Relinked.removeDeferredReceive.1
      unfold Reactor.sweepDeferred
      split
      · exact kept
      split
      · exact kept
      rename_i slot _ _ node _
      simp only
      split
      · exact sweep_ih (removed slot kept) prepared
      split_ifs
      · exact sweep_ih (removed slot kept) prepared
      have prepare := receives _ { slot, generation := node.generation } kept
      split <;> rename_i outcome <;> rw [outcome] at prepare
      · exact relinked _ _ ((Relinked.refl _).ends _ _ _) prepare
      · exact prepare
      · exact sweep_ih (removed slot prepare) (prepared + 1)

/-- What relinking and prepared receives keep, a sweep keeps. -/
theorem prepareDeferredReceives_keeps
    {Kept : Reactor → Prop}
    (relinked : ∀ before after, Relinked before after →
      Kept before → Kept after)
    (receives : ∀ before peer, Kept before →
      Kept (before.prepareReceive peer).2)
    (kept : Kept reactor) : Kept reactor.prepareDeferredReceives.2 := by
  unfold prepareDeferredReceives
  split_ifs
  · exact kept
  · exact sweepDeferred_keeps relinked receives
      (relinked _ _ ((Relinked.refl reactor).ends _ _ _) kept) _ _

theorem Relinked.deferReceive
    (reactor : Reactor) (peer : Peer) :
    Relinked reactor (reactor.deferReceive peer).2 := by
  unfold Reactor.deferReceive
  split
  · exact .refl _
  split_ifs
  · exact .refl _
  · exact .refl _
  split
  · split_ifs <;> exact .refl _
  · exact .linkDeferred

theorem Relinked.noteReceiveBufferReturned
    (reactor : Reactor) (completion : Cqe) :
    Relinked reactor (reactor.noteReceiveBufferReturned completion) := by
  unfold Reactor.noteReceiveBufferReturned
  split_ifs
  · exact (Relinked.refl reactor).ends _ _ _
  · exact .refl _

theorem Relinked.releaseReceived
    (reactor : Reactor) (peer : Peer) (completion : Cqe) :
    Relinked reactor (reactor.releaseReceived peer completion).2 := by
  unfold Reactor.releaseReceived
  split
  · exact .refl _
  split_ifs
  · exact .noteReceiveBufferReturned reactor completion
  · exact .refl _

section Runs

variable [Native]

/-- Every call keeps actors and kernel in agreement. -/
theorem Attended.step
    (attended : reactor.Attended)
    (call : Call) : (Reactor.step call reactor).2.Attended := by
  cases call with
  | attach socketFd config room => exact attended.attach
  | prepareReceive peer => exact attended.prepareReceive peer
  | prepareSend peer => exact attended.prepareSend peer
  | prepareClose peer => exact attended.prepareClose peer
  | enqueue peer bytes descriptors room =>
      exact attended.onActor peer
        (fun _ storage => Actor.enqueue_same storage bytes descriptors room)
        fun actor storage => .enqueue actor storage bytes descriptors room
  | beginClose peer =>
      refine attended.onActor peer (fun _ _ => ⟨rfl, rfl, rfl, rfl⟩)
        fun actor storage => ?_
      rw [← expected_beginClose]
      exact .state rfl
  | postError peer objectId code message room =>
      exact @Attended.onActor reactor Unit
        (fun actor storage =>
          actor.postError storage objectId code message room) attended peer
        (fun _ _ => Actor.postError_same objectId code message room)
        fun actor storage => .postError actor storage objectId code message room
  | complete completion => exact attended.complete completion
  | deferReceive peer =>
      exact attended.relinked (Relinked.deferReceive reactor peer)
  | releaseReceived peer completion =>
      exact attended.relinked
        (Relinked.releaseReceived reactor peer completion)
  | noteReceiveBufferReturned completion =>
      exact attended.relinked
        (Relinked.noteReceiveBufferReturned reactor completion)
  | prepareDeferredReceives =>
      exact prepareDeferredReceives_keeps
        (fun _ _ relinked kept => kept.relinked relinked)
        (fun _ peer kept => kept.prepareReceive peer) attended
  | destroyPeer peer => exact attended.destroyPeer peer
  | submit free =>
      exact ⟨attended.consistent.withRing _, attended.backed, attended.unread,
        attended.tracked, attended.owned⟩

/-- Every run keeps what the kernel attends to. -/
theorem Attended.run
    (attended : reactor.Attended)
    (calls : List Call) : (Reactor.run calls reactor).Attended := by
  induction calls generalizing reactor with
  | nil => exact attended
  | cons call calls run_ih => exact run_ih (attended.step call)

omit [Native] in
/-- A new reactor has nothing in flight. -/
theorem start_attended
    {blocks : SharedBlocks} {fds : SharedFds}
    (blocksWellFormed : blocks.WellFormed)
    (fdsWellFormed : fds.WellFormed)
    (free sendDescriptorCapacity sendControlStride : Nat)
    (fragmentBlocks : SharedBlocks) :
    (start free sendDescriptorCapacity sendControlStride fragmentBlocks
      { blocks, fds }).Attended where
  consistent :=
    (start_scheduled free sendDescriptorCapacity sendControlStride
      fragmentBlocks { blocks, fds }).consistent
  backed := ⟨_, _, .empty ⟨blocksWellFormed, fdsWellFormed⟩ fun _ => rfl⟩
  unread _ _ found := nomatch found
  tracked _ _ found := nomatch found
  owned _ member := nomatch member

/-! ## Generations -/

/-- The slot that a turn takes from the free ones. -/
def Turn.acquires (turn : Turn) : Option Nat :=
  match turn.call with
  | .attach _ config room => turn.before.acquires config room
  | _ => none

/-- How often a slot was taken. -/
def reuses (slot : Nat) (turns : List Turn) : Nat :=
  turns.countP fun turn => turn.acquires = some slot

/-- A slot has its next generation when it is taken, and only then an actor. -/
structure Follows
    (reactor after : Reactor)
    (acquired : Option Nat) : Prop where
  generation : ∀ slot, (after.slots.slot slot).generation =
    if acquired = some slot then
      Completion.nextGeneration (reactor.slots.slot slot).generation
    else (reactor.slots.slot slot).generation
  vacant : ∀ slot, acquired ≠ some slot → reactor.actor slot = none →
    after.actor slot = none

omit [Native] in
/-- Generations stay where slots do. -/
theorem Follows.same
    (consistent : reactor.Consistent)
    (consistentAfter : after.Consistent)
    (slots : after.slots = reactor.slots) : Follows reactor after none where
  generation slot := by
    rw [slots]
    rfl
  vacant slot _ none := by
    have active := consistentAfter.active slot
    rw [slots, consistent.active, none] at active
    exact Option.map_eq_none_iff.mp active.symm

omit [Native] in
theorem slots_onActor
    {α : Type}
    {operate : Actor → Storage → Except Error α × Actor × Storage}
    (peer : Peer) :
    (reactor.onActor peer operate).2.slots = reactor.slots := by
  unfold onActor
  split <;> rfl

omit [Native] in
theorem slots_prepareReceive (peer : Peer) :
    (reactor.prepareReceive peer).2.slots = reactor.slots := by
  unfold prepareReceive
  repeat' split
  all_goals rfl

omit [Native] in
theorem slots_completeRouted (routed : Routed) (completion : Cqe) :
    (reactor.completeRouted routed completion).2.slots = reactor.slots := by
  unfold completeRouted
  split <;> rfl

omit [Native] in
theorem slots_onCompletion (completion : Cqe) :
    (reactor.onCompletion completion).2.slots = reactor.slots := by
  unfold onCompletion
  split
  · rfl
  simp only
  split
  · rfl
  · exact slots_completeRouted _ completion

/-- A call renews the generation of the slot it acquires, and of no other. -/
theorem follows_step
    (consistent : reactor.Consistent)
    (call : Call)
    (consistentAfter : (step call reactor).2.Consistent) :
    Follows reactor (step call reactor).2 (turn call reactor).acquires := by
  cases call with
  | attach socketFd config room =>
      have spec := @attach_spec reactor socketFd config room consistent
      simp only [Turn.acquires, turn, step]
      generalize reactor.attach socketFd config room = outcome at spec ⊢
      obtain ⟨result, after⟩ := outcome
      cases result with
      | error cause =>
          refine ⟨spec.generation, fun slot _ vacant => ?_⟩
          rw [spec.actor, if_neg (by simp)]
          exact vacant
      | ok peer =>
          obtain ⟨acquired, spec⟩ := spec
          rw [acquired]
          refine ⟨spec.generation, fun slot other vacant => ?_⟩
          rw [spec.actor, if_neg fun both => other both.2]
          exact vacant
  | destroyPeer peer =>
      have spec := destroyPeer_spec consistent peer
      simp only [Turn.acquires, turn, step]
      generalize reactor.destroyPeer peer = outcome at spec ⊢
      obtain ⟨result, after⟩ := outcome
      cases result with
      | error cause =>
          cases spec
          exact .same consistent consistent rfl
      | ok _ =>
          obtain ⟨actor, destroyed⟩ := spec
          refine ⟨destroyed.generation, fun slot _ vacant => ?_⟩
          rw [destroyed.actor, vacant, ite_self]
  | prepareReceive peer =>
      exact .same consistent consistentAfter (slots_prepareReceive peer)
  | prepareSend peer =>
      refine .same consistent consistentAfter ?_
      simp only [step, prepareSend]
      repeat' split
      all_goals rfl
  | prepareClose peer =>
      refine .same consistent consistentAfter ?_
      simp only [step, prepareClose]
      repeat' split
      all_goals rfl
  | enqueue peer bytes descriptors room =>
      exact .same consistent consistentAfter
        (@slots_onActor reactor Unit (fun actor storage =>
          actor.enqueue storage bytes descriptors room) peer)
  | beginClose peer =>
      exact .same consistent consistentAfter (slots_onActor peer)
  | postError peer objectId code message room =>
      exact .same consistent consistentAfter
        (@slots_onActor reactor Unit (fun actor storage =>
          actor.postError storage objectId code message room) peer)
  | complete completion =>
      exact .same consistent consistentAfter (slots_onCompletion completion)
  | deferReceive peer =>
      exact .same consistent consistentAfter
        (Relinked.deferReceive reactor peer).slots
  | releaseReceived peer completion =>
      exact .same consistent consistentAfter
        (Relinked.releaseReceived reactor peer completion).slots
  | noteReceiveBufferReturned completion =>
      exact .same consistent consistentAfter
        (Relinked.noteReceiveBufferReturned reactor completion).slots
  | prepareDeferredReceives =>
      refine .same consistent consistentAfter ?_
      exact @prepareDeferredReceives_keeps reactor
        (fun other => other.slots = reactor.slots)
        (fun _ _ relinked kept => relinked.slots.trans kept)
        (fun _ peer kept => (slots_prepareReceive peer).trans kept) rfl
  | submit free => exact .same consistent consistentAfter rfl

omit [Native] in
theorem reuses_append (slot : Nat) (early late : List Turn) :
    reuses slot (early ++ late) = reuses slot early + reuses slot late :=
  List.countP_append

theorem turns_append
    (early late : List Call) (reactor : Reactor) :
    turns (early ++ late) reactor =
      turns early reactor ++ turns late (run early reactor) := by
  induction early generalizing reactor with
  | nil => rfl
  | cons call early turns_ih =>
      exact congrArg _ (turns_ih _)

theorem run_append
    (early late : List Call) (reactor : Reactor) :
    run (early ++ late) reactor = run late (run early reactor) := by
  induction early generalizing reactor with
  | nil => rfl
  | cons call early run_ih => exact run_ih _

/-- The generation of a slot counts how often it was taken. -/
theorem generation_run
    (attended : reactor.Attended)
    (vacant : reactor.actor slot = none)
    (calls : List Call) :
    ((run calls reactor).slots.slot slot).generation =
        Completion.nextGeneration^[reuses slot (turns calls reactor)]
          (reactor.slots.slot slot).generation ∧
      (reuses slot (turns calls reactor) = 0 →
        (run calls reactor).actor slot = none) := by
  induction calls using List.reverseRecOn with
  | nil => exact ⟨rfl, fun _ => vacant⟩
  | append_singleton calls call run_ih =>
      obtain ⟨generation, unused⟩ := run_ih
      have attendedNow := attended.run calls
      have follows := follows_step attendedNow.consistent call
        (attendedNow.step call).consistent
      rw [turns_append, run_append, reuses_append]
      change ((step call (run calls reactor)).2.slots.slot slot).generation =
          Completion.nextGeneration^[reuses slot (turns calls reactor) +
            reuses slot [turn call (run calls reactor)]] _ ∧
        (reuses slot (turns calls reactor) +
            reuses slot [turn call (run calls reactor)] = 0 →
          (step call (run calls reactor)).2.actor slot = none)
      rw [follows.generation]
      by_cases acquired : (turn call (run calls reactor)).acquires = some slot
      · have once : reuses slot [turn call (run calls reactor)] = 1 := by
          simp [reuses, acquired]
        rw [once, if_pos acquired, generation, Function.iterate_succ_apply']
        exact ⟨rfl, fun none => absurd none (Nat.succ_ne_zero _)⟩
      · have never : reuses slot [turn call (run calls reactor)] = 0 := by
          simp [reuses, acquired]
        rw [never, if_neg acquired]
        exact ⟨generation, fun none =>
          follows.vacant slot acquired (unused none)⟩

omit [Native] in
/-- A generation comes back only after all others. -/
theorem nextGeneration_ne
    {generation count : Nat}
    (below : generation < Token.generationLimit)
    (used : 0 < count)
    (few : count < Token.generationLimit - 1) :
    Completion.nextGeneration^[count] generation ≠ generation := by
  rcases Nat.eq_zero_or_pos generation with rfl | positive
  · obtain ⟨count, rfl⟩ := Nat.exists_eq_succ_of_ne_zero used.ne'
    rw [Function.iterate_succ_apply']
    exact Generation.next_pos.ne'
  · exact Generation.iterate_ne positive below used few

/-- A destroyed peer's completions are routed to nobody. -/
theorem route_destroyed
    {peer : Peer} {completion : Cqe} {operation : Operation}
    (attended : reactor.Attended)
    (destroyed : (reactor.destroyPeer peer).1 = .ok ())
    (calls : List Call)
    (few : reuses peer.slot (turns calls (reactor.destroyPeer peer).2) <
      Token.generationLimit - 1)
    (isToken : completion.userData = Token.encode
      { operation, slot := peer.slot, generation := peer.generation }) :
    (run calls (reactor.destroyPeer peer).2).route completion = none := by
  have spec := destroyPeer_spec attended.consistent peer
  have attendedNow := attended.destroyPeer peer
  generalize reactor.destroyPeer peer = outcome
    at spec destroyed attendedNow few ⊢
  obtain ⟨result, after⟩ := outcome
  subst destroyed
  obtain ⟨actor, spec⟩ := spec
  obtain ⟨slotBelow, generationBelow⟩ :=
    attended.consistent.token_bounds spec.present.1
  rw [attended.consistent.named _ actor spec.present.1] at slotBelow
  rw [spec.present.2] at generationBelow
  have vacant : after.actor peer.slot = none := by
    rw [spec.actor, if_pos rfl]
  have last : (after.slots.slot peer.slot).generation = peer.generation := by
    have active := attended.consistent.active peer.slot
    rw [spec.present.1] at active
    rw [spec.generation, (Slots.active_eq_some_iff.mp active).2]
    exact spec.present.2
  obtain ⟨generation, unused⟩ := generation_run attendedNow vacant calls
  have consistent := (attendedNow.run calls).consistent
  have stale : (run calls after).slots.active peer.slot ≠
      some peer.generation := by
    intro active
    have current := (Slots.active_eq_some_iff.mp active).2
    rcases Nat.eq_zero_or_pos (reuses peer.slot (turns calls after)) with
      none | used
    · rw [consistent.active, unused none] at active
      cases active
    · rw [generation, last] at current
      exact nextGeneration_ne generationBelow used few current
  unfold route
  rw [isToken, Token.decode_encode slotBelow generationBelow]
  cases operation with
  | accept => rfl
  | acceptCancel => rfl
  | _ =>
      simp only [Slots.routeToken_eq]
      rw [if_neg stale]

/-- The token of an operation of a peer. -/
def tokenOf (peer : Peer) (operation : Operation) : Nat :=
  Token.encode
    { operation, slot := peer.slot, generation := peer.generation }

/-- At every moment the kernel has each operation of a peer at most once, as the
flags of its actor say, and no operation without a live peer; a peer is
destroyed only when the kernel has none of its operations, and what the kernel
still sends for it later is routed to nobody. -/
theorem operations_end_before_storage
    {blockSize blockCount fdCount blockRoom fdRoom : Nat}
    {blocks : SharedBlocks} {fds : SharedFds}
    (blocksReady : SharedBlocks.init blockSize blockCount blockRoom =
      .ok blocks)
    (fdsReady : SharedFds.init fdCount fdRoom = .ok fds)
    (free sendDescriptorCapacity sendControlStride : Nat)
    (fragmentBlocks : SharedBlocks)
    (calls : List Call) :
    let reactor := run calls (start free sendDescriptorCapacity
      sendControlStride fragmentBlocks { blocks, fds })
    (∀ peer actor, reactor.getActor peer = .ok actor → ∀ operation,
      (reactor.ring.kinds (tokenOf peer operation)).length =
        if actor.inKernel operation then 1 else 0) ∧
    (∀ submission ∈ reactor.ring.outstanding, ∃ peer actor operation,
      reactor.getActor peer = .ok actor ∧
        submission.userData = tokenOf peer operation) ∧
    ∀ peer, (reactor.destroyPeer peer).1 = .ok () →
      (∀ operation, reactor.ring.kinds (tokenOf peer operation) = []) ∧
      ∀ later, reuses peer.slot (turns later (reactor.destroyPeer peer).2) <
          2 ^ 32 - 1 →
        ∀ completion operation,
          completion.userData = tokenOf peer operation →
            (run later (reactor.destroyPeer peer).2).route completion = none := by
  intro reactor
  have attended : reactor.Attended :=
    (start_attended (SharedBlocks.init_spec blocksReady).1
      (SharedFds.init_spec fdsReady) free sendDescriptorCapacity
      sendControlStride fragmentBlocks).run calls
  have consistent := attended.consistent
  have token : ∀ {peer actor}, reactor.Present peer actor → ∀ operation,
      tokenOf peer operation = (actor.token operation).encode := by
    intro peer actor present operation
    rw [tokenOf, Actor.token, present.2,
      consistent.named _ actor present.1]
  refine ⟨fun peer actor got operation => ?_, fun submission member => ?_,
    fun peer destroyed => ⟨fun operation => ?_, fun later few completion
      operation isToken => ?_⟩⟩
  · have present := consistent.getActor_eq_ok_iff.mp got
    rw [token present, attended.tracked _ actor present.1]
    exact Actor.length_expected actor operation
  · obtain ⟨slot, actor, operation, found, isToken⟩ :=
      attended.owned submission member
    have present : reactor.Present
        { slot, generation := actor.generation } actor := ⟨found, rfl⟩
    exact ⟨_, actor, operation, consistent.getActor_eq_ok_iff.mpr present,
      isToken.trans (token present operation).symm⟩
  · have spec := destroyPeer_spec consistent peer
    generalize reactor.destroyPeer peer = outcome at spec destroyed
    obtain ⟨result, after⟩ := outcome
    cases result with
    | error cause => cases destroyed
    | ok _ =>
        obtain ⟨actor, spec⟩ := spec
        rw [token spec.present, attended.tracked _ actor spec.present.1,
          expected_eq_nil spec.idle]
  · exact route_destroyed attended destroyed later few isToken

end Runs

/-! ## A peer in a used slot -/

section Sample

local instance bigEndian : Native := ⟨.big⟩

/-- One block of four bytes. -/
def sampleBlocks : SharedBlocks :=
  ((SharedBlocks.init 4 1 1).toOption).getD { blockSize := 4 }

/-- Room for one descriptor. -/
def sampleFds : SharedFds :=
  ((SharedFds.init 1 1).toOption).getD {}

/-- The first peer of the reactor. -/
def endingPeer : Peer where
  slot := 0
  generation := 1

/-- A peer is admitted, and closed while its receive is in the kernel. -/
def endingCalls : List Call :=
  [.attach 3 sampleConfig 5, .prepareReceive endingPeer,
    .prepareClose endingPeer]

/-- The kernel ends the receive and then the cancellation. -/
def endedCalls : List Call :=
  endingCalls ++
    [.complete
      { userData := tokenOf endingPeer .receive, result := .count 0 },
    .complete { userData := tokenOf endingPeer .cancel, result := .count 0 }]

/-- The receive of a closing peer is in the kernel once, and the peer stays.
When the kernel has nothing of it, it is destroyed, and a second completion of
its cancellation does not reach the next peer of the slot. -/
theorem operations_end_before_storage_sample :
    let start := start 8 0 0 sampleBlocks
      { blocks := sampleBlocks, fds := sampleFds }
    let closing := run endingCalls start
    let closed := run endedCalls start
    (closing.ring.kinds (tokenOf endingPeer .receive)).length = 1 ∧
      (closing.destroyPeer endingPeer).1 = .error .actorBusy ∧
      closed.ring.kinds (tokenOf endingPeer .receive) = [] ∧
      (run [.attach 4 sampleConfig 5] (closed.destroyPeer endingPeer).2).route
        { userData := tokenOf endingPeer .cancel, result := .count 0 } =
          none := by
  intro start closing closed
  have holds := @operations_end_before_storage _ 4 1 1 1 1 sampleBlocks
    sampleFds rfl rfl 8 0 0 sampleBlocks
  obtain ⟨once, _, _⟩ := holds endingCalls
  obtain ⟨_, _, destroys⟩ := holds endedCalls
  obtain ⟨none, stale⟩ := destroys endingPeer (by decide)
  have got : closing.getActor endingPeer = .ok _ := rfl
  exact ⟨(once endingPeer _ got .receive).trans (by decide), by decide,
    none .receive,
    stale [.attach 4 sampleConfig 5] (by decide) _ .cancel rfl⟩

end Sample

end Reactor
end Wayring
