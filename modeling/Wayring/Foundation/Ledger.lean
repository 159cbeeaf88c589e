import Mathlib.Data.List.Basic
import Mathlib.Logic.Function.Basic
import Mathlib.Tactic

/-!
# A ledger of announcements

Items are announced to the feeds that clients keep.  A feed is owed the
announcement of an item from the moment it can see it, and once it was told, it
is owed the revocation from the moment the item is gone.  A client also hands in
tickets, each of which is answered when everything the client was owed by then
has gone out.  A clock counts the moments at which something becomes owed.

The ledger says which entries may be written when.  What follows from it is
that each client hears of everything in the order it became owed, and that no
feed hears of an item twice.
-/

/-- What a feed knows of an item. -/
inductive Ledger.Stage
  | unknown
  | owed (since : Nat)
  | told
  | leaving (since : Nat)
  | gone
  deriving DecidableEq

/-- One thing that happens. -/
inductive Ledger.Entry (Client Feed Item Ticket : Type*)
  /-- An item comes into being, visible to some clients. -/
  | published (item : Item) (audience : List Client)
  | unpublished (item : Item)
  /-- Nobody can refer to a removed item any more. -/
  | withdrawn (item : Item)
  /-- A feed opens and can see some items. -/
  | subscribed (client : Client) (feed : Feed) (shown : List Item)
  | unsubscribed (client : Client) (feed : Feed)
  /-- The feed is told of an item, which was owed since a moment. -/
  | announced (client : Client) (feed : Feed) (item : Item) (since : Nat)
  /-- The feed is told that an item is gone. -/
  | revoked (client : Client) (feed : Feed) (item : Item) (since : Nat)
  | acknowledged (client : Client) (feed : Feed) (item : Item)
  | requested (client : Client) (ticket : Ticket) (limit : Nat)
  | answered (client : Client) (ticket : Ticket) (limit : Nat)
  /-- A ticket is dropped without an answer. -/
  | abandoned (client : Client) (ticket : Ticket) (limit : Nat)
  | left (client : Client)
  deriving DecidableEq

/-- Who knows of what, and what is owed to whom. -/
@[ext] structure Ledger (Client Feed Item Ticket : Type*) where
  clock : Nat
  live : Item → Prop
  /-- Removed, and not withdrawn yet. -/
  removed : Item → Prop
  registered : Client → Feed → Prop
  stage : Client → Feed → Item → Ledger.Stage
  queue : Client → List (Ticket × Nat)

namespace Ledger

variable {Client Feed Item Ticket : Type*}

namespace Stage

/-- The moment at which something became owed. -/
def since : Stage → Option Nat
  | .owed since | .leaving since => some since
  | .unknown | .told | .gone => none

/-- What the removal of an item does to a feed. -/
def retracted (now : Nat) : Stage → Stage
  | .owed _ => .unknown
  | .told => .leaving now
  | stage => stage

end Stage

/-- Nothing has happened. -/
def empty : Ledger Client Feed Item Ticket where
  clock := 0
  live := fun _ => False
  removed := fun _ => False
  registered := fun _ _ => False
  stage := fun _ _ _ => .unknown
  queue := fun _ => []

/-- Nothing is owed to a client since before a moment. -/
def Earliest
    (ledger : Ledger Client Feed Item Ticket)
    (client : Client)
    (moment : Nat) : Prop :=
  ∀ feed item since, (ledger.stage client feed item).since = some since →
    moment ≤ since

/-- The oldest ticket of a client does not come first. -/
def Unbarred
    (ledger : Ledger Client Feed Item Ticket)
    (client : Client)
    (moment : Nat) : Prop :=
  ∀ ticket limit, (ledger.queue client).head? = some (ticket, limit) →
    moment ≤ limit

open Classical in
/-- Change what one feed knows of one item. -/
noncomputable def setStage
    (ledger : Ledger Client Feed Item Ticket)
    (client : Client)
    (feed : Feed)
    (item : Item)
    (stage : Stage) : Ledger Client Feed Item Ticket :=
  { ledger with
    stage := fun other name thing =>
      if other = client ∧ name = feed ∧ thing = item then stage
      else ledger.stage other name thing }

open Classical in
/-- The entries that may be written, and what they change. -/
inductive Step :
    Ledger Client Feed Item Ticket → Entry Client Feed Item Ticket →
      Ledger Client Feed Item Ticket → Prop
  | published {ledger} {item : Item} {audience : List Client}
      (fresh : ¬ ledger.live item)
      (unknown : ∀ client feed, ledger.stage client feed item = .unknown) :
      Step ledger (.published item audience)
        { ledger with
          clock := ledger.clock + 1
          live := Function.update ledger.live item True
          stage := fun client feed thing =>
            if thing = item ∧ client ∈ audience ∧
                ledger.registered client feed then .owed (ledger.clock + 1)
            else ledger.stage client feed thing }
  | unpublished {ledger} {item : Item}
      (live : ledger.live item) :
      Step ledger (.unpublished item)
        { ledger with
          clock := ledger.clock + 1
          live := Function.update ledger.live item False
          removed := Function.update ledger.removed item True
          stage := fun client feed thing =>
            if thing = item then
              (ledger.stage client feed thing).retracted (ledger.clock + 1)
            else ledger.stage client feed thing }
  | withdrawn {ledger} {item : Item}
      (removed : ledger.removed item)
      (unknown : ∀ client feed, ledger.stage client feed item = .unknown) :
      Step ledger (.withdrawn item)
        { ledger with removed := Function.update ledger.removed item False }
  | subscribed {ledger} {client : Client} {feed : Feed} {shown : List Item}
      (fresh : ¬ ledger.registered client feed)
      (live : ∀ item ∈ shown, ledger.live item) :
      Step ledger (.subscribed client feed shown)
        { ledger with
          clock := ledger.clock + 1
          registered := fun other name =>
            other = client ∧ name = feed ∨ ledger.registered other name
          stage := fun other name item =>
            if other = client ∧ name = feed then
              if item ∈ shown then .owed (ledger.clock + 1) else .unknown
            else ledger.stage other name item }
  | unsubscribed {ledger} {client : Client} {feed : Feed}
      (registered : ledger.registered client feed) :
      Step ledger (.unsubscribed client feed)
        { ledger with
          registered := fun other name =>
            ¬ (other = client ∧ name = feed) ∧ ledger.registered other name
          stage := fun other name item =>
            if other = client ∧ name = feed then .unknown
            else ledger.stage other name item }
  | announced {ledger} {client : Client} {feed : Feed} {item : Item}
      {since : Nat}
      (live : ledger.live item)
      (owed : ledger.stage client feed item = .owed since)
      (earliest : ledger.Earliest client since)
      (unbarred : ledger.Unbarred client since) :
      Step ledger (.announced client feed item since)
        (ledger.setStage client feed item .told)
  | revoked {ledger} {client : Client} {feed : Feed} {item : Item}
      {since : Nat}
      (dead : ¬ ledger.live item)
      (leaving : ledger.stage client feed item = .leaving since)
      (earliest : ledger.Earliest client since)
      (unbarred : ledger.Unbarred client since) :
      Step ledger (.revoked client feed item since)
        (ledger.setStage client feed item .gone)
  | acknowledged {ledger} {client : Client} {feed : Feed} {item : Item}
      (gone : ledger.stage client feed item = .gone) :
      Step ledger (.acknowledged client feed item)
        (ledger.setStage client feed item .unknown)
  | requested {ledger} {client : Client} {ticket : Ticket} :
      Step ledger (.requested client ticket ledger.clock)
        { ledger with
          queue := Function.update ledger.queue client
            (ledger.queue client ++ [(ticket, ledger.clock)]) }
  | answered {ledger} {client : Client} {ticket : Ticket} {limit : Nat}
      {rest : List (Ticket × Nat)}
      (first : ledger.queue client = (ticket, limit) :: rest)
      (earliest : ledger.Earliest client (limit + 1)) :
      Step ledger (.answered client ticket limit)
        { ledger with queue := Function.update ledger.queue client rest }
  | abandoned {ledger} {client : Client} {ticket : Ticket} {limit : Nat}
      {rest : List (Ticket × Nat)}
      (first : ledger.queue client = (ticket, limit) :: rest)
      (earliest : ledger.Earliest client (limit + 1)) :
      Step ledger (.abandoned client ticket limit)
        { ledger with queue := Function.update ledger.queue client rest }
  | left {ledger} {client : Client} :
      Step ledger (.left client)
        { ledger with
          registered := fun other name =>
            other ≠ client ∧ ledger.registered other name
          stage := fun other name item =>
            if other = client then .unknown
            else ledger.stage other name item
          queue := Function.update ledger.queue client [] }

/-- A sequence of entries leads from one ledger to another. -/
inductive Path :
    Ledger Client Feed Item Ticket → List (Entry Client Feed Item Ticket) →
      Ledger Client Feed Item Ticket → Prop
  | nil {ledger} : Path ledger [] ledger
  | cons {ledger middle last entry entries}
      (step : Step ledger entry middle)
      (path : Path middle entries last) :
      Path ledger (entry :: entries) last

namespace Path

variable {ledger middle last : Ledger Client Feed Item Ticket}
  {entry : Entry Client Feed Item Ticket}
  {front back log : List (Entry Client Feed Item Ticket)}

/-- One step is a path. -/
theorem single (step : Step ledger entry last) : Path ledger [entry] last :=
  .cons step .nil

theorem append
    (first : Path ledger front middle)
    (second : Path middle back last) : Path ledger (front ++ back) last := by
  induction first with
  | nil => exact second
  | cons step _ path_ih => exact .cons step (path_ih second)

/-- What holds at the start and survives each entry holds at the end. -/
theorem induct
    (holds : List (Entry Client Feed Item Ticket) →
      Ledger Client Feed Item Ticket → Prop)
    (start : holds front ledger)
    (step : ∀ {past before entry after}, holds past before →
      Step before entry after → holds (past ++ [entry]) after)
    (path : Path ledger log last) : holds (front ++ log) last := by
  induction path generalizing front with
  | nil =>
      rw [List.append_nil]
      exact start
  | cons taken _ path_ih =>
      have later := path_ih (step start taken)
      rwa [List.append_assoc] at later

/-- Every entry of a path was written where it might be. -/
theorem split
    (path : Path ledger (front ++ entry :: back) last) :
    ∃ before after, Path ledger front before ∧ Step before entry after ∧
      Path after back last := by
  induction front generalizing ledger with
  | nil =>
      cases path with
      | cons step path => exact ⟨_, _, .nil, step, path⟩
  | cons first front split_ih =>
      cases path with
      | cons step path =>
          obtain ⟨before, after, earlier, taken, later⟩ := split_ih path
          exact ⟨before, after, .cons step earlier, taken, later⟩

/-- The ends of lifetimes change nothing that a feed knows. -/
theorem stage_of_withdrawn
    (path : Path ledger log last)
    (ends : ∀ entry ∈ log, ∃ item, entry = .withdrawn item) :
    last.stage = ledger.stage := by
  induction path with
  | nil => rfl
  | cons step _ path_ih =>
      obtain ⟨item, rfl⟩ := ends _ List.mem_cons_self
      have rest := path_ih fun entry member =>
        ends entry (List.mem_cons_of_mem _ member)
      cases step with
      | withdrawn removed unknown => exact rest

end Path

/-! ## Order -/

section Order

variable [DecidableEq Client] {client : Client}
  {ledger later : Ledger Client Feed Item Ticket}
  {entry : Entry Client Feed Item Ticket}
  {log : List (Entry Client Feed Item Ticket)}

/-- The place of what is sent to a client in the order of what became owed: an
answer comes right after what was owed at its moment. -/
def Entry.stamp
    (client : Client) : Entry Client Feed Item Ticket → Option Nat
  | .announced other _ _ since | .revoked other _ _ since =>
      if other = client then some (2 * since) else none
  | .answered other _ limit =>
      if other = client then some (2 * limit + 1) else none
  | _ => none

/-- The places of everything that was sent to a client. -/
def stamps
    (client : Client)
    (log : List (Entry Client Feed Item Ticket)) : List Nat :=
  log.filterMap (Entry.stamp client)

/-- A client was sent things in order, and what it is owed comes later. -/
structure InOrder
    (client : Client)
    (log : List (Entry Client Feed Item Ticket))
    (ledger : Ledger Client Feed Item Ticket) : Prop where
  sorted : (stamps client log).Pairwise (· ≤ ·)
  owed : ∀ stamp ∈ stamps client log, ∀ feed item since,
    (ledger.stage client feed item).since = some since → stamp ≤ 2 * since
  queued : ∀ stamp ∈ stamps client log, ∀ ticket ∈ ledger.queue client,
    stamp ≤ 2 * ticket.2 + 1
  past : ∀ stamp ∈ stamps client log, stamp ≤ 2 * ledger.clock + 1
  current : ∀ feed item since,
    (ledger.stage client feed item).since = some since →
      since ≤ ledger.clock
  waiting : ∀ ticket ∈ ledger.queue client, ticket.2 ≤ ledger.clock
  fifo : (ledger.queue client).Pairwise fun first second =>
    first.2 ≤ second.2

/-- The stamps of a log with one entry more. -/
theorem stamps_append
    (log : List (Entry Client Feed Item Ticket))
    (entry : Entry Client Feed Item Ticket) :
    stamps client (log ++ [entry]) =
      stamps client log ++ (entry.stamp client).toList := by
  rw [stamps, List.filterMap_append, ← stamps]
  cases placed : entry.stamp client <;> simp [placed]

namespace InOrder

/-- What becomes owed is owed since now. -/
theorem extend
    (inOrder : InOrder client log ledger)
    (clock : ledger.clock ≤ later.clock)
    (stages : ∀ feed item since,
      (later.stage client feed item).since = some since →
        (∃ name thing,
          (ledger.stage client name thing).since = some since) ∨
        ledger.clock < since ∧ since ≤ later.clock)
    (queue : (later.queue client).Sublist (ledger.queue client)) :
    InOrder client log later where
  sorted := inOrder.sorted
  owed := fun stamp sent feed item since owes => by
    rcases stages feed item since owes with ⟨name, thing, before⟩ | ⟨new, -⟩
    · exact inOrder.owed stamp sent name thing since before
    · have := inOrder.past stamp sent
      omega
  queued := fun stamp sent ticket member =>
    inOrder.queued stamp sent ticket (queue.subset member)
  past := fun stamp sent => by
    have := inOrder.past stamp sent
    omega
  current := fun feed item since owes => by
    rcases stages feed item since owes with ⟨name, thing, before⟩ | ⟨-, new⟩
    · exact (inOrder.current name thing since before).trans clock
    · exact new
  waiting := fun ticket member =>
    (inOrder.waiting ticket (queue.subset member)).trans clock
  fifo := inOrder.fifo.sublist queue

/-- An entry that sends the client nothing. -/
theorem silent
    (inOrder : InOrder client log ledger)
    (unplaced : entry.stamp client = none) :
    InOrder client (log ++ [entry]) ledger := by
  have same : stamps client (log ++ [entry]) = stamps client log := by
    rw [stamps_append, unplaced]
    exact List.append_nil _
  exact {
    sorted := same ▸ inOrder.sorted
    owed := same ▸ inOrder.owed
    queued := same ▸ inOrder.queued
    past := same ▸ inOrder.past
    current := inOrder.current
    waiting := inOrder.waiting
    fifo := inOrder.fifo }

/-- An entry that sends the client what comes next. -/
theorem send
    {place : Nat}
    (inOrder : InOrder client log ledger)
    (placed : entry.stamp client = some place)
    (after : ∀ stamp ∈ stamps client log, stamp ≤ place)
    (owed : ∀ feed item since,
      (ledger.stage client feed item).since = some since →
        place ≤ 2 * since)
    (queued : ∀ ticket ∈ ledger.queue client, place ≤ 2 * ticket.2 + 1)
    (past : place ≤ 2 * ledger.clock + 1) :
    InOrder client (log ++ [entry]) ledger := by
  have grown : stamps client (log ++ [entry]) =
      stamps client log ++ [place] := by
    rw [stamps_append, placed]
    rfl
  have split : ∀ stamp ∈ stamps client (log ++ [entry]),
      stamp ∈ stamps client log ∨ stamp = place := by
    intro stamp member
    rw [grown, List.mem_append, List.mem_singleton] at member
    exact member
  constructor
  · rw [grown, List.pairwise_append]
    refine ⟨inOrder.sorted, List.pairwise_singleton _ _, ?_⟩
    intro stamp sent other single
    rw [List.mem_singleton.mp single]
    exact after stamp sent
  · intro stamp sent feed item since owes
    rcases split stamp sent with old | rfl
    · exact inOrder.owed stamp old feed item since owes
    · exact owed feed item since owes
  · intro stamp sent ticket member
    rcases split stamp sent with old | rfl
    · exact inOrder.queued stamp old ticket member
    · exact queued ticket member
  · intro stamp sent
    rcases split stamp sent with old | rfl
    · exact inOrder.past stamp old
    · exact past
  · exact inOrder.current
  · exact inOrder.waiting
  · exact inOrder.fifo

/-- Telling a feed takes one thing off what is owed. -/
theorem tell
    {other : Client} {feed : Feed} {item : Item} {stage : Stage}
    (inOrder : InOrder client log ledger)
    (quiet : stage.since = none) :
    InOrder client log (ledger.setStage other feed item stage) := by
  refine inOrder.extend (Nat.le_refl _) ?_ (List.Sublist.refl _)
  intro name thing since owes
  left
  simp only [setStage] at owes
  split_ifs at owes with same
  · rw [quiet] at owes
    cases owes
  · exact ⟨name, thing, owes⟩

/-- What is owed first may be sent: nothing waits that comes before it. -/
theorem sendOwed
    {feed : Feed} {item : Item} {since : Nat}
    (inOrder : InOrder client log ledger)
    (placed : entry.stamp client = some (2 * since))
    (owes : (ledger.stage client feed item).since = some since)
    (earliest : ledger.Earliest client since)
    (unbarred : ledger.Unbarred client since) :
    InOrder client (log ++ [entry]) ledger := by
  apply inOrder.send placed
  · intro stamp sent
    exact inOrder.owed stamp sent feed item since owes
  · intro name thing other also
    have := earliest name thing other also
    omega
  · intro ticket member
    have fifo := inOrder.fifo
    cases waiting : ledger.queue client with
    | nil =>
        rw [waiting] at member
        cases member
    | cons first rest =>
        have ahead := unbarred first.1 first.2 (by rw [waiting]; rfl)
        rw [waiting] at member fifo
        rcases List.mem_cons.mp member with rfl | behind
        · omega
        · have := (List.pairwise_cons.mp fifo).1 ticket behind
          omega
  · have := inOrder.current feed item since owes
    omega

/-- The oldest ticket is settled once nothing is owed from before it. -/
theorem settle
    {ticket : Ticket} {limit : Nat} {rest : List (Ticket × Nat)}
    (inOrder : InOrder client log ledger)
    (placed : entry.stamp client = some (2 * limit + 1) ∨
      entry.stamp client = none)
    (first : ledger.queue client = (ticket, limit) :: rest)
    (earliest : ledger.Earliest client (limit + 1)) :
    InOrder client (log ++ [entry]) ledger := by
  rcases placed with placed | unplaced
  · have member : (ticket, limit) ∈ ledger.queue client := by
      rw [first]
      exact List.mem_cons_self
    apply inOrder.send placed
    · intro stamp sent
      exact inOrder.queued stamp sent _ member
    · intro name thing other also
      have := earliest name thing other also
      omega
    · intro other within
      have fifo := inOrder.fifo
      rw [first] at fifo within
      rcases List.mem_cons.mp within with rfl | behind
      · exact Nat.le_refl _
      · have := (List.pairwise_cons.mp fifo).1 other behind
        omega
    · have := inOrder.waiting _ member
      omega
  · exact inOrder.silent unplaced

/-- Nothing was sent yet. -/
theorem empty : InOrder client [] (empty : Ledger Client Feed Item Ticket) where
  sorted := List.Pairwise.nil
  owed := fun _ sent => absurd sent List.not_mem_nil
  queued := fun _ sent => absurd sent List.not_mem_nil
  past := fun _ sent => absurd sent List.not_mem_nil
  current := fun _ _ _ owes => by cases owes
  waiting := fun _ member => absurd member List.not_mem_nil
  fifo := List.Pairwise.nil

/-- Every entry keeps the order. -/
theorem step
    (inOrder : InOrder client log ledger)
    (step : Step ledger entry later) :
    InOrder client (log ++ [entry]) later := by
  cases step with
  | published fresh unknown =>
      refine (inOrder.silent rfl).extend (Nat.le_succ _) ?_ (List.Sublist.refl _)
      intro feed item since owes
      simp only at owes
      split_ifs at owes
      · cases owes
        exact Or.inr ⟨Nat.lt_succ_self _, Nat.le_refl _⟩
      · exact Or.inl ⟨feed, item, owes⟩
  | unpublished live =>
      refine (inOrder.silent rfl).extend (Nat.le_succ _) ?_ (List.Sublist.refl _)
      intro feed item since owes
      simp only at owes
      split_ifs at owes
      · cases before : ledger.stage client feed item with
        | told =>
            rw [before] at owes
            cases owes
            exact Or.inr ⟨Nat.lt_succ_self _, Nat.le_refl _⟩
        | leaving moment =>
            rw [before] at owes
            refine Or.inl ⟨feed, item, ?_⟩
            rw [before]
            exact owes
        | _ =>
            rw [before] at owes
            cases owes
      · exact Or.inl ⟨feed, item, owes⟩
  | withdrawn removed unknown =>
      exact (inOrder.silent rfl).extend (Nat.le_refl _)
        (fun feed item since owes => Or.inl ⟨feed, item, owes⟩)
        (List.Sublist.refl _)
  | subscribed fresh live =>
      refine (inOrder.silent rfl).extend (Nat.le_succ _) ?_ (List.Sublist.refl _)
      intro feed item since owes
      simp only at owes
      split_ifs at owes
      · cases owes
        exact Or.inr ⟨Nat.lt_succ_self _, Nat.le_refl _⟩
      · cases owes
      · exact Or.inl ⟨feed, item, owes⟩
  | unsubscribed registered =>
      refine (inOrder.silent rfl).extend (Nat.le_refl _) ?_ (List.Sublist.refl _)
      intro feed item since owes
      simp only at owes
      split_ifs at owes
      · cases owes
      · exact Or.inl ⟨feed, item, owes⟩
  | @announced other feed item since live owed earliest unbarred =>
      apply tell _ rfl
      by_cases mine : other = client
      · subst mine
        exact inOrder.sendOwed (if_pos rfl) (by rw [owed]; rfl) earliest
          unbarred
      · exact inOrder.silent (if_neg mine)
  | @revoked other feed item since dead leaving earliest unbarred =>
      apply tell _ rfl
      by_cases mine : other = client
      · subst mine
        exact inOrder.sendOwed (if_pos rfl) (by rw [leaving]; rfl) earliest
          unbarred
      · exact inOrder.silent (if_neg mine)
  | acknowledged gone => exact tell (inOrder.silent rfl) rfl
  | @requested other ticket =>
      have kept : InOrder client
          (log ++ [.requested other ticket ledger.clock]) ledger :=
        inOrder.silent rfl
      by_cases mine : other = client
      · subst mine
        refine ⟨kept.sorted, kept.owed, ?_, kept.past, kept.current, ?_, ?_⟩
        · intro stamp sent queued member
          simp only [Function.update_self, List.mem_append,
            List.mem_singleton] at member
          rcases member with before | rfl
          · exact kept.queued stamp sent queued before
          · exact kept.past stamp sent
        · intro queued member
          simp only [Function.update_self, List.mem_append,
            List.mem_singleton] at member
          rcases member with before | rfl
          · exact kept.waiting queued before
          · exact Nat.le_refl _
        · simp only [Function.update_self]
          rw [List.pairwise_append]
          refine ⟨kept.fifo, List.pairwise_singleton _ _, ?_⟩
          intro queued member last single
          rw [List.mem_singleton.mp single]
          exact kept.waiting queued member
      · refine kept.extend (Nat.le_refl _)
          (fun feed item since owes => Or.inl ⟨feed, item, owes⟩) ?_
        simp only [Function.update_apply, if_neg (Ne.symm mine)]
        exact List.Sublist.refl _
  | @answered other ticket limit rest first earliest =>
      have kept : InOrder client (log ++ [.answered other ticket limit])
          ledger := by
        by_cases mine : other = client
        · subst mine
          exact inOrder.settle (Or.inl (if_pos rfl)) first earliest
        · exact inOrder.silent (if_neg mine)
      refine kept.extend (Nat.le_refl _)
        (fun feed item since owes => Or.inl ⟨feed, item, owes⟩) ?_
      simp only [Function.update_apply]
      split_ifs with mine
      · rw [mine, first]
        exact List.sublist_cons_self _ _
      · exact List.Sublist.refl _
  | @abandoned other ticket limit rest first earliest =>
      refine (inOrder.silent rfl).extend (Nat.le_refl _)
        (fun feed item since owes => Or.inl ⟨feed, item, owes⟩) ?_
      simp only [Function.update_apply]
      split_ifs with mine
      · rw [mine, first]
        exact List.sublist_cons_self _ _
      · exact List.Sublist.refl _
  | @left other =>
      refine (inOrder.silent rfl).extend (Nat.le_refl _) ?_ ?_
      · intro feed item since owes
        simp only at owes
        split_ifs at owes
        · cases owes
        · exact Or.inl ⟨feed, item, owes⟩
      · simp only [Function.update_apply]
        split_ifs
        · exact List.nil_sublist _
        · exact List.Sublist.refl _

end InOrder

/-- Along every path, each client is sent things in the order in which they
became owed, and everything that it is still owed comes later. -/
theorem Path.inOrder
    (path : Path empty log ledger)
    (client : Client) : InOrder client log ledger := by
  have start : InOrder client [] (empty : Ledger Client Feed Item Ticket) :=
    InOrder.empty
  exact path.induct _ start fun before taken => before.step taken

end Order

/-! ## Lifetimes of items -/

section Items

variable {client : Client} {feed : Feed} {item : Item}
  {ledger later : Ledger Client Feed Item Ticket}
  {entry : Entry Client Feed Item Ticket}
  {log front back : List (Entry Client Feed Item Ticket)}

/-- The item that comes into being. -/
def Entry.publishes : Entry Client Feed Item Ticket → Option Item
  | .published item _ => some item
  | _ => none

/-- The item that is removed. -/
def Entry.unpublishes : Entry Client Feed Item Ticket → Option Item
  | .unpublished item => some item
  | _ => none

/-- The item whose lifetime ends. -/
def Entry.withdraws : Entry Client Feed Item Ticket → Option Item
  | .withdrawn item => some item
  | _ => none

/-- The items that came into being, in order. -/
def published (log : List (Entry Client Feed Item Ticket)) : List Item :=
  log.filterMap Entry.publishes

/-- The items that were removed, in order. -/
def unpublished (log : List (Entry Client Feed Item Ticket)) : List Item :=
  log.filterMap Entry.unpublishes

/-- The items whose lifetimes ended, in order. -/
def withdrawn (log : List (Entry Client Feed Item Ticket)) : List Item :=
  log.filterMap Entry.withdraws

/-- What one log after another published. -/
theorem published_append
    (front back : List (Entry Client Feed Item Ticket)) :
    published (front ++ back) = published front ++ published back :=
  List.filterMap_append

/-- What a log with one entry more published. -/
theorem published_concat
    (log : List (Entry Client Feed Item Ticket))
    (entry : Entry Client Feed Item Ticket) :
    published (log ++ [entry]) = published log ++ entry.publishes.toList := by
  cases named : entry.publishes <;> simp [published, named]

/-- What a log with one entry more took back. -/
theorem unpublished_concat
    (log : List (Entry Client Feed Item Ticket))
    (entry : Entry Client Feed Item Ticket) :
    unpublished (log ++ [entry]) =
      unpublished log ++ entry.unpublishes.toList := by
  cases named : entry.unpublishes <;> simp [unpublished, named]

/-- What a log with one entry more withdrew. -/
theorem withdrawn_concat
    (log : List (Entry Client Feed Item Ticket))
    (entry : Entry Client Feed Item Ticket) :
    withdrawn (log ++ [entry]) = withdrawn log ++ entry.withdraws.toList := by
  cases named : entry.withdraws <;> simp [withdrawn, named]

/-- What comes into being last was not there before. -/
theorem not_mem_published
    (distinct : (published (log ++ [entry])).Nodup)
    (publishes : entry.publishes = some item) : item ∉ published log := by
  rw [published_concat, publishes, List.nodup_append] at distinct
  intro before
  exact distinct.2.2 item before item (by simp) rfl

variable [DecidableEq Item]

/-- The ledger agrees with the entries about an item. -/
structure Lives
    (item : Item)
    (log : List (Entry Client Feed Item Ticket))
    (ledger : Ledger Client Feed Item Ticket) : Prop where
  live : ledger.live item ↔ item ∈ published log ∧ item ∉ unpublished log
  removed : ledger.removed item ↔ item ∈ unpublished log ∧ item ∉ withdrawn log
  wasPublished : item ∈ unpublished log → item ∈ published log
  wasUnpublished : item ∈ withdrawn log → item ∈ unpublished log
  once : (withdrawn log).count item ≤ 1

/-- An entry that is about no item's lifetime, or about another one's. -/
theorem Lives.other
    (lives : Lives item log ledger)
    (publishes : entry.publishes ≠ some item)
    (unpublishes : entry.unpublishes ≠ some item)
    (withdraws : entry.withdraws ≠ some item)
    (live : later.live item ↔ ledger.live item)
    (removed : later.removed item ↔ ledger.removed item) :
    Lives item (log ++ [entry]) later := by
  have noPublish : item ∉ entry.publishes.toList := by simpa using publishes
  have noUnpublish : item ∉ entry.unpublishes.toList := by
    simpa using unpublishes
  have noWithdraw : item ∉ entry.withdraws.toList := by simpa using withdraws
  constructor
  · rw [live, lives.live, published_concat, unpublished_concat]
    simp [noPublish, noUnpublish]
  · rw [removed, lives.removed, unpublished_concat, withdrawn_concat]
    simp [noUnpublish, noWithdraw]
  · rw [published_concat, unpublished_concat]
    simpa [noPublish, noUnpublish] using lives.wasPublished
  · rw [unpublished_concat, withdrawn_concat]
    simpa [noUnpublish, noWithdraw] using lives.wasUnpublished
  · rw [withdrawn_concat, List.count_append,
      List.count_eq_zero_of_not_mem noWithdraw]
    exact lives.once

/-- A step publishes an item, takes it back, or leaves it as it is. -/
theorem Lives.step
    (lives : Lives item log ledger)
    (distinct : (published (log ++ [entry])).Nodup)
    (step : Step ledger entry later) :
    Lives item (log ++ [entry]) later := by
  cases step with
  | @published thing audience fresh unknown =>
      by_cases same : thing = item
      · subst same
        have new := not_mem_published distinct rfl
        have kept : thing ∉ unpublished log := fun gone =>
          new (lives.wasPublished gone)
        have never : thing ∉ withdrawn log := fun gone =>
          kept (lives.wasUnpublished gone)
        have absent : ¬ ledger.removed thing := fun is =>
          kept (lives.removed.mp is).1
        constructor <;>
          simp [published_concat, unpublished_concat, withdrawn_concat,
            Entry.publishes, Entry.unpublishes, Entry.withdraws, kept, never,
            absent, lives.once]
      · apply lives.other
        · simpa [Entry.publishes] using same
        · simp [Entry.unpublishes]
        · simp [Entry.withdraws]
        · simp only [Function.update_apply, if_neg (Ne.symm same)]
        · exact Iff.rfl
  | @unpublished thing live =>
      by_cases same : thing = item
      · subst same
        obtain ⟨was, still⟩ := lives.live.mp live
        have never : thing ∉ withdrawn log := fun gone =>
          still (lives.wasUnpublished gone)
        constructor <;>
          simp [published_concat, unpublished_concat, withdrawn_concat,
            Entry.publishes, Entry.unpublishes, Entry.withdraws, was, never,
            lives.once]
      · apply lives.other
        · simp [Entry.publishes]
        · simpa [Entry.unpublishes] using same
        · simp [Entry.withdraws]
        · simp only [Function.update_apply, if_neg (Ne.symm same)]
        · simp only [Function.update_apply, if_neg (Ne.symm same)]
  | @withdrawn thing removed unknown =>
      by_cases same : thing = item
      · subst same
        obtain ⟨was, still⟩ := lives.removed.mp removed
        have ended : (withdrawn log).count thing = 0 :=
          List.count_eq_zero_of_not_mem still
        constructor <;>
          simp [published_concat, unpublished_concat, withdrawn_concat,
            Entry.publishes, Entry.unpublishes, Entry.withdraws, was,
            lives.live, lives.wasPublished was, ended]
      · apply lives.other
        · simp [Entry.publishes]
        · simp [Entry.unpublishes]
        · simpa [Entry.withdraws] using same
        · exact Iff.rfl
        · simp only [Function.update_apply, if_neg (Ne.symm same)]
  | _ =>
      apply lives.other
      · simp [Entry.publishes]
      · simp [Entry.unpublishes]
      · simp [Entry.withdraws]
      · exact Iff.rfl
      · exact Iff.rfl

/-- When every item comes into being once, its lifetime ends at most once, and
after its removal; the ledger knows which items are live. -/
theorem Path.lives
    (path : Path empty log ledger)
    (distinct : (published log).Nodup)
    (item : Item) : Lives item log ledger := by
  have start : (published ([] : List (Entry Client Feed Item Ticket))).Nodup →
      Lives item [] (empty : Ledger Client Feed Item Ticket) := fun _ =>
    { live := by simp [empty, published]
      removed := by simp [empty, unpublished]
      wasPublished := fun gone => absurd gone List.not_mem_nil
      wasUnpublished := fun gone => absurd gone List.not_mem_nil
      once := Nat.zero_le _ }
  refine path.induct (fun log ledger =>
    (published log).Nodup → Lives item log ledger) start ?_ distinct
  intro past before entry after holds taken whole
  refine (holds ?_).step whole taken
  rw [published_append] at whole
  exact (List.nodup_append.mp whole).1

/-- A feed is told of an item while it is live, and of its removal after. -/
theorem Path.told_when
    {since : Nat}
    (path : Path empty (front ++ entry :: back) ledger)
    (distinct : (published (front ++ entry :: back)).Nodup) :
    (entry = .announced client feed item since →
      item ∈ published front ∧ item ∉ unpublished front) ∧
    (entry = .revoked client feed item since → item ∈ published front →
      item ∈ unpublished front) := by
  obtain ⟨before, after, earlier, taken, -⟩ := path.split
  rw [published_append, List.nodup_append] at distinct
  have lives := earlier.lives distinct.1 item
  constructor
  · rintro rfl
    cases taken with
    | announced live owed earliest unbarred => exact lives.live.mp live
  · rintro rfl was
    cases taken with
    | revoked dead leaving earliest unbarred =>
        by_contra still
        exact dead (lives.live.mpr ⟨was, still⟩)

/-! ## What a feed hears -/

variable [DecidableEq Client] [DecidableEq Feed]

/-- The two things a feed can be told about an item. -/
inductive Heard
  | announced
  | revoked
  deriving DecidableEq

/-- What a feed was told about an item since it opened, after one more entry. -/
def Entry.hear
    (client : Client)
    (feed : Feed)
    (item : Item)
    (heard : List Heard) : Entry Client Feed Item Ticket → List Heard
  | .subscribed other name _ =>
      if other = client ∧ name = feed then [] else heard
  | .announced other name thing _ =>
      if other = client ∧ name = feed ∧ thing = item then
        heard ++ [.announced]
      else heard
  | .revoked other name thing _ =>
      if other = client ∧ name = feed ∧ thing = item then heard ++ [.revoked]
      else heard
  | _ => heard

/-- What a feed was told about an item since it opened. -/
def heard
    (client : Client)
    (feed : Feed)
    (item : Item)
    (log : List (Entry Client Feed Item Ticket)) : List Heard :=
  log.foldl (Entry.hear client feed item) []

/-- What a feed hears in a log with one entry more. -/
theorem heard_append
    (log : List (Entry Client Feed Item Ticket))
    (entry : Entry Client Feed Item Ticket) :
    heard client feed item (log ++ [entry]) =
      entry.hear client feed item (heard client feed item log) := by
  rw [heard, List.foldl_append]
  rfl

/-- What a feed was told fits what the ledger has it know. -/
def Stage.Fits : Stage → List Heard → Prop
  | .unknown, heard => heard <+: [.announced, .revoked]
  | .owed _, heard => heard = []
  | .told, heard | .leaving _, heard => heard = [.announced]
  | .gone, heard => heard = [.announced, .revoked]

/-- Nothing is heard but an announcement and then a revocation. -/
theorem Stage.Fits.begins
    {stage : Stage} {heard : List Heard}
    (fits : stage.Fits heard) : heard <+: [.announced, .revoked] := by
  cases stage with
  | unknown => exact fits
  | owed since => exact fits ▸ List.nil_prefix
  | told => exact fits ▸ ⟨[.revoked], rfl⟩
  | leaving since => exact fits ▸ ⟨[.revoked], rfl⟩
  | gone => exact fits ▸ List.prefix_rfl

/-- A feed knows of an item only after it came into being, and it was told what
the ledger has it know. -/
structure Hears
    (client : Client)
    (feed : Feed)
    (item : Item)
    (log : List (Entry Client Feed Item Ticket))
    (ledger : Ledger Client Feed Item Ticket) : Prop where
  known : ledger.live item ∨ ledger.stage client feed item ≠ .unknown ∨
    heard client feed item log ≠ [] → item ∈ published log
  fits : (ledger.stage client feed item).Fits (heard client feed item log)

/-- An entry after which a feed knows what it knew. -/
theorem Hears.silent
    (hears : Hears client feed item log ledger)
    (hear : entry.hear client feed item (heard client feed item log) =
      heard client feed item log)
    (live : later.live item → ledger.live item ∨ entry.publishes = some item)
    (stage : later.stage client feed item = ledger.stage client feed item) :
    Hears client feed item (log ++ [entry]) later := by
  constructor
  · rw [heard_append, hear, stage, published_append]
    rintro (is | known | told)
    · rcases live is with was | new
      · exact List.mem_append_left _ (hears.known (Or.inl was))
      · apply List.mem_append_right
        simp [published, new]
    · exact List.mem_append_left _ (hears.known (Or.inr (Or.inl known)))
    · exact List.mem_append_left _ (hears.known (Or.inr (Or.inr told)))
  · rw [heard_append, hear, stage]
    exact hears.fits

/-- An entry that changes what a feed knows of an item it knew of. -/
theorem Hears.change
    (stage : Stage)
    (hears : Hears client feed item log ledger)
    (before : ledger.stage client feed item ≠ .unknown)
    (stageIs : later.stage client feed item = stage)
    (fits : stage.Fits (entry.hear client feed item
      (heard client feed item log))) :
    Hears client feed item (log ++ [entry]) later := by
  constructor
  · intro _
    rw [published_append]
    exact List.mem_append_left _ (hears.known (Or.inr (Or.inl before)))
  · rw [heard_append, stageIs]
    exact fits

/-- An entry after which a feed no longer knows an item. -/
theorem Hears.forget
    (hears : Hears client feed item log ledger)
    (hear : entry.hear client feed item (heard client feed item log) =
      heard client feed item log)
    (live : later.live item → ledger.live item)
    (stage : later.stage client feed item = .unknown) :
    Hears client feed item (log ++ [entry]) later := by
  constructor
  · rw [heard_append, hear, published_append]
    rintro (is | known | told)
    · exact List.mem_append_left _ (hears.known (Or.inl (live is)))
    · exact absurd stage known
    · exact List.mem_append_left _ (hears.known (Or.inr (Or.inr told)))
  · rw [heard_append, hear, stage]
    exact hears.fits.begins

/-- A step changes what a feed heard and its stage together. -/
theorem Hears.step
    (hears : Hears client feed item log ledger)
    (distinct : (published (log ++ [entry])).Nodup)
    (step : Step ledger entry later) :
    Hears client feed item (log ++ [entry]) later := by
  have fits := hears.fits
  cases step with
  | @published thing audience fresh unknown =>
      by_cases same : thing = item
      · subst same
        have new := not_mem_published distinct rfl
        have silence : heard client feed thing log = [] := by
          by_contra told
          exact new (hears.known (Or.inr (Or.inr told)))
        constructor
        · intro _
          simp [published_concat, Entry.publishes]
        · rw [heard_append, silence]
          simp only [Entry.hear]
          split_ifs
          · rfl
          · rw [unknown]
            exact List.nil_prefix
      · apply hears.silent rfl
        · intro is
          simp only [Function.update_apply, if_neg (Ne.symm same)] at is
          exact Or.inl is
        · exact if_neg fun all => same all.1.symm
  | @unpublished thing live =>
      by_cases same : thing = item
      · subst same
        cases before : ledger.stage client feed thing with
        | owed since =>
            refine hears.change .unknown (by rw [before]; simp) ?_ ?_
            · simp only [before, if_true]
              rfl
            · rw [before] at fits
              exact fits ▸ List.nil_prefix
        | told =>
            refine hears.change (.leaving (ledger.clock + 1))
              (by rw [before]; simp) ?_ ?_
            · simp only [before, if_true]
              rfl
            · rw [before] at fits
              exact fits
        | unknown | leaving | gone =>
            apply hears.silent rfl
            · intro is
              simp only [Function.update_self] at is
            · simp only [before, if_true]
              rfl
      · apply hears.silent rfl
        · intro is
          simp only [Function.update_apply, if_neg (Ne.symm same)] at is
          exact Or.inl is
        · exact if_neg (Ne.symm same)
  | withdrawn removed unknown =>
      exact hears.silent rfl Or.inl rfl
  | @subscribed other name shown fresh live =>
      by_cases same : other = client ∧ name = feed
      · obtain ⟨rfl, rfl⟩ := same
        constructor
        · rintro (is | known | told)
          · rw [published_append]
            exact List.mem_append_left _ (hears.known (Or.inl is))
          · rw [published_append]
            simp only [and_self, if_true, ne_eq] at known
            split_ifs at known with visible
            · exact List.mem_append_left _
                (hears.known (Or.inl (live item visible)))
            · exact absurd rfl known
          · rw [heard_append] at told
            simp [Entry.hear] at told
        · rw [heard_append]
          simp only [Entry.hear, and_self, if_true]
          split_ifs
          · rfl
          · exact List.nil_prefix
      · apply hears.silent
        · exact if_neg same
        · exact Or.inl
        · exact if_neg fun both => same ⟨both.1.symm, both.2.symm⟩
  | @unsubscribed other name registered =>
      by_cases same : client = other ∧ feed = name
      · exact hears.forget rfl id (if_pos same)
      · exact hears.silent rfl Or.inl (if_neg same)
  | @announced other name thing since live owed earliest unbarred =>
      by_cases same : client = other ∧ feed = name ∧ item = thing
      · obtain ⟨rfl, rfl, rfl⟩ := same
        rw [owed] at fits
        refine hears.change .told (by rw [owed]; simp) ?_ ?_
        · simp [setStage]
        · rw [show heard client feed item log = [] from fits]
          simp [Entry.hear, Stage.Fits]
      · apply hears.silent
        · exact if_neg fun all =>
            same ⟨all.1.symm, all.2.1.symm, all.2.2.symm⟩
        · exact Or.inl
        · exact if_neg same
  | @revoked other name thing since dead leaving earliest unbarred =>
      by_cases same : client = other ∧ feed = name ∧ item = thing
      · obtain ⟨rfl, rfl, rfl⟩ := same
        rw [leaving] at fits
        refine hears.change .gone (by rw [leaving]; simp) ?_ ?_
        · simp [setStage]
        · rw [show heard client feed item log = [.announced] from fits]
          simp [Entry.hear, Stage.Fits]
      · apply hears.silent
        · exact if_neg fun all =>
            same ⟨all.1.symm, all.2.1.symm, all.2.2.symm⟩
        · exact Or.inl
        · exact if_neg same
  | @acknowledged other name thing gone =>
      by_cases same : client = other ∧ feed = name ∧ item = thing
      · exact hears.forget rfl id (if_pos same)
      · exact hears.silent rfl Or.inl (if_neg same)
  | requested => exact hears.silent rfl Or.inl rfl
  | answered first earliest => exact hears.silent rfl Or.inl rfl
  | abandoned first earliest => exact hears.silent rfl Or.inl rfl
  | @left other =>
      by_cases same : client = other
      · exact hears.forget rfl id (if_pos same)
      · exact hears.silent rfl Or.inl (if_neg same)

/-- When every item comes into being once, no feed is told of it twice, nor of
its removal twice, nor of the removal before the item. -/
theorem Path.heard_once
    (path : Path empty log ledger)
    (distinct : (published log).Nodup)
    (client : Client) (feed : Feed) (item : Item) :
    heard client feed item log <+: [.announced, .revoked] := by
  have start : (published ([] : List (Entry Client Feed Item Ticket))).Nodup →
      Hears client feed item []
        (empty : Ledger Client Feed Item Ticket) := fun _ =>
    { known := by simp [empty, heard]
      fits := List.nil_prefix }
  have whole : Hears client feed item log ledger := by
    refine path.induct (fun log ledger =>
      (published log).Nodup → Hears client feed item log ledger) start ?_
      distinct
    intro past before entry after holds taken whole
    refine (holds ?_).step whole taken
    rw [published_append] at whole
    exact (List.nodup_append.mp whole).1
  exact whole.fits.begins

/-! ## What a feed holds -/

/-- What a feed was told about an item and did not give up, after one more
entry. -/
def Entry.retain
    (client : Client)
    (feed : Feed)
    (item : Item)
    (held : List Heard) : Entry Client Feed Item Ticket → List Heard
  | .subscribed other name _ | .unsubscribed other name =>
      if client = other ∧ feed = name then [] else held
  | .announced other name thing _ =>
      if client = other ∧ feed = name ∧ item = thing then
        held ++ [.announced]
      else held
  | .revoked other name thing _ =>
      if client = other ∧ feed = name ∧ item = thing then held ++ [.revoked]
      else held
  | .acknowledged other name thing =>
      if client = other ∧ feed = name ∧ item = thing then [] else held
  | .left other => if client = other then [] else held
  | _ => held

/-- What a feed was told about an item since it opened, if it has neither
acknowledged the removal of the item nor closed. -/
def retained
    (client : Client)
    (feed : Feed)
    (item : Item)
    (log : List (Entry Client Feed Item Ticket)) : List Heard :=
  log.foldl (Entry.retain client feed item) []

/-- What a feed retains in a log with one entry more. -/
theorem retained_append
    (log : List (Entry Client Feed Item Ticket))
    (entry : Entry Client Feed Item Ticket) :
    retained client feed item (log ++ [entry]) =
      entry.retain client feed item (retained client feed item log) := by
  rw [retained, List.foldl_append]
  rfl

/-- What a feed holds in a stage. -/
def Stage.retained : Stage → List Heard
  | .unknown | .owed _ => []
  | .told | .leaving _ => [.announced]
  | .gone => [.announced, .revoked]

/-- Both events are retained exactly when the item is gone. -/
theorem Stage.retained_eq_iff
    {stage : Stage} :
    stage.retained = [.announced, .revoked] ↔ stage = .gone := by
  cases stage <;> simp [Stage.retained]

/-- An item that is retracted is retained as before. -/
theorem Stage.retained_retracted
    (stage : Stage) (now : Nat) :
    (stage.retracted now).retained = stage.retained := by
  cases stage <;> rfl

/-- Every entry changes what a feed holds as it changes the feed's stage. -/
theorem Step.retained
    (step : Step ledger entry later) :
    (later.stage client feed item).retained =
      entry.retain client feed item (ledger.stage client feed item).retained := by
  cases step with
  | @published thing audience fresh unknown =>
      simp only [Entry.retain]
      split_ifs with here
      · rw [here.1, unknown]
        rfl
      · rfl
  | @unpublished thing live =>
      simp only [Entry.retain]
      split_ifs
      · exact Stage.retained_retracted _ _
      · rfl
  | subscribed fresh live =>
      simp only [Entry.retain]
      split_ifs <;> rfl
  | unsubscribed registered =>
      simp only [Entry.retain]
      split_ifs <;> rfl
  | @announced other name thing since live owed earliest unbarred =>
      simp only [Entry.retain, setStage]
      split_ifs with here
      · obtain ⟨rfl, rfl, rfl⟩ := here
        rw [owed]
        rfl
      · rfl
  | @revoked other name thing since dead leaving earliest unbarred =>
      simp only [Entry.retain, setStage]
      split_ifs with here
      · obtain ⟨rfl, rfl, rfl⟩ := here
        rw [leaving]
        rfl
      · rfl
  | acknowledged gone =>
      simp only [Entry.retain, setStage]
      split_ifs <;> rfl
  | left =>
      simp only [Entry.retain]
      split_ifs <;> rfl
  | withdrawn | requested | answered | abandoned => rfl

/-- The stage of a feed tells what it holds. -/
theorem Path.retained
    (path : Path empty log ledger)
    (client : Client) (feed : Feed) (item : Item) :
    (ledger.stage client feed item).retained =
      Ledger.retained client feed item log := by
  have start : ((empty : Ledger Client Feed Item Ticket).stage client feed
      item).retained = Ledger.retained client feed item
        ([] : List (Entry Client Feed Item Ticket)) := rfl
  refine path.induct (fun log ledger =>
    (ledger.stage client feed item).retained =
      Ledger.retained client feed item log) start ?_
  intro past before entry after holds taken
  rw [retained_append, ← holds]
  exact taken.retained

end Items

/-! ## What keeps removed items -/

section Holding

variable {client : Client} {feed : Feed} {item : Item}
  {ledger later : Ledger Client Feed Item Ticket}
  {entry : Entry Client Feed Item Ticket}
  {log : List (Entry Client Feed Item Ticket)}

/-- Every feed that knows of something is open. -/
def Open (ledger : Ledger Client Feed Item Ticket) : Prop :=
  ∀ client feed item, ledger.stage client feed item ≠ .unknown →
    ledger.registered client feed

/-- Every item that was removed and not withdrawn is known to a feed. -/
def Held (ledger : Ledger Client Feed Item Ticket) : Prop :=
  ∀ item, ledger.removed item → ∃ client feed,
    ledger.stage client feed item ≠ .unknown

/-- The entries that can leave a removed item to nobody. -/
def Entry.releases : Entry Client Feed Item Ticket → Bool
  | .unpublished _ | .unsubscribed _ _ | .acknowledged _ _ _ | .left _ => true
  | _ => false

/-- Telling a feed something of an item that it knows of. -/
theorem Held.tell
    {stage : Stage}
    (held : ledger.Held)
    (told : stage ≠ .unknown) :
    (ledger.setStage client feed item stage).Held := by
  intro thing removed
  obtain ⟨other, name, known⟩ := held thing removed
  refine ⟨other, name, ?_⟩
  simp only [setStage]
  split_ifs
  · exact told
  · exact known

/-- An open feed can be told something. -/
theorem Open.tell
    {stage : Stage}
    (isOpen : ledger.Open)
    (known : ledger.stage client feed item ≠ .unknown) :
    (ledger.setStage client feed item stage).Open := by
  intro other name thing told
  simp only [setStage] at told
  split_ifs at told with here
  · obtain ⟨rfl, rfl, rfl⟩ := here
    exact isOpen _ _ _ known
  · exact isOpen _ _ _ told

/-- Every step leaves what is known to open feeds. -/
theorem Step.stays_open
    (step : Step ledger entry later)
    (isOpen : ledger.Open) : later.Open := by
  cases step with
  | published fresh unknown =>
      intro client feed thing known
      dsimp only at known
      split_ifs at known with here
      · exact here.2.2
      · exact isOpen client feed thing known
  | unpublished live =>
      intro client feed thing known
      refine isOpen client feed thing fun unknown => known ?_
      dsimp only
      rw [unknown]
      split_ifs <;> rfl
  | @subscribed client feed shown fresh live =>
      intro other name item known
      dsimp only at known
      by_cases here : other = client ∧ name = feed
      · exact Or.inl here
      · rw [if_neg here] at known
        exact Or.inr (isOpen other name item known)
  | @unsubscribed client feed registered =>
      intro other name item known
      dsimp only at known
      split_ifs at known with here
      · exact absurd rfl known
      · exact ⟨here, isOpen other name item known⟩
  | announced live owed earliest unbarred =>
      exact isOpen.tell (by rw [owed]; exact Stage.noConfusion)
  | revoked dead leaving earliest unbarred =>
      exact isOpen.tell (by rw [leaving]; exact Stage.noConfusion)
  | acknowledged gone =>
      exact isOpen.tell (by rw [gone]; exact Stage.noConfusion)
  | @left client =>
      intro other name item known
      dsimp only at known
      split_ifs at known with here
      · exact absurd rfl known
      · exact ⟨here, isOpen other name item known⟩
  | withdrawn | requested | answered | abandoned => exact isOpen

/-- What is known stays known to open feeds. -/
theorem Path.stays_open
    (path : Path ledger log later)
    (isOpen : ledger.Open) : later.Open := by
  induction path with
  | nil => exact isOpen
  | cons step _ path_ih => exact path_ih (step.stays_open isOpen)

/-- What is known is known to open feeds. -/
theorem Path.isOpen (path : Path empty log ledger) : ledger.Open :=
  path.stays_open fun _ _ _ known => absurd rfl known

/-- An entry that takes no item from a feed leaves all removed items held. -/
theorem Step.stays_held
    (step : Step ledger entry later)
    (keeps : entry.releases = false)
    (isOpen : ledger.Open)
    (held : ledger.Held) : later.Held := by
  cases step with
  | @published item audience fresh unknown =>
      intro thing removed
      obtain ⟨client, feed, known⟩ := held thing removed
      refine ⟨client, feed, ?_⟩
      dsimp only
      split_ifs
      · exact Stage.noConfusion
      · exact known
  | @withdrawn item removed unknown =>
      intro thing kept
      refine held thing ?_
      by_cases same : thing = item
      · simp [same] at kept
      · simpa [same] using kept
  | @subscribed client feed shown fresh live =>
      intro item removed
      obtain ⟨other, name, known⟩ := held item removed
      have apart : ¬ (other = client ∧ name = feed) := by
        rintro ⟨rfl, rfl⟩
        exact fresh (isOpen other name item known)
      refine ⟨other, name, ?_⟩
      dsimp only
      rwa [if_neg apart]
  | announced live owed earliest unbarred => exact held.tell Stage.noConfusion
  | revoked dead leaving earliest unbarred =>
      exact held.tell Stage.noConfusion
  | requested | answered | abandoned => exact held
  | unpublished | unsubscribed | acknowledged | left => cases keeps

/-- Entries that take no item from a feed leave all removed items held. -/
theorem Path.stays_held
    (path : Path ledger log later)
    (keeps : ∀ entry ∈ log, entry.releases = false)
    (isOpen : ledger.Open)
    (held : ledger.Held) : later.Held := by
  induction path with
  | nil => exact held
  | cons step _ path_ih =>
      exact path_ih
        (fun entry member => keeps entry (List.mem_cons_of_mem _ member))
        (step.stays_open isOpen)
        (step.stays_held (keeps _ List.mem_cons_self) isOpen held)

/-! ## What becomes of what is owed -/

/-- The entries that tell a feed what it is owed since a moment. -/
def Entry.Sends
    (client : Client)
    (feed : Feed)
    (item : Item)
    (since : Nat) : Entry Client Feed Item Ticket → Prop
  | .announced other name thing moment | .revoked other name thing moment =>
      other = client ∧ name = feed ∧ thing = item ∧ moment = since
  | _ => False

end Holding

/-! ## Moments -/

section Moments

variable {ledger later : Ledger Client Feed Item Ticket}
  {entry : Entry Client Feed Item Ticket}
  {log front back : List (Entry Client Feed Item Ticket)}

/-- The entries that make something owed. -/
def Entry.ticks : Entry Client Feed Item Ticket → Bool
  | .published _ _ | .unpublished _ | .subscribed _ _ _ => true
  | _ => false

/-- The number of entries so far that made something owed. -/
def moment (log : List (Entry Client Feed Item Ticket)) : Nat :=
  log.countP Entry.ticks

/-- The entries that make the announcement of an item owed to a feed. -/
def Entry.Shows
    (client : Client)
    (feed : Feed)
    (item : Item) : Entry Client Feed Item Ticket → Prop
  | .published thing audience => thing = item ∧ client ∈ audience
  | .subscribed other name shown =>
      other = client ∧ name = feed ∧ item ∈ shown
  | _ => False

/-- At some moment, an entry of a kind was written. -/
def Began
    (log : List (Entry Client Feed Item Ticket))
    (kind : Entry Client Feed Item Ticket → Prop)
    (since : Nat) : Prop :=
  ∃ front entry back, log = front ++ entry :: back ∧ kind entry ∧
    moment (front ++ [entry]) = since

/-- What is sent became owed at the moment it says. -/
def Entry.Justified
    (log : List (Entry Client Feed Item Ticket)) :
    Entry Client Feed Item Ticket → Prop
  | .announced client feed item since =>
      Began log (Entry.Shows client feed item) since
  | .revoked _ _ item since => Began log (· = .unpublished item) since
  | .answered client ticket limit =>
      Began log (· = .requested client ticket limit) limit
  | _ => True

/-- What began stays so. -/
theorem Began.append
    {kind : Entry Client Feed Item Ticket → Prop} {since : Nat}
    (began : Began log kind since)
    (more : List (Entry Client Feed Item Ticket)) :
    Began (log ++ more) kind since := by
  obtain ⟨front, entry, back, rfl, is, now⟩ := began
  exact ⟨front, entry, back ++ more, by simp, is, now⟩

/-- What the last entry begins, begins now. -/
theorem Began.last
    {kind : Entry Client Feed Item Ticket → Prop}
    (is : kind entry) :
    Began (log ++ [entry]) kind (moment (log ++ [entry])) :=
  ⟨log, entry, [], rfl, is, rfl⟩

/-- The moment after one entry more. -/
theorem moment_append
    (log : List (Entry Client Feed Item Ticket))
    (entry : Entry Client Feed Item Ticket) :
    moment (log ++ [entry]) = moment log + if entry.ticks then 1 else 0 := by
  rw [moment, List.countP_append, List.countP_singleton]
  rfl

/-- Everything that is owed became owed at the moment the ledger says. -/
structure Dated
    (log : List (Entry Client Feed Item Ticket))
    (ledger : Ledger Client Feed Item Ticket) : Prop where
  clock : ledger.clock = moment log
  owed : ∀ client feed item since,
    ledger.stage client feed item = .owed since →
      Began log (Entry.Shows client feed item) since
  leaving : ∀ client feed item since,
    ledger.stage client feed item = .leaving since →
      Began log (· = .unpublished item) since
  queue : ∀ client, ∀ ticket ∈ ledger.queue client,
    Began log (· = .requested client ticket.1 ticket.2) ticket.2

/-- Entries only add to what began. -/
theorem Dated.extend
    (dated : Dated log ledger)
    (clock : later.clock = ledger.clock + if entry.ticks then 1 else 0)
    (owed : ∀ client feed item since,
      later.stage client feed item = .owed since →
        ledger.stage client feed item = .owed since ∨
          Began (log ++ [entry]) (Entry.Shows client feed item) since)
    (leaving : ∀ client feed item since,
      later.stage client feed item = .leaving since →
        ledger.stage client feed item = .leaving since ∨
          Began (log ++ [entry]) (· = .unpublished item) since)
    (queue : ∀ client, ∀ ticket ∈ later.queue client,
      ticket ∈ ledger.queue client ∨
        Began (log ++ [entry]) (· = .requested client ticket.1 ticket.2)
          ticket.2) :
    Dated (log ++ [entry]) later where
  clock := by rw [clock, dated.clock, moment_append]
  owed := fun client feed item since is => by
    rcases owed client feed item since is with was | new
    · exact (dated.owed client feed item since was).append _
    · exact new
  leaving := fun client feed item since is => by
    rcases leaving client feed item since is with was | new
    · exact (dated.leaving client feed item since was).append _
    · exact new
  queue := fun client ticket member => by
    rcases queue client ticket member with was | new
    · exact (dated.queue client ticket was).append _
    · exact new

/-- What becomes owed by an entry that ticks is dated by the clock's next
moment. -/
theorem Dated.tick
    {kind : Entry Client Feed Item Ticket → Prop}
    (dated : Dated log ledger)
    (ticks : entry.ticks = true)
    (is : kind entry) :
    Began (log ++ [entry]) kind (ledger.clock + 1) := by
  have now : moment (log ++ [entry]) = ledger.clock + 1 := by
    rw [moment_append, dated.clock, if_pos ticks]
  rw [← now]
  exact Began.last is

/-- Nothing has to be dated where what was owed is only cleared. -/
theorem Dated.clear
    (dated : Dated log ledger)
    (clock : later.clock = ledger.clock + if entry.ticks then 1 else 0)
    (stages : ∀ client feed item,
      later.stage client feed item = ledger.stage client feed item ∨
        (later.stage client feed item).since = none)
    (queue : ∀ client, ∀ ticket ∈ later.queue client,
      ticket ∈ ledger.queue client) :
    Dated (log ++ [entry]) later := by
  refine dated.extend clock ?_ ?_ fun client ticket member =>
    Or.inl (queue client ticket member)
  all_goals
    intro client feed item since is
    rcases stages client feed item with same | cleared
    · exact Or.inl (same ▸ is)
    · rw [is] at cleared
      cases cleared

/-- Setting a stage leaves the others alone. -/
theorem setStage_stage
    (client : Client) (feed : Feed) (item : Item) (stage : Stage)
    (other : Client) (name : Feed) (thing : Item) :
    (ledger.setStage client feed item stage).stage other name thing =
        ledger.stage other name thing ∨
      (ledger.setStage client feed item stage).stage other name thing =
        stage := by
  simp only [setStage]
  split_ifs
  · exact Or.inr rfl
  · exact Or.inl rfl

/-- A stage of which nothing is owed needs no date. -/
theorem Dated.setStage
    {stage : Stage}
    (dated : Dated log ledger)
    (silent : entry.ticks = false)
    (settled : stage.since = none)
    (client : Client) (feed : Feed) (item : Item) :
    Dated (log ++ [entry]) (ledger.setStage client feed item stage) := by
  refine dated.clear ?_ (fun other name thing => ?_) fun _ _ => id
  · rw [silent]
    rfl
  · refine (setStage_stage client feed item stage other name thing).imp_right ?_
    intro set
    rw [set, settled]

open Classical in
/-- A queue that loses its first ticket. -/
theorem Dated.dequeue
    {client : Client} {ticket : Ticket} {limit : Nat}
    {rest : List (Ticket × Nat)}
    (dated : Dated log ledger)
    (silent : entry.ticks = false)
    (first : ledger.queue client = (ticket, limit) :: rest) :
    Dated (log ++ [entry])
      { ledger with queue := Function.update ledger.queue client rest } := by
  refine dated.clear ?_ (fun _ _ _ => Or.inl rfl) ?_
  · rw [silent]
    rfl
  · intro other queued member
    simp only [Function.update_apply] at member
    split_ifs at member with same
    · rw [same, first]
      exact List.mem_cons_of_mem _ member
    · exact member

/-- Every step dates what it begins. -/
theorem Dated.step
    (dated : Dated log ledger)
    (step : Step ledger entry later) : Dated (log ++ [entry]) later := by
  cases step with
  | @published item audience fresh unknown =>
      refine dated.extend rfl ?_ ?_ fun _ _ member => Or.inl member
      · intro client feed thing since is
        simp only at is
        split_ifs at is with all
        · cases is
          exact Or.inr (dated.tick rfl ⟨all.1.symm, all.2.1⟩)
        · exact Or.inl is
      · intro client feed thing since is
        simp only at is
        split_ifs at is
        · exact Or.inl is
  | @unpublished item live =>
      refine dated.extend rfl ?_ ?_ fun _ _ member => Or.inl member
      · intro client feed thing since is
        simp only at is
        split_ifs at is
        · cases before : ledger.stage client feed thing <;>
            simp_all [Stage.retracted]
        · exact Or.inl is
      · intro client feed thing since is
        simp only at is
        split_ifs at is with same
        · cases before : ledger.stage client feed thing with
          | told =>
              rw [before] at is
              cases is
              exact Or.inr
                (dated.tick rfl (congrArg Entry.unpublished same.symm))
          | leaving moment =>
              rw [before] at is
              exact Or.inl is
          | _ =>
              rw [before] at is
              cases is
        · exact Or.inl is
  | @subscribed client feed shown fresh live =>
      refine dated.extend rfl ?_ ?_ fun _ _ member => Or.inl member
      · intro other name item since is
        simp only at is
        split_ifs at is with same visible
        · cases is
          exact Or.inr
            (dated.tick rfl ⟨same.1.symm, same.2.symm, visible⟩)
        · exact Or.inl is
      · intro other name item since is
        simp only at is
        split_ifs at is
        · exact Or.inl is
  | @requested client ticket =>
      refine dated.extend rfl (fun _ _ _ _ => Or.inl) (fun _ _ _ _ => Or.inl) ?_
      intro other queued member
      simp only [Function.update_apply] at member
      split_ifs at member with same
      · rcases List.mem_append.mp member with before | single
        · exact Or.inl (same ▸ before)
        · right
          rw [List.mem_singleton.mp single, same]
          have now : moment (log ++
              [(.requested client ticket ledger.clock :
                Entry Client Feed Item Ticket)]) = ledger.clock := by
            rw [moment_append, dated.clock]
            rfl
          have began : Began
              (log ++ [(.requested client ticket ledger.clock :
                Entry Client Feed Item Ticket)])
              (· = .requested client ticket ledger.clock) _ :=
            Began.last rfl
          rwa [now] at began
      · exact Or.inl member
  | answered first earliest => exact dated.dequeue rfl first
  | abandoned first earliest => exact dated.dequeue rfl first
  | left =>
      refine dated.clear rfl (fun other name item => ?_) ?_
      · dsimp only
        split_ifs
        · exact Or.inr rfl
        · exact Or.inl rfl
      · intro other queued member
        simp only [Function.update_apply] at member
        split_ifs at member
        · cases member
        · exact member
  | withdrawn removed unknown =>
      exact dated.clear rfl (fun _ _ _ => Or.inl rfl) fun _ _ => id
  | unsubscribed registered =>
      refine dated.clear rfl (fun other name item => ?_) fun _ _ => id
      dsimp only
      split_ifs
      · exact Or.inr rfl
      · exact Or.inl rfl
  | announced live owed earliest unbarred => exact dated.setStage rfl rfl _ _ _
  | revoked dead leaving earliest unbarred =>
      exact dated.setStage rfl rfl _ _ _
  | acknowledged gone => exact dated.setStage rfl rfl _ _ _

/-- Along a path, all that is owed is dated. -/
theorem Path.dated
    (path : Path empty log ledger) : Dated log ledger := by
  have start : Dated [] (empty : Ledger Client Feed Item Ticket) :=
    { clock := rfl
      owed := fun _ _ _ _ is => by cases is
      leaving := fun _ _ _ _ is => by cases is
      queue := fun _ _ member => absurd member List.not_mem_nil }
  exact path.induct _ start fun before taken => before.step taken

/-- The moment that an announcement, a revocation or an answer carries is the
moment at which it became owed. -/
theorem Path.justified
    (path : Path empty (front ++ entry :: back) ledger) :
    entry.Justified front := by
  obtain ⟨before, after, earlier, taken, -⟩ := path.split
  have dated := earlier.dated
  cases taken with
  | announced live owed earliest unbarred => exact dated.owed _ _ _ _ owed
  | revoked dead leaving earliest unbarred =>
      exact dated.leaving _ _ _ _ leaving
  | @answered client ticket limit rest first earliest =>
      exact dated.queue client (ticket, limit) (by
        rw [first]
        exact List.mem_cons_self)
  | _ => exact trivial

end Moments

/-! ## Tickets -/

section Tickets

variable [DecidableEq Client] {client : Client}
  {ledger later : Ledger Client Feed Item Ticket}
  {entry : Entry Client Feed Item Ticket}
  {log : List (Entry Client Feed Item Ticket)}

/-- The tickets of a client that is still there, after one more entry. -/
def Entry.asks
    (client : Client)
    (tickets : List (Ticket × Nat)) :
    Entry Client Feed Item Ticket → List (Ticket × Nat)
  | .requested other ticket limit =>
      if other = client then tickets ++ [(ticket, limit)] else tickets
  | .left other => if other = client then [] else tickets
  | _ => tickets

/-- The settled tickets of a client that is still there, after one more
entry. -/
def Entry.settles
    (client : Client)
    (tickets : List (Ticket × Nat)) :
    Entry Client Feed Item Ticket → List (Ticket × Nat)
  | .answered other ticket limit | .abandoned other ticket limit =>
      if other = client then tickets ++ [(ticket, limit)] else tickets
  | .left other => if other = client then [] else tickets
  | _ => tickets

/-- The tickets that a client handed in since it came. -/
def asked
    (client : Client)
    (log : List (Entry Client Feed Item Ticket)) : List (Ticket × Nat) :=
  log.foldl (Entry.asks client) []

/-- The tickets of a client that were answered or dropped since it came. -/
def settled
    (client : Client)
    (log : List (Entry Client Feed Item Ticket)) : List (Ticket × Nat) :=
  log.foldl (Entry.settles client) []

/-- Tickets are settled in the order in which they were handed in, each once;
the queue holds the others. -/
theorem Path.tickets
    (path : Path empty log ledger)
    (client : Client) :
    asked client log = settled client log ++ ledger.queue client := by
  have start : asked client ([] : List (Entry Client Feed Item Ticket)) =
      settled client ([] : List (Entry Client Feed Item Ticket)) ++
        (empty : Ledger Client Feed Item Ticket).queue client := rfl
  refine path.induct (fun log ledger =>
    asked client log = settled client log ++ ledger.queue client) start ?_
  intro past before entry after holds taken
  rw [asked, settled, List.foldl_append, List.foldl_append, ← asked,
    ← settled, List.foldl_cons, List.foldl_nil, List.foldl_cons,
    List.foldl_nil, holds]
  cases taken with
  | @requested other ticket =>
      simp only [Entry.asks, Entry.settles, Function.update_apply]
      by_cases same : other = client
      · subst same
        simp
      · simp [same, Ne.symm same]
  | @answered other ticket limit rest first earliest =>
      simp only [Entry.asks, Entry.settles, Function.update_apply]
      by_cases same : other = client
      · subst same
        simp [first]
      · simp [same, Ne.symm same]
  | @abandoned other ticket limit rest first earliest =>
      simp only [Entry.asks, Entry.settles, Function.update_apply]
      by_cases same : other = client
      · subst same
        simp [first]
      · simp [same, Ne.symm same]
  | @left other =>
      simp only [Entry.asks, Entry.settles, Function.update_apply]
      by_cases same : other = client
      · subst same
        simp
      · simp [same, Ne.symm same]
  | _ => rfl

end Tickets

/-! ## Nothing is owed -/

section Settled

variable {client : Client} {ledger later : Ledger Client Feed Item Ticket}
  {entry : Entry Client Feed Item Ticket}
  {log : List (Entry Client Feed Item Ticket)}

/-- The client is owed no event, and has no ticket that waits. -/
def Settled
    (ledger : Ledger Client Feed Item Ticket)
    (client : Client) : Prop :=
  (∀ feed item, (ledger.stage client feed item).since = none) ∧
    ledger.queue client = []

/-- Entries that only take something away. -/
def Entry.Drops : Entry Client Feed Item Ticket → Prop
  | .unsubscribed _ _ | .abandoned _ _ _ | .withdrawn _ => True
  | _ => False

/-- A step that only drops leaves a settled client settled. -/
theorem Settled.step
    (settled : ledger.Settled client)
    (drops : entry.Drops)
    (step : Step ledger entry later) : later.Settled client := by
  obtain ⟨stages, queue⟩ := settled
  cases step with
  | withdrawn => exact ⟨stages, queue⟩
  | unsubscribed =>
      refine ⟨fun feed item => ?_, queue⟩
      dsimp only
      split_ifs
      · rfl
      · exact stages feed item
  | @abandoned other ticket limit rest first =>
      refine ⟨stages, ?_⟩
      have apart : client ≠ other := by
        rintro rfl
        rw [queue] at first
        cases first
      simp only [Function.update_apply, if_neg apart]
      exact queue
  | _ => exact drops.elim

/-- A client that is owed nothing stays so while things are taken away. -/
theorem Settled.path
    (settled : ledger.Settled client)
    (drops : ∀ entry ∈ log, entry.Drops)
    (path : Path ledger log later) : later.Settled client := by
  induction path with
  | nil => exact settled
  | cons step _ ih =>
      exact ih (settled.step (drops _ List.mem_cons_self) step)
        fun entry member => drops entry (List.mem_cons_of_mem _ member)

end Settled

/-! ## Around an answer -/

section Answers

variable [DecidableEq Client] {client : Client} {ticket : Ticket}
  {limit : Nat} {ledger : Ledger Client Feed Item Ticket}
  {entry : Entry Client Feed Item Ticket}
  {early middle back front : List (Entry Client Feed Item Ticket)}

/-- What is sent has its place in the order. -/
theorem Entry.Sends.stamp
    {feed : Feed} {item : Item} {since : Nat}
    (sends : entry.Sends client feed item since) :
    entry.stamp client = some (2 * since) := by
  cases entry with
  | announced | revoked =>
      obtain ⟨rfl, -, -, rfl⟩ := sends
      exact if_pos rfl
  | _ => exact sends.elim

end Answers

end Ledger
