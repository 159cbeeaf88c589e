import Wayring.Shm.Store
import Mathlib.Tactic.Ring

/-!
# Lifetime of a mapping

What may be done to one mapping, and in which order.  It is made for a new
pool resource; buffers and pins refer to it; it moves only while no pin does;
and when nothing refers to it, it is unmapped and its descriptor closed.
-/

namespace Wayring
namespace Shm

/-- What refers to a mapping. -/
structure References where
  resource : Bool
  buffers : Nat
  pins : Nat
  deriving DecidableEq, Repr

/-- A mapping is made, used, unmapped, and then its descriptor is closed. -/
inductive Lifetime
  | closed
  | mapped (mapping : Mapping) (fd : Nat) (references : References)
  | unmapped (fd : Nat)
  deriving DecidableEq, Repr

namespace Lifetime

/-- One event, if it is allowed. -/
def step : Lifetime → PoolEvent → Option Lifetime
  | closed, .map mapping fd =>
      some (mapped mapping fd { resource := true, buffers := 0, pins := 0 })
  | mapped old fd references, .remap mapping =>
      if references.pins = 0 ∧ old.length < mapping.length then
        some (mapped mapping fd references)
      else none
  | mapped mapping fd references, .destroyResource =>
      if references.resource then
        some (mapped mapping fd { references with resource := false })
      else none
  | mapped mapping fd references, .addBuffer _ =>
      if references.resource then
        some (mapped mapping fd
          { references with buffers := references.buffers + 1 })
      else none
  | mapped mapping fd references, .destroyBuffer _ =>
      if references.buffers ≠ 0 then
        some (mapped mapping fd
          { references with buffers := references.buffers - 1 })
      else none
  | mapped mapping fd references, .pin _ =>
      if references.buffers ≠ 0 then
        some (mapped mapping fd
          { references with pins := references.pins + 1 })
      else none
  | mapped mapping fd references, .unpin _ =>
      if references.pins ≠ 0 then
        some (mapped mapping fd
          { references with pins := references.pins - 1 })
      else none
  | mapped mapping fd references, .unmap other =>
      if other = mapping ∧
          references = { resource := false, buffers := 0, pins := 0 } then
        some (unmapped fd)
      else none
  | unmapped fd, .close other => if other = fd then some closed else none
  | _, _ => none

/-- A sequence of events, if all are allowed. -/
def replay (lifetime : Lifetime) (events : List PoolEvent) : Option Lifetime :=
  events.foldlM step lifetime

/-- The last event is replayed last. -/
theorem replay_concat
    {lifetime middle : Lifetime} {events : List PoolEvent}
    (replayed : lifetime.replay events = some middle)
    (event : PoolEvent) :
    lifetime.replay (events ++ [event]) = middle.step event := by
  unfold replay at replayed ⊢
  rw [List.foldlM_append, replayed]
  simp

/-- What each event adds to a measure adds up over a replay. -/
theorem replay_sum
    {measure : Lifetime → Int} {change : PoolEvent → Int}
    (step_measure : ∀ {lifetime event next}, step lifetime event = some next →
      measure next = measure lifetime + change event)
    {lifetime last : Lifetime} {events : List PoolEvent}
    (replayed : lifetime.replay events = some last) :
    measure last = measure lifetime + (events.map change).sum := by
  induction events generalizing lifetime with
  | nil =>
      cases replayed
      simp
  | cons event events step_ih =>
      rw [replay, List.foldlM_cons, Option.bind_eq_bind,
        Option.bind_eq_some_iff] at replayed
      obtain ⟨next, stepped, rest⟩ := replayed
      rw [step_ih rest, step_measure stepped, List.map_cons, List.sum_cons]
      ring

/-- The pins that refer to the mapping. -/
def pins : Lifetime → Int
  | mapped _ _ references => references.pins
  | _ => 0

/-- The mappings that exist. -/
def mappings : Lifetime → Int
  | mapped _ _ _ => 1
  | _ => 0

/-- The descriptors that are open. -/
def descriptors : Lifetime → Int
  | closed => 0
  | _ => 1

end Lifetime

namespace PoolEvent

/-- What an event adds to the pins. -/
def pins : PoolEvent → Int
  | pin _ => 1
  | unpin _ => -1
  | _ => 0

/-- What an event adds to the mappings. -/
def mappings : PoolEvent → Int
  | map _ _ => 1
  | unmap _ => -1
  | _ => 0

/-- What an event adds to the open descriptors. -/
def descriptors : PoolEvent → Int
  | map _ _ => 1
  | close _ => -1
  | _ => 0

/-- Whether an event moves or removes the mapping. -/
def moves : PoolEvent → Bool
  | remap _ | unmap _ => true
  | _ => false

end PoolEvent

namespace Lifetime

variable {lifetime next last : Lifetime} {event : PoolEvent}
  {events early late : List PoolEvent}

/-- An event adds its share of pins, mappings and descriptors. -/
theorem step_measures
    (stepped : step lifetime event = some next) :
    next.pins = lifetime.pins + event.pins ∧
    next.mappings = lifetime.mappings + event.mappings ∧
    next.descriptors = lifetime.descriptors + event.descriptors := by
  cases lifetime <;> cases event <;>
    simp only [step, Option.ite_none_right_eq_some, Option.some.injEq,
      reduceCtorEq] at stepped
  all_goals first
    | obtain ⟨allowed, rfl⟩ := stepped
      simp [pins, mappings, descriptors, PoolEvent.pins, PoolEvent.mappings,
        PoolEvent.descriptors, allowed]
    | subst stepped
      simp [pins, mappings, descriptors, PoolEvent.pins, PoolEvent.mappings,
        PoolEvent.descriptors]
  omega

/-- What exists after a replay from the beginning is what the events made and
did not end. -/
theorem replay_measures
    (replayed : closed.replay events = some last) :
    last.pins = (events.map PoolEvent.pins).sum ∧
    last.mappings = (events.map PoolEvent.mappings).sum ∧
    last.descriptors = (events.map PoolEvent.descriptors).sum :=
  ⟨(replay_sum (fun stepped => (step_measures stepped).1) replayed).trans
      (Int.zero_add _),
    (replay_sum (fun stepped => (step_measures stepped).2.1) replayed).trans
      (Int.zero_add _),
    (replay_sum (fun stepped => (step_measures stepped).2.2) replayed).trans
      (Int.zero_add _)⟩

/-- At every move of a mapping, all earlier pins of it were dropped. -/
theorem unpinned_of_moves
    (replayed : closed.replay (early ++ event :: late) = some last)
    (moves : event.moves = true) : (early.map PoolEvent.pins).sum = 0 := by
  rw [replay, List.foldlM_append, Option.bind_eq_bind,
    Option.bind_eq_some_iff] at replayed
  obtain ⟨middle, before, rest⟩ := replayed
  rw [List.foldlM_cons, Option.bind_eq_bind, Option.bind_eq_some_iff] at rest
  obtain ⟨next, stepped, _⟩ := rest
  rw [← (replay_measures before).1]
  cases middle with
  | closed =>
      cases event <;> cases stepped
      cases moves
  | unmapped fd => rfl
  | mapped mapping fd references =>
      cases event with
      | remap other =>
          simp only [step, Option.ite_none_right_eq_some] at stepped
          simp [pins, stepped.1.1]
      | unmap other =>
          simp only [step, Option.ite_none_right_eq_some] at stepped
          simp [pins, stepped.1.2]
      | _ => cases moves

end Lifetime

/-- The events of the pool at an index. -/
def eventsOf (log : List (Nat × PoolEvent)) (index : Nat) : List PoolEvent :=
  (log.filter fun entry => entry.1 == index).map Prod.snd

/-- The events of a pool in one log after another. -/
theorem eventsOf_append
    (log more : List (Nat × PoolEvent)) (index : Nat) :
    eventsOf (log ++ more) index = eventsOf log index ++ eventsOf more index := by
  simp [eventsOf]

/-! ## Counting -/

/-- How many uses of the pool at an index ended. -/
def closes (log : List (Nat × PoolEvent)) (index : Nat) : Nat :=
  log.countP fun entry =>
    match entry.2 with
    | .close _ => entry.1 == index
    | _ => false

/-- How many uses of the buffer at an index ended. -/
def bufferEnds (log : List (Nat × PoolEvent)) (index : Nat) : Nat :=
  log.countP fun entry => entry.2 == .destroyBuffer index

/-- How many uses of the pin at an index ended. -/
def pinEnds (log : List (Nat × PoolEvent)) (index : Nat) : Nat :=
  log.countP fun entry => entry.2 == .unpin index

theorem closes_append
    (log more : List (Nat × PoolEvent)) :
    closes (log ++ more) = fun index => closes log index + closes more index :=
  funext fun _ => List.countP_append

theorem bufferEnds_append
    (log more : List (Nat × PoolEvent)) :
    bufferEnds (log ++ more) = fun index =>
      bufferEnds log index + bufferEnds more index :=
  funext fun _ => List.countP_append

theorem pinEnds_append
    (log more : List (Nat × PoolEvent)) :
    pinEnds (log ++ more) = fun index =>
      pinEnds log index + pinEnds more index :=
  funext fun _ => List.countP_append

end Shm
end Wayring
