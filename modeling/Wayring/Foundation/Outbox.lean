import Mathlib.Logic.Relation
import Wayring.Foundation.Parcels

/-!
# Outboxes

What a sender of parcels has accepted, and what went out of it.  An offer is of
the items and attachments that are queued.  A send makes one, and any number of
its items are taken, with all its attachments.
-/

/-- The first items and attachments are through.  Offers count from there on, a
send may be under way, and some of its items may be taken. -/
structure Outbox (α β : Type) where
  accepted : List (Parcel α β) := []
  sent : List (Parcel α β) := []
  gone : Nat := 0
  goneAttachments : Nat := 0
  offers : List (Nat × Nat) := []
  flight : Option (Nat × Nat) := none
  taken : Option Nat := none

namespace Outbox

open Parcel

variable {α β : Type} {outbox next : Outbox α β} {parcel : Parcel α β}

/-- The items that were accepted and are not gone. -/
def queued (outbox : Outbox α β) : List α :=
  (itemsOf outbox.accepted).drop outbox.gone

/-- The attachments that were accepted and are not gone. -/
def queuedAttachments (outbox : Outbox α β) : List β :=
  (attachmentsOf outbox.accepted).drop outbox.goneAttachments

/-- The attachments that went with the taken items. -/
def takenAttachments (outbox : Outbox α β) : Nat :=
  (outbox.taken.bind fun _ => outbox.flight.map Prod.snd).getD 0

/-- Queue a parcel. -/
def accept (outbox : Outbox α β) (parcel : Parcel α β) : Outbox α β :=
  { outbox with accepted := outbox.accepted ++ [parcel] }

/-- All queued attachments are offered with the first queued items. -/
def offer (outbox : Outbox α β) (count : Nat) : Outbox α β :=
  { outbox with
    offers := outbox.offers ++ [(count, outbox.queuedAttachments.length)] }

/-- Begin a send of what was offered. -/
def start (outbox : Outbox α β) (offer : Nat × Nat) : Outbox α β :=
  { outbox with flight := some offer }

/-- What is taken of an offer. -/
def taking (outbox : Outbox α β) (count attachments : Nat) : Parcel α β where
  items := outbox.queued.take count
  attachments := outbox.queuedAttachments.take attachments

/-- The receiver takes part of what was offered. -/
def take (outbox : Outbox α β) (count attachments : Nat) : Outbox α β :=
  { outbox with
    taken := some count
    sent := outbox.sent ++ [outbox.taking count attachments] }

/-- What was taken is through, and earlier offers lapse. -/
def complete (outbox : Outbox α β) (count attachments : Nat) : Outbox α β :=
  { outbox with
    gone := outbox.gone + count
    goneAttachments := outbox.goneAttachments + attachments
    offers := []
    flight := none
    taken := none }

/-- A send ends without a transfer. -/
def fail (outbox : Outbox α β) : Outbox α β :=
  { outbox with flight := none }

/-- What can happen to an outbox. -/
inductive Step : Outbox α β → Outbox α β → Prop
  | accept {outbox : Outbox α β} (parcel : Parcel α β) :
      Step outbox (outbox.accept parcel)
  | offer
      {outbox : Outbox α β} {count : Nat}
      (within : count ≤ outbox.queued.length) : Step outbox (outbox.offer count)
  | start
      {outbox : Outbox α β} {offer : Nat × Nat}
      (idle : outbox.flight = none)
      (offered : offer ∈ outbox.offers) : Step outbox (outbox.start offer)
  | take
      {outbox : Outbox α β} {offered count attachments : Nat}
      (flying : outbox.flight = some (offered, attachments))
      (untaken : outbox.taken = none)
      (within : count ≤ offered) : Step outbox (outbox.take count attachments)
  | complete
      {outbox : Outbox α β} {offered count attachments : Nat}
      (flying : outbox.flight = some (offered, attachments))
      (taken : outbox.taken = some count) :
      Step outbox (outbox.complete count attachments)
  | fail
      {outbox : Outbox α β}
      (untaken : outbox.taken = none) : Step outbox outbox.fail

/-- An offer is of what is queued, with the attachments of what it begins. -/
structure Sensible
    (accepted : List (Parcel α β))
    (gone goneAttachments : Nat)
    (offer : Nat × Nat) : Prop where
  items : gone + offer.1 ≤ (itemsOf accepted).length
  attachments : goneAttachments + offer.2 ≤ (attachmentsOf accepted).length
  covers : Covers accepted (gone + offer.1) (goneAttachments + offer.2)

/-- An offer stays sensible when more is accepted. -/
theorem Sensible.concat
    {accepted : List (Parcel α β)} {gone goneAttachments : Nat}
    {offer : Nat × Nat}
    (sensible : Sensible accepted gone goneAttachments offer)
    (parcel : Parcel α β) :
    Sensible (accepted ++ [parcel]) gone goneAttachments offer where
  items := by
    have items := sensible.items
    rw [itemsOf_append, List.length_append]
    omega
  attachments := by
    have attachments := sensible.attachments
    rw [attachmentsOf_append, List.length_append]
    omega
  covers := sensible.covers.concat sensible.items parcel

/-- What is sent is what was accepted, in order, and no attachment is later than
the first item of its parcel. -/
structure Sound (outbox : Outbox α β) : Prop where
  untaken : outbox.flight = none → outbox.taken = none
  offers : ∀ offer ∈ outbox.offers,
    Sensible outbox.accepted outbox.gone outbox.goneAttachments offer
  flying : ∀ offer, outbox.flight = some offer →
    Sensible outbox.accepted outbox.gone outbox.goneAttachments offer ∧
      outbox.taken.getD 0 ≤ offer.1
  within : outbox.gone ≤ (itemsOf outbox.accepted).length
  withinAttachments :
    outbox.goneAttachments ≤ (attachmentsOf outbox.accepted).length
  items : itemsOf outbox.sent = (itemsOf outbox.accepted).take
    (outbox.gone + outbox.taken.getD 0)
  attachments : attachmentsOf outbox.sent =
    (attachmentsOf outbox.accepted).take
      (outbox.goneAttachments + outbox.takenAttachments)
  covers : ∀ count ≤ outbox.sent.length, Covers outbox.accepted
    (itemsOf (outbox.sent.take count)).length
    (attachmentsOf (outbox.sent.take count)).length

/-- An empty outbox is sound. -/
theorem sound_empty : Sound ({} : Outbox α β) where
  untaken _ := rfl
  offers _ none := by cases none
  flying _ flying := by cases flying
  within := Nat.zero_le _
  withinAttachments := Nat.zero_le _
  items := rfl
  attachments := rfl
  covers _ _ _ inside := by simp at inside

/-- No more is taken than was accepted. -/
theorem Sound.taken_le
    (sound : outbox.Sound) :
    outbox.gone + outbox.taken.getD 0 ≤ (itemsOf outbox.accepted).length := by
  cases flying : outbox.flight with
  | none =>
      rw [sound.untaken flying]
      exact sound.within
  | some offer =>
      obtain ⟨sensible, taken⟩ := sound.flying offer flying
      have items := sensible.items
      omega

/-- No more attachments are taken than were accepted. -/
theorem Sound.attachments_le
    (sound : outbox.Sound) :
    outbox.goneAttachments + outbox.takenAttachments ≤
      (attachmentsOf outbox.accepted).length := by
  have within := sound.withinAttachments
  cases flying : outbox.flight with
  | none => simpa [takenAttachments, sound.untaken flying] using within
  | some offer =>
      have attachments := (sound.flying offer flying).1.attachments
      cases taken : outbox.taken with
      | none => simpa [takenAttachments, taken] using within
      | some items => simpa [takenAttachments, taken, flying] using attachments

theorem Sound.accept
    (sound : outbox.Sound)
    (parcel : Parcel α β) : (outbox.accept parcel).Sound := by
  have taken := sound.taken_le
  have attachments := sound.attachments_le
  have within := sound.within
  have withinAttachments := sound.withinAttachments
  refine
    { untaken := sound.untaken
      offers := fun offer offered => (sound.offers offer offered).concat parcel
      flying := fun offer flying => ?_
      within := ?_
      withinAttachments := ?_
      items := ?_
      attachments := ?_
      covers := fun count inside => ?_ }
  · obtain ⟨sensible, upTo⟩ := sound.flying offer flying
    exact ⟨sensible.concat parcel, upTo⟩
  · simp only [Outbox.accept, itemsOf_append, List.length_append]
    omega
  · simp only [Outbox.accept, attachmentsOf_append, List.length_append]
    omega
  · simp only [Outbox.accept, itemsOf_append]
    rw [List.take_append_of_le_length taken]
    exact sound.items
  · have same : (outbox.accept parcel).takenAttachments =
        outbox.takenAttachments := rfl
    rw [same]
    simp only [Outbox.accept, attachmentsOf_append]
    rw [List.take_append_of_le_length attachments]
    exact sound.attachments
  · refine (sound.covers count inside).concat ?_ parcel
    have sent := congrArg List.length sound.items
    have upTo := (itemsOf_take_begins outbox.sent count).length_le
    rw [List.length_take] at sent
    omega

theorem Sound.offer
    {count : Nat}
    (sound : outbox.Sound)
    (within : count ≤ outbox.queued.length) : (outbox.offer count).Sound := by
  have gone := sound.within
  have goneAttachments := sound.withinAttachments
  rw [queued, List.length_drop] at within
  refine { sound with offers := fun offer offered => ?_ }
  rcases List.mem_append.mp offered with early | now
  · exact sound.offers offer early
  · rw [List.mem_singleton] at now
    subst now
    refine ⟨?_, ?_, (covers_all outbox.accepted _).mono le_rfl ?_⟩
    · simp only [Outbox.offer]
      omega
    · simp only [Outbox.offer, queuedAttachments, List.length_drop]
      omega
    · simp only [Outbox.offer, queuedAttachments, List.length_drop]
      omega

theorem Sound.start
    {offer : Nat × Nat}
    (sound : outbox.Sound)
    (idle : outbox.flight = none)
    (offered : offer ∈ outbox.offers) : (outbox.start offer).Sound := by
  have untaken := sound.untaken idle
  refine
    { sound with
      untaken := fun _ => untaken
      flying := fun other flying => ?_
      attachments := ?_ }
  · cases flying
    refine ⟨sound.offers offer offered, ?_⟩
    simp [Outbox.start, untaken]
  · simpa [Outbox.start, takenAttachments, untaken] using sound.attachments

/-- The first take of a send keeps what was sent: items in order, and the
attachments with the first item of theirs. -/
theorem Sound.take
    {offered count attachments : Nat}
    (sound : outbox.Sound)
    (flying : outbox.flight = some (offered, attachments))
    (untaken : outbox.taken = none)
    (within : count ≤ offered) : (outbox.take count attachments).Sound := by
  obtain ⟨⟨items, some, covers⟩, _⟩ := sound.flying _ flying
  have sent := sound.items
  have sentAttachments := sound.attachments
  simp only [takenAttachments, untaken, Option.getD_none, Nat.add_zero,
    Option.bind_none] at sent sentAttachments
  have itemsNow : itemsOf (outbox.take count attachments).sent =
      (itemsOf outbox.accepted).take (outbox.gone + count) := by
    simp only [Outbox.take, taking, itemsOf_append, itemsOf_cons, itemsOf_nil,
      List.append_nil, sent, queued]
    rw [List.take_add]
  have attachmentsNow : attachmentsOf (outbox.take count attachments).sent =
      (attachmentsOf outbox.accepted).take
        (outbox.goneAttachments + attachments) := by
    simp only [Outbox.take, taking, attachmentsOf_append, attachmentsOf_cons,
      attachmentsOf_nil, List.append_nil, sentAttachments, queuedAttachments]
    rw [List.take_add]
  refine
    { sound with
      untaken := fun idle => by cases flying.symm.trans idle
      flying := fun offer flyingNow => ?_
      items := by simpa [Outbox.take] using itemsNow
      attachments := by
        simpa [Outbox.take, takenAttachments, flying] using attachmentsNow
      covers := fun position inside => ?_ }
  · cases flying.symm.trans flyingNow
    exact ⟨⟨items, some, covers⟩, by simpa [Outbox.take] using within⟩
  · simp only [Outbox.take, List.length_append, List.length_singleton]
      at inside
    rcases Nat.lt_or_ge outbox.sent.length position with last | early
    · have whole : position = (outbox.take count attachments).sent.length := by
        simp only [Outbox.take, List.length_append, List.length_singleton]
        omega
      rw [whole, List.take_length, itemsNow, attachmentsNow, List.length_take,
        List.length_take]
      simp only at some
      exact covers.mono (by simp only; omega) (by simp only; omega)
    · simp only [Outbox.take]
      rw [List.take_append_of_le_length early]
      exact sound.covers position early

theorem Sound.complete
    {offered count attachments : Nat}
    (sound : outbox.Sound)
    (flying : outbox.flight = some (offered, attachments))
    (taken : outbox.taken = some count) :
    (outbox.complete count attachments).Sound := by
  obtain ⟨⟨items, some, _⟩, within⟩ := sound.flying _ flying
  simp only [taken, Option.getD_some] at items some within
  exact
    { untaken := fun _ => rfl
      offers := fun _ none => by cases none
      flying := fun _ none => by cases none
      within := by
        simp only [Outbox.complete]
        omega
      withinAttachments := by
        simp only [Outbox.complete]
        omega
      items := by simpa [Outbox.complete, taken] using sound.items
      attachments := by
        simpa [Outbox.complete, takenAttachments, taken, flying] using
          sound.attachments
      covers := sound.covers }

theorem Sound.fail
    (sound : outbox.Sound)
    (untaken : outbox.taken = none) : outbox.fail.Sound :=
  { sound with
    untaken := fun _ => untaken
    flying := fun _ none => by cases none
    attachments := by
      simpa [Outbox.fail, takenAttachments, untaken] using sound.attachments }

theorem Sound.step
    (sound : outbox.Sound)
    (step : Step outbox next) : next.Sound := by
  cases step with
  | accept parcel => exact sound.accept parcel
  | offer within => exact sound.offer within
  | start idle offered => exact sound.start idle offered
  | take flying untaken within => exact sound.take flying untaken within
  | complete flying taken => exact sound.complete flying taken
  | fail untaken => exact sound.fail untaken

theorem Sound.run
    (sound : outbox.Sound)
    (ran : Relation.ReflTransGen Step outbox next) : next.Sound := by
  induction ran with
  | refl => exact sound
  | tail _ step run_ih => exact run_ih.step step

/-- What was sent is the front of what was accepted. -/
theorem Sound.sent_begins
    (sound : outbox.Sound) :
    itemsOf outbox.sent <+: itemsOf outbox.accepted ∧
      attachmentsOf outbox.sent <+: attachmentsOf outbox.accepted := by
  rw [sound.items, sound.attachments]
  exact ⟨List.take_prefix _ _, List.take_prefix _ _⟩

end Outbox
