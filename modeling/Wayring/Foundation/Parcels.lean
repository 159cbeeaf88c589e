import Mathlib.Data.List.Basic
import Mathlib.Tactic

/-!
# Streams with attachments

Parcels of items with attachments, which travel as two streams.  Cutting a
stream of items anew keeps an attachment no later than the first item of its
parcel.
-/

/-- Items that carry attachments. -/
structure Parcel (α β : Type) where
  items : List α
  attachments : List β
  deriving DecidableEq, Repr

namespace Parcel

variable {α β : Type}

/-- All items of some parcels. -/
def itemsOf (parcels : List (Parcel α β)) : List α :=
  parcels.flatMap Parcel.items

/-- All attachments of some parcels. -/
def attachmentsOf (parcels : List (Parcel α β)) : List β :=
  parcels.flatMap Parcel.attachments

variable {parcels front back : List (Parcel α β)} {parcel : Parcel α β}

@[simp] theorem itemsOf_nil :
    itemsOf ([] : List (Parcel α β)) = [] := rfl

@[simp] theorem itemsOf_cons :
    itemsOf (parcel :: parcels) = parcel.items ++ itemsOf parcels := rfl

@[simp] theorem itemsOf_append :
    itemsOf (front ++ back) = itemsOf front ++ itemsOf back :=
  List.flatMap_append

@[simp] theorem attachmentsOf_nil :
    attachmentsOf ([] : List (Parcel α β)) = [] := rfl

@[simp] theorem attachmentsOf_cons :
    attachmentsOf (parcel :: parcels) =
      parcel.attachments ++ attachmentsOf parcels := rfl

@[simp] theorem attachmentsOf_append :
    attachmentsOf (front ++ back) =
      attachmentsOf front ++ attachmentsOf back :=
  List.flatMap_append

/-- Fewer parcels carry fewer items. -/
theorem itemsOf_take_begins
    (parcels : List (Parcel α β)) (count : Nat) :
    itemsOf (parcels.take count) <+: itemsOf parcels := by
  conv_rhs => rw [← List.take_append_drop count parcels]
  rw [itemsOf_append]
  exact List.prefix_append _ _

/-- Fewer parcels carry fewer attachments. -/
theorem attachmentsOf_take_begins
    (parcels : List (Parcel α β)) (count : Nat) :
    attachmentsOf (parcels.take count) <+: attachmentsOf parcels := by
  conv_rhs => rw [← List.take_append_drop count parcels]
  rw [attachmentsOf_append]
  exact List.prefix_append _ _

/-- Every parcel that has begun, with so many items gone by, has its attachments
among so many. -/
def Covers
    (parcels : List (Parcel α β))
    (itemCount attachmentCount : Nat) : Prop :=
  ∀ position < parcels.length,
    (itemsOf (parcels.take position)).length < itemCount →
    (attachmentsOf (parcels.take (position + 1))).length ≤ attachmentCount

/-- What covers some items covers fewer. -/
theorem Covers.mono
    {itemCount attachmentCount fewer more : Nat}
    (covers : Covers parcels itemCount attachmentCount)
    (items : fewer ≤ itemCount)
    (attachments : attachmentCount ≤ more) : Covers parcels fewer more :=
  fun position inside begun =>
    (covers position inside (begun.trans_le items)).trans attachments

/-- All attachments together cover everything. -/
theorem covers_all (parcels : List (Parcel α β)) (itemCount : Nat) :
    Covers parcels itemCount (attachmentsOf parcels).length :=
  fun position _ _ => (attachmentsOf_take_begins parcels (position + 1)).length_le

/-- A parcel behind what is covered has not begun. -/
theorem Covers.concat
    {itemCount attachmentCount : Nat}
    (covers : Covers parcels itemCount attachmentCount)
    (within : itemCount ≤ (itemsOf parcels).length)
    (parcel : Parcel α β) :
    Covers (parcels ++ [parcel]) itemCount attachmentCount := by
  intro position inside begun
  rw [List.length_append, List.length_singleton] at inside
  rcases Nat.lt_or_ge position parcels.length with early | late
  · rw [List.take_append_of_le_length early]
    rw [List.take_append_of_le_length early.le] at begun
    exact covers position early begun
  · rw [List.take_append_of_le_length (by omega),
      List.take_of_length_le late] at begun
    omega

/-- The parcel that an item is in. -/
theorem exists_position
    {offset : Nat}
    (inside : offset < (itemsOf parcels).length) :
    ∃ position < parcels.length,
      (itemsOf (parcels.take position)).length ≤ offset ∧
      offset < (itemsOf (parcels.take (position + 1))).length := by
  induction parcels generalizing offset with
  | nil => simp at inside
  | cons parcel parcels position_ih =>
      rcases Nat.lt_or_ge offset parcel.items.length with here | later
      · exact ⟨0, by simp, by simp, by simpa using here⟩
      · rw [itemsOf_cons, List.length_append] at inside
        obtain ⟨position, inParcels, begins, ends⟩ :=
          @position_ih (offset - parcel.items.length) (by omega)
        refine ⟨position + 1, by simpa using inParcels, ?_, ?_⟩
        · rw [List.take_succ_cons, itemsOf_cons, List.length_append]
          omega
        · rw [List.take_succ_cons, itemsOf_cons, List.length_append]
          omega

/-- The same items in other parcels.  Each of these covers what it begins, so
what they cover is covered. -/
theorem Covers.recut
    {others : List (Parcel α β)}
    {itemCount attachmentCount : Nat}
    (others_cover : ∀ count ≤ others.length,
      Covers parcels (itemsOf (others.take count)).length
        (attachmentsOf (others.take count)).length)
    (covers : Covers others itemCount attachmentCount)
    (within : itemCount ≤ (itemsOf others).length) :
    Covers parcels itemCount attachmentCount := by
  intro position inside begun
  obtain ⟨other, inOthers, begins, ends⟩ :=
    exists_position (begun.trans_le within)
  exact (others_cover (other + 1) inOthers position inside ends).trans
    (covers other inOthers (begins.trans_lt begun))

end Parcel
