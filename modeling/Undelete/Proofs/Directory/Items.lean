import Undelete.Proofs.Directory.Encoding
import Undelete.Proofs.Directory.Naming

/-!
Files and directories as they are written into a directory: the fragments of the long name, last
one first, and the short slot behind them, all marked when the item has been deleted. Each gives
one entry that tells what was written.
-/

namespace Undelete

/-- What is written into a directory for one file or directory. -/
structure Item where
  slot : ShortSlot
  longName : Option String
  deleted : Bool

namespace Item

def fragments (item : Item) : List NameFragment :=
  match item.longName with
  | none => []
  | some name => NameFragment.split item.slot.checksum name.toList

/-- A slot as it is found once the item has been deleted, if it has. -/
def mark (item : Item) (data : Bytes) : Bytes := if item.deleted then Slot.erase data else data

def slots (item : Item) : List Bytes :=
  item.fragments.map (fun fragment => item.mark fragment.encode) ++ [item.mark item.slot.encode]

/-- The short slot with its mark. -/
def stored (item : Item) : ShortSlot :=
  if item.deleted then item.slot.erased else item.slot

/-- An item that can be written and is not taken for something else. -/
structure Fits (item : Item) : Prop where
  widths : item.slot.Fits
  used : item.slot.name.byteAt 0 ≠ endMark
  alive : item.slot.name.byteAt 0 ≠ deletedMark
  unlabelled : item.slot.isVolumeLabel = false
  proper : item.slot.isDot = false
  named : ∀ name, item.longName = some name → NameFragment.Storable name.toList

/-- Items with the numbers of their short slots, when the slots are numbered from `start` on. -/
def numbered : (start : Nat) → List Item → List (Item × Nat)
  | _, [] => []
  | start, item :: rest =>
    (item, start + item.fragments.length) :: numbered (start + item.slots.length) rest

variable {item : Item}

theorem needed_le (fits : item.Fits) {name : String} (named : item.longName = some name) :
    NameFragment.needed name.toList ≤ 20 :=
  NameFragment.needed_le (fits.named name named).short

theorem length_slots (item : Item) : item.slots.length = item.fragments.length + 1 := by
  rw [slots, List.length_append, List.length_map, List.length_singleton]

/-- A fragment as it is found. -/
def found (item : Item) (fragment : NameFragment) : NameFragment :=
  if item.deleted then fragment.erased else fragment

theorem plain_stored (fits : item.Fits) :
    (item.stored.isVolumeLabel || item.stored.isDot) = false := by
  unfold stored
  split
  next =>
    refine Bool.or_eq_false_iff.mpr ⟨fits.unlabelled, ?_⟩
    rfl
  next => exact Bool.or_eq_false_iff.mpr ⟨fits.unlabelled, fits.proper⟩

end Item

end Undelete
