import Mathlib.Data.List.Nodup
import Undelete.Proofs.Directory.Descent

/-!
A scan numbers its entries from 1 on in the order of discovery, across all directories. As long
as there are fewer than 2^32 of them, an entry's file number is its ordinal, so that no two
entries share a number and none has that of the root directory.
-/

namespace Undelete

namespace Directory

/-- Entries numbered from `first` on. -/
def Numbered : (first : Nat) → List Entry → Prop
  | _, [] => True
  | first, entry :: rest =>
    entry.ordinal = first ∧ entry.fileId = first % UInt32.size ∧ Numbered (first + 1) rest

namespace Numbered

variable {first : Nat} {entries : List Entry}

theorem append {later : List Entry} (numbered : Numbered first entries)
    (onward : Numbered (first + entries.length) later) : Numbered first (entries ++ later) := by
  induction entries generalizing first with
  | nil => exact onward
  | cons entry rest ih =>
    refine ⟨numbered.1, numbered.2.1, ih numbered.2.2 ?_⟩
    rw [Nat.add_assoc, Nat.add_comm 1]
    exact onward

theorem bounds (numbered : Numbered first entries) {entry : Entry} (member : entry ∈ entries) :
    first ≤ entry.ordinal ∧ entry.ordinal < first + entries.length ∧
      entry.fileId = entry.ordinal % UInt32.size := by
  induction entries generalizing first with
  | nil => cases member
  | cons head rest ih =>
    obtain ⟨ordinal, fileId, onward⟩ := numbered
    rw [List.length_cons]
    rcases List.mem_cons.mp member with rfl | later
    · refine ⟨by omega, by omega, ?_⟩
      rw [fileId, ordinal]
    · obtain ⟨low, high, wrapped⟩ := ih onward later
      exact ⟨by omega, by omega, wrapped⟩

theorem ordinals (numbered : Numbered first entries) :
    entries.map Entry.ordinal = List.range' first entries.length := by
  induction entries generalizing first with
  | nil => rfl
  | cons head rest ih =>
    obtain ⟨ordinal, -, onward⟩ := numbered
    rw [List.map_cons, List.length_cons, List.range'_succ, ih onward, ordinal]

theorem ascending (numbered : Numbered first entries) :
    entries.Pairwise fun earlier later => earlier.ordinal < later.ordinal := by
  induction entries generalizing first with
  | nil => exact .nil
  | cons head rest ih =>
    obtain ⟨ordinal, -, onward⟩ := numbered
    refine .cons ?_ (ih onward)
    intro later member
    have := (onward.bounds member).1
    omega

theorem eq_of_ordinal (numbered : Numbered first entries) {one other : Entry}
    (member : one ∈ entries) (member' : other ∈ entries) (same : one.ordinal = other.ordinal) :
    one = other := by
  have distinct : (entries.map Entry.ordinal).Nodup :=
    List.pairwise_map.mpr (numbered.ascending.imp Nat.ne_of_lt)
  exact List.inj_on_of_nodup_map distinct member member' same

/-- The file numbers of few enough entries do not wrap. -/
theorem fileId_eq (numbered : Numbered 1 entries) (few : entries.length < UInt32.size) {entry : Entry}
    (member : entry ∈ entries) : entry.fileId = entry.ordinal ∧ 1 ≤ entry.ordinal := by
  obtain ⟨low, high, wrapped⟩ := numbered.bounds member
  refine ⟨?_, low⟩
  rw [wrapped]
  exact Nat.mod_eq_of_lt (by omega)

end Numbered

theorem numbered_entries (directory : Nat) (inDeleted : Bool) (ordinal : Nat)
    (pending : List NameFragment) (slots : List PlacedSlot) :
    Numbered ordinal (entries directory inDeleted ordinal pending slots) := by
  induction slots generalizing ordinal pending with
  | nil => trivial
  | cons placed rest ih =>
    rw [entries]
    split
    · trivial
    · exact ih ordinal _
    · split
      · exact ih ordinal []
      · exact ⟨rfl, rfl, ih (ordinal + 1) []⟩

theorem fileSize_lt_of_decode {data : Bytes} {slot : ShortSlot}
    (decoded : Slot.decode data = .short slot) : slot.fileSize < UInt32.size := by
  unfold Slot.decode at decoded
  split at decoded
  · cases decoded
  · split at decoded
    · cases decoded
    · cases decoded
      exact Bytes.field_lt data 28 4

/-- Sizes are 32-bit words. -/
theorem size_lt_of_mem_entries {directory ordinal : Nat} {inDeleted : Bool}
    {pending : List NameFragment} {slots : List PlacedSlot} {entry : Entry}
    (member : entry ∈ entries directory inDeleted ordinal pending slots) : entry.size < UInt32.size := by
  induction slots generalizing ordinal pending with
  | nil => cases member
  | cons placed rest ih =>
    rw [entries] at member
    split at member
    · cases member
    · exact ih member
    next slot decoded =>
      split at member
      · exact ih member
      · rcases List.mem_cons.mp member with rfl | later
        · exact fileSize_lt_of_decode decoded
        · exact ih later

end Directory

namespace Scan

variable {source : Source} {g : Geometry} {maxDepth limit start : Nat} {scan : Scan}

/-- What holds of the entries of every scan. -/
structure Tidy (scan : Scan) : Prop where
  numbered : Directory.Numbered 1 scan.entries
  size_lt : ∀ entry ∈ scan.entries, entry.size < UInt32.size

theorem tidy_of_ofRoot
    (answered : (ofRoot g maxDepth limit start).answer source g = .ok scan) : scan.Tidy := by
  have nothing : empty.Tidy := ⟨trivial, fun _ none => nomatch none⟩
  refine tree_keeps ?_ (maxDepth + 1) start false nothing answered
  intro directory inDeleted clusters scan tidy
  simp only [listed, list, Probe.answer_bind, Probe.answer_pure]
  constructor
  · apply tidy.numbered.append
    rw [Nat.add_comm]
    exact Directory.numbered_entries ..
  · intro entry member
    rcases List.mem_append.mp member with old | new
    · exact tidy.size_lt entry old
    · exact Directory.size_lt_of_mem_entries new

end Scan

end Undelete
