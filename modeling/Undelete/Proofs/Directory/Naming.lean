import Undelete.Proofs.Directory.Findings

/-!
Name fragments and the short slot that they belong to. Fragments that follow one another are kept,
as long as they are few enough for one name, and what follows a short slot begins with none.
-/

namespace Undelete.Directory

variable {directory ordinal : Nat} {inDeleted : Bool}

/-- These slots are the slots of these fragments. -/
def Spells (slots : List PlacedSlot) (fragments : List NameFragment) : Prop :=
  slots.map (fun placed => Slot.decode placed.data) = fragments.map .fragment

theorem Spells.length {slots : List PlacedSlot} {fragments : List NameFragment}
    (spells : Spells slots fragments) : slots.length = fragments.length := by
  simpa using congrArg List.length spells

theorem Spells.cons {placed : PlacedSlot} {slots : List PlacedSlot}
    {fragments : List NameFragment} (spells : Spells (placed :: slots) fragments) :
    ∃ fragment rest, fragments = fragment :: rest ∧ Slot.decode placed.data = .fragment fragment ∧
      Spells slots rest := by
  cases fragments with
  | nil => cases spells
  | cons fragment rest =>
    obtain ⟨here, later⟩ := List.cons.inj spells
    exact ⟨fragment, rest, rfl, here, later⟩

theorem Spells.of_mem {slots : List PlacedSlot} {fragments : List NameFragment}
    (spells : Spells slots fragments) {placed : PlacedSlot} (member : placed ∈ slots) :
    ∃ fragment, Slot.decode placed.data = .fragment fragment := by
  have known := List.mem_map_of_mem (f := fun placed => Slot.decode placed.data) member
  rw [spells] at known
  obtain ⟨fragment, -, decoded⟩ := List.mem_map.mp known
  exact ⟨fragment, decoded.symm⟩

/-- Fragments are added to those that are pending. -/
theorem entries_fragments {slots : List PlacedSlot} {fragments : List NameFragment}
    (spells : Spells slots fragments) (pending : List NameFragment)
    (few : pending.length + fragments.length ≤ maxFragments) (rest : List PlacedSlot) :
    entries directory inDeleted ordinal pending (slots ++ rest) =
      entries directory inDeleted ordinal (pending ++ fragments) rest := by
  induction slots generalizing pending fragments with
  | nil =>
    have none : fragments = [] := List.length_eq_zero_iff.mp spells.length.symm
    rw [none, List.append_nil, List.nil_append]
  | cons placed slots ih =>
    obtain ⟨fragment, others, rfl, decoded, later⟩ := spells.cons
    rw [List.length_cons] at few
    have room : ¬ maxFragments ≤ pending.length := by omega
    have kept : keep pending fragment = pending ++ [fragment] := if_neg room
    have onward := ih later (pending ++ [fragment])
      (by rw [List.length_append, List.length_singleton]; omega)
    rw [List.append_assoc, List.singleton_append] at onward
    simp only [List.cons_append, entries, decoded, kept, onward]

/-- A short slot takes the fragments before it and leaves none to what follows. -/
theorem entries_short {short : PlacedSlot} {slot : ShortSlot}
    (decoded : Slot.decode short.data = .short slot)
    (plain : (slot.isVolumeLabel || slot.isDot) = false) (pending : List NameFragment)
    (rest : List PlacedSlot) :
    entries directory inDeleted ordinal pending (short :: rest) =
      entryOf directory inDeleted ordinal short slot pending ::
        entries directory inDeleted (ordinal + 1) [] rest := by
  rw [entries, decoded]
  simp only [plain, Bool.false_eq_true, if_false]

/-- Fragments and the short slot behind them make one entry. -/
theorem entries_named {slots : List PlacedSlot} {fragments : List NameFragment}
    {short : PlacedSlot} {slot : ShortSlot} (spells : Spells slots fragments)
    (few : fragments.length ≤ maxFragments) (decoded : Slot.decode short.data = .short slot)
    (plain : (slot.isVolumeLabel || slot.isDot) = false) (rest : List PlacedSlot) :
    entries directory inDeleted ordinal [] (slots ++ short :: rest) =
      entryOf directory inDeleted ordinal short slot fragments ::
        entries directory inDeleted (ordinal + 1) [] rest := by
  rw [entries_fragments spells [] (by simpa using few), List.nil_append,
    entries_short decoded plain]

/-- Slots before the end of the directory are followed by what comes behind them. -/
theorem entries_append {first : List PlacedSlot} (all : ∀ placed ∈ first, beforeEnd placed = true)
    (prior second : List PlacedSlot) :
    entries directory inDeleted ordinal (fragmentsAfter prior) (first ++ second) =
      entries directory inDeleted ordinal (fragmentsAfter prior) first ++
        entries directory inDeleted
          (ordinal + (entries directory inDeleted ordinal (fragmentsAfter prior) first).length)
          (fragmentsAfter (prior ++ first)) second := by
  induction first generalizing ordinal prior with
  | nil => simp [entries]
  | cons placed rest ih =>
    have used := beforeEnd_iff.mp (all placed List.mem_cons_self)
    have onward (ordinal : Nat) := @ih ordinal
      (fun later member => all later (List.mem_cons_of_mem _ member)) (prior ++ [placed])
    rw [List.append_assoc, List.singleton_append] at onward
    have after := fragmentsAfter_append prior placed
    cases decoded : Slot.decode placed.data with
    | unused => exact absurd decoded used
    | fragment fragment =>
      simp only [decoded] at after
      simp only [List.cons_append, entries, decoded, ← after, onward]
    | short slot =>
      simp only [decoded] at after
      by_cases omitted : (slot.isVolumeLabel || slot.isDot) = true
      · simp only [List.cons_append, entries, decoded, if_pos omitted, ← after, onward]
      · simp only [List.cons_append, entries, decoded, if_neg omitted, ← after, onward,
          List.length_cons, Nat.add_assoc, Nat.add_comm 1]

/-- Nothing is pending where a directory begins or behind a short slot. -/
theorem fragmentsAfter_eq_nil {slots : List PlacedSlot}
    (ended : ∀ last ∈ slots.getLast?, ∃ slot, Slot.decode last.data = .short slot) :
    fragmentsAfter slots = [] := by
  rcases List.eq_nil_or_concat slots with rfl | ⟨before, last, rfl⟩
  · rfl
  · obtain ⟨slot, decoded⟩ := ended last (by simp)
    rw [List.concat_eq_append, fragmentsAfter_append, decoded]

section

variable {slot : ShortSlot} {fragments : List NameFragment} {checksum : UInt8}

theorem exists_last (filled : fragments ≠ [])
    (agree : ∀ fragment ∈ fragments, fragment.checksum = checksum) :
    ∃ last, fragments.getLast? = some last ∧ last.checksum = checksum ∧
      fragments.any (·.checksum ≠ checksum) = false := by
  refine ⟨fragments.getLast filled, List.getLast?_eq_some_getLast filled,
    agree _ (List.getLast_mem filled), List.any_eq_false.mpr fun fragment member => ?_⟩
  simpa using agree fragment member

/-- A live slot takes the name in fragments that have its checksum. -/
theorem nameOf_live (alive : slot.isDeleted = false) (filled : fragments ≠ [])
    (agree : ∀ fragment ∈ fragments, fragment.checksum = slot.checksum) :
    nameOf slot fragments = (NameFragment.assemble fragments, none) := by
  obtain ⟨last, ends, same, whole⟩ := exists_last filled agree
  simp only [nameOf, ends, same, whole, alive, Bool.false_eq_true, if_false, if_true]

/-- A deleted slot takes the name in deleted fragments that have one checksum, and learns its
first byte from them. -/
theorem nameOf_deleted (gone : slot.isDeleted = true) (filled : fragments ≠ [])
    (agree : ∀ fragment ∈ fragments, fragment.checksum = checksum)
    (marked : ∀ fragment ∈ fragments, fragment.isDeleted = true) :
    nameOf slot fragments = (NameFragment.assemble fragments,
      recoverInitial slot.name slot.extension checksum
        ((NameFragment.assemble fragments).bind (·.toList.head?))) := by
  obtain ⟨last, ends, same, whole⟩ := exists_last filled agree
  have all : fragments.all (·.isDeleted) = true := List.all_eq_true.mpr marked
  simp only [nameOf, ends, same, whole, gone, all, Bool.false_eq_true, if_false, if_true]

end

end Undelete.Directory
