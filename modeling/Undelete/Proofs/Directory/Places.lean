import Undelete.Proofs.Directory.Pages

/-!
Where slots stand. A slot on the volume is known by its cluster and its number there. The short
slots of a directory keep their order, and those of its first pages come first; in distinct
clusters no two slots stand in the same place.
-/

namespace Undelete

/-- The place of a slot on the volume, when clusters have so many slots. -/
def PlacedSlot.place (perCluster : Nat) (slot : PlacedSlot) : Nat × Nat :=
  (slot.cluster, slot.index % perCluster)

/-- The place of an entry's slot on the volume. -/
def Entry.place (perCluster : Nat) (entry : Entry) : Nat × Nat :=
  (entry.slotCluster, entry.slotIndex % perCluster)

namespace Directory

/-- The short slots before the first unused one, without volume labels and dot entries. -/
def shortSlots : List PlacedSlot → List (PlacedSlot × ShortSlot)
  | [] => []
  | placed :: rest =>
    match Slot.decode placed.data with
    | .unused => []
    | .fragment _ => shortSlots rest
    | .short slot =>
      if slot.isVolumeLabel || slot.isDot then shortSlots rest
      else (placed, slot) :: shortSlots rest

theorem map_fst_shortSlots (slots : List PlacedSlot) :
    ((shortSlots slots).map Prod.fst).Sublist slots := by
  induction slots with
  | nil => exact .slnil
  | cons placed rest ih =>
    cases decoded : Slot.decode placed.data with
    | unused => simp only [shortSlots, decoded, List.map_nil, List.nil_sublist]
    | fragment fragment => simpa only [shortSlots, decoded] using ih.cons placed
    | short slot =>
      simp only [shortSlots, decoded]
      split
      · exact ih.cons placed
      · exact ih.cons_cons placed

theorem mem_of_mem_shortSlots {slots : List PlacedSlot} {pair : PlacedSlot × ShortSlot}
    (member : pair ∈ shortSlots slots) : pair.1 ∈ slots :=
  (map_fst_shortSlots slots).subset (List.mem_map_of_mem member)

/-- What the scan of the tree makes of a short slot. -/
structure Trace where
  cluster : Nat
  index : Nat
  startCluster : Nat
  isDirectory : Bool
  deleted : Bool
  deriving DecidableEq

def traceOf (inDeleted : Bool) : PlacedSlot × ShortSlot → Trace
  | (placed, slot) =>
    ⟨placed.cluster, placed.index, slot.firstCluster, slot.isDirectory, slot.isDeleted || inDeleted⟩

end Directory

def Entry.trace (entry : Entry) : Directory.Trace :=
  ⟨entry.slotCluster, entry.slotIndex, entry.startCluster, entry.isDirectory, entry.deleted⟩

namespace Directory

theorem map_trace_entries (directory : Nat) (inDeleted : Bool) (ordinal : Nat)
    (pending : List NameFragment) (slots : List PlacedSlot) :
    (entries directory inDeleted ordinal pending slots).map Entry.trace =
      (shortSlots slots).map (traceOf inDeleted) := by
  induction slots generalizing ordinal pending with
  | nil => rfl
  | cons placed rest ih =>
    cases decoded : Slot.decode placed.data with
    | unused => simp only [entries, shortSlots, decoded, List.map_nil]
    | fragment fragment => simp only [entries, shortSlots, decoded, ih]
    | short slot =>
      simp only [entries, shortSlots, decoded]
      split
      · exact ih _ _
      · rw [List.map_cons, List.map_cons, ih]
        rfl

theorem subdirectories_entries (directory : Nat) (inDeleted : Bool) (ordinal : Nat)
    (pending : List NameFragment) (slots : List PlacedSlot) :
    Scan.subdirectories (entries directory inDeleted ordinal pending slots) =
      ((shortSlots slots).filter fun (_, slot) => slot.isDirectory).map fun (_, slot) =>
        (slot.firstCluster, slot.isDeleted || inDeleted) := by
  have traces := map_trace_entries directory inDeleted ordinal pending slots
  have found (list : List Entry) : Scan.subdirectories list =
      ((list.map Entry.trace).filter Trace.isDirectory).map fun trace =>
        (trace.startCluster, trace.deleted) := by
    rw [Scan.subdirectories, List.filter_map, List.map_map]
    rfl
  rw [found, traces, List.filter_map, List.map_map]
  rfl

/-- Every entry comes from a short slot. -/
theorem exists_of_mem_entries {directory : Nat} {inDeleted : Bool} {ordinal : Nat}
    {pending : List NameFragment} {slots : List PlacedSlot} {entry : Entry}
    (member : entry ∈ entries directory inDeleted ordinal pending slots) :
    ∃ pair ∈ shortSlots slots, traceOf inDeleted pair = entry.trace := by
  have known := List.mem_map_of_mem (f := Entry.trace) member
  rw [map_trace_entries] at known
  exact List.mem_map.mp known

/-- Every short slot has an entry. -/
theorem exists_of_mem_shortSlots (directory : Nat) (inDeleted : Bool) (ordinal : Nat)
    (pending : List NameFragment) {slots : List PlacedSlot} {pair : PlacedSlot × ShortSlot}
    (member : pair ∈ shortSlots slots) :
    ∃ entry ∈ entries directory inDeleted ordinal pending slots,
      entry.trace = traceOf inDeleted pair := by
  have known := List.mem_map_of_mem (f := traceOf inDeleted) member
  rw [← map_trace_entries directory inDeleted ordinal pending] at known
  exact List.mem_map.mp known

theorem map_place_entries (perCluster directory : Nat) (inDeleted : Bool) (ordinal : Nat)
    (pending : List NameFragment) (slots : List PlacedSlot) :
    (entries directory inDeleted ordinal pending slots).map (Entry.place perCluster) =
      (shortSlots slots).map fun (placed, _) => placed.place perCluster := by
  have traces := map_trace_entries directory inDeleted ordinal pending slots
  have through (list : List Entry) : list.map (Entry.place perCluster) =
      (list.map Entry.trace).map fun trace => (trace.cluster, trace.index % perCluster) := by
    rw [List.map_map]
    rfl
  rw [through, traces, List.map_map]
  rfl

/-- Slots that come later change nothing about the earlier ones. -/
theorem shortSlots_append (first second : List PlacedSlot) :
    ∃ rest, shortSlots (first ++ second) = shortSlots first ++ rest ∧
      ∀ pair ∈ rest, pair.1 ∈ second := by
  induction first with
  | nil => exact ⟨shortSlots second, rfl, fun pair => mem_of_mem_shortSlots⟩
  | cons placed earlier ih =>
    obtain ⟨rest, split, later⟩ := ih
    cases decoded : Slot.decode placed.data with
    | unused => exact ⟨[], by simp [shortSlots, decoded], by simp⟩
    | fragment fragment => exact ⟨rest, by simp [shortSlots, decoded, split], later⟩
    | short slot =>
      refine ⟨rest, ?_, later⟩
      simp only [List.cons_append, shortSlots, decoded, split]
      split <;> rfl

/-- The slots of one page, numbered from `start` on. -/
def placedPage (start cluster : Nat) (slots : List Bytes) : List PlacedSlot :=
  (slots.zipIdx start).map fun (data, index) => ⟨cluster, index, data⟩

/-- The slots of pages, page by page. -/
def placedFrom : (start : Nat) → List (Nat × List Bytes) → List PlacedSlot
  | _, [] => []
  | start, (cluster, slots) :: rest =>
    placedPage start cluster slots ++ placedFrom (start + slots.length) rest

theorem map_zipIdx_flatMap (read : List (Nat × List Bytes)) (start : Nat) :
    ((read.flatMap fun (cluster, slots) =>
      slots.map fun data => (cluster, data)).zipIdx start).map
        (fun ((cluster, data), index) => (⟨cluster, index, data⟩ : PlacedSlot)) =
      placedFrom start read := by
  induction read generalizing start with
  | nil => rfl
  | cons page rest ih =>
    rw [List.flatMap_cons, List.zipIdx_append, List.map_append, List.length_map, ih,
      List.zipIdx_map, List.map_map]
    rfl

theorem placed_eq (read : List (Nat × List Bytes)) : placed read = placedFrom 0 read :=
  map_zipIdx_flatMap read 0

theorem placedFrom_append (start : Nat) (first second : List (Nat × List Bytes)) :
    ∃ next, placedFrom start (first ++ second) =
      placedFrom start first ++ placedFrom next second := by
  induction first generalizing start with
  | nil => exact ⟨start, rfl⟩
  | cons page rest ih =>
    obtain ⟨next, split⟩ := ih (start + page.2.length)
    exact ⟨next, by simp [placedFrom, split]⟩

theorem cluster_of_mem_placedPage {start cluster : Nat} {slots : List Bytes} {slot : PlacedSlot}
    (member : slot ∈ placedPage start cluster slots) : slot.cluster = cluster := by
  obtain ⟨_, -, rfl⟩ := List.mem_map.mp member
  rfl

theorem cluster_of_mem_placedFrom {start : Nat} {read : List (Nat × List Bytes)}
    {slot : PlacedSlot} (member : slot ∈ placedFrom start read) :
    slot.cluster ∈ read.map Prod.fst := by
  induction read generalizing start with
  | nil => cases member
  | cons page rest ih =>
    rcases List.mem_append.mp member with here | later
    · rw [cluster_of_mem_placedPage here]
      exact List.mem_cons_self
    · exact List.mem_cons_of_mem _ (ih later)

theorem index_placedPage (start cluster : Nat) (slots : List Bytes) :
    (placedPage start cluster slots).map PlacedSlot.index = List.range' start slots.length := by
  rw [placedPage, List.map_map, ← List.zipIdx_map_snd]
  rfl

theorem le_index_of_mem_placedFrom {start : Nat} {read : List (Nat × List Bytes)}
    {slot : PlacedSlot} (member : slot ∈ placedFrom start read) : start ≤ slot.index := by
  induction read generalizing start with
  | nil => cases member
  | cons page rest ih =>
    rcases List.mem_append.mp member with here | later
    · have numbered := List.mem_map_of_mem (f := PlacedSlot.index) here
      rw [index_placedPage, List.mem_range'_1] at numbered
      exact numbered.1
    · have := ih later
      omega

/-- Slots of one directory are numbered in ascending order. -/
theorem ascending_placedFrom (start : Nat) (read : List (Nat × List Bytes)) :
    (placedFrom start read).Pairwise fun earlier later => earlier.index < later.index := by
  induction read generalizing start with
  | nil => exact .nil
  | cons page rest ih =>
    refine List.pairwise_append.mpr ⟨?_, ih _, ?_⟩
    · rw [← List.pairwise_map, index_placedPage]
      exact List.pairwise_lt_range'
    · intro earlier here later member
      have numbered := List.mem_map_of_mem (f := PlacedSlot.index) here
      rw [index_placedPage, List.mem_range'_1] at numbered
      have := le_index_of_mem_placedFrom member
      omega

theorem mod_of_turn {turns perCluster index : Nat} (low : turns * perCluster ≤ index)
    (high : index < turns * perCluster + perCluster) :
    index % perCluster = index - turns * perCluster := by
  obtain ⟨rest, rfl⟩ := Nat.exists_eq_add_of_le low
  rw [Nat.mul_comm, Nat.mul_add_mod, Nat.mod_eq_of_lt (by omega)]
  omega

/-- Behind a whole page the numbers of the next turn begin. -/
theorem next_turn {perCluster : Nat} {slots : List Bytes} (size : slots.length = perCluster)
    (turns : Nat) : turns * perCluster + slots.length = (turns + 1) * perCluster := by
  rw [size, Nat.succ_mul]

/-- No two slots of distinct whole pages stand in the same place. -/
theorem nodup_place {perCluster : Nat} {read : List (Nat × List Bytes)}
    (nodup : (read.map Prod.fst).Nodup) (whole : ∀ page ∈ read, page.2.length = perCluster)
    (turns : Nat) :
    ((placedFrom (turns * perCluster) read).map (PlacedSlot.place perCluster)).Nodup := by
  induction read generalizing turns with
  | nil => exact List.nodup_nil
  | cons page rest ih =>
    obtain ⟨fresh, nodup⟩ := List.nodup_cons.mp nodup
    have size := whole page List.mem_cons_self
    have window {slot : PlacedSlot}
        (here : slot ∈ placedPage (turns * perCluster) page.1 page.2) :
        turns * perCluster ≤ slot.index ∧ slot.index < turns * perCluster + perCluster := by
      have numbered := List.mem_map_of_mem (f := PlacedSlot.index) here
      rwa [index_placedPage, List.mem_range'_1, size] at numbered
    rw [placedFrom, List.map_append, next_turn size]
    refine List.Nodup.append ?_ (ih nodup (fun later member => whole later
      (List.mem_cons_of_mem _ member)) _) ?_
    · have ascending := ascending_placedFrom (turns * perCluster) [page]
      simp only [placedFrom, List.append_nil] at ascending
      refine List.pairwise_map.mpr (ascending.imp_of_mem ?_)
      intro earlier later here here' less same
      have turn := mod_of_turn (window here).1 (window here).2
      have turn' := mod_of_turn (window here').1 (window here').2
      have equal : earlier.index % perCluster = later.index % perCluster :=
        congrArg Prod.snd same
      have low := (window here).1
      omega
    · intro place here later
      obtain ⟨slot, member, rfl⟩ := List.mem_map.mp here
      obtain ⟨slot', member', same⟩ := List.mem_map.mp later
      have cluster : slot'.cluster = slot.cluster := congrArg Prod.fst same
      apply fresh
      rw [← cluster_of_mem_placedPage member, ← cluster]
      exact cluster_of_mem_placedFrom member'

end Directory

end Undelete
