import Undelete.Proofs.Directory.Erasing
import Undelete.Proofs.Directory.Written

/-!
The mark of deletion in the bytes of an image. It goes to the first byte of slots in the data
region, so that a read of the FAT is what it was, and so is a read of a cluster but for the slots
that are marked.
-/

namespace Undelete

namespace Bytes

/-- The mark of deletion at some offsets of data that begins at `start`. -/
def mark (offsets : List Nat) : (start : Nat) → Bytes → Bytes
  | _, [] => []
  | start, byte :: rest =>
    (if start ∈ offsets then deletedMark else byte) :: mark offsets (start + 1) rest

variable {offsets : List Nat} {start : Nat} {data : Bytes}

theorem length_mark : (mark offsets start data).length = data.length := by
  induction data generalizing start with
  | nil => rfl
  | cons byte rest ih => rw [mark, List.length_cons, List.length_cons, ih]

theorem take_mark (count : Nat) :
    (mark offsets start data).take count = mark offsets start (data.take count) := by
  induction data generalizing start count with
  | nil => simp [mark]
  | cons byte rest ih =>
    cases count with
    | zero => rfl
    | succ count => rw [mark, List.take_succ_cons, List.take_succ_cons, mark, ih]

theorem drop_mark (count : Nat) :
    (mark offsets start data).drop count = mark offsets (start + count) (data.drop count) := by
  induction data generalizing start count with
  | nil => simp [mark]
  | cons byte rest ih =>
    cases count with
    | zero => rfl
    | succ count =>
      rw [mark, List.drop_succ_cons, List.drop_succ_cons, ih, Nat.add_assoc, Nat.add_comm 1]

theorem slice_mark (offset count : Nat) :
    slice (mark offsets start data) offset count =
      mark offsets (start + offset) (slice data offset count) := by
  rw [slice, drop_mark, take_mark, slice]

theorem mark_of_apart
    (apart : ∀ offset ∈ offsets, start ≤ offset → start + data.length ≤ offset) :
    mark offsets start data = data := by
  induction data generalizing start with
  | nil => rfl
  | cons byte rest ih =>
    rw [List.length_cons] at apart
    have here : start ∉ offsets := fun marked => by
      have beyond := apart start marked (Nat.le_refl _)
      omega
    have later := @ih (start + 1) fun offset marked behind => by
      have beyond := apart offset marked (by omega)
      omega
    rw [mark, if_neg here, later]

theorem mark_of_first (here : start ∈ offsets) (filled : data ≠ [])
    (only : ∀ offset ∈ offsets, start < offset → start + data.length ≤ offset) :
    mark offsets start data = Slot.erase data := by
  obtain ⟨first, rest, rfl⟩ := List.exists_cons_of_ne_nil filled
  have later : mark offsets (start + 1) rest = rest := by
    refine mark_of_apart fun offset marked behind => ?_
    have beyond := only offset marked behind
    rw [List.length_cons] at beyond
    omega
  rw [mark, if_pos here, later]
  rfl

theorem pieces_mark (size count : Nat) :
    pieces size count (mark offsets start data) =
      (pieces size count data).mapIdx fun index piece =>
        mark offsets (start + size * index) piece := by
  induction count generalizing start data with
  | zero => rfl
  | succ count ih =>
    rw [pieces, pieces, List.mapIdx_cons, take_mark, drop_mark, ih, Nat.mul_zero, Nat.add_zero]
    simp only [Nat.mul_add, Nat.mul_one, Nat.add_assoc, Nat.add_comm size]

end Bytes

namespace Source

/-- The source with the mark of deletion at some offsets of its image. -/
def marked (source : Source) (offsets : List Nat) : Source :=
  { source with contents := source.contents.map fun image =>
      (Bytes.mark offsets 0 image.toList).toArray }

theorem read_marked (source : Source) (offsets : List Nat) (sector count : Nat) :
    (source.marked offsets).read sector count = (source.read sector count).map
      (Bytes.mark offsets ((source.startLba + sector) * source.sectorSize)) := by
  rw [read_eq_slice, read_eq_slice, marked]
  cases source.contents with
  | none => rfl
  | some image =>
    simp only [Option.map_some, List.size_toArray, Bytes.length_mark, Array.length_toList,
      Bytes.slice_mark, Nat.zero_add]
    by_cases inside : source.inRange image.size sector count = true
    · rw [if_pos inside]
      exact if_pos inside
    · rw [if_neg inside]
      exact if_neg inside

/-- A read of a marked image that is given as a list of bytes. -/
def readListMarked (image : Bytes) (offsets : List Nat) (sectorSize sector count : Nat) :
    Except Failure Bytes :=
  (readList image sectorSize sector count).map (Bytes.mark offsets ((0 + sector) * sectorSize))

theorem read_marked_ofImage (image : Bytes) (offsets : List Nat) (sectorSize : Nat) :
    ((ofImage image.toArray sectorSize).marked offsets).read =
      readListMarked image offsets sectorSize := by
  funext sector count
  rw [read_marked, read_ofImage]
  rfl

/-- Where a slot begins in the image, by its cluster and its number there. -/
def offsetOf (source : Source) (g : Geometry) (place : Nat × Nat) : Nat :=
  (source.startLba + g.clusterSector place.1) * source.sectorSize + slotSize * place.2

end Source

theorem Probe.answer_marked {α : Type} (image : Bytes) (offsets : List Nat) (sectorSize : Nat)
    (g : Geometry) (work : Probe α) :
    work.answer ((Source.ofImage image.toArray sectorSize).marked offsets) g =
      work.eval (fun cluster =>
        (Source.readListMarked image offsets sectorSize (g.fatSector cluster) g.bytesPerSector).map
          fun data => FatEntry.ofRaw (FatEntry.mask (data.field (g.fatOffset cluster) 4)))
        (Source.readListMarked image offsets sectorSize) := by
  rw [← Source.read_marked_ofImage]
  rfl

/-- A slot on the volume. -/
def Geometry.HasSlot (g : Geometry) (place : Nat × Nat) : Prop :=
  g.Valid place.1 ∧ place.2 < g.slotsPerCluster

instance (g : Geometry) (place : Nat × Nat) : Decidable (g.HasSlot place) :=
  inferInstanceAs (Decidable (_ ∧ _))

namespace Geometry.Regular

variable {source : Source} {g : Geometry} {place other : Nat × Nat}

theorem slotSize_mul (regular : g.Regular) : slotSize * g.slotsPerCluster = g.clusterSize :=
  Nat.mul_div_cancel' regular.slotSize_dvd

/-- Slots follow one another from the start of the data region on. -/
theorem offsetOf_eq (regular : g.Regular) (same : source.sectorSize = g.bytesPerSector)
    (place : Nat × Nat) :
    source.offsetOf g place = (source.startLba + g.dataStart) * g.bytesPerSector +
      slotSize * ((place.1 - 2) * g.slotsPerCluster + place.2) := by
  have size : (place.1 - 2) * g.sectorsPerCluster * g.bytesPerSector =
      slotSize * ((place.1 - 2) * g.slotsPerCluster) := by
    rw [Nat.mul_left_comm, regular.slotSize_mul, clusterSize, Nat.mul_comm g.bytesPerSector,
      Nat.mul_assoc]
  rw [Source.offsetOf, same, clusterSector, ← Nat.add_assoc, Nat.add_mul, size, Nat.mul_add,
    Nat.add_assoc]

theorem dataStart_le_offsetOf (regular : g.Regular) (same : source.sectorSize = g.bytesPerSector)
    (place : Nat × Nat) :
    (source.startLba + g.dataStart) * g.bytesPerSector ≤ source.offsetOf g place := by
  rw [regular.offsetOf_eq same]
  exact Nat.le_add_right _ _

/-- No slot begins inside another one. -/
theorem eq_of_offsetOf (regular : g.Regular) (same : source.sectorSize = g.bytesPerSector)
    (first : g.HasSlot place) (second : g.HasSlot other)
    (low : source.offsetOf g place ≤ source.offsetOf g other)
    (high : source.offsetOf g other < source.offsetOf g place + slotSize) : other = place := by
  rw [regular.offsetOf_eq same, regular.offsetOf_eq same] at low high
  have width : slotSize = 32 := rfl
  have number : (other.1 - 2) * g.slotsPerCluster + other.2 =
      (place.1 - 2) * g.slotsPerCluster + place.2 := by
    rw [width] at low high
    omega
  have positive : 0 < g.slotsPerCluster := Nat.zero_lt_of_lt first.2
  have turns := congrArg (· / g.slotsPerCluster) number
  have rests := congrArg (· % g.slotsPerCluster) number
  simp only [Nat.mul_comm _ g.slotsPerCluster, Nat.mul_add_div positive, Nat.mul_add_mod,
    Nat.div_eq_of_lt first.2, Nat.div_eq_of_lt second.2, Nat.mod_eq_of_lt first.2,
    Nat.mod_eq_of_lt second.2, Nat.add_zero] at turns rests
  have low := first.1.1
  have low' := second.1.1
  exact Prod.ext (by omega) rests

/-- Of the marked slots only the one at hand has its mark in its bytes. -/
theorem mark_slot (regular : g.Regular) (same : source.sectorSize = g.bytesPerSector)
    {places : List (Nat × Nat)} (inside : ∀ place ∈ places, g.HasSlot place)
    (here : g.HasSlot place) {data : Bytes} (size : data.length = slotSize) :
    Bytes.mark (places.map (source.offsetOf g)) (source.offsetOf g place) data =
      if place ∈ places then Slot.erase data else data := by
  split
  next marked =>
    have filled : data ≠ [] := List.ne_nil_of_length_pos (by rw [size]; decide)
    refine Bytes.mark_of_first (List.mem_map_of_mem marked) filled fun offset other behind => ?_
    obtain ⟨slot, known, rfl⟩ := List.mem_map.mp other
    rw [size]
    by_contra near
    rw [regular.eq_of_offsetOf same here (inside slot known) (by omega) (by omega)] at behind
    exact Nat.lt_irrefl _ behind
  next unmarked =>
    refine Bytes.mark_of_apart fun offset other behind => ?_
    obtain ⟨slot, known, rfl⟩ := List.mem_map.mp other
    rw [size]
    by_contra near
    rw [regular.eq_of_offsetOf same here (inside slot known) behind (by omega)] at known
    exact unmarked known

end Geometry.Regular

/-- Marks on the image are marks on the slots, where the sectors of the volume are those of the
source. -/
theorem erased_marked {source : Source} {g : Geometry} (regular : g.Regular)
    (same : source.sectorSize = g.bytesPerSector) {places : List (Nat × Nat)}
    (inside : ∀ place ∈ places, g.HasSlot place) :
    Erased source (source.marked (places.map (source.offsetOf g))) g places where
  fat cluster valid := by
    have before : g.fatSector cluster + 1 ≤ g.dataStart :=
      Nat.le_trans (regular.fat_inside cluster valid).2 regular.fat_before_data
    rw [Source.fatEntry, Source.fatEntry, Source.read_marked]
    cases answered : source.read (g.fatSector cluster) g.bytesPerSector with
    | error failure => rfl
    | ok data =>
      -- The FAT ends where the slots begin.
      have apart : Bytes.mark (places.map (source.offsetOf g))
          ((source.startLba + g.fatSector cluster) * source.sectorSize) data = data := by
        refine Bytes.mark_of_apart fun offset marked _ => ?_
        obtain ⟨place, -, rfl⟩ := List.mem_map.mp marked
        refine Nat.le_trans ?_ (regular.dataStart_le_offsetOf same place)
        rw [Source.length_of_read answered, same, ← Nat.succ_mul]
        exact Nat.mul_le_mul_right _ (by omega)
      rw [Except.map, Except.map, Except.map, apart]
  slots cluster valid := by
    rw [Directory.slotsOf, Directory.slotsOf, Source.read_marked]
    cases answered : source.read (g.clusterSector cluster) g.clusterSize with
    | error failure => rfl
    | ok data =>
      have size := Source.length_of_read answered
      have whole : data.length = slotSize * g.slotsPerCluster := size.trans
        regular.slotSize_mul.symm
      have count : data.length / slotSize = g.slotsPerCluster := by rw [size]; rfl
      refine congrArg Except.ok ?_
      rw [Bytes.chunks, Bytes.length_mark, Bytes.pieces_mark, Bytes.chunks, count,
        Directory.eraseAt]
      refine List.ext_getElem (by simp) fun index _ low => ?_
      rw [List.length_mapIdx] at low
      have piece := Bytes.length_of_mem_pieces whole (List.getElem_mem low)
      rw [Bytes.length_pieces] at low
      have here : g.HasSlot (cluster, index) := ⟨valid, low⟩
      simp only [List.getElem_mapIdx]
      exact regular.mark_slot same inside here piece

end Undelete
