import Undelete.Volume.BootSector

/-!
How many clusters a size needs, and what holds of every accepted geometry: clusters are not empty,
each valid one lies inside the volume with all its sectors, and the root directory starts at a
valid one.
-/

namespace Undelete

namespace Number

theorem ceilDiv_pos {value size : Nat} (filled : 1 ≤ value) (positive : 0 < size) :
    1 ≤ ceilDiv value size :=
  (Nat.one_le_div_iff positive).mpr (by omega)

theorem ceilDiv_le (value : Nat) {size : Nat} (positive : 0 < size) :
    ceilDiv value size ≤ value := by
  apply Nat.lt_succ_iff.mp
  apply (Nat.div_lt_iff_lt_mul positive).mpr
  have grown := Nat.mul_le_mul_left value positive
  rw [Nat.succ_mul]
  omega

theorem ceilDiv_le_iff {value size count : Nat} (positive : 0 < size) :
    ceilDiv value size ≤ count ↔ value ≤ count * size := by
  rw [ceilDiv, ← Nat.lt_succ_iff, Nat.div_lt_iff_lt_mul positive, Nat.succ_mul]
  omega

theorem le_ceilDiv_mul (value : Nat) {size : Nat} (positive : 0 < size) :
    value ≤ ceilDiv value size * size :=
  (ceilDiv_le_iff positive).mp (Nat.le_refl _)

/-- One piece less is needed for what is left after a piece. -/
theorem ceilDiv_eq_succ {value size : Nat} (filled : 1 ≤ value) (positive : 0 < size) :
    ceilDiv value size = ceilDiv (value - size) size + 1 := by
  unfold ceilDiv
  by_cases last : value ≤ size
  · have none : value - size + size - 1 < size := by omega
    have one : value + size - 1 = (value - 1) + size := by omega
    rw [Nat.div_eq_of_lt none, one, Nat.add_div_right _ positive, Nat.div_eq_of_lt (by omega)]
  · have rest : value + size - 1 = (value - size + size - 1) + size := by omega
    rw [rest, Nat.add_div_right _ positive]

end Number

theorem Geometry.clustersFor_eq {g : Geometry} {size : Nat} (positive : 0 < g.clusterSize)
    (filled : 1 ≤ size) (word : size < UInt32.size) :
    g.clustersFor size = Number.ceilDiv size g.clusterSize := by
  have low := Number.ceilDiv_pos filled positive
  have high := Number.ceilDiv_le size positive
  unfold clustersFor maxWord
  omega

structure Geometry.Sound (g : Geometry) : Prop where
  clusterSize_pos : 0 < g.clusterSize
  root_valid : g.Valid g.rootCluster
  inside : ∀ cluster, g.Valid cluster →
    g.clusterSector cluster + g.sectorsPerCluster ≤ g.totalSectors

namespace BootSector

theorem clusterCount_le (boot : BootSector) :
    boot.clusterCount ≤ (boot.totalSectors - boot.dataStart) / boot.sectorsPerCluster :=
  Nat.le_trans (Nat.mod_le _ _) (Nat.min_le_left _ _)

theorem inside_of_valid {boot : BootSector} (begins : boot.dataStart < boot.totalSectors)
    {cluster : Nat} (valid : boot.layout.Valid cluster) :
    boot.layout.clusterSector cluster + boot.layout.sectorsPerCluster ≤
      boot.layout.totalSectors := by
  have count := boot.clusterCount_le
  obtain ⟨low, high⟩ := valid
  simp only [Geometry.maxCluster, layout] at high
  have places : cluster - 2 + 1 ≤
      (boot.totalSectors - boot.dataStart) / boot.sectorsPerCluster := by
    omega
  have sectors : (cluster - 2 + 1) * boot.sectorsPerCluster ≤
      boot.totalSectors - boot.dataStart :=
    Nat.le_trans (Nat.mul_le_mul_right _ places) (Nat.div_mul_le_self _ _)
  simp only [Geometry.clusterSector, layout]
  rw [Nat.add_mul, Nat.one_mul] at sectors
  omega

/-- What the numbers of a boot sector have to be for a geometry to be taken from them. -/
structure Acceptable (boot : BootSector) : Prop where
  sectorSize : boot.bytesPerSector ∈ sectorSizes
  clusterFactor : boot.sectorsPerCluster ∈ clusterFactors
  fatCount_ne : boot.fatCount ≠ 0
  fatSize_ne : boot.fatSize32 ≠ 0
  begins : boot.dataStart < boot.totalSectors
  root_valid : boot.layout.Valid boot.rootCluster

theorem acceptable_of_geometry {boot : BootSector} {g : Geometry}
    (accepted : boot.geometry = .ok g) : g = boot.layout ∧ boot.Acceptable := by
  unfold geometry at accepted
  split at accepted
  · cases accepted
  next sectorSize =>
    split at accepted
    · cases accepted
    next factor =>
      split at accepted
      · cases accepted
      next copies =>
        split at accepted
        · cases accepted
        next begins =>
          split at accepted
          next root =>
            cases accepted
            obtain ⟨some, filled⟩ := not_or.mp copies
            exact ⟨rfl, Decidable.not_not.mp sectorSize, Decidable.not_not.mp factor, some, filled,
              Nat.lt_of_not_le begins, root⟩
          · cases accepted

theorem sound_of_geometry {boot : BootSector} {g : Geometry}
    (accepted : boot.geometry = .ok g) : g.Sound := by
  obtain ⟨rfl, acceptable⟩ := acceptable_of_geometry accepted
  refine ⟨?_, acceptable.root_valid, fun cluster => inside_of_valid acceptable.begins⟩
  have positive : ∀ size ∈ sectorSizes, 0 < size := by decide
  have positive' : ∀ factor ∈ clusterFactors, 0 < factor := by decide
  exact Nat.mul_pos (positive _ acceptable.sectorSize) (positive' _ acceptable.clusterFactor)

end BootSector

end Undelete
