import Undelete.Proofs.Volume.Layout

/-!
The regions of an accepted volume. The FAT entry of every valid cluster lies in the first copy of
the FAT, which ends before the data region begins, and every valid cluster lies in the data region
with all its sectors.
-/

namespace Undelete

namespace Geometry

structure Regular (g : Geometry) : Prop where
  sectorSize : g.bytesPerSector ∈ BootSector.sectorSizes
  clusterFactor : g.sectorsPerCluster ∈ BootSector.clusterFactors
  fat_inside : ∀ cluster, g.Valid cluster →
    g.fatStart ≤ g.fatSector cluster ∧ g.fatSector cluster < g.fatStart + g.fatSize
  fat_before_data : g.fatStart + g.fatSize ≤ g.dataStart
  data_inside : ∀ cluster, g.Valid cluster →
    g.dataStart ≤ g.clusterSector cluster ∧
      g.clusterSector cluster + g.sectorsPerCluster ≤ g.totalSectors

namespace Regular

variable {g : Geometry}

theorem bytesPerSector_pos (regular : g.Regular) : 512 ≤ g.bytesPerSector := by
  have least : ∀ size ∈ BootSector.sectorSizes, 512 ≤ size := by decide
  exact least _ regular.sectorSize

theorem sectorsPerCluster_pos (regular : g.Regular) : 1 ≤ g.sectorsPerCluster := by
  have least : ∀ factor ∈ BootSector.clusterFactors, 1 ≤ factor := by decide
  exact least _ regular.clusterFactor

theorem clusterSize_pos (regular : g.Regular) : 512 ≤ g.clusterSize := by
  calc
    512 = 512 * 1 := rfl
    _ ≤ g.bytesPerSector * g.sectorsPerCluster :=
      Nat.mul_le_mul regular.bytesPerSector_pos regular.sectorsPerCluster_pos

end Regular

end Geometry

namespace BootSector

theorem clusterCount_le_entries (boot : BootSector) :
    boot.clusterCount ≤ boot.fatSize32 * boot.bytesPerSector / 4 - 2 :=
  Nat.le_trans (Nat.mod_le _ _) (Nat.min_le_right _ _)

/-- The FAT has an entry for every valid cluster. -/
theorem fatSector_lt {boot : BootSector} (positive : 0 < boot.bytesPerSector) {cluster : Nat}
    (valid : boot.layout.Valid cluster) :
    boot.layout.fatSector cluster < boot.layout.fatStart + boot.layout.fatSize := by
  have count := boot.clusterCount_le_entries
  obtain ⟨low, high⟩ := valid
  simp only [Geometry.maxCluster, layout] at high
  have entries := Nat.div_mul_le_self (boot.fatSize32 * boot.bytesPerSector) 4
  have room : 4 * cluster < boot.fatSize32 * boot.bytesPerSector := by omega
  exact Nat.add_lt_add_left ((Nat.div_lt_iff_lt_mul positive).mpr room) _

theorem regular_of_geometry {boot : BootSector} {g : Geometry}
    (accepted : boot.geometry = .ok g) : g.Regular := by
  have sound := sound_of_geometry accepted
  obtain ⟨rfl, acceptable⟩ := acceptable_of_geometry accepted
  have positive : ∀ size ∈ sectorSizes, 0 < size := by decide
  refine ⟨acceptable.sectorSize, acceptable.clusterFactor, ?_, ?_, ?_⟩
  · exact fun cluster valid =>
      ⟨Nat.le_add_right _ _, fatSector_lt (positive _ acceptable.sectorSize) valid⟩
  · exact Nat.add_le_add_left
      (Nat.le_mul_of_pos_left _ (Nat.pos_of_ne_zero acceptable.fatCount_ne)) _
  · exact fun cluster valid => ⟨Nat.le_add_right _ _, sound.inside cluster valid⟩

end BootSector

end Undelete
