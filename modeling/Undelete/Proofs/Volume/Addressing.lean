import Mathlib.Data.List.Perm.Subperm
import Undelete.Proofs.Volume.Regions
import Undelete.Proofs.Volume.Small

/-!
The addresses in an accepted volume. There are as many clusters as the data region has room for and
the FAT has entries for. Every cluster has an entry of its own, in one sector of the first copy of
the FAT, and sectors of its own in the data region. No number that addresses them leaves its word,
because the FAT of a volume takes up sectors itself.
-/

namespace Undelete

namespace Geometry

/-- Whether a sector belongs to a cluster. -/
def Holds (g : Geometry) (cluster sector : Nat) : Prop :=
  g.clusterSector cluster ≤ sector ∧ sector < g.clusterSector cluster + g.sectorsPerCluster

/-- A volume in which every cluster can be addressed, and no two alike. -/
structure Addressable (g : Geometry) : Prop where
  count : g.clusterCount = min ((g.totalSectors - g.dataStart) / g.sectorsPerCluster)
    (g.fatSize * g.bytesPerSector / 4 - 2)
  entry_inside : ∀ cluster, g.Valid cluster →
    g.fatStart ≤ g.fatSector cluster ∧ g.fatSector cluster < g.fatStart + g.fatSize ∧
      g.fatOffset cluster + 4 ≤ g.bytesPerSector
  /-- The entries follow each other from the start of the FAT on. -/
  entry_place : ∀ cluster,
    (g.fatSector cluster - g.fatStart) * g.bytesPerSector + g.fatOffset cluster = 4 * cluster
  data_inside : ∀ cluster sector, g.Valid cluster → g.Holds cluster sector →
    g.dataStart ≤ sector ∧ sector < g.totalSectors
  data_apart : ∀ one other sector, g.Valid one → g.Valid other →
    g.Holds one sector → g.Holds other sector → one = other
  root_valid : g.Valid g.rootCluster
  clusterSize_word : g.clusterSize < UInt32.size
  /-- The greatest cluster number is not cut off by its word. -/
  maxCluster_eq : g.maxCluster = g.clusterCount + 1
  next_word : ∀ cluster, g.Valid cluster → cluster + 1 < UInt32.size
  sector_word : ∀ cluster, g.Valid cluster →
    g.clusterSector cluster + g.sectorsPerCluster < UInt64.size

variable {g : Geometry}

theorem entry_place (g : Geometry) (cluster : Nat) :
    (g.fatSector cluster - g.fatStart) * g.bytesPerSector + g.fatOffset cluster = 4 * cluster := by
  rw [fatSector, fatOffset, Nat.add_sub_cancel_left, Nat.mul_comm]
  exact Nat.div_add_mod _ _

/-- There are no more distinct valid clusters than the volume has. -/
theorem length_le_clusterCount {clusters : List Nat} (nodup : clusters.Nodup)
    (valid : ∀ cluster ∈ clusters, g.Valid cluster) : clusters.length ≤ g.clusterCount := by
  have inside : clusters ⊆ List.range' 2 g.clusterCount := by
    intro cluster member
    obtain ⟨low, high⟩ := valid cluster member
    rw [maxCluster] at high
    rw [List.mem_range'_1]
    omega
  have fewer := (nodup.subperm inside).length_le
  rwa [List.length_range'] at fewer

namespace Regular

/-- Sectors are whole numbers of FAT entries, so that no entry lies across two of them. -/
theorem fatOffset_le (regular : g.Regular) (cluster : Nat) :
    g.fatOffset cluster + 4 ≤ g.bytesPerSector := by
  have aligned : ∀ size ∈ BootSector.sectorSizes, size % 4 = 0 := by decide
  have whole := aligned _ regular.sectorSize
  have positive := regular.bytesPerSector_pos
  have inside : g.fatOffset cluster < g.bytesPerSector := Nat.mod_lt _ (by omega)
  have entry : g.fatOffset cluster % 4 = 0 := by
    rw [fatOffset, Nat.mod_mod_of_dvd _ (Nat.dvd_of_mod_eq_zero whole), Nat.mul_mod_right]
  omega

theorem clusterSize_lt (regular : g.Regular) : g.clusterSize < UInt32.size := by
  have sector : ∀ size ∈ BootSector.sectorSizes, size ≤ 32768 := by decide
  have factor : ∀ count ∈ BootSector.clusterFactors, count ≤ 128 := by decide
  calc
    g.bytesPerSector * g.sectorsPerCluster ≤ 32768 * 128 :=
      Nat.mul_le_mul (sector _ regular.sectorSize) (factor _ regular.clusterFactor)
    _ < UInt32.size := by decide

/-- A sector belongs to one cluster at most. -/
theorem eq_of_holds (regular : g.Regular) {one other sector : Nat} (valid : g.Valid one)
    (valid' : g.Valid other) (held : g.Holds one sector) (held' : g.Holds other sector) :
    one = other := by
  have positive := regular.sectorsPerCluster_pos
  have place : ∀ {cluster}, g.Holds cluster sector →
      (sector - g.dataStart) / g.sectorsPerCluster = cluster - 2 := by
    rintro cluster ⟨low, high⟩
    rw [clusterSector] at low high
    exact Nat.div_eq_of_lt_le (by omega) (by rw [Nat.succ_mul]; omega)
  have same := (place held).symm.trans (place held')
  have low := valid.1
  have low' := valid'.1
  omega

end Regular

end Geometry

namespace BootSector

theorem eq_decode_of_parse {data : Bytes} {boot : BootSector} (parsed : parse data = .ok boot) :
    boot = decode data := by
  unfold parse at parsed
  split at parsed
  · cases parsed
  · cases parsed
    rfl

theorem totalSectors_lt (data : Bytes) : (decode data).totalSectors < UInt32.size := by
  have short := data.field_lt 19 2
  have long := data.field_lt 32 4
  have word : Bytes.limit 4 = UInt32.size := rfl
  have half : Bytes.limit 2 ≤ UInt32.size := by decide
  rw [totalSectors]
  split
  · exact word ▸ long
  · exact Nat.lt_of_lt_of_le short half

/-- The FAT itself takes up so many sectors that cluster numbers stay clear of the word's end. -/
theorem room_lt {boot : BootSector} (acceptable : boot.Acceptable)
    (word : boot.totalSectors < UInt32.size) :
    min ((boot.totalSectors - boot.dataStart) / boot.sectorsPerCluster)
      (boot.fatSize32 * boot.bytesPerSector / 4 - 2) + 2 < UInt32.size := by
  have filled := acceptable.fatSize_ne
  have begins := acceptable.begins
  have before : boot.fatSize32 ≤ boot.dataStart := by
    have copies := Nat.le_mul_of_pos_left boot.fatSize32 (Nat.pos_of_ne_zero acceptable.fatCount_ne)
    rw [dataStart]
    omega
  have greatest : ∀ size ∈ sectorSizes, size ≤ 32768 := by decide
  have entries : boot.fatSize32 * boot.bytesPerSector ≤ boot.fatSize32 * 32768 :=
    Nat.mul_le_mul_left _ (greatest _ acceptable.sectorSize)
  have sectors := Nat.div_le_self (boot.totalSectors - boot.dataStart) boot.sectorsPerCluster
  simp only [UInt32.size] at word ⊢
  omega

theorem clusterCount_eq {boot : BootSector} (acceptable : boot.Acceptable)
    (word : boot.totalSectors < UInt32.size) :
    boot.clusterCount = min ((boot.totalSectors - boot.dataStart) / boot.sectorsPerCluster)
      (boot.fatSize32 * boot.bytesPerSector / 4 - 2) := by
  have room := room_lt acceptable word
  exact Nat.mod_eq_of_lt (by omega)

/-- No cluster number is cut off by its word, and the one behind it is not either. -/
theorem maxCluster_lt {boot : BootSector} (acceptable : boot.Acceptable)
    (word : boot.totalSectors < UInt32.size) :
    boot.layout.maxCluster = boot.clusterCount + 1 ∧ boot.clusterCount + 2 < UInt32.size := by
  have room := room_lt acceptable word
  rw [← clusterCount_eq acceptable word] at room
  refine ⟨?_, room⟩
  simp only [Geometry.maxCluster, Geometry.maxWord, layout]
  omega

theorem next_lt {boot : BootSector} (acceptable : boot.Acceptable)
    (word : boot.totalSectors < UInt32.size) {cluster : Nat}
    (valid : boot.layout.Valid cluster) : cluster + 1 < UInt32.size := by
  obtain ⟨greatest, room⟩ := maxCluster_lt acceptable word
  have high := valid.2
  omega

/-- Whatever bytes a boot sector is read from, the geometry taken from it, if there is one, is that
of an addressable volume. -/
theorem geometry_addressable {data : Bytes} (long : size ≤ data.length) :
    ∃ boot, parse data = .ok boot ∧
      ∀ g, boot.geometry = .ok g → g = boot.layout ∧ g.Addressable := by
  refine ⟨decode data, if_neg (Nat.not_lt_of_le long), ?_⟩
  intro g accepted
  have regular := regular_of_geometry accepted
  have sound := sound_of_geometry accepted
  obtain ⟨rfl, acceptable⟩ := acceptable_of_geometry accepted
  have word := totalSectors_lt data
  refine ⟨rfl, clusterCount_eq acceptable word, ?_, Geometry.entry_place _, ?_, ?_,
    sound.root_valid, regular.clusterSize_lt, (maxCluster_lt acceptable word).1,
    fun cluster => next_lt acceptable word, ?_⟩
  · intro cluster valid
    obtain ⟨low, high⟩ := regular.fat_inside cluster valid
    exact ⟨low, high, regular.fatOffset_le cluster⟩
  · rintro cluster sector valid ⟨from', until'⟩
    obtain ⟨low, high⟩ := regular.data_inside cluster valid
    exact ⟨Nat.le_trans low from', Nat.lt_of_lt_of_le until' high⟩
  · exact fun one other sector => regular.eq_of_holds
  · intro cluster valid
    have inside := (regular.data_inside cluster valid).2
    have narrow : UInt32.size < UInt64.size := by decide
    have total : (decode data).layout.totalSectors = (decode data).totalSectors := rfl
    omega

/-- A boot sector of a volume with as many sectors as a word can count, the greatest sectors that
there are, and a FAT with almost enough entries for every word. -/
def broad : Bytes :=
  [0xEB, 0x58, 0x90] ++ tag "MSDOS5.0" ++ Bytes.ofNat 2 32768 ++ [1] ++ Bytes.ofNat 2 1 ++ [1]
    ++ List.replicate 15 0 ++ Bytes.ofNat 4 0xFFFFFFFF ++ Bytes.ofNat 4 0x7FFFF
    ++ List.replicate 4 0 ++ Bytes.ofNat 4 2 ++ List.replicate 34 0 ++ tag "FAT32   "
    ++ List.replicate 420 0 ++ [0x55, 0xAA]

theorem geometry_addressable_broad :
    size ≤ broad.length ∧ ∃ boot g, parse broad = .ok boot ∧ boot.geometry = .ok g ∧
      g.clusterCount = 0xFFF7FFFF ∧ g.Addressable := by
  have long : size ≤ broad.length := by decide +kernel
  obtain ⟨boot, parsed, addressable⟩ := geometry_addressable long
  obtain ⟨g, accepted, count⟩ : ∃ g, (decode broad).geometry = .ok g ∧
      g.clusterCount = 0xFFF7FFFF := by
    apply exists_ok
    decide +kernel
  have read : parse broad = .ok (decode broad) := if_neg (Nat.not_lt_of_le long)
  cases read.symm.trans parsed
  exact ⟨long, decode broad, g, parsed, accepted, count, (addressable g accepted).2⟩

end BootSector

end Undelete
