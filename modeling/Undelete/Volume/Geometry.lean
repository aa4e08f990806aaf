import Undelete.Number.Text

/-!
The layout of a FAT32 volume: reserved sectors, the copies of the FAT, then the data clusters,
which are numbered from 2. All addressing of clusters goes through here.
-/

namespace Undelete

structure Geometry where
  bytesPerSector : Nat
  sectorsPerCluster : Nat
  reservedSectors : Nat
  fatCount : Nat
  /-- Sectors in one copy of the FAT. -/
  fatSize : Nat
  rootCluster : Nat
  totalSectors : Nat
  fatStart : Nat
  dataStart : Nat
  clusterCount : Nat
  deriving Repr, DecidableEq

namespace Geometry

/-- Cluster numbers and counts are 32-bit words. -/
def maxWord : Nat := UInt32.size - 1

def clusterSize (g : Geometry) : Nat := g.bytesPerSector * g.sectorsPerCluster

def maxCluster (g : Geometry) : Nat := min (g.clusterCount + 1) maxWord

def Valid (g : Geometry) (cluster : Nat) : Prop := 2 ≤ cluster ∧ cluster ≤ g.maxCluster

instance (g : Geometry) (cluster : Nat) : Decidable (g.Valid cluster) :=
  inferInstanceAs (Decidable (_ ∧ _))

/-- The first sector of a cluster. -/
def clusterSector (g : Geometry) (cluster : Nat) : Nat :=
  g.dataStart + (cluster - 2) * g.sectorsPerCluster

/-- How many clusters hold `size` bytes; an empty file still has one. -/
def clustersFor (g : Geometry) (size : Nat) : Nat :=
  min (max (Number.ceilDiv size g.clusterSize) 1) maxWord

theorem clustersFor_pos (g : Geometry) (size : Nat) : 1 ≤ g.clustersFor size := by
  have room : 1 ≤ maxWord := by decide
  unfold clustersFor
  omega

/-- The sector of the first FAT copy with a cluster's entry. -/
def fatSector (g : Geometry) (cluster : Nat) : Nat :=
  g.fatStart + 4 * cluster / g.bytesPerSector

/-- Where in that sector the entry lies. -/
def fatOffset (g : Geometry) (cluster : Nat) : Nat := 4 * cluster % g.bytesPerSector

end Geometry

end Undelete
