import Undelete.Directory.Slot
import Undelete.Proofs.Volume.Cache
import Undelete.Volume.BootSector

/-!
Small volumes for examples. A source over an image that is given as a list answers from that
list, so that what a probe finds in such an image can be computed. The volumes written here have
sectors of 512 bytes, clusters of one sector, a single FAT of one sector, and the root directory
in cluster 2.
-/

namespace Undelete

namespace Source

/-- A read of an image that is a list of bytes. -/
def readList (image : Bytes) (sectorSize sector count : Nat) : Except Failure Bytes :=
  if (ofImage image.toArray sectorSize).inRange image.length sector count then
    .ok (Bytes.slice image (sector * sectorSize) count)
  else .error (.unreadableSector sector)

theorem read_ofImage (image : Bytes) (sectorSize : Nat) :
    (ofImage image.toArray sectorSize).read = readList image sectorSize := by
  funext sector count
  rw [read_eq_slice]
  simp only [readList, ofImage, Nat.zero_add]
  rfl

/-- A read, counted from `lba` on, of an image that is a list of bytes. -/
def readListFrom (image : Bytes) (sectorSize lba sector count : Nat) : Except Failure Bytes :=
  if ((ofImage image.toArray sectorSize).setStart lba).inRange image.length sector count then
    .ok (Bytes.slice image ((lba + sector) * sectorSize) count)
  else .error (.unreadableSector sector)

theorem read_setStart (image : Bytes) (sectorSize lba : Nat) :
    ((ofImage image.toArray sectorSize).setStart lba).read = readListFrom image sectorSize lba := by
  funext sector count
  rw [read_eq_slice]
  rfl

/-- A FAT entry in an image that is a list of bytes. -/
def fatEntryList (image : Bytes) (sectorSize : Nat) (g : Geometry) (cluster : Nat) :
    Except Failure FatEntry :=
  (readList image sectorSize (g.fatSector cluster) g.bytesPerSector).map fun data =>
    FatEntry.ofRaw (FatEntry.mask (data.field (g.fatOffset cluster) 4))

theorem fatEntry_ofImage (image : Bytes) (sectorSize : Nat) (g : Geometry) :
    (ofImage image.toArray sectorSize).fatEntry g = fatEntryList image sectorSize g := by
  funext cluster
  rw [fatEntry, read_ofImage, fatEntryList]

end Source

theorem Probe.answer_ofImage {α : Type} (image : Bytes) (sectorSize : Nat) (g : Geometry)
    (work : Probe α) :
    work.answer (Source.ofImage image.toArray sectorSize) g =
      work.eval (Source.fatEntryList image sectorSize g) (Source.readList image sectorSize) := by
  rw [answer, Source.fatEntry_ofImage, Source.read_ofImage]

theorem Probe.answer_setStart {α : Type} (image : Bytes) (sectorSize lba : Nat) (g : Geometry)
    (work : Probe α) :
    work.answer ((Source.ofImage image.toArray sectorSize).setStart lba) g =
      work.eval (fun cluster =>
        (Source.readListFrom image sectorSize lba (g.fatSector cluster) g.bytesPerSector).map
          fun data => FatEntry.ofRaw (FatEntry.mask (data.field (g.fatOffset cluster) 4)))
        (Source.readListFrom image sectorSize lba) := by
  rw [← Source.read_setStart]
  rfl

/-- A result that passes a test is there. -/
theorem exists_ok {ε α : Type} {result : Except ε α} {Holds : α → Prop} [DecidablePred Holds]
    (tested : result.toOption.any (fun value => Holds value) = true) :
    ∃ value, result = .ok value ∧ Holds value := by
  cases result with
  | error failure => cases tested
  | ok value => exact ⟨value, rfl, of_decide_eq_true tested⟩

namespace Small

/-- A sector that begins with the given bytes. -/
def sector (data : Bytes) : Bytes := data ++ List.replicate (512 - data.length) 0

/-- The boot sector of a volume with so many clusters. -/
def boot (clusters : Nat) : Bytes :=
  [0xEB, 0x58, 0x90] ++ BootSector.tag "MSDOS5.0" ++ Bytes.ofNat 2 512 ++ [1] ++ Bytes.ofNat 2 1
    ++ [1] ++ List.replicate 15 0 ++ Bytes.ofNat 4 (clusters + 2) ++ Bytes.ofNat 4 1
    ++ List.replicate 4 0 ++ Bytes.ofNat 4 2 ++ List.replicate 34 0 ++ BootSector.tag "FAT32   "
    ++ List.replicate 420 0 ++ [0x55, 0xAA]

def geometry (clusters : Nat) : Geometry where
  bytesPerSector := 512
  sectorsPerCluster := 1
  reservedSectors := 1
  fatCount := 1
  fatSize := 1
  rootCluster := 2
  totalSectors := clusters + 2
  fatStart := 1
  dataStart := 2
  clusterCount := clusters

/-- A volume with the given FAT entries and cluster contents. -/
def image (fat : List Nat) (clusters : List Bytes) : Bytes :=
  boot clusters.length ++ sector (fat.flatMap (Bytes.ofNat 4)) ++ clusters.flatMap sector

def source (fat : List Nat) (clusters : List Bytes) : Source :=
  Source.ofImage (image fat clusters).toArray 512

/-- A partition table in sector 0, given the type, the start and the size of each partition. -/
def table (partitions : List (Nat × Nat × Nat)) : Bytes :=
  List.replicate Mbr.tableOffset 0
    ++ partitions.flatMap (fun (code, start, count) =>
      MbrEntry.encode ⟨0, ⟨0, 0, 0⟩, code, ⟨0, 0, 0⟩, start, count⟩)
    ++ List.replicate (MbrEntry.size * (4 - partitions.length)) 0 ++ [0x55, 0xAA]

/-- A disk with a partition table and the sectors behind it. -/
def disk (partitions : List (Nat × Nat × Nat)) (sectors : Bytes) : Source :=
  Source.ofImage (table partitions ++ sectors).toArray 512

/-- The FAT entry that ends a chain. -/
def chainEnd : Nat := 0x0FFFFFFF

/-- A short slot whose name is one byte. -/
def slot (name attributes : UInt8) (cluster size : Nat) : Bytes :=
  ShortSlot.encode
    { name := name :: List.replicate 7 0x20, extension := List.replicate 3 0x20, attributes
      caseFlags := 0, createTenths := 0, createTime := 0, createDate := 0, accessDate := 0
      clusterHigh := 0, writeTime := 0, writeDate := 0, clusterLow := cluster, fileSize := size }

end Small

end Undelete
