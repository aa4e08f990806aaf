import Undelete.Partition.Table
import Undelete.Text.Utf8
import Undelete.Volume.Geometry

/-!
The boot sector of a volume. `BootSector.geometry` accepts exactly those whose numbers describe
a volume with a data region and a root cluster inside it.
-/

namespace Undelete

structure BootSector where
  jump : Bytes
  oemName : Bytes
  bytesPerSector : Nat
  sectorsPerCluster : Nat
  reservedSectors : Nat
  fatCount : Nat
  rootEntries : Nat
  totalSectors16 : Nat
  media : Nat
  fatSize16 : Nat
  sectorsPerTrack : Nat
  heads : Nat
  hiddenSectors : Nat
  totalSectors32 : Nat
  fatSize32 : Nat
  extFlags : Nat
  fsVersion : Nat
  rootCluster : Nat
  fsInfo : Nat
  backupBootSector : Nat
  driveNumber : Nat
  bootSignature : Nat
  volumeId : Nat
  label : Bytes
  filesystemType : Bytes
  signature : Nat
  deriving Repr, DecidableEq

namespace BootSector

def size : Nat := 512

def decode (data : Bytes) : BootSector where
  jump := data.slice 0 3
  oemName := data.slice 3 8
  bytesPerSector := data.field 11 2
  sectorsPerCluster := data.field 13 1
  reservedSectors := data.field 14 2
  fatCount := data.field 16 1
  rootEntries := data.field 17 2
  totalSectors16 := data.field 19 2
  media := data.field 21 1
  fatSize16 := data.field 22 2
  sectorsPerTrack := data.field 24 2
  heads := data.field 26 2
  hiddenSectors := data.field 28 4
  totalSectors32 := data.field 32 4
  fatSize32 := data.field 36 4
  extFlags := data.field 40 2
  fsVersion := data.field 42 2
  rootCluster := data.field 44 4
  fsInfo := data.field 48 2
  backupBootSector := data.field 50 2
  driveNumber := data.field 64 1
  bootSignature := data.field 66 1
  volumeId := data.field 67 4
  label := data.slice 71 11
  filesystemType := data.slice 82 8
  signature := data.field 510 2

def parse (data : Bytes) : Except Failure BootSector :=
  if data.length < size then
    .error (.badBootSector s!"need {size} bytes, got {data.length}")
  else .ok (decode data)

/-- A label ends at its first space or zero byte. -/
def trimLabel (label : Bytes) : Bytes := label.takeWhile fun byte => byte ≠ 0x20 && byte ≠ 0

def tag (text : String) : Bytes := text.toList.map fun c => UInt8.ofNat c.toNat

/-- The file system named by the type label, or else by the maker's name. -/
def filesystem (boot : BootSector) : Filesystem :=
  let kind := trimLabel boot.filesystemType
  let maker := trimLabel boot.oemName
  if kind = tag "FAT32" then .fat32
  else if kind = tag "NTFS" then .ntfs
  else if kind = tag "exFAT" then .exFat
  else if kind = tag "EXT4" then .ext4
  else if maker = tag "NTFS" then .ntfs
  else if maker = tag "EXFAT" then .exFat
  else .unknown

def hasSignature (boot : BootSector) : Bool := boot.signature = 0xAA55

def volumeLabel (boot : BootSector) : String :=
  String.ofList (Text.Utf8.decode (trimLabel boot.label))

def totalSectors (boot : BootSector) : Nat :=
  if boot.totalSectors32 ≠ 0 then boot.totalSectors32 else boot.totalSectors16

def sectorSizes : List Nat := [512, 1024, 2048, 4096, 8192, 16384, 32768]

def clusterFactors : List Nat := [1, 2, 4, 8, 16, 32, 64, 128]

def dataStart (boot : BootSector) : Nat := boot.reservedSectors + boot.fatCount * boot.fatSize32

/-- As many clusters as the data region has room for and the FAT has entries for. -/
def clusterCount (boot : BootSector) : Nat :=
  min ((boot.totalSectors - boot.dataStart) / boot.sectorsPerCluster)
    (boot.fatSize32 * boot.bytesPerSector / 4 - 2) % UInt32.size

def layout (boot : BootSector) : Geometry where
  bytesPerSector := boot.bytesPerSector
  sectorsPerCluster := boot.sectorsPerCluster
  reservedSectors := boot.reservedSectors
  fatCount := boot.fatCount
  fatSize := boot.fatSize32
  rootCluster := boot.rootCluster
  totalSectors := boot.totalSectors
  fatStart := boot.reservedSectors
  dataStart := boot.dataStart
  clusterCount := boot.clusterCount

def geometry (boot : BootSector) : Except Failure Geometry :=
  if boot.bytesPerSector ∉ sectorSizes then
    .error (.badBootSector s!"bytes per sector {boot.bytesPerSector}")
  else if boot.sectorsPerCluster ∉ clusterFactors then
    .error (.badBootSector s!"sectors per cluster {boot.sectorsPerCluster}")
  else if boot.fatCount = 0 ∨ boot.fatSize32 = 0 then
    .error (.badBootSector s!"{boot.fatCount} FATs of {boot.fatSize32} sectors")
  else if boot.totalSectors ≤ boot.dataStart then
    .error (.badBootSector
      s!"data region starts at sector {boot.dataStart} of {boot.totalSectors}")
  else if boot.layout.Valid boot.rootCluster then .ok boot.layout
  else
    .error (.badBootSector
      s!"root cluster {boot.rootCluster} outside 2..={boot.layout.maxCluster}")

def ofSource (source : Source) (sector : Nat) : Except Failure BootSector := do
  let count := max (← source.bytesPerSector) size
  parse (← source.read sector count)

end BootSector

namespace Source

/-- The file system of the boot sector at `sector`; one without a signature stays unknown. -/
def filesystem (source : Source) (sector : Nat) : Except Failure Filesystem := do
  let boot ← BootSector.ofSource source sector
  pure (if boot.hasSignature then boot.filesystem else .unknown)

/-- The geometry of the FAT32 volume whose boot sector is at `sector`. -/
def geometry (source : Source) (sector : Nat) : Except Failure Geometry := do
  let boot ← BootSector.ofSource source sector
  if boot.filesystem = .fat32 then boot.geometry
  else .error (.unsupportedFilesystem boot.filesystem.text)

/-- A summary of the volume in lines of text. -/
def volumeSummary (source : Source) : Except Failure String := do
  let boot ← BootSector.ofSource source 0
  let g ← boot.geometry
  let megabytes := g.totalSectors * g.bytesPerSector / (1024 * 1024)
  pure (String.intercalate "\n"
    ["FAT32 File System",
     "- Volume Label: " ++ boot.volumeLabel,
     "- Volume ID: 0x" ++ Number.upperHex 8 boot.volumeId,
     s!"- Bytes per Sector: {g.bytesPerSector}",
     s!"- Sectors per Cluster: {g.sectorsPerCluster}",
     s!"- Bytes per Cluster: {g.clusterSize}",
     s!"- Volume Size: {megabytes} MB",
     s!"- Cluster Count: {g.clusterCount}",
     s!"- Reserved Sectors: {g.reservedSectors}",
     s!"- FATs: {g.fatCount} x {g.fatSize} sectors",
     s!"- Root Directory Cluster: {g.rootCluster}"])

end Source

end Undelete
