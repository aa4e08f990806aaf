import Undelete.Partition.Gpt
import Undelete.Partition.Mbr

/-!
Finding out which kind of partition table a disk has, and listing its partitions. When both
tables validate the GPT is used, because a GPT disk carries a protective MBR in front.
-/

namespace Undelete

inductive Filesystem where
  | fat32
  | ntfs
  | exFat
  | ext4
  | unknown
  deriving Repr, DecidableEq

def Filesystem.text : Filesystem → String
  | fat32 => "FAT32"
  | ntfs => "NTFS"
  | exFat => "exFAT"
  | ext4 => "EXT4"
  | unknown => "unknown"

inductive PartitionType where
  | mbr (code : Nat)
  | gpt (guid : Guid)
  deriving Repr, DecidableEq

namespace PartitionType

def text : PartitionType → String
  | mbr code => "0x" ++ Number.upperHex 2 code
  | gpt guid => guid.text

/-- What a type promises; the boot sector decides. -/
def declared : PartitionType → Filesystem
  | mbr code =>
    if code ∈ [0x0B, 0x0C, 0x1B, 0x1C] then .fat32
    else if code = 0x07 then .ntfs
    else if code = 0x83 then .ext4
    else .unknown
  | gpt guid =>
    if guid = Guid.basicData ∨ guid = Guid.efiSystem then .fat32
    else if guid = Guid.linuxFilesystem then .ext4
    else .unknown

end PartitionType

inductive Partition where
  | mbr (entry : MbrEntry)
  | gpt (entry : GptEntry)
  deriving Repr, DecidableEq

namespace Partition

def startLba : Partition → Nat
  | mbr entry => entry.startLba
  | gpt entry => entry.startLba

def sectorCount : Partition → Nat
  | mbr entry => entry.totalSectors
  | gpt entry => entry.sectorCount

/-- The last sector. -/
def endLba : Partition → Nat
  | mbr entry => entry.startLba + entry.totalSectors - 1
  | gpt entry => entry.endLba

def typeId : Partition → PartitionType
  | mbr entry => .mbr entry.partitionType
  | gpt entry => .gpt entry.partitionType

def declared (partition : Partition) : Filesystem := partition.typeId.declared

def name : Partition → Option String
  | mbr _ => none
  | gpt entry => if entry.name = "" then none else some entry.name

end Partition

/-- What sectors 0 and 1 of a disk say. -/
structure Detection where
  scheme : Scheme
  mbr : Mbr
  gpt : Option GptHeader
  warnings : List TableWarning
  deriving Repr, DecidableEq

namespace Detection

def schemeOf (mbr : Mbr) (gpt : Option GptHeader) : Scheme :=
  if gpt.any GptHeader.isValid then .gpt else if mbr.isValid then .mbr else .unknown

def oddities (mbr : Mbr) (gpt : Option GptHeader) : List TableWarning :=
  match schemeOf mbr gpt with
  | .gpt =>
    (if gpt.all GptHeader.crcMatches then [] else [.headerChecksum])
      ++ (if mbr.isValid && !mbr.isProtective then [.twoTables] else [])
  | .mbr => if mbr.isProtective then [.protectiveAlone] else []
  | .unknown => []

def ofTables (mbr : Mbr) (gpt : Option GptHeader) : Detection :=
  ⟨schemeOf mbr gpt, mbr, gpt, oddities mbr gpt⟩

/-- A disk whose second sector cannot be read has no GPT. -/
def ofSource [Digests] (source : Source) : Except Failure Detection := do
  let size := max (← source.bytesPerSector) Mbr.size
  let mbr ← Mbr.parse (← source.read 0 size)
  match source.read 1 size with
  | .ok data => pure (ofTables mbr (some (← GptHeader.parse data)))
  | .error _ => pure (ofTables mbr none)

def partitions [Digests] (detection : Detection) (source : Source) :
    Except Failure (List Partition × List TableWarning) := do
  match detection.scheme, detection.gpt with
  | .gpt, some header =>
    let (entries, warnings) ← header.partitions source (← source.bytesPerSector)
    pure (entries.map .gpt, warnings)
  | .mbr, _ => pure (detection.mbr.partitions.map .mbr, [])
  | _, _ => .error .noPartitionTable

end Detection

end Undelete
