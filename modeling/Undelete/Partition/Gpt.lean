import Undelete.Digests
import Undelete.Guid
import Undelete.Number.Text
import Undelete.Source
import Undelete.Text.Utf16

/-!
The GUID partition table: a header in sector 1 and an array of equal entries that it points to.
An entry's size divides the sector, so that no entry lies across two of them. A wrong checksum
is a warning and nothing more. `GptEntry.encode` writes an entry back.
-/

namespace Undelete

/-- What is odd about a partition table without making it unusable. -/
inductive TableWarning where
  | headerChecksum
  | twoTables
  | protectiveAlone
  | arrayChecksum (stored computed : Nat)
  deriving Repr, DecidableEq

def TableWarning.text : TableWarning → String
  | headerChecksum => "GPT header CRC mismatch; using it anyway"
  | twoTables => "Both a non-protective MBR and a GPT validate; using GPT"
  | protectiveAlone => "Protective MBR found but the GPT header does not validate"
  | arrayChecksum stored computed =>
    "GPT partition entry array CRC mismatch: stored 0x" ++ Number.upperHex 8 stored
      ++ ", computed 0x" ++ Number.upperHex 8 computed

structure GptHeader where
  signature : Bytes
  revision : Nat
  headerSize : Nat
  headerCrc : Nat
  currentLba : Nat
  backupLba : Nat
  firstUsableLba : Nat
  lastUsableLba : Nat
  diskGuid : Guid
  entriesLba : Nat
  entryCount : Nat
  entrySize : Nat
  arrayCrc : Nat
  /-- Whether the stored checksum is that of the header bytes. -/
  crcMatches : Bool
  deriving Repr, DecidableEq

namespace GptHeader

def minSize : Nat := 92

def magic : Bytes := [0x45, 0x46, 0x49, 0x20, 0x50, 0x41, 0x52, 0x54]

/-- The header's checksum is taken with its own field zeroed. -/
def checksum? [Digests] (data : Bytes) (size : Nat) : Option Nat :=
  if minSize ≤ size ∧ size ≤ data.length then
    some (Digests.checksum (data.take 16 ++ [0, 0, 0, 0] ++ (data.take size).drop 20))
  else none

def decode [Digests] (data : Bytes) : GptHeader where
  signature := data.slice 0 8
  revision := data.field 8 4
  headerSize := data.field 12 4
  headerCrc := data.field 16 4
  currentLba := data.field 24 8
  backupLba := data.field 32 8
  firstUsableLba := data.field 40 8
  lastUsableLba := data.field 48 8
  diskGuid := Guid.ofDisk (data.slice 56 16)
  entriesLba := data.field 72 8
  entryCount := data.field 80 4
  entrySize := data.field 84 4
  arrayCrc := data.field 88 4
  crcMatches := checksum? data (data.field 12 4) = some (data.field 16 4)

def parse [Digests] (data : Bytes) : Except Failure GptHeader :=
  if data.length < minSize then .error (.badPartitionTable "GPT header truncated")
  else .ok (decode data)

def isValid (header : GptHeader) : Bool := header.signature = magic

end GptHeader

structure GptEntry where
  partitionType : Guid
  unique : Guid
  startLba : Nat
  endLba : Nat
  attributes : Nat
  name : String
  deriving Repr, DecidableEq

namespace GptEntry

def minSize : Nat := 128

def decode (data : Bytes) : GptEntry where
  partitionType := Guid.ofDisk (data.slice 0 16)
  unique := Guid.ofDisk (data.slice 16 16)
  startLba := data.field 32 8
  endLba := data.field 40 8
  attributes := data.field 48 8
  name := String.ofList (Text.Utf16.decodeTerminated (data.slice 56 72))

/-- The units of a name with zeros up to the width of its field. -/
def paddedName (name : String) : List Nat :=
  let units := Text.Utf16.encode name.toList
  units ++ List.replicate (36 - units.length) 0

def encode (entry : GptEntry) : Bytes :=
  entry.partitionType.toDisk ++ entry.unique.toDisk ++ Bytes.ofNat 8 entry.startLba
    ++ Bytes.ofNat 8 entry.endLba ++ Bytes.ofNat 8 entry.attributes
    ++ (paddedName entry.name).flatMap (Bytes.ofNat 2)

def parse (data : Bytes) : Except Failure GptEntry :=
  if data.length < minSize then .error (.badPartitionTable "GPT partition entry truncated")
  else .ok (decode data)

/-- A slot with the nil type is unused. -/
def isEmpty (entry : GptEntry) : Bool := entry.partitionType.isNil

def sectorCount (entry : GptEntry) : Nat := entry.endLba + 1 - entry.startLba

end GptEntry

namespace GptHeader

def maxEntries : Nat := 16384

/-- The raw records of an array whose sectors hold `perSector` records each. -/
def records (header : GptHeader) (source : Source) (sectorSize : Nat) :
    Except Failure (List Bytes) := do
  let perSector := sectorSize / header.entrySize
  let sectors ← (List.range (Number.ceilDiv header.entryCount perSector)).mapM fun index =>
    source.read (header.entriesLba + index) sectorSize
  pure ((sectors.flatMap (Bytes.pieces header.entrySize perSector)).take header.entryCount)

def checkShape (header : GptHeader) (sectorSize : Nat) : Except Failure Unit :=
  if header.entrySize < GptEntry.minSize ∨ sectorSize % header.entrySize ≠ 0 then
    .error (.badPartitionTable
      s!"entry size {header.entrySize} incompatible with {sectorSize}-byte sectors")
  else if header.entryCount > maxEntries then
    .error (.badPartitionTable
      s!"{header.entryCount} partition entries exceeds limit of {maxEntries}")
  else .ok ()

/-- Every used entry in array order, with a warning when the array's checksum is wrong. -/
def partitions [Digests] (header : GptHeader) (source : Source) (sectorSize : Nat) :
    Except Failure (List GptEntry × List TableWarning) := do
  header.checkShape sectorSize
  let raw ← header.records source sectorSize
  let crc := Digests.checksum raw.flatten
  let warnings := if crc = header.arrayCrc then [] else [.arrayChecksum header.arrayCrc crc]
  pure ((raw.map GptEntry.decode).filter (!·.isEmpty), warnings)

end GptHeader

end Undelete
