import Undelete.Bytes
import Undelete.Failure

/-!
The master boot record: four partition slots of sixteen bytes at offset 446 and a signature at
the end of sector 0. `MbrEntry.encode` writes a slot back.
-/

namespace Undelete

/-- Cylinder, head and sector; the cylinder's two high bits share a byte with the sector. -/
structure Chs where
  head : Nat
  sector : Nat
  cylinder : Nat
  deriving Repr, DecidableEq

namespace Chs

def decode (data : Bytes) : Chs where
  head := data.field 0 1
  sector := data.field 1 1 % 64
  cylinder := data.field 1 1 / 64 * 256 + data.field 2 1

def encode (chs : Chs) : Bytes :=
  Bytes.ofNat 1 chs.head ++ Bytes.ofNat 1 (chs.cylinder / 256 * 64 + chs.sector)
    ++ Bytes.ofNat 1 chs.cylinder

end Chs

structure MbrEntry where
  bootIndicator : Nat
  startChs : Chs
  partitionType : Nat
  endChs : Chs
  startLba : Nat
  totalSectors : Nat
  deriving Repr, DecidableEq

namespace MbrEntry

def size : Nat := 16

def decode (data : Bytes) : MbrEntry where
  bootIndicator := data.field 0 1
  startChs := Chs.decode (data.slice 1 3)
  partitionType := data.field 4 1
  endChs := Chs.decode (data.slice 5 3)
  startLba := data.field 8 4
  totalSectors := data.field 12 4

def encode (entry : MbrEntry) : Bytes :=
  Bytes.ofNat 1 entry.bootIndicator ++ entry.startChs.encode ++ Bytes.ofNat 1 entry.partitionType
    ++ entry.endChs.encode ++ Bytes.ofNat 4 entry.startLba ++ Bytes.ofNat 4 entry.totalSectors

def parse (data : Bytes) : Except Failure MbrEntry :=
  if data.length < size then .error (.badPartitionTable "MBR partition entry truncated")
  else .ok (decode data)

def isBootable (entry : MbrEntry) : Bool := entry.bootIndicator = 0x80

def isPresent (entry : MbrEntry) : Bool := entry.totalSectors ≠ 0

/-- The placeholder that a GPT disk shows to tools that know only this table. -/
def isProtective (entry : MbrEntry) : Bool := entry.isPresent && entry.partitionType = 0xEE

end MbrEntry

structure Mbr where
  /-- All four slots, used or not. -/
  slots : List MbrEntry
  signature : Nat
  deriving Repr, DecidableEq

namespace Mbr

def size : Nat := 512

def tableOffset : Nat := 446

def decode (data : Bytes) : Mbr where
  slots := (Bytes.pieces MbrEntry.size 4 (data.drop tableOffset)).map MbrEntry.decode
  signature := data.field 510 2

theorem length_slots (data : Bytes) : (decode data).slots.length = 4 := rfl

def parse (data : Bytes) : Except Failure Mbr :=
  if data.length < size then
    .error (.badPartitionTable s!"MBR needs {size} bytes, got {data.length}")
  else .ok (decode data)

def isValid (mbr : Mbr) : Bool := mbr.signature = 0xAA55

def isProtective (mbr : Mbr) : Bool := mbr.slots.any MbrEntry.isProtective

/-- The used slots in table order. -/
def partitions (mbr : Mbr) : List MbrEntry := mbr.slots.filter MbrEntry.isPresent

end Mbr

end Undelete
