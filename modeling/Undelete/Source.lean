import Undelete.Bytes
import Undelete.Drive

/-!
A source answers reads of whole sectors, counted from a start that can be moved to the first
sector of a partition. A read succeeds when the source is open, the byte range lies on the medium,
and none of the sums and products leaves 64 bits.
-/

namespace Undelete

/-- What stands behind a source. A device file may be refused by the host, or be empty. -/
inductive Medium where
  | memory (image : Array UInt8)
  | file (path : String) (category : Category) (stored : Except String (Array UInt8))

structure Source where
  medium : Medium
  sectorSize : Nat
  startLba : Nat
  /-- The bytes that reads are answered from; nothing while the source is closed. -/
  contents : Option (Array UInt8)

namespace Source

def ofImage (image : Array UInt8) (sectorSize : Nat) : Source :=
  { medium := .memory image, sectorSize, startLba := 0, contents := some image }

def isOpen (source : Source) : Bool := source.contents.isSome

def close (source : Source) : Source := { source with contents := none }

def setStart (source : Source) (lba : Nat) : Source := { source with startLba := lba }

def reopen (source : Source) : Except Failure Source :=
  match source.medium with
  | .memory image => .ok { source with contents := some image }
  | .file path _ (.error reason) => .error (.unreadableDevice (path ++ ": " ++ reason))
  | .file path _ (.ok image) =>
    if image.size = 0 then .error (.unreadableDevice (path ++ ": device reports zero length"))
    else .ok { source with contents := some image }

def openFile (drive : Drive) (stored : Except String (Array UInt8)) (sectorSize : Nat) :
    Except Failure Source :=
  let medium := .file drive.path drive.category stored
  reopen { medium, sectorSize, startLba := 0, contents := none }

def bytesPerSector (source : Source) : Except Failure Nat :=
  if source.sectorSize ≠ 0 then .ok source.sectorSize
  else match source.medium with
    | .memory _ => .error (.unreadableDevice "unknown sector size")
    | .file path .. => .error (.unreadableDevice (path ++ ": unknown sector size"))

/-- Addresses are 64-bit words. -/
def addressLimit : Nat := UInt64.size

def inRange (source : Source) (size sector count : Nat) : Bool :=
  let position := source.startLba + sector
  let offset := position * source.sectorSize
  position < addressLimit && offset < addressLimit && offset + count < addressLimit
    && offset + count ≤ size

/-- The `count` bytes from the start of `sector` on. -/
def read (source : Source) (sector count : Nat) : Except Failure Bytes :=
  match source.contents with
  | none => .error (.unreadableSector sector)
  | some image =>
    if source.inRange image.size sector count then
      let offset := (source.startLba + sector) * source.sectorSize
      .ok (image.extract offset (offset + count)).toList
    else .error (.unreadableSector sector)

/-- A read into a buffer of the caller, which is as long as what is read. -/
def fill (source : Source) (sector : Nat) : ExceptT Failure (StateM Bytes) Unit := do
  let buffer ← get
  set (← source.read sector buffer.length)

end Source

end Undelete
