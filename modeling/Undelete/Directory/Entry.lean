import Undelete.Directory.Slot

/-!
Files and directories found in a volume, deleted or live, with their names as they are shown.
An entry's ordinal is its place in the order of discovery; it stands in for recency, because the
times stored with deleted entries cannot be trusted.
-/

namespace Undelete

structure Entry where
  fileId : Nat
  ordinal : Nat
  shortName : Bytes
  extension : Bytes
  longName : Option String
  /-- The first byte of the short name as the long name's checksum tells it. -/
  recoveredInitial : Option UInt8
  attributes : UInt8
  startCluster : Nat
  size : Nat
  deleted : Bool
  /-- The first cluster of the directory that holds the entry. -/
  parentCluster : Nat
  /-- The cluster that holds the entry's slot. -/
  slotCluster : Nat
  /-- The slot's number in its directory. -/
  slotIndex : Nat
  modified : Option Stamp
  deriving Repr, DecidableEq

namespace Entry

def isDirectory (entry : Entry) : Bool := Attributes.isDirectory entry.attributes

/-- Only deleted files are recovered. -/
def isCandidate (entry : Entry) : Bool := entry.deleted && !entry.isDirectory

/-- The short name with a lost first byte restored, or shown as an underscore. -/
def nameBytes (entry : Entry) : Bytes :=
  match entry.shortName with
  | first :: rest =>
    let isLost := first = deletedMark ∧ entry.deleted
    (if isLost then entry.recoveredInitial.getD 0x5F else first) :: rest
  | [] => []

def isPrintable (byte : UInt8) : Bool := 0x20 ≤ byte && byte ≤ 0x7E

def printable (data : Bytes) : List Char :=
  let shown := data.map fun byte => if isPrintable byte then Char.ofNat byte.toNat else '_'
  Text.dropEndWhile Text.isBlank shown

def shortDisplayName (entry : Entry) : String :=
  let stem := printable entry.nameBytes
  let extension := printable entry.extension
  String.ofList (if extension = [] then stem else stem ++ '.' :: extension)

def displayName (entry : Entry) : String := entry.longName.getD entry.shortDisplayName

/-- Whether the name has printable characters only. -/
def hasValidName (entry : Entry) : Bool :=
  match entry.longName with
  | some name => !name.toList.any Text.isControl
  | none =>
    let stem := (entry.nameBytes.reverse.dropWhile (· = 0x20)).reverse
    stem ≠ [] && stem.all isPrintable

def isAlphanumeric (byte : UInt8) : Bool := (Char.ofNat byte.toNat).isAlphanum

/-- Whether the extension is letters and digits followed by spaces. -/
def hasValidExtension (entry : Entry) : Bool :=
  (entry.extension.takeWhile (· ≠ 0x20)).all isAlphanumeric
    && (entry.extension.dropWhile (· ≠ 0x20)).all (· = 0x20)

end Entry

end Undelete
