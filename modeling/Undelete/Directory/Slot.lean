import Undelete.Bytes
import Undelete.Directory.Stamp
import Undelete.Failure
import Undelete.Text.Blank
import Undelete.Text.Utf16

/-!
A directory is an array of slots of 32 bytes. The first byte 0x00 ends it and 0xE5 marks a
deleted slot; a name that really starts with 0xE5 is stored with 0x05 there. A long name lies in
slots before its short entry, last fragment first, each with the checksum of the short name.
`ShortSlot.encode`, `NameFragment.split` and `NameFragment.encode` write slots.
-/

namespace Undelete

def slotSize : Nat := 32

def endMark : UInt8 := 0x00

def deletedMark : UInt8 := 0xE5

def escapedMark : UInt8 := 0x05

namespace Attributes

def isVolumeLabel (attributes : UInt8) : Bool := attributes &&& 0x08 ≠ 0

def isDirectory (attributes : UInt8) : Bool := attributes &&& 0x10 ≠ 0

def isLongName (attributes : UInt8) : Bool := attributes &&& 0x3F = 0x0F

end Attributes

/-- The checksum of the eleven bytes of a short name: rotate right by one bit, then add. -/
def nameChecksum (name : Bytes) : UInt8 :=
  name.foldl (fun sum byte => (sum <<< 7) + (sum >>> 1) + byte) 0

structure ShortSlot where
  /-- Eight bytes, padded with spaces. -/
  name : Bytes
  /-- Three bytes, padded with spaces. -/
  extension : Bytes
  attributes : UInt8
  caseFlags : UInt8
  createTenths : UInt8
  createTime : Nat
  createDate : Nat
  accessDate : Nat
  clusterHigh : Nat
  writeTime : Nat
  writeDate : Nat
  clusterLow : Nat
  fileSize : Nat
  deriving Repr, DecidableEq

namespace ShortSlot

def decode (data : Bytes) : ShortSlot where
  name := data.slice 0 8
  extension := data.slice 8 3
  attributes := data.byteAt 11
  caseFlags := data.byteAt 12
  createTenths := data.byteAt 13
  createTime := data.field 14 2
  createDate := data.field 16 2
  accessDate := data.field 18 2
  clusterHigh := data.field 20 2
  writeTime := data.field 22 2
  writeDate := data.field 24 2
  clusterLow := data.field 26 2
  fileSize := data.field 28 4

def encode (slot : ShortSlot) : Bytes :=
  slot.name ++ slot.extension ++ [slot.attributes, slot.caseFlags, slot.createTenths]
    ++ Bytes.ofNat 2 slot.createTime ++ Bytes.ofNat 2 slot.createDate
    ++ Bytes.ofNat 2 slot.accessDate ++ Bytes.ofNat 2 slot.clusterHigh
    ++ Bytes.ofNat 2 slot.writeTime ++ Bytes.ofNat 2 slot.writeDate
    ++ Bytes.ofNat 2 slot.clusterLow ++ Bytes.ofNat 4 slot.fileSize

def parse (data : Bytes) : Except Failure ShortSlot :=
  if data.length < slotSize then .error (.host "failed to fill whole buffer") else .ok (decode data)

def firstCluster (slot : ShortSlot) : Nat := slot.clusterHigh * 65536 + slot.clusterLow

def isDeleted (slot : ShortSlot) : Bool := slot.name.byteAt 0 = deletedMark

def isDirectory (slot : ShortSlot) : Bool := Attributes.isDirectory slot.attributes

def isVolumeLabel (slot : ShortSlot) : Bool := Attributes.isVolumeLabel slot.attributes

/-- The entries for a directory itself and its parent. -/
def isDot (slot : ShortSlot) : Bool :=
  slot.name.byteAt 0 = 0x2E && (slot.name.drop 1).all fun byte => byte = 0x20 || byte = 0x2E

/-- The name with an escaped first byte put back. -/
def rawName (slot : ShortSlot) : Bytes :=
  match slot.name with
  | first :: rest => (if first = escapedMark then deletedMark else first) :: rest
  | [] => []

def checksum (slot : ShortSlot) : UInt8 := nameChecksum (slot.name ++ slot.extension)

def modified (slot : ShortSlot) : Option Stamp := Stamp.unpack? slot.writeDate slot.writeTime

end ShortSlot

structure NameFragment where
  /-- The place in the name; the last fragment adds 0x40, and deletion overwrites it. -/
  sequence : UInt8
  checksum : UInt8
  /-- Thirteen UTF-16 units. -/
  text : Bytes
  deriving Repr, DecidableEq

namespace NameFragment

def decode (data : Bytes) : NameFragment where
  sequence := data.byteAt 0
  checksum := data.byteAt 13
  text := data.slice 1 10 ++ data.slice 14 12 ++ data.slice 28 4

def encode (fragment : NameFragment) : Bytes :=
  fragment.sequence :: fragment.text.slice 0 10 ++ [0x0F, 0x00, fragment.checksum]
    ++ fragment.text.slice 10 12 ++ [0x00, 0x00] ++ fragment.text.slice 22 4

def isDeleted (fragment : NameFragment) : Bool := fragment.sequence = deletedMark

/-- The name in fragments given in the order of their slots, unless it is empty. -/
def assemble (fragments : List NameFragment) : Option String :=
  let chars := Text.Utf16.decodeTerminated (fragments.reverse.flatMap NameFragment.text)
  let name := Text.dropEndWhile (· = '\uFFFF') chars
  if name = [] then none else some (String.ofList name)

/-- Units in one fragment. -/
def capacity : Nat := 13

/-- The units of a name, with a zero and then ones behind it as far as its fragments reach. -/
def paddedName (name : List Char) : List Nat :=
  let units := Text.Utf16.encode name
  (units ++ 0 :: List.replicate capacity 0xFFFF).take
    (capacity * Number.ceilDiv units.length capacity)

/-- The sequence byte of fragment `index` out of `count`. -/
def sequenceOf (count index : Nat) : UInt8 :=
  UInt8.ofNat (if index + 1 = count then index + 1 + 0x40 else index + 1)

/-- The fragments of a name in the order of their slots. -/
def split (checksum : UInt8) (name : List Char) : List NameFragment :=
  let texts := Bytes.chunks (2 * capacity) ((paddedName name).flatMap (Bytes.ofNat 2))
  (texts.zipIdx.map fun (text, index) =>
    ⟨sequenceOf texts.length index, checksum, text⟩).reverse

end NameFragment

/-- The first byte that gives a name without it a checksum. The hint is tried first, in upper
case, and then every printable byte. -/
def recoverInitial (name extension : Bytes) (checksum : UInt8) (hint : Option Char) :
    Option UInt8 :=
  let hinted := (hint.filter (·.toNat < 128)).map fun c => UInt8.ofNat c.toUpper.toNat
  let printable := (List.range' 0x21 94).map UInt8.ofNat
  (hinted.toList ++ printable).find? fun first =>
    nameChecksum (first :: name.drop 1 ++ extension) = checksum

inductive Slot where
  | unused
  | fragment (fragment : NameFragment)
  | short (slot : ShortSlot)
  deriving Repr, DecidableEq

namespace Slot

def decode (data : Bytes) : Slot :=
  if data.byteAt 0 = endMark then unused
  else if Attributes.isLongName (data.byteAt 11) then fragment (NameFragment.decode data)
  else short (ShortSlot.decode data)

def parse (data : Bytes) : Except Failure Slot :=
  if data.length < slotSize then
    .error (.chainCorruption "Insufficient data for directory entry")
  else .ok (decode data)

end Slot

end Undelete
