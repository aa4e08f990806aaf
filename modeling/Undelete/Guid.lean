import Undelete.Bytes

/-!
Globally unique identifiers. On disk the first three groups are little-endian and the rest is
stored as it is written; as text the groups have 8, 4, 4, 4 and 12 hexadecimal digits.
-/

namespace Undelete

structure Guid where
  value : BitVec 128
  deriving Repr, DecidableEq

namespace Guid

/-- Sixteen stored bytes put into the order of one little-endian number. -/
def reorder (data : Bytes) : Bytes :=
  (data.slice 8 8).reverse ++ data.slice 6 2 ++ data.slice 4 2 ++ data.slice 0 4

def ofDisk (data : Bytes) : Guid := ⟨BitVec.ofNat 128 (Bytes.littleEndian (reorder data))⟩

def toDisk (guid : Guid) : Bytes :=
  let data := Bytes.ofNat 16 guid.value.toNat
  data.slice 12 4 ++ data.slice 10 2 ++ data.slice 8 2 ++ (data.slice 0 8).reverse

def isNil (guid : Guid) : Bool := guid.value = 0

def digits (guid : Guid) : List Char :=
  (Bytes.ofNat 16 guid.value.toNat).reverse.flatMap Bytes.hexByte

/-- Lower-case text with hyphens between the groups. -/
def text (guid : Guid) : String :=
  let group := fun start count => (guid.digits.drop start).take count
  String.ofList
    (group 0 8 ++ '-' :: group 8 4 ++ '-' :: group 12 4 ++ '-' :: group 16 4 ++ '-' :: group 20 12)

def hexValue? (c : Char) : Option Nat :=
  if '0' ≤ c ∧ c ≤ '9' then some (c.toNat - 48)
  else if 'a' ≤ c ∧ c ≤ 'f' then some (c.toNat - 87)
  else if 'A' ≤ c ∧ c ≤ 'F' then some (c.toNat - 55)
  else none

def ofDigits? (digits : List Char) : Option Guid :=
  if digits.length = 32 then
    (digits.mapM hexValue?).map fun values =>
      ⟨BitVec.ofNat 128 (values.foldl (fun total value => total * 16 + value) 0)⟩
  else none

/-- The digits of text with hyphens after 8, 12, 16 and 20 of them. -/
def unhyphen? (text : List Char) : Option (List Char) :=
  if text.length = 36 ∧ text[8]? = some '-' ∧ text[13]? = some '-' ∧ text[18]? = some '-'
      ∧ text[23]? = some '-' then
    some (text.take 8 ++ (text.drop 9).take 4 ++ (text.drop 14).take 4 ++ (text.drop 19).take 4
      ++ text.drop 24)
  else none

/-- What may stand before hyphenated groups, in either case of its letters. -/
def urnMark : List Char := "urn:uuid:".toList

/-- Accepts plain digits, hyphenated groups, and the groups in braces or after the mark of a URN. -/
def ofText? (input : String) : Option Guid :=
  let text := input.toList
  match text with
  | '{' :: rest =>
    if rest.getLast? = some '}' then (unhyphen? rest.dropLast).bind ofDigits? else none
  | _ =>
    if text.length = 32 then ofDigits? text
    else if (text.take urnMark.length).map Char.toLower = urnMark then
      (unhyphen? (text.drop urnMark.length)).bind ofDigits?
    else (unhyphen? text).bind ofDigits?

/-- Sixteen random bytes with the six bits set that mark a random identifier. -/
def ofRandom (data : Bytes) : Guid :=
  let drawn := BitVec.ofNat 128 (Bytes.littleEndian data)
  ⟨(drawn &&& ~~~0xF000C000000000000000) ||| 0x40008000000000000000⟩

def basicData : Guid := ⟨0xEBD0A0A2B9E5443387C068B6B72699C7⟩

def efiSystem : Guid := ⟨0xC12A7328F81F11D2BA4B00A0C93EC93B⟩

def linuxFilesystem : Guid := ⟨0x0FC63DAF848347728E793D69D8477DE4⟩

end Guid

end Undelete
