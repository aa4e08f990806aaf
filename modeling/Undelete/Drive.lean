import Undelete.Failure
import Undelete.Text.Blank

/-!
Drives as a user names them. A number or a physical drive's name stands for a whole disk, a
letter for a single volume.
-/

namespace Undelete

inductive Category where
  | physical
  | logical
  deriving Repr, DecidableEq

def Category.text : Category → String
  | physical => "physical"
  | logical => "logical"

inductive Scheme where
  | mbr
  | gpt
  | unknown
  deriving Repr, DecidableEq

def Scheme.text : Scheme → String
  | mbr => "MBR"
  | gpt => "GPT"
  | unknown => "unknown"

structure Drive where
  path : String
  category : Category
  scheme : Scheme
  deriving Repr, DecidableEq

namespace Drive

/-- A file with the bytes of a disk or volume, taken by its own path. -/
def image (path : String) (category : Category) : Drive := ⟨path, category, .unknown⟩

def withScheme (drive : Drive) (scheme : Scheme) : Drive := { drive with scheme }

def deviceNamespace : String := "\\\\.\\"

def physicalWord : List Char := "PHYSICALDRIVE".toList

def physical (index : List Char) : Drive :=
  image (deviceNamespace ++ "PhysicalDrive" ++ String.ofList index) .physical

def logical (letter : Char) : Drive :=
  image (deviceNamespace ++ String.ofList [letter, ':']) .logical

def ofLetter? : List Char → Option Drive
  | [letter] | [letter, ':'] => if letter.isAlpha then some (logical letter) else none
  | _ => none

/-- The drive named by a word without surrounding white space. Only ASCII letters change case. -/
def ofWord? (word : List Char) : Option Drive :=
  let upper := word.map Char.toUpper
  let index := Text.takeEndWhile Char.isDigit upper
  if word ≠ [] ∧ word.all Char.isDigit then some (physical word)
  else if Text.occursIn physicalWord upper ∧ index ≠ [] then some (physical index)
  else ofLetter? upper

def classify (input : String) : Except Failure Drive :=
  match ofWord? (Text.strip Text.isBlank input.toList) with
  | some drive => .ok drive
  | none => .error (.unknownDrive input)

end Drive

end Undelete
