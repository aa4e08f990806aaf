import Undelete.Host.Error
import Undelete.Text.Blank

/-!
Paths of the host: names between slashes that are followed one after the other, from the root or
from the working folder. Two of the names are steps, `.` to the folder itself and `..` to the one
above it.
-/

namespace Undelete

/-- The names on the way from the root. -/
abbrev Location := List String

structure HostPath where
  isAbsolute : Bool
  names : List String
  /-- A slash stands at the end, where only a folder may be named. -/
  asksForFolder : Bool
  deriving Repr, DecidableEq

namespace HostPath

def maxNameBytes : Nat := 255

def maxPathBytes : Nat := 4095

def endsInSlash (text : String) : Bool := text.toList.getLast? = some '/'

def ofText (text : String) : HostPath :=
  { isAbsolute := text.toList.head? = some '/'
    names := ((Text.split '/' text.toList).filter (· ≠ [])).map String.ofList
    asksForFolder := endsInSlash text }

/-- The path of a text that is neither empty nor too long. -/
def parse (text : String) : Except HostError HostPath :=
  if text = "" then .error .notFound
  else if maxPathBytes < text.utf8ByteSize then .error .nameTooLong
  else .ok (ofText text)

def isStep (name : String) : Bool := name = "." || name = ".."

/-- Where a name leads from a folder, whether anything is there or not. -/
def follow (here : Location) (name : String) : Location :=
  if name = "." then here else if name = ".." then here.dropLast else here ++ [name]

theorem follow_of_isStep_eq_false {name : String} (proper : isStep name = false)
    (here : Location) : follow here name = here ++ [name] := by
  simp_all [isStep, follow]

/-- Where the first name is looked up. -/
def origin (path : HostPath) (home : Location) : Location := if path.isAbsolute then [] else home

def target (path : HostPath) (home : Location) : Location :=
  path.names.foldl follow (path.origin home)

/-- The last name, unless it is a step. -/
def last? (path : HostPath) : Option String := path.names.getLast?.filter (!isStep ·)

/-- The names that have to lead through folders. -/
def way (path : HostPath) : List String :=
  if path.last?.isSome then path.names.dropLast else path.names

/-- The paths of fewer names above a path, longest first. -/
def above (path : HostPath) : List HostPath :=
  let names := path.names.filter (· ≠ ".")
  (List.range (names.length - 1)).reverse.map fun count =>
    { path with names := names.take (count + 1), asksForFolder := false }

end HostPath

end Undelete
