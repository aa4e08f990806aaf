import Undelete.Bytes
import Undelete.Host.Path

/-!
The files and folders of the host as a value. Paths are resolved one name at a time, and every
name but the last has to be that of a folder.
-/

namespace Undelete

structure HostFile where
  location : Location
  /-- The pieces written, newest first. -/
  pieces : List Bytes

def HostFile.contents (file : HostFile) : Bytes := file.pieces.reverse.flatten

structure FileTree where
  files : List HostFile
  /-- Newest first. -/
  folders : List Location
  /-- The working folder. -/
  home : Location

namespace FileTree

def empty : FileTree := ⟨[], [], []⟩

def file? (tree : FileTree) (location : Location) : Option HostFile :=
  tree.files.find? (·.location = location)

def isFolder (tree : FileTree) (location : Location) : Bool :=
  location = [] || tree.folders.contains location

def isFile (tree : FileTree) (location : Location) : Bool := (tree.file? location).isSome

def isTaken (tree : FileTree) (location : Location) : Bool :=
  tree.isFolder location || tree.isFile location

/-- Follow a name to a folder. -/
def enter (tree : FileTree) (here : Location) (name : String) : Except HostError Location :=
  let there := HostPath.follow here name
  if HostPath.maxNameBytes < name.utf8ByteSize then .error .nameTooLong
  else if tree.isFolder there then .ok there
  else if tree.isFile there then .error .notFolder
  else .error .notFound

def walk (tree : FileTree) (here : Location) (names : List String) : Except HostError Location :=
  names.foldlM tree.enter here

/-- The folder that a path leads to, and the name of the place in it unless the folder itself is
meant. -/
def resolve (tree : FileTree) (path : HostPath) : Except HostError (Location × Option String) := do
  let folder ← tree.walk (path.origin tree.home) path.way
  pure (folder, path.last?)

def place (folder : Location) (name : String) : Except HostError Location :=
  if HostPath.maxNameBytes < name.utf8ByteSize then .error .nameTooLong
  else .ok (folder ++ [name])

/-- The bytes of a file. -/
def read (tree : FileTree) (text : String) : Except HostError Bytes := do
  let path ← HostPath.parse text
  match ← tree.resolve path with
  | (_, none) => .error .isFolder
  | (folder, some name) =>
    let location ← place folder name
    if tree.isFolder location then .error .isFolder
    else match tree.file? location with
      | some file => if path.asksForFolder then .error .notFolder else .ok file.contents
      | none => .error .notFound

/-- The bytes of a device or image; a folder is no device. -/
def readDevice (tree : FileTree) (text : String) : Except HostError Bytes :=
  match tree.read text with
  | .error .isFolder => .error .noDevice
  | answer => answer

def remove (tree : FileTree) (location : Location) : FileTree :=
  { tree with files := tree.files.filter (·.location ≠ location) }

/-- Put a file in place of whatever file stood there. -/
def put (tree : FileTree) (location : Location) (data : Bytes) : FileTree :=
  let others := tree.remove location
  { others with files := ⟨location, [data]⟩ :: others.files }

/-- Create or replace a file. -/
def write (tree : FileTree) (text : String) (data : Bytes) : Except HostError FileTree := do
  let path ← HostPath.parse text
  match ← tree.resolve path with
  | (_, none) => .error .isFolder
  | (folder, some name) =>
    if path.asksForFolder then .error .isFolder
    else
      let location ← place folder name
      if tree.isFolder location then .error .isFolder else .ok (tree.put location data)

/-- Create a file that must not exist yet. -/
def create (tree : FileTree) (text : String) : Except HostError (Location × FileTree) := do
  let path ← HostPath.parse text
  match ← tree.resolve path with
  | (_, none) => .error .alreadyExists
  | (folder, some name) =>
    if path.asksForFolder then .error .isFolder
    else
      let location ← place folder name
      if tree.isTaken location then .error .alreadyExists
      else .ok (location, { tree with files := ⟨location, []⟩ :: tree.files })

def append (tree : FileTree) (location : Location) (pieces : List Bytes) : FileTree :=
  { tree with
    files := tree.files.map fun file =>
      if file.location = location then { file with pieces := pieces ++ file.pieces } else file }

/-- Create a folder inside one that exists. -/
def makeFolder (tree : FileTree) (path : HostPath) : Except HostError FileTree := do
  match ← tree.resolve path with
  | (_, none) => .error .alreadyExists
  | (folder, some name) =>
    let location ← place folder name
    if tree.isTaken location then .error .alreadyExists
    else .ok { tree with folders := location :: tree.folders }

def leadsToFolder (tree : FileTree) (path : HostPath) : Bool :=
  (tree.walk (path.origin tree.home) path.names).toBool

/-- Create a folder unless it is there already. -/
def ensureFolder (tree : FileTree) (path : HostPath) : Except HostError FileTree :=
  match tree.makeFolder path with
  | .error .alreadyExists => if tree.leadsToFolder path then .ok tree else .error .alreadyExists
  | answer => answer

/-- Create the folder of the first path, once those of the paths above it are there. -/
def ensureFolders (tree : FileTree) : List HostPath → Except HostError Unit × FileTree
  | [] => (.ok (), tree)
  | path :: above =>
    match tree.ensureFolder path with
    | .ok later => (.ok (), later)
    | .error .notFound =>
      match ensureFolders tree above with
      | (.error refusal, later) => (.error refusal, later)
      | (.ok (), later) =>
        match later.ensureFolder path with
        | .ok last => (.ok (), last)
        | .error refusal => (.error refusal, later)
    | .error refusal => (.error refusal, tree)

/-- Create a folder and the folders above it, as far as they are missing. The folders created
before a refusal stay. -/
def makeFolders (tree : FileTree) (text : String) : Except HostError Unit × FileTree :=
  if text = "" then (.ok (), tree)
  else match HostPath.parse text with
    | .error refusal => (.error refusal, tree)
    | .ok path => tree.ensureFolders (path :: path.above)

/-- The files in a folder with their names. -/
def listing (tree : FileTree) (folder : Location) : List (String × Bytes) :=
  tree.files.filterMap fun file =>
    match file.location.getLast? with
    | some name => if file.location.dropLast = folder then some (name, file.contents) else none
    | none => none

/-- The folders that `later` has and `tree` lacks, outermost first. -/
def newFolders (tree later : FileTree) : List Location :=
  later.folders.reverse.filter (!tree.isFolder ·)

/-- The files that `later` has and `tree` lacks or holds with other contents. -/
def newFiles (tree later : FileTree) : List HostFile :=
  later.files.filter fun file =>
    (tree.file? file.location).map HostFile.contents ≠ some file.contents

end FileTree

end Undelete
