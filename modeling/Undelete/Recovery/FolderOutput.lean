import Undelete.Digests
import Undelete.Host.FileTree
import Undelete.Number.Text
import Undelete.Recovery.Output

/-!
Recovered files written into a folder of the host, each under a name made of its partition, its
ordinal and its own name without unsafe characters. Existing files are never replaced. Bytes
reach the folder through a buffer.
-/

namespace Undelete

namespace FileName

def isUnsafe (c : Char) : Bool :=
  "/\\:*?\"<>|".toList.contains c || Text.isControl c

def isEdge (c : Char) : Bool := c = ' ' || c = '.'

/-- Replace unsafe characters, then cut spaces and dots off both ends. -/
def sanitizeChars (name : List Char) : List Char :=
  match Text.strip isEdge (name.map fun c => if isUnsafe c then '_' else c) with
  | [] => "unnamed".toList
  | chars => chars

def sanitize (name : String) : String := String.ofList (sanitizeChars name.toList)

/-- The name under which an entry of a partition is stored. -/
def stored (partition : Nat) (entry : Entry) : String :=
  "p" ++ toString partition ++ "_" ++ Number.decimal 5 entry.ordinal ++ "_"
    ++ sanitize entry.displayName

/-- A name inside a folder. -/
def join (folder name : String) : String :=
  if folder = "" || HostPath.endsInSlash folder then folder ++ name else folder ++ "/" ++ name

end FileName

structure OpenFile where
  partition : Nat
  fileId : Nat
  path : String
  location : Location
  /-- Everything appended, newest first. -/
  pieces : List Bytes
  /-- The newest pieces, which have not reached the folder yet. -/
  buffered : List Bytes

namespace OpenFile

def contents (file : OpenFile) : Bytes := file.pieces.reverse.flatten

def bufferedSize (file : OpenFile) : Nat := file.buffered.flatten.length

end OpenFile

structure WrittenFile where
  partition : Nat
  fileId : Nat
  path : String
  size : Nat
  sha256 : String
  deriving Repr, DecidableEq

structure FolderOutput where
  root : String
  tree : FileTree
  current : Option OpenFile
  /-- In the order in which the files were closed. -/
  written : List WrittenFile

namespace FolderOutput

def bufferSize : Nat := 8192

/-- Use a folder, created when missing. -/
def ofFolder (root : String) (tree : FileTree) : Except Failure FolderOutput × FileTree :=
  let (made, later) := tree.makeFolders root
  match made with
  | .ok () => (.ok ⟨root, later, none, []⟩, later)
  | .error refusal => (.error (.output ("cannot create " ++ root ++ ": " ++ refusal.text)), later)

def pathOf (root : String) (partition : Nat) (entry : Entry) : String :=
  FileName.join root (FileName.stored partition entry)

def start (partition : Nat) (entry : Entry) : Act FolderOutput Unit := do
  let output ← get
  match output.current with
  | some file => throw (.output (file.path ++ " is still open"))
  | none =>
    let path := pathOf output.root partition entry
    match output.tree.create path with
    | .error .alreadyExists => throw (.output (path ++ " already exists"))
    | .error refusal => throw (.output (path ++ ": " ++ refusal.text))
    | .ok (location, tree) =>
      let file : OpenFile := ⟨partition, entry.fileId, path, location, [], []⟩
      set { output with tree, current := some file }

/-- A piece that does not fit behind the buffered ones drives them out, and one as large as the
buffer is not held back itself. -/
def accept (tree : FileTree) (file : OpenFile) (data : Bytes) : FileTree × OpenFile :=
  let overflows := bufferSize < file.bufferedSize + data.length
  let tree := if overflows then tree.append file.location file.buffered else tree
  let kept := if overflows then [] else file.buffered
  let file := { file with pieces := data :: file.pieces }
  if bufferSize ≤ data.length then
    (tree.append file.location [data], { file with buffered := kept })
  else (tree, { file with buffered := data :: kept })

def append (data : Bytes) : Act FolderOutput Unit := do
  let output ← get
  match output.current with
  | none => throw noOpenFile
  | some file =>
    let (tree, file) := accept output.tree file data
    set { output with tree, current := some file }

/-- The host's files once everything held back has been written. -/
def settled (output : FolderOutput) : FileTree :=
  match output.current with
  | none => output.tree
  | some file => output.tree.append file.location file.buffered

def close [Digests] : Act FolderOutput (Option String) := do
  let output ← get
  match output.current with
  | none => throw noOpenFile
  | some file =>
    let data := file.contents
    let record := ⟨file.partition, file.fileId, file.path, data.length, Digests.sha256 data⟩
    set { output with
      tree := output.settled, current := none, written := output.written ++ [record] }
    pure (some file.path)

instance [Digests] : Output FolderOutput where
  start := start
  append := append
  close := close

end FolderOutput

end Undelete
