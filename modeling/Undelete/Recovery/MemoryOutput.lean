import Undelete.Recovery.Output

/-!
Recovered files kept in memory. A file that was started once cannot be started again.
-/

namespace Undelete

structure MemoryFile where
  partition : Nat
  fileId : Nat
  /-- The pieces appended, newest first. -/
  pieces : List Bytes

namespace MemoryFile

def contents (file : MemoryFile) : Bytes := file.pieces.reverse.flatten

def isKnownBy (file : MemoryFile) (key : Nat × Nat) : Bool := (file.partition, file.fileId) = key

end MemoryFile

structure MemoryOutput where
  /-- Newest first. -/
  files : List MemoryFile
  current : Option (Nat × Nat)

namespace MemoryOutput

def empty : MemoryOutput := ⟨[], none⟩

def get? (output : MemoryOutput) (partition fileId : Nat) : Option Bytes :=
  (output.files.find? (·.isKnownBy (partition, fileId))).map MemoryFile.contents

def size (output : MemoryOutput) : Nat := output.files.length

def start (partition : Nat) (entry : Entry) : Act MemoryOutput Unit := do
  let output ← get
  let key := (partition, entry.fileId)
  if output.files.any (·.isKnownBy key) then
    throw (.output s!"file {entry.fileId} of partition {partition} already stored")
  set (⟨⟨partition, entry.fileId, []⟩ :: output.files, some key⟩ : MemoryOutput)

def append (data : Bytes) : Act MemoryOutput Unit := do
  let output ← get
  match output.current with
  | none => throw noOpenFile
  | some key =>
    let files := output.files.map fun (file : MemoryFile) =>
      if file.isKnownBy key then { file with pieces := data :: file.pieces } else file
    set { output with files }

def close : Act MemoryOutput (Option String) := do
  modify fun output => { output with current := none }
  pure none

instance : Output MemoryOutput where
  start := start
  append := append
  close := close

end MemoryOutput

end Undelete
