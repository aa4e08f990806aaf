import Std.Time.DateTime.Timestamp
import Undelete.CommandLine.Execute

/-!
The program. It takes over from the host what stands at the paths in the arguments, carries out
the command on these files as values, and hands back those that are new or changed.
-/

namespace Undelete.Host

/-- The path of a location, from the root. -/
def pathOf (location : Location) : String := "/" ++ String.intercalate "/" location

/-- Take over the folder or the file at a location, if there is one. -/
def takeOver (tree : FileTree) (location : Location) : IO FileTree := do
  let place := (← IO.currentDir) / pathOf location
  if tree.isTaken location then
    pure tree
  else if ← place.isDir then
    pure { tree with folders := location :: tree.folders }
  else if ← place.pathExists then
    pure (tree.put location (← IO.FS.readBinFile place).toList)
  else pure tree

/-- Take over what stands at a path and on the way to it. -/
def takeOverPath (tree : FileTree) (text : String) : IO FileTree := do
  let path := HostPath.ofText text
  let (later, _) ← path.names.foldlM (fun (tree, here) name => do
    let there := HostPath.follow here name
    pure (← takeOver tree there, there)) (tree, path.origin tree.home)
  pure later

/-- Take over the names in a folder. Files that are not known yet count as empty. -/
def takeOverNames (tree : FileTree) (text : String) : IO FileTree := do
  let location := (HostPath.ofText text).target tree.home
  let place := (← IO.currentDir) / pathOf location
  if ← place.isDir then
    let names := (← place.readDir).toList.map fun item => location ++ [item.fileName]
    pure ((names.filter (!tree.isTaken ·)).foldl (fun tree name => tree.put name []) tree)
  else pure tree

/-- Take over all that a request may read, replace or run into. -/
def gather (request : CommandLine.Request) : IO FileTree := do
  let home := (← IO.currentDir).toString
  let start ← takeOverPath { FileTree.empty with home := (HostPath.ofText home).names } home
  match request with
  | .run invocation =>
    let tree ← invocation.paths.foldlM takeOverPath start
    invocation.out.toList.foldlM takeOverNames tree
  | _ => pure start

/-- Hand back to the host what a command has changed. -/
def handBack (before later : FileTree) : IO Unit := do
  (before.newFolders later).forM fun folder => IO.FS.createDirAll (pathOf folder)
  (before.newFiles later).forM fun file =>
    IO.FS.writeBinFile (pathOf file.location) (ByteArray.mk file.contents.toArray)

def newSession : IO Session := do
  let drawn ← IO.getRandomBytes 16
  let now := Timestamp.ofUnix (← Std.Time.Timestamp.now).toNanosecondsSinceUnixEpoch.toInt
  pure ⟨Guid.ofRandom drawn.toList, now, now⟩

end Undelete.Host

def main (arguments : List String) : IO UInt32 := do
  let request := Undelete.CommandLine.Request.ofArguments arguments
  let before ← Undelete.Host.gather request
  let ending := Undelete.CommandLine.execute (← Undelete.Host.newSession) before arguments
  Undelete.Host.handBack before ending.tree
  ending.stdout.forM (IO.println ·)
  ending.stderr.forM (IO.eprintln ·)
  pure (UInt32.ofNat ending.code)
