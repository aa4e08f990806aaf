import Undelete.Directory.Entry

/-!
Where recovered files go. Files come one at a time: each is started, its bytes are appended piece
by piece, and it is closed. File numbers begin anew in every partition, so that a file is known
by its partition and its number together.
-/

namespace Undelete

/-- Work on a state that may fail. What was done before a failure stays done. -/
abbrev Act (σ : Type) := ExceptT Failure (StateM σ)

class Output (ω : Type) where
  start : (partition : Nat) → Entry → Act ω Unit
  append : Bytes → Act ω Unit
  /-- Finish the file that is open; tells where it went, if anywhere. -/
  close : Act ω (Option String)

/-- Takes everything and keeps nothing, for runs that only analyze. -/
structure Discard where
  deriving Repr, DecidableEq

instance : Output Discard where
  start _ _ := pure ()
  append _ := pure ()
  close := pure none

def noOpenFile : Failure := .output "no recovered file open"

end Undelete
