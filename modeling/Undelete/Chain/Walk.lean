import Std.Data.TreeSet
import Undelete.Directory.Entry
import Undelete.Number.Ratio
import Undelete.Volume.Probe

/-!
The walk along the clusters of a file. Every walk is capped, so that a damaged FAT cannot keep
it going, and each cluster is kept before it is known whether the walk goes on from it.
-/

namespace Undelete

inductive Termination where
  | endOfChain
  | invalid
  | looped
  | outOfRange
  | truncated
  deriving Repr, DecidableEq

def Termination.text : Termination → String
  | endOfChain => "end-of-chain"
  | invalid => "invalid"
  | looped => "looped"
  | outOfRange => "out-of-range"
  | truncated => "truncated"

structure Chain where
  fileId : Nat
  clusters : List Nat
  /-- Clusters that came up again. -/
  repeated : List Nat
  /-- Links taken to the next number because the FAT entry was free. -/
  inferred : Nat
  readFailed : Bool
  termination : Termination
  deriving Repr, DecidableEq

/-- How chains are walked. -/
structure Walker where
  /-- How far a chain may go beyond the declared size. -/
  tolerance : Float := 1.5
  /-- Whether a cleared FAT entry is followed to the next cluster. -/
  contiguous : Bool := true
  /-- The cap for directories, which declare no size. -/
  directoryLimit : Nat := 4096

/-- What a cluster's FAT entry says about the walk. -/
inductive Link where
  | stop (termination : Termination)
  | unreadable
  | go (cluster : Nat) (inferred : Bool)
  deriving Repr, DecidableEq

namespace Walker

/-- The most clusters that a file of `expected` clusters may have; a tolerance below one, or that
is no number, counts as one. -/
def maxLength (walker : Walker) (expected : Nat) : Nat :=
  let tolerance := if 1.0 < walker.tolerance then walker.tolerance else 1.0
  max (Number.ceilWord (expected.toFloat * tolerance)) (expected + 1)

theorem expected_lt_maxLength (walker : Walker) (expected : Nat) :
    expected < walker.maxLength expected :=
  Nat.lt_of_lt_of_le (Nat.lt_succ_self expected) (Nat.le_max_right _ _)

def link (walker : Walker) (expected taken current : Nat) : Except Failure FatEntry → Link
  | .error _ => .unreadable
  | .ok .endOfChain => .stop .endOfChain
  | .ok .bad | .ok .reserved => .stop .invalid
  | .ok .free =>
    if ¬ walker.contiguous then .stop .invalid
    else if expected ≤ taken then .stop .endOfChain
    else .go (current + 1) true
  | .ok (.next cluster) => .go cluster false

/-- Walk on from `current`. `spare` more clusters may follow it; `trail` holds those before it,
newest first, and `seen` the same clusters as a set. -/
def follow (walker : Walker) (g : Geometry) (fileId expected : Nat) :
    (spare : Nat) → (seen : Std.TreeSet Nat) → (trail : List Nat) → (inferred current : Nat) →
    Probe Chain :=
  fun spare seen trail inferred current =>
    if current ∈ seen then
      pure ⟨fileId, trail.reverse, [current], inferred, false, .looped⟩
    else do
      let trail := current :: trail
      let clusters := trail.reverse
      match walker.link expected trail.length current (← Probe.entryOf current) with
      | .unreadable => pure ⟨fileId, clusters, [], inferred, true, .truncated⟩
      | .stop termination => pure ⟨fileId, clusters, [], inferred, false, termination⟩
      | .go next guessed =>
        let inferred := if guessed then inferred + 1 else inferred
        if ¬ g.Valid next then pure ⟨fileId, clusters, [], inferred, false, .outOfRange⟩
        else match spare with
          | 0 => pure ⟨fileId, clusters, [], inferred, false, .truncated⟩
          | spare + 1 =>
            follow walker g fileId expected spare (seen.insert current) trail inferred next

/-- The chain from `start`, of at most `limit` clusters and at least one if `start` is valid. -/
def walkFrom (walker : Walker) (g : Geometry) (fileId start expected limit : Nat) : Probe Chain :=
  if g.Valid start then walker.follow g fileId expected (limit - 1) ∅ [] 0 start
  else pure ⟨fileId, [], [], 0, false, .outOfRange⟩

/-- The chain of an entry. -/
def walk (walker : Walker) (g : Geometry) (entry : Entry) : Probe Chain :=
  if entry.isDirectory then
    walker.walkFrom g entry.fileId entry.startCluster 1 walker.directoryLimit
  else
    let expected := g.clustersFor entry.size
    walker.walkFrom g entry.fileId entry.startCluster expected (walker.maxLength expected)

end Walker

end Undelete
