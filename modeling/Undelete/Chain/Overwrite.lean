import Undelete.Chain.Ledger

/-!
Which clusters of a deleted file belong to somebody else by now. A cluster counts as overwritten
when it is also claimed by a live entry, or by a deleted one found later in the scan.
-/

namespace Undelete

structure Overwrite where
  hasOverwrite : Bool
  /-- In the order of the chain. -/
  clusters : List Nat
  /-- The claimants of each overwritten cluster, in ascending order of clusters. -/
  takers : List (Nat × List Nat)
  /-- The overwritten share of the clusters that the declared size needs. -/
  share : Float
  deriving BEq

namespace Overwrite

def isOverwritten (overwrite : Overwrite) (cluster : Nat) : Bool :=
  overwrite.takers.any (·.1 = cluster)

end Overwrite

/-- Whether a claim takes its cluster away from a file. -/
def Claim.supersedes (claim : Claim) (fileId ordinal : Nat) : Bool :=
  claim.fileId ≠ fileId && (!claim.deleted || ordinal < claim.ordinal)

namespace Ledger

/-- Who took a cluster from a file. -/
def takersOf (ledger : Ledger) (fileId ordinal cluster : Nat) : List Nat :=
  ((ledger.claimsFor cluster).filter (·.supersedes fileId ordinal)).map Claim.fileId

/-- The clusters that others took, each once. -/
def lost (ledger : Ledger) (fileId ordinal : Nat) (clusters : List Nat) : List Nat :=
  (clusters.filter fun cluster => ledger.takersOf fileId ordinal cluster ≠ []).eraseDups

/-- How many clusters are lost among the first `expected` places of a chain. -/
def lostCount (ledger : Ledger) (chain : Chain) (ordinal expected : Nat) : Nat :=
  (ledger.lost chain.fileId ordinal (chain.clusters.take expected)).length

/-- The overwrite of a file of `expected` clusters; a file without any is taken to need one. -/
def overwrite (ledger : Ledger) (chain : Chain) (ordinal expected : Nat) : Overwrite :=
  let clusters := ledger.lost chain.fileId ordinal chain.clusters
  let needed := max expected 1
  { hasOverwrite := clusters ≠ []
    clusters
    takers := clusters.mergeSort.map fun cluster =>
      (cluster, ledger.takersOf chain.fileId ordinal cluster)
    share := Number.clamp 0.0 1.0 (Number.ratio (ledger.lostCount chain ordinal needed) needed) }

end Ledger

end Undelete
