import Std.Data.TreeMap
import Undelete.Chain.Walk

/-!
The ledger of a pass: who claims which cluster. A file that claims a cluster twice is kept once,
with its first claim, and the claims on a cluster stay in the order in which they were made.
-/

namespace Undelete

structure Claim where
  cluster : Nat
  fileId : Nat
  ordinal : Nat
  deleted : Bool
  /-- The offset of the cluster in the claimant's file. -/
  offset : Nat
  deriving Repr, DecidableEq

/-- The claims along a chain of clusters of `size` bytes. -/
def Claim.along (fileId ordinal : Nat) (deleted : Bool) (size : Nat) (clusters : List Nat) :
    List Claim :=
  clusters.zipIdx.map fun (cluster, index) => ⟨cluster, fileId, ordinal, deleted, index * size⟩

structure Ledger where
  claims : Std.TreeMap Nat (List Claim)
  /-- The number of claims kept so far. -/
  totalClaims : Nat

namespace Ledger

def empty : Ledger := ⟨∅, 0⟩

/-- The claimant number of the root directory, which has no entry; entries start at 1. -/
def rootId : Nat := 0

def claimsFor (ledger : Ledger) (cluster : Nat) : List Claim := ledger.claims.getD cluster []

def claim (ledger : Ledger) (record : Claim) : Ledger :=
  let standing := ledger.claimsFor record.cluster
  if standing.any (·.fileId = record.fileId) then ledger
  else ⟨ledger.claims.insert record.cluster (standing ++ [record]), ledger.totalClaims + 1⟩

def claimAll (ledger : Ledger) (records : List Claim) : Ledger := records.foldl claim ledger

def isContended (ledger : Ledger) (cluster : Nat) : Bool := 1 < (ledger.claimsFor cluster).length

/-- The clusters with more than one claimant, in ascending order. -/
def contended (ledger : Ledger) : List Nat :=
  (ledger.claims.toList.filter fun (_, records) => 1 < records.length).map Prod.fst

def clusterCount (ledger : Ledger) : Nat := ledger.claims.size

end Ledger

end Undelete
