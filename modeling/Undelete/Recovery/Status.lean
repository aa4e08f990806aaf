import Undelete.Chain.Overwrite
import Undelete.Chain.Score

/-!
What became of one candidate. A status begins with the analysis of its chain and is finished
when the clusters that can be had are known.
-/

namespace Undelete

inductive Outcome where
  /-- Every byte of the declared size came from clean clusters. -/
  | success
  /-- Some bytes came, but clusters were left out or the size fell short. -/
  | partly
  | failed
  deriving Repr, DecidableEq

def Outcome.text : Outcome → String
  | success => "success"
  | partly => "partial"
  | failed => "failed"

/-- How far a candidate has come. -/
inductive Lifecycle where
  | discovered
  | chainWalked
  | analyzed
  | written (outcome : Outcome)
  deriving Repr, DecidableEq

structure Status where
  fileId : Nat
  ordinal : Nat
  displayName : String
  declaredSize : Nat
  startCluster : Nat
  isCorrupted : Bool
  isFragmented : Bool
  fragmentation : Float
  hasBackJumps : Bool
  backJumps : Nat
  hasRepeated : Bool
  repeated : Nat
  hasLargeGaps : Bool
  largeGaps : Nat
  hasOverwrite : Bool
  hasInvalidName : Bool
  hasInvalidExtension : Bool
  expectedClusters : Nat
  recoveredClusters : Nat
  recoveredBytes : Nat
  /-- Clusters left out of the output. -/
  problematic : List Nat
  termination : Termination
  inferred : Nat
  overwrite : Overwrite
  /-- A rough likelihood that the output is what was deleted. -/
  recoverability : Float
  lifecycle : Lifecycle
  outcome : Outcome
  outputPath : Option String
  sha256 : Option String
  deriving BEq

/-- Nothing is expected of a failed recovery; otherwise overwriting counts in full, fragmentation
by half, and corruption takes a quarter away. -/
def recoverability (outcome : Outcome) (overwritten fragmentation : Float) (corrupted : Bool) :
    Float :=
  if outcome = .failed then 0.0
  else
    let score := (1.0 - Number.clamp 0.0 1.0 overwritten)
      * (1.0 - Number.clamp 0.0 1.0 fragmentation / 2.0)
    Number.clamp 0.0 1.0 (if corrupted then score * 0.75 else score)

namespace Status

/-- The clusters of a chain that are suspect or overwritten, in the order of the chain. -/
def unclean (chain : Chain) (damage : Damage) (overwrite : Overwrite) : List Nat :=
  chain.clusters.filter fun cluster =>
    damage.suspects.contains cluster || overwrite.isOverwritten cluster

/-- The status of a candidate whose chain has been analyzed, before anything is read. -/
def ofAnalysis (entry : Entry) (chain : Chain) (damage : Damage) (overwrite : Overwrite)
    (expected : Nat) : Status where
  fileId := entry.fileId
  ordinal := entry.ordinal
  displayName := entry.displayName
  declaredSize := entry.size
  startCluster := entry.startCluster
  isCorrupted := damage.isCorrupted
  isFragmented := 0.0 < damage.fragmentation
  fragmentation := damage.fragmentation
  hasBackJumps := 0 < damage.backJumps
  backJumps := damage.backJumps
  hasRepeated := 0 < damage.repeated
  repeated := damage.repeated
  hasLargeGaps := 0 < damage.largeGaps
  largeGaps := damage.largeGaps
  hasOverwrite := overwrite.hasOverwrite
  hasInvalidName := !entry.hasValidName
  hasInvalidExtension := !entry.hasValidExtension
  expectedClusters := expected
  recoveredClusters := 0
  recoveredBytes := 0
  problematic := unclean chain damage overwrite
  termination := chain.termination
  inferred := chain.inferred
  overwrite := overwrite
  recoverability := 0.0
  lifecycle := .analyzed
  outcome := .failed
  outputPath := none
  sha256 := none

def isProblematic (status : Status) (cluster : Nat) : Bool := status.problematic.contains cluster

/-- Note a cluster that has to be left out. -/
def markProblematic (status : Status) (cluster : Nat) : Status :=
  if status.isProblematic cluster then status
  else { status with problematic := status.problematic ++ [cluster] }

def outcomeOf (status : Status) (bytes : Nat) (wrote : Bool) : Outcome :=
  if !wrote then .failed
  else if status.problematic = [] ∧ bytes = status.declaredSize then .success
  else .partly

/-- Settle the outcome from what was recovered. -/
def finish (status : Status) (clusters bytes : Nat) (wrote : Bool) : Status :=
  let outcome := status.outcomeOf bytes wrote
  { status with
    recoveredClusters := clusters
    recoveredBytes := bytes
    outcome
    recoverability :=
      Undelete.recoverability outcome status.overwrite.share status.fragmentation status.isCorrupted
    lifecycle := .written outcome }

end Status

end Undelete
