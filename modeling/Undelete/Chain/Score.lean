import Undelete.Chain.Walk

/-!
How damaged a chain looks. A link goes from each cluster to the next one; a jump back and a jump
over more than the threshold make its destination suspect.
-/

namespace Undelete

structure Damage where
  /-- The share of links that do not lead to the next number. -/
  fragmentation : Float
  isCorrupted : Bool
  backJumps : Nat
  largeGaps : Nat
  repeated : Nat
  /-- Suspect clusters, each once. -/
  suspects : List Nat

def Damage.anomalies (damage : Damage) : Nat :=
  damage.backJumps + damage.largeGaps + damage.repeated

namespace Chain

def links (chain : Chain) : List (Nat × Nat) := chain.clusters.zip chain.clusters.tail

def isBackJump (link : Nat × Nat) : Bool := link.2 < link.1

/-- The numbers wrap at 32 bits. -/
def isBreak (link : Nat × Nat) : Bool := link.2 ≠ (link.1 + 1) % UInt32.size

def isLargeGap (threshold : Nat) (link : Nat × Nat) : Bool :=
  threshold < max (link.1 - link.2) (link.2 - link.1)

def breaks (chain : Chain) : Nat := chain.links.countP isBreak

/-- The damage when gaps above `threshold` count as large. -/
def damage (threshold : Nat) (chain : Chain) : Damage :=
  let links := chain.links
  let backJumps := links.countP isBackJump
  let largeGaps := links.countP (isLargeGap threshold)
  let jumps := links.filter fun link => isBackJump link || isLargeGap threshold link
  { fragmentation := if links = [] then 0.0 else Number.ratio chain.breaks links.length
    isCorrupted := chain.termination ≠ .endOfChain
      || 0 < backJumps + largeGaps + chain.repeated.length
    backJumps
    largeGaps
    repeated := chain.repeated.length
    suspects := (jumps.map Prod.snd ++ chain.repeated).eraseDups }

end Chain

/-- The gap threshold that is a given share of a volume's clusters, and at least one. -/
def Geometry.gapThreshold (g : Geometry) (share : Float) : Nat :=
  max (min (Number.ceilWord (g.clusterCount.toFloat * share)) Geometry.maxWord) 1

end Undelete
