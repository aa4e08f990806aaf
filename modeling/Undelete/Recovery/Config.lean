import Undelete.Chain.Walk

/-!
The settings of a recovery.
-/

namespace Undelete

structure Config where
  /-- How far a chain may go beyond the declared size before it is cut off. -/
  chainTolerance : Float := 1.5
  /-- Jumps over more than this share of a volume's clusters are large gaps. -/
  largeGapShare : Float := 0.1
  assumeContiguous : Bool := true
  maxDirectoryDepth : Nat := 32
  maxDirectoryClusters : Nat := 4096
  /-- Recover only entries that start at this cluster. -/
  targetCluster : Option Nat := none
  /-- Recover only entries of this size. -/
  targetSize : Option Nat := none
  /-- Read and write no file contents. -/
  analyzeOnly : Bool := false
  deviceSectorSize : Nat := 512

namespace Config

def walker (config : Config) : Walker where
  tolerance := config.chainTolerance
  contiguous := config.assumeContiguous
  directoryLimit := config.maxDirectoryClusters

/-- Whether an entry passes the filters. -/
def matchesFilters (config : Config) (entry : Entry) : Bool :=
  config.targetCluster.all (entry.startCluster = ·) && config.targetSize.all (entry.size = ·)

def selects (config : Config) (entry : Entry) : Bool :=
  entry.isCandidate && config.matchesFilters entry

end Config

end Undelete
