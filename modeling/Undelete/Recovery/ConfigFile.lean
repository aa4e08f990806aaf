import Undelete.Json.Value
import Undelete.Recovery.Config

/-!
Settings read from JSON. Fields that are missing keep their defaults.
-/

namespace Undelete

namespace Json

def toWord? : Json → Option Nat := toNat? (UInt32.size - 1)

def toLongWord? : Json → Option Nat := toNat? (UInt64.size - 1)

end Json

namespace Config

def fieldNames : List String :=
  ["chain_tolerance", "large_gap_fraction", "assume_contiguous", "max_directory_depth",
   "max_directory_clusters", "target_cluster", "target_size", "analyze_only",
   "device_bytes_per_sector"]

def ofJson? (json : Json) : Option Config := do
  let fields ← Json.fields? fieldNames false json
  let standard : Config := {}
  pure
    { chainTolerance :=
        ← Json.fieldOr? fields "chain_tolerance" Json.toFloat? standard.chainTolerance
      largeGapShare :=
        ← Json.fieldOr? fields "large_gap_fraction" Json.toFloat? standard.largeGapShare
      assumeContiguous :=
        ← Json.fieldOr? fields "assume_contiguous" Json.toBool? standard.assumeContiguous
      maxDirectoryDepth :=
        ← Json.fieldOr? fields "max_directory_depth" Json.toLongWord? standard.maxDirectoryDepth
      maxDirectoryClusters :=
        ← Json.fieldOr? fields "max_directory_clusters" Json.toLongWord?
          standard.maxDirectoryClusters
      targetCluster :=
        ← Json.fieldOr? fields "target_cluster" (Json.toOption? Json.toWord?) standard.targetCluster
      targetSize :=
        ← Json.fieldOr? fields "target_size" (Json.toOption? Json.toWord?) standard.targetSize
      analyzeOnly := ← Json.fieldOr? fields "analyze_only" Json.toBool? standard.analyzeOnly
      deviceSectorSize :=
        ← Json.fieldOr? fields "device_bytes_per_sector" Json.toWord? standard.deviceSectorSize }

def parse? (text : String) : Option Config := (Json.parse? text).bind ofJson?

end Config

end Undelete
