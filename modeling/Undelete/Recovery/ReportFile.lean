import Undelete.Number.Shortest
import Undelete.Recovery.ConfigFile
import Undelete.Recovery.Report

/-!
Reports as JSON files. Every record is written as an object with its fields in a fixed order,
and read from such an object in any order, or from an array of the fields.
-/

namespace Undelete

namespace Json

def record (members : List (String × Json)) : Json :=
  .object (members.map fun (name, value) => (name.toList, value))

def ofFloat (value : Float) : Json :=
  if value.isNaN || value.isInf then .null else .number (Number.shortestText value).toList

def ofNats (values : List Nat) : Json := .array (values.map ofNat)

def variant (name : String) (contents : Json) : Json := record [(name, contents)]

/-- The name of a choice in a table of names. -/
def ofChoice {α : Type} [DecidableEq α] (choices : List (String × α)) (value : α) : Json :=
  match choices.find? (·.2 = value) with
  | some (name, _) => ofText name
  | none => .null

end Json

open Json

def Category.names : List (String × Category) := [("Physical", .physical), ("Logical", .logical)]

def Scheme.names : List (String × Scheme) := [("Mbr", .mbr), ("Gpt", .gpt), ("Unknown", .unknown)]

def Filesystem.names : List (String × Filesystem) :=
  [("Fat32", .fat32), ("Ntfs", .ntfs), ("ExFat", .exFat), ("Ext4", .ext4), ("Unknown", .unknown)]

def Termination.names : List (String × Termination) :=
  [("EndOfChain", .endOfChain), ("Invalid", .invalid), ("Looped", .looped),
   ("OutOfRange", .outOfRange), ("Truncated", .truncated)]

def Outcome.names : List (String × Outcome) :=
  [("Success", .success), ("Partial", .partly), ("Failed", .failed)]

namespace Drive

def toJson (drive : Drive) : Json :=
  record
    [("path", ofText drive.path), ("category", ofChoice Category.names drive.category),
     ("scheme", ofChoice Scheme.names drive.scheme)]

def ofJson? (json : Json) : Option Drive := do
  let fields ← fields? ["path", "category", "scheme"] true json
  pure
    { path := ← field? fields "path" toText?
      category := ← field? fields "category" (toUnit? Category.names)
      scheme := ← field? fields "scheme" (toUnit? Scheme.names) }

end Drive

namespace Geometry

def fieldNames : List String :=
  ["bytes_per_sector", "sectors_per_cluster", "reserved_sectors", "num_fats", "fat_size",
   "root_cluster", "total_sectors", "fat_start_sector", "data_start_sector", "cluster_count"]

def toJson (g : Geometry) : Json :=
  record (fieldNames.zip (
    [g.bytesPerSector, g.sectorsPerCluster, g.reservedSectors, g.fatCount, g.fatSize,
     g.rootCluster, g.totalSectors, g.fatStart, g.dataStart, g.clusterCount].map ofNat))

def ofJson? (json : Json) : Option Geometry := do
  let fields ← fields? fieldNames true json
  pure
    { bytesPerSector := ← field? fields "bytes_per_sector" toWord?
      sectorsPerCluster := ← field? fields "sectors_per_cluster" toWord?
      reservedSectors := ← field? fields "reserved_sectors" toWord?
      fatCount := ← field? fields "num_fats" toWord?
      fatSize := ← field? fields "fat_size" toWord?
      rootCluster := ← field? fields "root_cluster" toWord?
      totalSectors := ← field? fields "total_sectors" toLongWord?
      fatStart := ← field? fields "fat_start_sector" toLongWord?
      dataStart := ← field? fields "data_start_sector" toLongWord?
      clusterCount := ← field? fields "cluster_count" toWord? }

end Geometry

namespace Overwrite

def takersToJson (takers : List (Nat × List Nat)) : Json :=
  .object (takers.map fun (cluster, files) => (Nat.toDigits 10 cluster, ofNats files))

/-- Put an entry in its place in a list with ascending keys, instead of one with the same key. -/
def place (cluster : Nat) (files : List Nat) : List (Nat × List Nat) → List (Nat × List Nat)
  | [] => [(cluster, files)]
  | (known, others) :: rest =>
    if cluster < known then (cluster, files) :: (known, others) :: rest
    else if cluster = known then (cluster, files) :: rest
    else (known, others) :: place cluster files rest

/-- A key is a number in its plain decimal form. -/
def toKey? (raw : List Char) : Option Nat :=
  match raw with
  | '0' :: _ :: _ => none
  | _ => literalNat? (UInt32.size - 1) raw

def takersOfJson? : Json → Option (List (Nat × List Nat))
  | .object members =>
    members.foldlM (fun takers (raw, value) => do
      pure (place (← toKey? raw) (← toList? toWord? value) takers)) []
  | _ => none

def toJson (overwrite : Overwrite) : Json :=
  record
    [("has_overwrite", .bool overwrite.hasOverwrite),
     ("overwritten_clusters", ofNats overwrite.clusters),
     ("overwritten_by", takersToJson overwrite.takers),
     ("overwrite_percentage", ofFloat overwrite.share)]

def fieldNames : List String :=
  ["has_overwrite", "overwritten_clusters", "overwritten_by", "overwrite_percentage"]

def ofJson? (json : Json) : Option Overwrite := do
  let fields ← fields? fieldNames true json
  pure
    { hasOverwrite := ← field? fields "has_overwrite" toBool?
      clusters := ← field? fields "overwritten_clusters" (toList? toWord?)
      takers := ← field? fields "overwritten_by" takersOfJson?
      share := ← field? fields "overwrite_percentage" toFloat? }

end Overwrite

namespace Lifecycle

def toJson : Lifecycle → Json
  | discovered => ofText "Discovered"
  | chainWalked => ofText "ChainWalked"
  | analyzed => ofText "Analyzed"
  | written outcome => variant "Written" (ofChoice Outcome.names outcome)

def units : List (String × Lifecycle) :=
  [("Discovered", discovered), ("ChainWalked", chainWalked), ("Analyzed", analyzed)]

def ofJson? (json : Json) : Option Lifecycle :=
  match toVariant? json with
  | some ("Written", some contents) => (toUnit? Outcome.names contents).map written
  | _ => toUnit? units json

end Lifecycle

namespace Status

def fieldNames : List String :=
  ["file_id", "ordinal", "display_name", "declared_size", "start_cluster", "is_corrupted",
   "has_fragmented_clusters", "fragmentation", "has_back_jumps", "back_jumps",
   "has_repeated_clusters", "repeated_clusters", "has_large_gaps", "large_gaps",
   "has_overwritten_clusters", "has_invalid_file_name", "has_invalid_extension",
   "expected_clusters", "recovered_clusters", "recovered_bytes", "problematic_clusters",
   "termination", "inferred_clusters", "overwrite", "recoverability", "state", "outcome",
   "output_path", "sha256"]

def toJson (status : Status) : Json :=
  record (fieldNames.zip
    [ofNat status.fileId, ofNat status.ordinal, ofText status.displayName,
     ofNat status.declaredSize, ofNat status.startCluster, .bool status.isCorrupted,
     .bool status.isFragmented, ofFloat status.fragmentation, .bool status.hasBackJumps,
     ofNat status.backJumps, .bool status.hasRepeated, ofNat status.repeated,
     .bool status.hasLargeGaps, ofNat status.largeGaps, .bool status.hasOverwrite,
     .bool status.hasInvalidName, .bool status.hasInvalidExtension,
     ofNat status.expectedClusters, ofNat status.recoveredClusters, ofNat status.recoveredBytes,
     ofNats status.problematic, ofChoice Termination.names status.termination,
     ofNat status.inferred, status.overwrite.toJson, ofFloat status.recoverability,
     status.lifecycle.toJson, ofChoice Outcome.names status.outcome,
     ofOption ofText status.outputPath, ofOption ofText status.sha256])

def ofJson? (json : Json) : Option Status := do
  let fields ← fields? fieldNames true json
  pure
    { fileId := ← field? fields "file_id" toWord?
      ordinal := ← field? fields "ordinal" toLongWord?
      displayName := ← field? fields "display_name" toText?
      declaredSize := ← field? fields "declared_size" toWord?
      startCluster := ← field? fields "start_cluster" toWord?
      isCorrupted := ← field? fields "is_corrupted" toBool?
      isFragmented := ← field? fields "has_fragmented_clusters" toBool?
      fragmentation := ← field? fields "fragmentation" toFloat?
      hasBackJumps := ← field? fields "has_back_jumps" toBool?
      backJumps := ← field? fields "back_jumps" toWord?
      hasRepeated := ← field? fields "has_repeated_clusters" toBool?
      repeated := ← field? fields "repeated_clusters" toWord?
      hasLargeGaps := ← field? fields "has_large_gaps" toBool?
      largeGaps := ← field? fields "large_gaps" toWord?
      hasOverwrite := ← field? fields "has_overwritten_clusters" toBool?
      hasInvalidName := ← field? fields "has_invalid_file_name" toBool?
      hasInvalidExtension := ← field? fields "has_invalid_extension" toBool?
      expectedClusters := ← field? fields "expected_clusters" toWord?
      recoveredClusters := ← field? fields "recovered_clusters" toWord?
      recoveredBytes := ← field? fields "recovered_bytes" toLongWord?
      problematic := ← field? fields "problematic_clusters" (toList? toWord?)
      termination := ← field? fields "termination" (toUnit? Termination.names)
      inferred := ← field? fields "inferred_clusters" toWord?
      overwrite := ← field? fields "overwrite" Overwrite.ofJson?
      recoverability := ← field? fields "recoverability" toFloat?
      lifecycle := ← field? fields "state" Lifecycle.ofJson?
      outcome := ← field? fields "outcome" (toUnit? Outcome.names)
      outputPath := ← fieldOr? fields "output_path" (toOption? toText?) none
      sha256 := ← fieldOr? fields "sha256" (toOption? toText?) none }

end Status

namespace PartitionOutcome

def toJson : PartitionOutcome → Json
  | recovered => ofText "Recovered"
  | skipped reason => variant "Skipped" (ofText reason)

def ofJson? (json : Json) : Option PartitionOutcome :=
  match toVariant? json with
  | some ("Skipped", some contents) => (toText? contents).map skipped
  | _ => toUnit? [("Recovered", recovered)] json

end PartitionOutcome

namespace PartitionReport

def fieldNames : List String :=
  ["index", "start_lba", "sector_count", "declared_filesystem", "name", "outcome", "geometry",
   "directories_scanned", "entries_scanned", "statuses"]

def toJson (report : PartitionReport) : Json :=
  record (fieldNames.zip
    [ofNat report.index, ofNat report.startLba, ofNat report.sectorCount,
     ofChoice Filesystem.names report.declared, ofOption ofText report.name,
     report.outcome.toJson, ofOption Geometry.toJson report.geometry, ofNat report.directories,
     ofNat report.entries, .array (report.statuses.map Status.toJson)])

def ofJson? (json : Json) : Option PartitionReport := do
  let fields ← fields? fieldNames true json
  pure
    { index := ← field? fields "index" toLongWord?
      startLba := ← field? fields "start_lba" toLongWord?
      sectorCount := ← field? fields "sector_count" toLongWord?
      declared := ← field? fields "declared_filesystem" (toUnit? Filesystem.names)
      name := ← fieldOr? fields "name" (toOption? toText?) none
      outcome := ← field? fields "outcome" PartitionOutcome.ofJson?
      geometry := ← fieldOr? fields "geometry" (toOption? Geometry.ofJson?) none
      directories := ← field? fields "directories_scanned" toLongWord?
      entries := ← field? fields "entries_scanned" toLongWord?
      statuses := ← field? fields "statuses" (toList? Status.ofJson?) }

end PartitionReport

namespace Totals

def fieldNames : List String :=
  ["partitions_recovered", "partitions_skipped", "candidates", "succeeded", "partial", "failed",
   "recovered_bytes"]

def toJson (totals : Totals) : Json :=
  record (fieldNames.zip (
    [totals.partitionsRecovered, totals.partitionsSkipped, totals.candidates, totals.succeeded,
     totals.partly, totals.failed, totals.recoveredBytes].map ofNat))

def ofJson? (json : Json) : Option Totals := do
  let fields ← fields? fieldNames true json
  pure
    { partitionsRecovered := ← field? fields "partitions_recovered" toLongWord?
      partitionsSkipped := ← field? fields "partitions_skipped" toLongWord?
      candidates := ← field? fields "candidates" toLongWord?
      succeeded := ← field? fields "succeeded" toLongWord?
      partly := ← field? fields "partial" toLongWord?
      failed := ← field? fields "failed" toLongWord?
      recoveredBytes := ← field? fields "recovered_bytes" toLongWord? }

end Totals

namespace Report

def fieldNames : List String :=
  ["session_id", "started_at", "finished_at", "descriptor", "partitions", "totals"]

def ofTime (time : Timestamp) : Json := ofText time.text

def toTime? (json : Json) : Option Timestamp := (toText? json).bind Timestamp.parse?

def toJson (report : Report) : Json :=
  record (fieldNames.zip
    [ofText report.session.text, ofTime report.startedAt, ofOption ofTime report.finishedAt,
     report.drive.toJson, .array (report.partitions.map PartitionReport.toJson),
     report.totals.toJson])

def ofJson? (json : Json) : Option Report := do
  let fields ← fields? fieldNames true json
  pure
    { session := ← field? fields "session_id" fun json => (toText? json).bind Guid.ofText?
      startedAt := ← field? fields "started_at" toTime?
      finishedAt := ← fieldOr? fields "finished_at" (toOption? toTime?) none
      drive := ← field? fields "descriptor" Drive.ofJson?
      partitions := ← field? fields "partitions" (toList? PartitionReport.ofJson?)
      totals := ← field? fields "totals" Totals.ofJson? }

/-- The contents of a report file. -/
def render (report : Report) : String := String.ofList (report.toJson.pretty 0)

def parse? (text : String) : Option Report := (Json.parse? text).bind ofJson?

end Report

end Undelete
