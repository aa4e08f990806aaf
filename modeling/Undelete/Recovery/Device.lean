import Undelete.Recovery.Pass
import Undelete.Recovery.Report
import Undelete.Volume.BootSector

/-!
Recovery of a whole drive. A logical drive is one volume; on a physical one every partition of
the table that promises FAT32 is visited in turn. What is wrong with one volume skips that one;
an unreadable table or boot sector, and a failure of the output, end the run.
-/

namespace Undelete.Device

variable {ω : Type}

def changeSource (f : Source → Source) : Engine ω Unit :=
  modify fun run => { run with source := f run.source }

def reopen : Engine ω Unit := do
  let source ← Engine.require (← get).source.reopen
  changeSource fun _ => source

/-- Ask the source a question that reads some of its sectors. -/
def ask {α : Type} (question : Source → Except Failure α) : Engine ω α := do
  Engine.require (question (← get).source)

/-- The geometry of the volume at sector 0, or why the volume is skipped. -/
def geometryOrReason : Engine ω (Except String Geometry) := do
  match (← get).source.geometry 0 with
  | .ok g => pure (.ok g)
  | .error failure =>
    if failure.isPartitionLocal then pure (.error failure.message) else throw failure

variable [Digests] [Output ω]

/-- Run a pass and enter its result. A pass that fails skips the partition, unless the output is
at fault. -/
def passOver (config : Config) (report : PartitionReport) (g : Geometry) :
    Engine ω PartitionReport :=
  let report := { report with geometry := some g }
  tryCatch
    (do
      let result ← Pass.run config report.index g
      pure { report with
        outcome := .recovered
        directories := result.directories
        entries := result.entries
        statuses := result.statuses })
    fun failure =>
      if failure.isOutput then throw failure
      else pure { report with outcome := .skipped failure.message }

def recoverLogical (config : Config) : Engine ω (List PartitionReport) := do
  let report := PartitionReport.fresh 0 (← get).source.startLba .unknown
  let found ← geometryOrReason
  changeSource Source.close
  match found with
  | .error reason => pure [{ report with outcome := .skipped reason }]
  | .ok g =>
    reopen
    pure [← passOver config { report with declared := .fat32, sectorCount := g.totalSectors } g]

def recoverPartition (config : Config) (index : Nat) (partition : Partition) :
    Engine ω PartitionReport := do
  let report := { PartitionReport.fresh index partition.startLba partition.declared with
    sectorCount := partition.sectorCount
    name := partition.name }
  if partition.declared ≠ .fat32 then
    let reason := "declared " ++ partition.declared.text ++ " partition"
    pure { report with outcome := .skipped reason }
  else
    changeSource (·.setStart partition.startLba)
    reopen
    let report ← match ← geometryOrReason with
      | .error reason => pure { report with outcome := .skipped reason }
      | .ok g => passOver config report g
    changeSource Source.close
    pure report

/-- The scheme of a disk and the reports of its partitions, in table order. -/
def recoverPhysical (config : Config) : Engine ω (Scheme × List PartitionReport) := do
  Engine.announce .partitionDiscovery 0 0 "Reading partition table"
  let detection ← ask Detection.ofSource
  let (partitions, _) ← ask detection.partitions
  changeSource Source.close
  let reports ← partitions.zipIdx.mapM fun (partition, index) =>
    recoverPartition config index partition
  pure (detection.scheme, reports)

/-- Recover every FAT32 volume that the source of a run leads to. -/
def recover (config : Config) (session : Session) (drive : Drive) : Engine ω Report := do
  Engine.announce .initialization 0 0 ("Opening " ++ drive.path)
  if !(← get).source.isOpen then reopen
  let report ← match drive.category with
    | .logical => pure (Report.ofPartitions session drive (← recoverLogical config))
    | .physical =>
      let (scheme, partitions) ← recoverPhysical config
      pure (Report.ofPartitions session (drive.withScheme scheme) partitions)
  Engine.announce .complete report.totals.candidates report.totals.candidates "Recovery complete"
  pure report

end Undelete.Device
