import Undelete.Drive
import Undelete.Guid
import Undelete.Partition.Table
import Undelete.Recovery.Status
import Undelete.Timestamp

/-!
The report of a run over one drive: a part for every partition, and totals over all of them.
-/

namespace Undelete

inductive PartitionOutcome where
  | recovered
  | skipped (reason : String)
  deriving Repr, DecidableEq

structure PartitionReport where
  index : Nat
  startLba : Nat
  sectorCount : Nat
  declared : Filesystem
  name : Option String
  outcome : PartitionOutcome
  geometry : Option Geometry
  directories : Nat
  entries : Nat
  statuses : List Status
  deriving BEq

namespace PartitionReport

def fresh (index startLba : Nat) (declared : Filesystem) : PartitionReport where
  index := index
  startLba := startLba
  sectorCount := 0
  declared := declared
  name := none
  outcome := .skipped "not scanned"
  geometry := none
  directories := 0
  entries := 0
  statuses := []

def isRecovered (report : PartitionReport) : Bool := report.outcome = .recovered

end PartitionReport

structure Totals where
  partitionsRecovered : Nat
  partitionsSkipped : Nat
  candidates : Nat
  succeeded : Nat
  partly : Nat
  failed : Nat
  recoveredBytes : Nat
  deriving Repr, DecidableEq

/-- The totals over partitions. -/
def Totals.ofPartitions (partitions : List PartitionReport) : Totals :=
  let statuses := partitions.flatMap PartitionReport.statuses
  let count := fun outcome => statuses.countP (·.outcome = outcome)
  { partitionsRecovered := partitions.countP PartitionReport.isRecovered
    partitionsSkipped := partitions.countP (!·.isRecovered)
    candidates := statuses.length
    succeeded := count .success
    partly := count .partly
    failed := count .failed
    recoveredBytes := statuses.foldl (fun total status => total + status.recoveredBytes) 0 }

/-- Who ran when. -/
structure Session where
  id : Guid
  startedAt : Timestamp
  finishedAt : Timestamp
  deriving Repr, DecidableEq

structure Report where
  session : Guid
  startedAt : Timestamp
  finishedAt : Option Timestamp
  drive : Drive
  partitions : List PartitionReport
  totals : Totals

namespace Report

def statuses (report : Report) : List Status := report.partitions.flatMap PartitionReport.statuses

/-- Compute the totals and note the end. -/
def finish (report : Report) (time : Timestamp) : Report :=
  { report with totals := Totals.ofPartitions report.partitions, finishedAt := some time }

def ofPartitions (session : Session) (drive : Drive) (partitions : List PartitionReport) : Report :=
  { session := session.id
    startedAt := session.startedAt
    finishedAt := some session.finishedAt
    drive
    partitions
    totals := Totals.ofPartitions partitions }

end Report

end Undelete
