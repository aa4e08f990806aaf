import Undelete.Number.Shortest
import Undelete.Recovery.Report

/-!
What the command line prints: a line for every partition and candidate, and the totals.
-/

namespace Undelete.CommandLine

def left (width : Nat) (text : String) : String :=
  String.ofList (Number.padRight ' ' width text.toList)

def right (width : Nat) (text : String) : String :=
  String.ofList (Number.padLeft ' ' width text.toList)

def leftNat (width value : Nat) : String := left width (toString value)

def rightNat (width value : Nat) : String := right width (toString value)

def percent (share : Float) : String := right 5 (Number.fixedText 1 (share * 100.0)) ++ "%"

def megabytes (bytes : Nat) : Nat := bytes / (1024 * 1024)

def partitionLine (index : Nat) (partition : Partition) (sectorSize : Nat) (found : String) :
    String :=
  "  #" ++ leftNat 2 index ++ " LBA " ++ rightNat 10 partition.startLba ++ " - "
    ++ rightNat 10 partition.endLba ++ "  "
    ++ rightNat 8 (megabytes (partition.sectorCount * sectorSize)) ++ " MB  declared "
    ++ left 7 partition.declared.text ++ " found " ++ found
    ++ (match partition.name with
      | some name => "  \"" ++ name ++ "\""
      | none => "")

def icon : Outcome → String
  | .success => "✅"
  | .partly => "⚠️ "
  | .failed => "❌"

def statusLine (status : Status) : String :=
  "  " ++ icon status.outcome ++ " #" ++ leftNat 5 status.ordinal ++ " "
    ++ left 40 status.displayName ++ " " ++ rightNat 10 status.recoveredBytes ++ " / "
    ++ leftNat 10 status.declaredSize ++ " bytes  cluster " ++ leftNat 8 status.startCluster
    ++ " frag " ++ percent status.fragmentation ++ "  overwritten "
    ++ percent status.overwrite.share ++ "  score " ++ Number.fixedText 2 status.recoverability

def reportLine (report : PartitionReport) : String :=
  match report.outcome with
  | .skipped reason =>
    s!"⏭️  Partition {report.index} (LBA {report.startLba}): skipped, " ++ reason
  | .recovered =>
    s!"📂 Partition {report.index} (LBA {report.startLba}): {report.directories} directories, "
      ++ s!"{report.entries} entries"

def totalsLine (totals : Totals) : String :=
  s!"📈 {totals.candidates} candidates: {totals.succeeded} recovered, {totals.partly} partial, "
    ++ s!"{totals.failed} failed ({totals.recoveredBytes} bytes)"

def reportLines (report : Report) : List String :=
  ("✅ Session " ++ report.session.text)
    :: report.partitions.flatMap (fun part => reportLine part :: part.statuses.map statusLine)
    ++ [totalsLine report.totals]

end Undelete.CommandLine
