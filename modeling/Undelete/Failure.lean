/-!
Everything that can stop a recovery, with the sentence that reports it. A failure is local to a
partition when only the volume on that partition is at fault.
-/

namespace Undelete

inductive Failure where
  | unknownDrive (input : String)
  | unreadableDevice (reason : String)
  | noPartitionTable
  | unsupportedFilesystem (found : String)
  | badBootSector (reason : String)
  | badPartitionTable (reason : String)
  | chainCorruption (reason : String)
  | unreadableSector (sector : Nat)
  | output (reason : String)
  | host (reason : String)
  deriving Repr, DecidableEq

namespace Failure

def message : Failure → String
  | unknownDrive input => "Invalid drive specification: " ++ input
  | unreadableDevice reason => "Device unreadable: " ++ reason
  | noPartitionTable => "Partition is neither MBR nor GPT"
  | unsupportedFilesystem found => "Unsupported file system: " ++ found
  | badBootSector reason => "Invalid boot sector: " ++ reason
  | badPartitionTable reason => "Invalid partition table: " ++ reason
  | chainCorruption reason => "Cluster chain corruption: " ++ reason
  | unreadableSector sector => "Cannot read sector " ++ toString sector
  | output reason => "Output error: " ++ reason
  | host reason => "IO error: " ++ reason

def isPartitionLocal : Failure → Bool
  | unsupportedFilesystem _ | badBootSector _ => true
  | _ => false

/-- Whether the destination of recovered files, not the disk, is at fault. -/
def isOutput : Failure → Bool
  | output _ | host _ => true
  | _ => false

end Failure

end Undelete
