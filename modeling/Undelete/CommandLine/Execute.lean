import Undelete.CommandLine.Arguments
import Undelete.CommandLine.Display
import Undelete.Recovery.Device
import Undelete.Recovery.FolderOutput
import Undelete.Recovery.ReportFile

/-!
The commands of the program, as functions on the host's files. Lines that were printed before a
failure stay printed, and files that were written stay written.
-/

namespace Undelete.CommandLine

/-- Why a command stopped: what could not be done, and the cause. -/
structure Complaint where
  message : String
  cause : Option String

namespace Complaint

def ofFailure (failure : Failure) : Complaint := ⟨failure.message, none⟩

def because (message : String) (failure : Failure) : Complaint := ⟨message, some failure.message⟩

def lines (complaint : Complaint) : List String :=
  ("Error: " ++ complaint.message) ::
    match complaint.cause with
    | none => []
    | some cause => ["", "Caused by:"]
      ++ (Text.split '\n' cause.toList).map fun line => "    " ++ String.ofList line

end Complaint

structure Desk where
  tree : FileTree
  /-- Lines printed, newest first. -/
  printed : List String

abbrev Work := ExceptT Complaint (StateM Desk)

def print (line : String) : Work Unit :=
  modify fun desk => { desk with printed := line :: desk.printed }

def orComplain {α : Type} (complain : Failure → Complaint) : Except Failure α → Work α
  | .ok value => pure value
  | .error failure => throw (complain failure)

def loadConfig : Option String → Work Config
  | none => pure {}
  | some path => do
    match (← get).tree.read path with
    | .error refusal => throw ⟨"cannot read config " ++ path, some refusal.text⟩
    | .ok data =>
      match String.fromUTF8? (ByteArray.mk data.toArray) with
      | none => throw ⟨"cannot read config " ++ path, some "stream did not contain valid UTF-8"⟩
      | some text =>
        match Config.parse? text with
        | some config => pure config
        | none => throw ⟨"invalid config " ++ path, some "not a configuration"⟩

def resolve (name : String) : Option Category → Work Drive
  | some category => pure (Drive.image name category)
  | none =>
    orComplain (Complaint.because ("cannot interpret drive '" ++ name ++ "'")) (Drive.classify name)

def openDrive (drive : Drive) (sectorSize : Nat) : Work Source := do
  let stored := match (← get).tree.readDevice drive.path with
    | .ok data => .ok data.toArray
    | .error refusal => .error refusal.text
  orComplain (Complaint.because ("cannot open " ++ drive.path))
    (Source.openFile drive stored sectorSize)

def filesystemText (source : Source) : String :=
  match source.filesystem 0 with
  | .ok found => found.text
  | .error failure => "unreadable (" ++ failure.message ++ ")"

def showPartitions (drive : Drive) (sectorSize : Nat) : Work Unit := do
  let source ← openDrive drive sectorSize
  match drive.category with
  | .logical =>
    let found ← orComplain Complaint.ofFailure (source.filesystem 0)
    print ("🔍 " ++ drive.path ++ ": logical volume, " ++ found.text)
    match source.volumeSummary with
    | .ok summary => do
      print ""
      print summary
    | .error _ => pure ()
  | .physical =>
    let detection ← orComplain Complaint.ofFailure (Detection.ofSource source)
    let (partitions, _) ← orComplain (Complaint.because ("no partition table on " ++ drive.path))
      (detection.partitions source)
    print ("🔍 " ++ drive.path ++ ": " ++ detection.scheme.text ++ " disk, "
      ++ toString partitions.length ++ " partition(s)")
    partitions.zipIdx.forM fun (partition, index) =>
      print (partitionLine index partition sectorSize
        (filesystemText (source.setStart partition.startLba)))

/-- Run a recovery into an output; gives the report and the output afterwards. -/
def run {ω : Type} [Output ω] (session : Session) (drive : Drive) (config : Config) (output : ω) :
    Work (Except Complaint Report × ω) := do
  let stored := match (← get).tree.readDevice drive.path with
    | .ok data => .ok data.toArray
    | .error refusal => .error refusal.text
  match Source.openFile drive stored config.deviceSectorSize with
  | .error failure =>
    pure (.error (Complaint.because ("cannot open " ++ drive.path) failure), output)
  | .ok source =>
    let (result, later) := Device.recover config session drive (Run.ofParts source output)
    let report := match result with
      | .ok report => .ok report
      | .error failure => .error (Complaint.because ("recovery failed on " ++ drive.path) failure)
    pure (report, later.output)

def saveReport (report : Report) : Option String → Work Unit
  | none => pure ()
  | some path => do
    match (← get).tree.write path report.render.toUTF8.data.toList with
    | .error refusal =>
      throw (Complaint.because ("cannot write report " ++ path)
        (.output (path ++ ": " ++ refusal.text)))
    | .ok tree =>
      modify fun desk => { desk with tree }
      print ("📝 Report: " ++ path)

def scan (session : Session) (drive : Drive) (config : Config) (reportPath : Option String) :
    Work Unit := do
  let (result, _) ← run session drive { config with analyzeOnly := true } Discard.mk
  let report ← ExceptT.mk (pure result)
  (reportLines report).forM print
  saveReport report reportPath

def recover (session : Session) (drive : Drive) (config : Config) (out : String)
    (reportPath : Option String) : Work Unit := do
  let (made, tree) := FolderOutput.ofFolder out (← get).tree
  modify fun desk => { desk with tree }
  let output ← orComplain (Complaint.because ("cannot use output directory " ++ out)) made
  let (result, output) ← run session drive config output
  modify fun desk => { desk with tree := output.settled }
  let report ← ExceptT.mk (pure result)
  (reportLines report).forM print
  print ("📁 Output: " ++ out)
  saveReport report reportPath

def carryOut (session : Session) (invocation : Invocation) : Work Unit := do
  let config ← loadConfig invocation.config
  let drive ← resolve invocation.drive invocation.image
  let filtered := { config with
    targetCluster := invocation.cluster.or config.targetCluster
    targetSize := invocation.size.or config.targetSize }
  match invocation.command with
  | .partitions => showPartitions drive config.deviceSectorSize
  | .scan => scan session drive filtered invocation.report
  | .recover => recover session drive filtered (invocation.out.getD "") invocation.report

/-- How a run of the program ends: its exit code, what it printed, and the files it leaves. -/
structure Ending where
  code : Nat
  stdout : List String
  stderr : List String
  tree : FileTree

def versionLine : String := "fatrecover 0.1.0"

def usageLines : List String :=
  ["Recover deleted files from FAT32 volumes",
   "",
   "Usage: fatrecover [OPTIONS] <COMMAND>",
   "",
   "Commands:",
   "  partitions <DRIVE>                List partitions and the file systems on them",
   "  scan <DRIVE> [--report FILE]      Analyze deleted entries without writing anything",
   "  recover <DRIVE> --out DIR         Recover deleted files into a directory",
   "",
   "Options:",
   "  --image <physical|logical>        Treat the drive as a raw image of the given kind",
   "  --config <FILE>                   JSON file with recovery settings",
   "  --cluster <N>, --size <N>         Only consider entries with this start or size",
   "  -v, --verbose                     More log output",
   "  -q, --quiet                       Only log errors"]

def execute (session : Session) (tree : FileTree) (arguments : List String) : Ending :=
  match Request.ofArguments arguments with
  | .version => ⟨0, [versionLine], [], tree⟩
  | .help => ⟨0, usageLines, [], tree⟩
  | .misuse => ⟨2, [], usageLines, tree⟩
  | .run invocation =>
    let (result, desk) := carryOut session invocation ⟨tree, []⟩
    match result with
    | .ok () => ⟨0, desk.printed.reverse, [], desk.tree⟩
    | .error complaint => ⟨1, desk.printed.reverse, complaint.lines, desk.tree⟩

end Undelete.CommandLine
