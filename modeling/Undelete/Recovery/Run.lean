import Undelete.Recovery.Output
import Undelete.Source
import Undelete.Volume.Probe

/-!
A run is a source, an output and a journal. The journal notes in order every read that a probe
of a volume makes, every announcement of progress, and every call on the output, also one that
fails.
-/

namespace Undelete

inductive Phase where
  | initialization
  | partitionDiscovery
  | directoryScanning
  | chainWalking
  | analysis
  | writing
  | complete
  deriving Repr, DecidableEq

def Phase.names : List (String × Phase) :=
  [("Initialization", .initialization), ("PartitionDiscovery", .partitionDiscovery),
   ("DirectoryScanning", .directoryScanning), ("ChainWalking", .chainWalking),
   ("Analysis", .analysis), ("Writing", .writing), ("Complete", .complete)]

/-- What a run tells about its progress: the candidates found, those done, and what comes next. -/
structure Progress where
  phase : Phase
  found : Nat
  done : Nat
  operation : String
  deriving Repr, DecidableEq

inductive Event where
  | read (sector count : Nat)
  | progress (progress : Progress)
  | start (partition : Nat) (entry : Entry)
  | append (data : Bytes)
  | close
  deriving Repr, DecidableEq

structure Run (ω : Type) where
  source : Source
  output : ω
  /-- Newest event first. -/
  journal : List Event

abbrev Engine (ω : Type) := ExceptT Failure (StateM (Run ω))

namespace Run

def ofParts {ω : Type} (source : Source) (output : ω) : Run ω := ⟨source, output, []⟩

/-- The progress announced, in order. -/
def progress {ω : Type} (run : Run ω) : List Progress :=
  run.journal.reverse.filterMap fun event =>
    match event with
    | .progress progress => some progress
    | _ => none

end Run

namespace Engine

variable {ω α : Type}

def note (event : Event) : Engine ω Unit :=
  modify fun run => { run with journal := event :: run.journal }

def announce (phase : Phase) (found done : Nat) (operation : String) : Engine ω Unit :=
  note (.progress ⟨phase, found, done, operation⟩)

/-- Go on with a result or stop with its failure. -/
def require (result : Except Failure α) : Engine ω α := fun run => (result, run)

/-- Carry out a probe with a FAT table. -/
def probe (table : FatTable) (work : Probe α) : Engine ω (α × FatTable) := fun run =>
  let (result, later, reads) := work.run run.source table []
  let events := reads.map fun (sector, count) => Event.read sector count
  (.ok (result, later), { run with journal := events ++ run.journal })

/-- Do something with the output and note the call. -/
def onOutput (event : Event) (act : Act ω α) : Engine ω α := do
  note event
  fun run =>
    let (result, output) := act run.output
    (result, { run with output })

variable [Output ω]

def startFile (partition : Nat) (entry : Entry) : Engine ω Unit :=
  onOutput (.start partition entry) (Output.start partition entry)

def appendData (data : Bytes) : Engine ω Unit := onOutput (.append data) (Output.append data)

def closeFile : Engine ω (Option String) := onOutput .close Output.close

end Engine

end Undelete
