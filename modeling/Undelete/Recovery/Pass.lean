import Undelete.Digests
import Undelete.Directory.Scan
import Undelete.Recovery.Config
import Undelete.Recovery.Run
import Undelete.Recovery.Status

/-!
One pass over one FAT32 volume. All chains are walked before the first candidate is analyzed, so
that every decision about an overwritten cluster sees every claim. The root directory has no
entry and is claimed first. A file is started at its first readable cluster, so that a candidate
of which nothing is left leaves nothing behind, and it is closed if anything was written.
-/

namespace Undelete

structure PassResult where
  geometry : Geometry
  directories : Nat
  entries : Nat
  statuses : List Status

/-- A candidate whose chain has been analyzed. -/
structure Plan where
  entry : Entry
  chain : Chain
  status : Status

/-- What has been had of a candidate's chain. -/
structure Haul where
  status : Status
  clusters : Nat
  bytes : Nat
  /-- Whether the output has started the file. -/
  begun : Bool
  /-- What the output was given, newest first. -/
  pieces : List Bytes

def Haul.nothing (status : Status) : Haul := ⟨status, 0, 0, false, []⟩

namespace Pass

/-- The contents of a cluster that lies inside the volume. -/
def readCluster (g : Geometry) (cluster : Nat) : Probe (Except Failure Bytes) :=
  let sector := g.clusterSector cluster
  if g.Valid cluster ∧ sector + g.sectorsPerCluster ≤ g.totalSectors then
    Probe.bytesAt sector g.clusterSize
  else pure (.error (.chainCorruption s!"cluster {cluster} lies outside the volume"))

/-- The clusters that a file of `size` bytes covers from `offset` on, with its share of each. The
file ends where its share is empty. As clusters are not empty, that is where its size is reached. -/
def portions (g : Geometry) (size : Nat) : (clusters : List Nat) → (offset : Nat) →
    List (Nat × Nat)
  | [], _ => []
  | cluster :: rest, offset =>
    let share := min (size - offset) g.clusterSize
    if share = 0 then []
    else (cluster, share) :: portions g size rest (offset + g.clusterSize)

/-- Whether anything is recovered. An empty file is, once its chain exists. -/
def hasContent (plan : Plan) (haul : Haul) : Bool :=
  0 < haul.bytes || (plan.entry.size = 0 && plan.chain.clusters ≠ [])

/-- The claims of the root directory and of every entry, in the order of the walks. -/
def ledgerOf (g : Geometry) (root : List Nat) (chains : List (Entry × Chain)) : Ledger :=
  let claims := chains.flatMap fun (entry, chain) =>
    Claim.along entry.fileId entry.ordinal entry.deleted g.clusterSize chain.clusters
  (Ledger.empty.claimAll (Claim.along Ledger.rootId 0 false g.clusterSize root)).claimAll claims

def planOf (config : Config) (g : Geometry) (ledger : Ledger) (entry : Entry) (chain : Chain) :
    Plan :=
  let expected := g.clustersFor entry.size
  let damage := chain.damage (g.gapThreshold config.largeGapShare)
  let overwrite := ledger.overwrite chain entry.ordinal expected
  ⟨entry, chain, Status.ofAnalysis entry chain damage overwrite expected⟩

/-- The root directory's clusters and the chain of every entry. -/
def walkAll (config : Config) (g : Geometry) (entries : List Entry) :
    Probe (Except Failure (List Nat × List (Entry × Chain))) := do
  match ← g.liveChain g.rootCluster config.maxDirectoryClusters with
  | .error failure => pure (.error failure)
  | .ok root =>
    let chains ← entries.mapM fun entry => do pure (entry, ← config.walker.walk g entry)
    pure (.ok (root, chains))

section

variable {ω : Type} [Output ω]

/-- Start the file of an entry, unless that has been done. -/
def ensureStarted (partition : Nat) (entry : Entry) (haul : Haul) : Engine ω Unit :=
  if haul.begun then pure () else Engine.startFile partition entry

/-- Give a file its share of a cluster, if the cluster is clean and can be read. When only
analyzing, every clean cluster is taken to be readable. -/
def takePortion (config : Config) (g : Geometry) (partition : Nat) (entry : Entry) (haul : Haul)
    (portion : Nat × Nat) : Engine ω Haul :=
  let (cluster, share) := portion
  if haul.status.isProblematic cluster then pure haul
  else if config.analyzeOnly then
    pure { haul with clusters := haul.clusters + 1, bytes := haul.bytes + share }
  else do
    let (contents, _) ← Engine.probe (FatTable.empty g) (readCluster g cluster)
    match contents with
    | .error _ => pure { haul with status := haul.status.markProblematic cluster }
    | .ok data =>
      ensureStarted partition entry haul
      Engine.appendData (data.take share)
      pure { haul with
        clusters := haul.clusters + 1
        bytes := haul.bytes + share
        begun := true
        pieces := data.take share :: haul.pieces }

variable [Digests]

/-- Recover one candidate. Where its clusters give nothing and still something is recovered, the
file is started when they are through. -/
def recover (config : Config) (g : Geometry) (partition : Nat) (plan : Plan) : Engine ω Status := do
  let haul ← (portions g plan.entry.size plan.chain.clusters 0).foldlM
    (takePortion config g partition plan.entry) (Haul.nothing plan.status)
  let wrote := hasContent plan haul
  let status := haul.status.finish haul.clusters haul.bytes wrote
  if config.analyzeOnly || !wrote then pure status
  else
    ensureStarted partition plan.entry haul
    let path ← Engine.closeFile
    pure { status with
      outputPath := path
      sha256 := some (Digests.sha256 haul.pieces.reverse.flatten) }

def recoverAll (config : Config) (g : Geometry) (partition found : Nat) :
    (done : Nat) → List Plan → Engine ω (List Status)
  | _, [] => pure []
  | done, plan :: rest => do
    Engine.announce .writing found done ("Recovering " ++ plan.status.displayName)
    let status ← recover config g partition plan
    let later ← recoverAll config g partition found (done + 1) rest
    pure (status :: later)

/-- Scan, walk, analyze and recover one volume; `partition` names it to the output. Each entry is
paired with its own chain. To look chains up by the entry's 32-bit file number is the same only
while the volume has fewer than 2^32 entries. -/
def run (config : Config) (partition : Nat) (g : Geometry) : Engine ω PassResult := do
  Engine.announce .directoryScanning 0 0 s!"Scanning directories from cluster {g.rootCluster}"
  let (scanned, table) ← Engine.probe (FatTable.empty g)
    (Scan.ofRoot g config.maxDirectoryDepth config.maxDirectoryClusters g.rootCluster)
  let scan ← Engine.require scanned
  let found := (scan.entries.filter config.selects).length
  Engine.announce .chainWalking found 0 s!"Walking {scan.entries.length} cluster chains"
  let (walked, _) ← Engine.probe table (walkAll config g scan.entries)
  let (root, chains) ← Engine.require walked
  Engine.announce .analysis found 0 "Analyzing chains"
  let ledger := ledgerOf g root chains
  let plans := (chains.filter fun (entry, _) => config.selects entry).map
    fun (entry, chain) => planOf config g ledger entry chain
  let statuses ← recoverAll config g partition found 0 plans
  pure ⟨g, scan.directories, scan.entries.length, statuses⟩

end

end Pass

end Undelete
