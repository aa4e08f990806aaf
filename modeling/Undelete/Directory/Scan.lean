import Std.Data.TreeSet
import Undelete.Directory.Entry
import Undelete.Volume.Probe

/-!
The walk over a volume's tree of directories. A directory's own slots are listed before its
subdirectories. A live directory is followed along the FAT; of a deleted one only the first
cluster is known, and everything below it counts as deleted. No cluster is read twice.
-/

namespace Undelete

/-- Follow the FAT from a cluster to the first entry that is no link, over valid clusters that
did not come up before and at most `limit` of them. `trail` holds them newest first. -/
def Geometry.chainFrom (g : Geometry) : (limit : Nat) → (seen : Std.TreeSet Nat) →
    (trail : List Nat) → (current : Nat) → Probe (Except Failure (List Nat))
  | 0, _, trail, _ => pure (.ok trail.reverse)
  | limit + 1, seen, trail, current =>
    if g.Valid current ∧ current ∉ seen then do
      match ← Probe.entryOf current with
      | .error failure => pure (.error failure)
      | .ok (.next next) => g.chainFrom limit (seen.insert current) (current :: trail) next
      | .ok _ => pure (.ok (current :: trail).reverse)
    else pure (.ok trail.reverse)

/-- The clusters of a live directory. -/
def Geometry.liveChain (g : Geometry) (start limit : Nat) : Probe (Except Failure (List Nat)) :=
  g.chainFrom limit ∅ [] start

/-- A slot where it stands. -/
structure PlacedSlot where
  cluster : Nat
  index : Nat
  data : Bytes
  deriving DecidableEq

namespace Directory

/-- At most this many fragments make one long name. -/
def maxFragments : Nat := 20

def keep (pending : List NameFragment) (fragment : NameFragment) : List NameFragment :=
  if maxFragments ≤ pending.length then [fragment] else pending ++ [fragment]

/-- The long name in the fragments before a short slot, and the first byte that they tell. A live
slot takes fragments with its own checksum; deletion spoils that byte, so that the checksum of a
deleted slot's fragments gives it back instead. -/
def nameOf (slot : ShortSlot) (fragments : List NameFragment) : Option String × Option UInt8 :=
  match fragments.getLast? with
  | none => (none, none)
  | some last =>
    if fragments.any (·.checksum ≠ last.checksum) then (none, none)
    else if slot.isDeleted then
      if fragments.all (·.isDeleted) then
        let name := NameFragment.assemble fragments
        let hint := name.bind (·.toList.head?)
        (name, recoverInitial slot.name slot.extension last.checksum hint)
      else (none, none)
    else if slot.checksum = last.checksum then (NameFragment.assemble fragments, none)
    else (none, none)

def entryOf (directory : Nat) (inDeleted : Bool) (ordinal : Nat) (placed : PlacedSlot)
    (slot : ShortSlot) (fragments : List NameFragment) : Entry :=
  let (longName, recoveredInitial) := nameOf slot fragments
  { fileId := ordinal % UInt32.size
    ordinal
    shortName := slot.rawName
    extension := slot.extension
    longName
    recoveredInitial
    attributes := slot.attributes
    startCluster := slot.firstCluster
    size := slot.fileSize
    deleted := slot.isDeleted || inDeleted
    parentCluster := directory
    slotCluster := placed.cluster
    slotIndex := placed.index
    modified := slot.modified }

/-- The entries of a directory's slots, up to the first unused one. -/
def entries (directory : Nat) (inDeleted : Bool) :
    (ordinal : Nat) → (pending : List NameFragment) → List PlacedSlot → List Entry
  | _, _, [] => []
  | ordinal, pending, placed :: rest =>
    match Slot.decode placed.data with
    | .unused => []
    | .fragment fragment => entries directory inDeleted ordinal (keep pending fragment) rest
    | .short slot =>
      if slot.isVolumeLabel || slot.isDot then entries directory inDeleted ordinal [] rest
      else entryOf directory inDeleted ordinal placed slot pending
        :: entries directory inDeleted (ordinal + 1) [] rest

/-- The clusters of a directory that are read, with their slots. Reading stops at a cluster that
was read before, that cannot be read, or that holds the end of the directory. -/
def pages (g : Geometry) : List Nat → (visited : Std.TreeSet Nat) →
    (read : List (Nat × List Bytes)) → Probe (List (Nat × List Bytes) × Std.TreeSet Nat)
  | [], visited, read => pure (read.reverse, visited)
  | cluster :: rest, visited, read =>
    if cluster ∈ visited then pure (read.reverse, visited)
    else do
      match ← Probe.bytesAt (g.clusterSector cluster) g.clusterSize with
      | .error _ => pure (read.reverse, visited.insert cluster)
      | .ok data =>
        let slots := Bytes.chunks slotSize data
        let page := (cluster, slots)
        let visited := visited.insert cluster
        if slots.any (·.byteAt 0 = endMark) then pure ((page :: read).reverse, visited)
        else pages g rest visited (page :: read)

/-- The slots of consecutive pages, numbered through. -/
def placed (read : List (Nat × List Bytes)) : List PlacedSlot :=
  (read.flatMap fun (cluster, slots) => slots.map fun data => (cluster, data)).zipIdx.map
    fun ((cluster, data), index) => ⟨cluster, index, data⟩

end Directory

/-- A directory that a scan has listed, with the clusters that were read of it. -/
structure Listing where
  directory : Nat
  inDeleted : Bool
  clusters : List Nat
  deriving Repr, DecidableEq

/-- What a scan has found so far. -/
structure Scan where
  entries : List Entry
  listings : List Listing
  /-- Clusters that were read as directory content, or could not be read as such. -/
  visited : Std.TreeSet Nat

namespace Scan

def empty : Scan := ⟨[], [], ∅⟩

def directories (scan : Scan) : Nat := scan.listings.length

def nextOrdinal (scan : Scan) : Nat := scan.entries.length + 1

/-- The entries that name directories, with whether these are deleted. -/
def subdirectories (found : List Entry) : List (Nat × Bool) :=
  (found.filter Entry.isDirectory).map fun entry => (entry.startCluster, entry.deleted)

/-- List the directory that occupies `clusters`, and the subdirectories it names. -/
def list (g : Geometry) (directory : Nat) (inDeleted : Bool) (clusters : List Nat) (scan : Scan) :
    Probe (Scan × List (Nat × Bool)) := do
  let (read, visited) ← Directory.pages g clusters scan.visited []
  let found := Directory.entries directory inDeleted scan.nextOrdinal [] (Directory.placed read)
  let listing : Listing := ⟨directory, inDeleted, read.map Prod.fst⟩
  pure (⟨scan.entries ++ found, scan.listings ++ [listing], visited⟩, subdirectories found)

/-- Scan the tree below a directory over at most `levels` levels. A subdirectory whose FAT
cannot be read is left out. -/
def tree (g : Geometry) (limit : Nat) : (levels : Nat) → (directory : Nat) → (inDeleted : Bool) →
    Scan → Probe (Except Failure Scan)
  | 0, _, _, scan => pure (.ok scan)
  | levels + 1, directory, inDeleted, scan =>
    if ¬ g.Valid directory ∨ directory ∈ scan.visited then pure (.ok scan)
    else do
      let clusters ← if inDeleted then pure (.ok [directory]) else g.liveChain directory limit
      match clusters with
      | .error failure => pure (.error failure)
      | .ok clusters =>
        let (scan, children) ← list g directory inDeleted clusters scan
        let scan ← children.foldlM (fun scan (child, deleted) => do
          match ← tree g limit levels child deleted scan with
          | .ok later => pure later
          | .error _ => pure scan) scan
        pure (.ok scan)

/-- Scan the tree rooted at `start`, which is at depth 0, down to `maxDepth`. -/
def ofRoot (g : Geometry) (maxDepth limit start : Nat) : Probe (Except Failure Scan) :=
  tree g limit (maxDepth + 1) start false empty

end Scan

end Undelete
