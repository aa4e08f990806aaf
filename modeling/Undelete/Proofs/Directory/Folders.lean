import Mathlib.Data.List.Infix
import Mathlib.Data.List.Perm.Subperm
import Undelete.Proofs.Directory.Places

/-!
The tree of directories as a volume stores it, told without a scan: the clusters that a directory
has, its slots before the end, what they name, and the directories below it. A volume is well
formed as far as its directories have linked and readable clusters and share none of them.
-/

namespace Undelete

/-- What a volume stores. -/
structure Volume where
  geometry : Geometry
  fat : Nat → Except Failure FatEntry
  slots : Nat → Except Failure (List Bytes)

/-- The volume that a source gives access to. -/
def Source.volume (source : Source) (g : Geometry) : Volume :=
  ⟨g, source.fatEntry g, Directory.slotsOf source g⟩

/-- A directory in the tree: where it starts, and the slots that lead to it, its own first. -/
structure Folder where
  start : Nat
  ancestry : List ShortSlot
  deriving DecidableEq

namespace Folder

/-- The directory that nothing leads to. -/
def root (start : Nat) : Folder := ⟨start, []⟩

def inDeleted (folder : Folder) : Bool := folder.ancestry.any ShortSlot.isDeleted

end Folder

/-- A short slot of a directory, with the name fragments before it. -/
structure Finding where
  folder : Folder
  placed : PlacedSlot
  slot : ShortSlot
  fragments : List NameFragment

namespace Finding

/-- The directory that a slot names. -/
def target (finding : Finding) : Folder :=
  ⟨finding.slot.firstCluster, finding.slot :: finding.folder.ancestry⟩

def entry (finding : Finding) (ordinal : Nat) : Entry :=
  Directory.entryOf finding.folder.start finding.folder.inDeleted ordinal finding.placed
    finding.slot finding.fragments

/-- The entries of findings that are numbered from `first` on. -/
def number (first : Nat) (findings : List Finding) : List Entry :=
  (findings.zipIdx first).map fun (finding, ordinal) => finding.entry ordinal

end Finding

namespace Directory

/-- The name fragments that stand at the end of some slots. -/
def fragmentsAfter (slots : List PlacedSlot) : List NameFragment :=
  slots.foldl (fun pending placed =>
    match Slot.decode placed.data with
    | .fragment fragment => keep pending fragment
    | _ => []) []

def beforeEnd (placed : PlacedSlot) : Bool := placed.data.byteAt 0 ≠ endMark

/-- What a slot stands for, with the slots before it. -/
def finding? (folder : Folder) : PlacedSlot × List PlacedSlot → Option Finding
  | (placed, before) =>
    match Slot.decode placed.data with
    | .short slot =>
      if slot.isVolumeLabel || slot.isDot then none
      else some ⟨folder, placed, slot, fragmentsAfter before⟩
    | _ => none

end Directory

namespace Volume

variable (volume : Volume)

/-- The clusters that the FAT links from `current` on, at most `room` of them. -/
def chain : (room : Nat) → (current : Nat) → List Nat
  | 0, _ => []
  | room + 1, current =>
    if volume.geometry.Valid current then
      current :: (match volume.fat current with
        | .ok (.next next) => chain room next
        | _ => [])
    else []

/-- The clusters of a directory. Of a deleted one only the first is known. A chain without loops
has fewer clusters than there are numbers for them. -/
def clusters (folder : Folder) : List Nat :=
  if folder.inDeleted then [folder.start]
  else volume.chain volume.geometry.maxCluster folder.start

def contents (cluster : Nat) : List Bytes :=
  match volume.slots cluster with
  | .ok slots => slots
  | .error _ => []

/-- The slots of a directory before its end. -/
def slotsOf (folder : Folder) : List PlacedSlot :=
  (Directory.placed ((volume.clusters folder).map fun cluster =>
    (cluster, volume.contents cluster))).takeWhile Directory.beforeEnd

/-- What the slots of a directory stand for. -/
def findings (folder : Folder) : List Finding :=
  ((volume.slotsOf folder).zip (volume.slotsOf folder).inits).filterMap
    (Directory.finding? folder)

def children (folder : Folder) : List Folder :=
  ((volume.findings folder).filter (·.slot.isDirectory)).map Finding.target

/-- The directories in a tree of at most so many levels, each before those below it. -/
def folders : (levels : Nat) → Folder → List Folder
  | 0, _ => []
  | levels + 1, folder =>
    if volume.geometry.Valid folder.start then
      folder :: (volume.children folder).flatMap (folders levels)
    else []

/-- What there is to find in a tree of at most so many levels. -/
def listing : (levels : Nat) → Folder → List Finding
  | 0, _ => []
  | levels + 1, folder =>
    if volume.geometry.Valid folder.start then
      volume.findings folder ++ (volume.children folder).flatMap (listing levels)
    else []

/-- Whether directories are stored soundly, live ones in at most so many clusters. -/
structure WellFormed (limit : Nat) (folders : List Folder) : Prop where
  linked : ∀ folder ∈ folders, folder.inDeleted = false →
    ∀ cluster ∈ volume.clusters folder, ∃ entry, volume.fat cluster = .ok entry
  short : ∀ folder ∈ folders, folder.inDeleted = false →
    (volume.clusters folder).length ≤ limit
  readable : ∀ folder ∈ folders, ∀ cluster ∈ volume.clusters folder,
    ∃ slots, volume.slots cluster = .ok slots
  /-- No cluster comes twice, neither in one directory nor in two. -/
  distinct : (folders.flatMap volume.clusters).Nodup

instance {ε α : Type} (result : Except ε α) : Decidable (∃ value, result = .ok value) :=
  match result with
  | .ok value => isTrue ⟨value, rfl⟩
  | .error _ => isFalse fun ⟨_, same⟩ => nomatch same

instance (limit : Nat) (folders : List Folder) : Decidable (volume.WellFormed limit folders) :=
  decidable_of_iff
    ((∀ folder ∈ folders, folder.inDeleted = false →
        ∀ cluster ∈ volume.clusters folder, ∃ entry, volume.fat cluster = .ok entry) ∧
      (∀ folder ∈ folders, folder.inDeleted = false →
        (volume.clusters folder).length ≤ limit) ∧
      (∀ folder ∈ folders, ∀ cluster ∈ volume.clusters folder,
        ∃ slots, volume.slots cluster = .ok slots) ∧
      (folders.flatMap volume.clusters).Nodup)
    ⟨fun ⟨linked, short, readable, distinct⟩ => ⟨linked, short, readable, distinct⟩,
      fun ⟨linked, short, readable, distinct⟩ => ⟨linked, short, readable, distinct⟩⟩

end Volume

namespace Volume

variable {volume : Volume}

theorem valid_of_mem_chain {room current cluster : Nat}
    (member : cluster ∈ volume.chain room current) : volume.geometry.Valid cluster := by
  induction room generalizing current with
  | zero => cases member
  | succ room ih =>
    rw [chain] at member
    split at member
    next valid =>
      rcases List.mem_cons.mp member with rfl | later
      · exact valid
      · split at later
        · exact ih later
        · cases later
    · cases member

/-- A chain without loops ends before it has run out of room. -/
theorem length_chain_lt {start : Nat} (valid : volume.geometry.Valid start) {room : Nat}
    (nodup : (volume.chain room start).Nodup) :
    (volume.chain room start).length < volume.geometry.maxCluster := by
  have inside : volume.chain room start ⊆ List.range' 2 (volume.geometry.maxCluster - 1) := by
    intro cluster member
    obtain ⟨low, high⟩ := valid_of_mem_chain member
    rw [List.mem_range'_1]
    omega
  have fewer := (nodup.subperm inside).length_le
  rw [List.length_range'] at fewer
  obtain ⟨low, high⟩ := valid
  omega

theorem head_mem_clusters {folder : Folder} (valid : volume.geometry.Valid folder.start) :
    folder.start ∈ volume.clusters folder := by
  unfold clusters
  split
  · exact List.mem_singleton_self _
  · obtain ⟨room, size⟩ : ∃ room, volume.geometry.maxCluster = room + 1 := by
      obtain ⟨low, high⟩ := valid
      exact ⟨volume.geometry.maxCluster - 1, by omega⟩
    rw [size, chain, if_pos valid]
    exact List.mem_cons_self

theorem listing_eq (levels : Nat) (folder : Folder) :
    volume.listing levels folder = (volume.folders levels folder).flatMap volume.findings := by
  induction levels generalizing folder with
  | zero => rfl
  | succ levels ih =>
    rw [listing, folders]
    split
    · rw [List.flatMap_cons, List.flatMap_assoc]
      exact congrArg _ (List.flatMap_congr fun child _ => ih child)
    · rfl

theorem WellFormed.append {limit : Nat} {first second : List Folder}
    (wellFormed : volume.WellFormed limit (first ++ second)) :
    volume.WellFormed limit first ∧ volume.WellFormed limit second ∧
      ∀ cluster ∈ first.flatMap volume.clusters, cluster ∉ second.flatMap volume.clusters := by
  obtain ⟨linked, short, readable, distinct⟩ := wellFormed
  rw [List.flatMap_append, List.nodup_append] at distinct
  obtain ⟨distinct, distinct', apart⟩ := distinct
  simp only [List.mem_append] at linked short readable
  refine ⟨⟨?_, ?_, ?_, distinct⟩, ⟨?_, ?_, ?_, distinct'⟩, ?_⟩
  · exact fun folder member => linked folder (.inl member)
  · exact fun folder member => short folder (.inl member)
  · exact fun folder member => readable folder (.inl member)
  · exact fun folder member => linked folder (.inr member)
  · exact fun folder member => short folder (.inr member)
  · exact fun folder member => readable folder (.inr member)
  · exact fun cluster member member' => apart cluster member cluster member' rfl

end Volume

end Undelete
