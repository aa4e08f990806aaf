import Undelete.Proofs.Directory.LivePath

/-!
The directories that a scan lists. One that is listed as live lies at the end of a live path, and
what that path crosses has been listed as live before it. One that is listed as deleted is named
by a deleted entry.
-/

namespace Undelete

namespace Scan

open Directory

variable {source : Source} {g : Geometry} {limit root : Nat} {scan later : Scan}

/-- A cluster of a directory that has been listed as live. -/
def LiveListed (scan : Scan) (cluster : Nat) : Prop :=
  ∃ listing ∈ scan.listings, listing.inDeleted = false ∧ cluster ∈ listing.clusters

/-- A live path over clusters that have been listed as live. -/
def Arrives (source : Source) (g : Geometry) (limit root : Nat) (scan : Scan) (path : List Nat)
    (directory : Nat) : Prop :=
  ∃ crossed, LivePath source g limit root path directory crossed ∧
    ∀ cluster ∈ crossed, scan.LiveListed cluster

/-- Every directory that is listed as live has been arrived at on a path of some kind. -/
def Traced (source : Source) (g : Geometry) (limit root : Nat) (Allowed : List Nat → Prop)
    (scan : Scan) : Prop :=
  ∀ listing ∈ scan.listings, listing.inDeleted = false →
    listing.clusters <+: (livePages source g limit listing.directory).map Prod.fst ∧
      ∃ path, Allowed path ∧ Arrives source g limit root scan path listing.directory

theorem LiveListed.mono (extended : Extends scan later) {cluster : Nat}
    (listed : scan.LiveListed cluster) : later.LiveListed cluster := by
  obtain ⟨listing, member, alive⟩ := listed
  exact ⟨listing, extended.listings.subset member, alive⟩

theorem Arrives.mono (extended : Extends scan later) {path : List Nat} {directory : Nat}
    (arrives : Arrives source g limit root scan path directory) :
    Arrives source g limit root later path directory := by
  obtain ⟨crossed, route, listed⟩ := arrives
  exact ⟨crossed, route, fun cluster member => (listed cluster member).mono extended⟩

theorem Traced.imp {Allowed Wider : List Nat → Prop} (wider : ∀ path, Allowed path → Wider path)
    (traced : Traced source g limit root Allowed scan) :
    Traced source g limit root Wider scan := by
  intro listing member alive
  obtain ⟨read, path, allowed, arrives⟩ := traced listing member alive
  exact ⟨read, path, wider path allowed, arrives⟩

theorem liveClusters_of_clustersOf {directory : Nat} {clusters : List Nat}
    (chain : clustersOf source g limit directory false = .ok clusters) :
    liveClusters source g limit directory = clusters := by
  have answered : (g.liveChain directory limit).answer source g = .ok clusters := chain
  rw [liveClusters, answered]

theorem traced_listed {Allowed : List Nat → Prop} {directory : Nat} {inDeleted : Bool}
    {clusters : List Nat} (chain : clustersOf source g limit directory inDeleted = .ok clusters)
    (traced : Traced source g limit root Allowed scan)
    (arrives : inDeleted = false →
      ∃ path, Allowed path ∧ Arrives source g limit root scan path directory) :
    Traced source g limit root Allowed (listed source g directory inDeleted clusters scan).1 := by
  have extended : Extends scan (listed source g directory inDeleted clusters scan).1 :=
    extends_listed directory inDeleted clusters scan
  intro listing member alive
  have known := member
  rw [listed_eq, List.mem_append, List.mem_singleton] at known
  rcases known with old | rfl
  · obtain ⟨read, path, allowed, before⟩ := traced listing old alive
    exact ⟨read, path, allowed, before.mono extended⟩
  · obtain ⟨path, allowed, before⟩ := arrives alive
    refine ⟨?_, path, allowed, before.mono extended⟩
    subst alive
    rw [← liveClusters_of_clustersOf chain]
    exact (pagesAfter_isPrefix directory scan.visited).map Prod.fst

/-- The subdirectory that a live slot names is arrived at once the slot's page has been listed as
live. -/
theorem arrives_child {path : List Nat} {directory : Nat} {clusters : List Nat}
    {pair : PlacedSlot × ShortSlot}
    (chain : clustersOf source g limit directory false = .ok clusters)
    (arrives : Arrives source g limit root scan path directory)
    (member : pair ∈ shortSlots (placed (pagesAfter source g clusters scan.visited).1))
    (isDirectory : pair.2.isDirectory = true) (alive : pair.2.isDeleted = false) :
    Arrives source g limit root (listed source g directory false clusters scan).1
      (pair.1.index :: path) pair.2.firstCluster := by
  obtain ⟨crossed, route, known⟩ := arrives
  have extended : Extends scan (listed source g directory false clusters scan).1 :=
    extends_listed directory false clusters scan
  obtain rfl := liveClusters_of_clustersOf chain
  obtain ⟨live, here⟩ := (mem_read_iff alive).mp member
  refine ⟨_, .step route live isDirectory, ?_⟩
  intro cluster crosses
  rcases List.mem_append.mp crosses with earlier | last
  · exact (known cluster earlier).mono extended
  -- What was read of the directory goes as far as the slot, and all of it has been listed.
  · have nodup : (liveClusters source g limit directory).Nodup := nodup_liveClusters directory
    rw [lead_of_isPrefix (clusters_pagesAfter_isPrefix nodup _) here] at last
    refine ⟨⟨directory, false, _⟩, ?_, rfl, mem_of_mem_lead here last⟩
    rw [listed_eq]
    exact List.mem_append_right _ (List.mem_singleton_self _)

/-- The slots that name subdirectories, in what a scan has read of a directory. -/
def naming (read : List (Nat × List Bytes)) : List (PlacedSlot × ShortSlot) :=
  (shortSlots (placed read)).filter fun (_, slot) => slot.isDirectory

theorem ascending_naming (read : List (Nat × List Bytes)) :
    (naming read).Pairwise fun earlier later => earlier.1.index < later.1.index :=
  (ascending_shortSlots read).filter _

/-- The subdirectory that a slot names, and whether it counts as deleted. -/
def childOf (inDeleted : Bool) : PlacedSlot × ShortSlot → Nat × Bool
  | (_, slot) => (slot.firstCluster, slot.isDeleted || inDeleted)

theorem children_listed (directory : Nat) (inDeleted : Bool) (clusters : List Nat) (scan : Scan) :
    (listed source g directory inDeleted clusters scan).2 =
      (naming (pagesAfter source g clusters scan.visited).1).map (childOf inDeleted) := by
  rw [listed_eq]
  exact subdirectories_entries _ _ _ _ _

/-- The paths through at most so many levels from the end of a path on. -/
def Below (path : List Nat) (levels : Nat) (other : List Nat) : Prop :=
  path <:+ other ∧ other.length < path.length + levels

theorem Below.child {path other : List Nat} {index levels : Nat}
    (below : Below (index :: path) levels other) : Below path (levels + 1) other := by
  obtain ⟨onward, short⟩ := below
  refine ⟨(List.suffix_cons index path).trans onward, ?_⟩
  rw [List.length_cons] at short
  omega

/-- A directory that has been arrived at on a path below which every path is allowed. -/
def Open (source : Source) (g : Geometry) (limit root : Nat) (Allowed : List Nat → Prop)
    (levels : Nat) (scan : Scan) (directory : Nat) : Prop :=
  ∃ path, (∀ other, Below path levels other → Allowed other) ∧
    Arrives source g limit root scan path directory

theorem Open.mono {Allowed : List Nat → Prop} {levels directory : Nat}
    (extended : Extends scan later)
    (onward : Open source g limit root Allowed levels scan directory) :
    Open source g limit root Allowed levels later directory := by
  obtain ⟨path, allowed, arrives⟩ := onward
  exact ⟨path, allowed, arrives.mono extended⟩

/-- The live subdirectories in what has just been listed are open when the directory was. -/
theorem open_child {Allowed : List Nat → Prop} {directory levels : Nat} {clusters : List Nat}
    (chain : clustersOf source g limit directory false = .ok clusters)
    (onward : Open source g limit root Allowed (levels + 1) scan directory)
    {pair : PlacedSlot × ShortSlot}
    (member : pair ∈ naming (pagesAfter source g clusters scan.visited).1)
    (alive : pair.2.isDeleted = false) :
    Open source g limit root Allowed levels (listed source g directory false clusters scan).1
      pair.2.firstCluster := by
  obtain ⟨path, allowed, arrives⟩ := onward
  obtain ⟨short, isDirectory⟩ := List.mem_filter.mp member
  exact ⟨pair.1.index :: path, fun other below => allowed other below.child,
    arrives_child chain arrives short isDirectory alive⟩

/-- A scan stays traced when it comes to live directories that are open only. -/
theorem steady_traced (Allowed : List Nat → Prop) :
    Steady source g limit (Traced source g limit root Allowed) fun levels scan child =>
      child.2 = false → Open source g limit root Allowed levels scan child.1 where
  kept known answered alive := (known alive).mono (extends_tree answered)
  listed := by
    intro levels scan directory inDeleted clusters chain traced known
    apply traced_listed chain traced
    intro alive
    obtain ⟨path, allowed, arrives⟩ := known alive
    exact ⟨path, allowed path ⟨List.suffix_rfl, by omega⟩, arrives⟩
  children := by
    intro levels scan directory inDeleted clusters chain known child member alive
    rw [children_listed] at member
    obtain ⟨pair, named, rfl⟩ := List.mem_map.mp member
    obtain ⟨live, rfl⟩ := Bool.or_eq_false_iff.mp alive
    exact open_child chain (known rfl) named live

/-- A cluster of a directory that has been listed as deleted. -/
def DeletedListed (scan : Scan) (cluster : Nat) : Prop :=
  ∃ listing ∈ scan.listings, listing.inDeleted = true ∧ cluster ∈ listing.clusters

/-- The first cluster of a directory that a deleted entry names. -/
def DeletedNamed (scan : Scan) (cluster : Nat) : Prop :=
  ∃ entry ∈ scan.entries, entry.deleted = true ∧ entry.isDirectory = true ∧
    entry.startCluster = cluster

/-- A directory, and whether it counts as deleted: the live one at `root`, or one that an entry
names. -/
def Named (root : Nat) (scan : Scan) (child : Nat × Bool) : Prop :=
  child = (root, false) ∨
    ∃ entry ∈ scan.entries, entry.deleted = child.2 ∧ entry.isDirectory = true ∧
      entry.startCluster = child.1

theorem Named.mono (extended : Extends scan later) {child : Nat × Bool}
    (named : Named root scan child) : Named root later child := by
  refine named.imp_right ?_
  rintro ⟨entry, member, same⟩
  exact ⟨entry, extended.entries.subset member, same⟩

/-- Every directory that is listed is named, and of a deleted one only the first cluster is. -/
def AllNamed (root : Nat) (scan : Scan) : Prop :=
  ∀ listing ∈ scan.listings, Named root scan (listing.directory, listing.inDeleted) ∧
    (listing.inDeleted = true → ∀ cluster ∈ listing.clusters, cluster = listing.directory)

theorem steady_named : Steady source g limit (AllNamed root) fun _ => Named root where
  kept known answered := known.mono (extends_tree answered)
  listed := by
    intro levels scan directory inDeleted clusters chain named known listing member
    have extended : Extends scan (Scan.listed source g directory inDeleted clusters scan).1 :=
      extends_listed directory inDeleted clusters scan
    rw [listed_eq, List.mem_append, List.mem_singleton] at member
    rcases member with old | rfl
    · obtain ⟨before, only⟩ := named listing old
      exact ⟨before.mono extended, only⟩
    · refine ⟨known.mono extended, ?_⟩
      rintro rfl cluster here
      cases chain
      have only := (clusters_pagesAfter_isPrefix (List.nodup_singleton _) _).subset here
      exact List.mem_singleton.mp only
  children := by
    intro levels scan directory inDeleted clusters _ _ child member
    rw [listed_eq] at member ⊢
    obtain ⟨entry, found, rfl⟩ := List.mem_map.mp member
    obtain ⟨found, isDirectory⟩ := List.mem_filter.mp found
    exact .inr ⟨entry, List.mem_append_right _ found, rfl, isDirectory, rfl⟩

theorem allNamed_of_ofRoot {maxDepth : Nat}
    (answered : (ofRoot g maxDepth limit root).answer source g = .ok scan) :
    AllNamed root scan :=
  steady_named.tree (fun _ none => absurd none List.not_mem_nil) (.inl rfl) answered

/-- A cluster that has been listed as deleted is the first one of a deleted directory. -/
theorem deletedNamed_of_ofRoot {maxDepth : Nat}
    (answered : (ofRoot g maxDepth limit root).answer source g = .ok scan) {cluster : Nat}
    (listed : scan.DeletedListed cluster) : scan.DeletedNamed cluster := by
  obtain ⟨listing, member, dead, here⟩ := listed
  obtain ⟨named, only⟩ := allNamed_of_ofRoot answered listing member
  rw [only dead cluster here]
  rcases named with live | ⟨entry, known, deleted, directory⟩
  · rw [(Prod.mk.inj live).2] at dead
    cases dead
  · exact ⟨entry, known, deleted.trans dead, directory⟩

end Scan

end Undelete
