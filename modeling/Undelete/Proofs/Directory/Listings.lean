import Mathlib.Data.List.Pairwise
import Undelete.Proofs.Directory.Places

/-!
The listings of a scan. No cluster is in two of them, every entry stands in a cluster of one, and
a cluster that was visited but is in none of them cannot be read. A scan only adds to what it
has, so that nothing that is listed or found is ever lost.
-/

namespace Undelete

/-- How many slots a cluster has. -/
def Geometry.slotsPerCluster (g : Geometry) : Nat := g.clusterSize / slotSize

theorem Bytes.length_chunks (size : Nat) (data : Bytes) :
    (chunks size data).length = data.length / size := by
  have count (number : Nat) (rest : Bytes) : (pieces size number rest).length = number := by
    induction number generalizing rest with
    | zero => rfl
    | succ number ih => rw [pieces, List.length_cons, ih]
  exact count _ _

namespace Directory

theorem length_of_slotsOf {source : Source} {g : Geometry} {cluster : Nat} {slots : List Bytes}
    (answered : slotsOf source g cluster = .ok slots) : slots.length = g.slotsPerCluster := by
  unfold slotsOf at answered
  cases read : source.read (g.clusterSector cluster) g.clusterSize with
  | error failure =>
    rw [read] at answered
    cases answered
  | ok data =>
    rw [read] at answered
    cases answered
    rw [Bytes.length_chunks, Source.length_of_read read, Geometry.slotsPerCluster]

end Directory

namespace Scan

variable {source : Source} {g : Geometry} {limit : Nat}

/-- A scan that has been carried on. -/
structure Extends (scan later : Scan) : Prop where
  entries : scan.entries <+: later.entries
  listings : scan.listings <+: later.listings

theorem Extends.refl (scan : Scan) : Extends scan scan := ⟨List.prefix_rfl, List.prefix_rfl⟩

theorem Extends.trans {first second third : Scan} (early : Extends first second)
    (late : Extends second third) : Extends first third :=
  ⟨early.entries.trans late.entries, early.listings.trans late.listings⟩

theorem listed_eq (directory : Nat) (inDeleted : Bool) (clusters : List Nat) (scan : Scan) :
    listed source g directory inDeleted clusters scan =
      let paged := Directory.pagesAfter source g clusters scan.visited
      let found := Directory.entries directory inDeleted scan.nextOrdinal []
        (Directory.placed paged.1)
      (⟨scan.entries ++ found,
          scan.listings ++ [⟨directory, inDeleted, paged.1.map Prod.fst⟩], paged.2⟩,
        subdirectories found) := by
  rw [listed, list, Probe.answer_bind]
  rfl

theorem extends_listed (directory : Nat) (inDeleted : Bool) (clusters : List Nat) (scan : Scan) :
    Extends scan (listed source g directory inDeleted clusters scan).1 := by
  rw [listed_eq]
  exact ⟨List.prefix_append _ _, List.prefix_append _ _⟩

theorem extends_tree {levels directory : Nat} {inDeleted : Bool} {scan later : Scan}
    (answered : (tree g limit levels directory inDeleted scan).answer source g = .ok later) :
    Extends scan later :=
  tree_keeps (fun directory inDeleted clusters _ before =>
    before.trans (extends_listed directory inDeleted clusters _)) levels directory inDeleted
    (.refl scan) answered

theorem extends_descend (levels : Nat) (scan : Scan) (child : Nat × Bool) :
    Extends scan (descend source g limit levels scan child) := by
  unfold descend
  split
  next later answered => exact extends_tree answered
  · exact .refl scan

theorem extends_foldl_descend (levels : Nat) (children : List (Nat × Bool)) (scan : Scan) :
    Extends scan (children.foldl (descend source g limit levels) scan) :=
  foldl_keeps (fun later child before => before.trans (extends_descend levels later child))
    children (.refl scan)

/-- What ties the entries, the listings and the visited clusters of a scan together. -/
structure Orderly (source : Source) (g : Geometry) (scan : Scan) : Prop where
  places : (scan.entries.map (Entry.place g.slotsPerCluster)).Nodup
  standing : ∀ entry ∈ scan.entries, ∃ listing ∈ scan.listings,
    entry.slotCluster ∈ listing.clusters ∧ (entry.deleted = false → listing.inDeleted = false)
  distinct : (scan.listings.flatMap Listing.clusters).Nodup
  visited : ∀ cluster ∈ scan.listings.flatMap Listing.clusters, cluster ∈ scan.visited
  origin : ∀ cluster ∈ scan.visited, cluster ∈ scan.listings.flatMap Listing.clusters ∨
    ∃ failure, Directory.slotsOf source g cluster = .error failure

theorem orderly_empty : Orderly source g empty where
  places := List.nodup_nil
  standing := by simp [empty]
  distinct := List.nodup_nil
  visited := by simp [empty]
  origin := by simp [empty]

theorem orderly_listed {scan : Scan} (orderly : Orderly source g scan) (directory : Nat)
    (inDeleted : Bool) (clusters : List Nat) :
    Orderly source g (listed source g directory inDeleted clusters scan).1 := by
  have paged : Directory.Paged source g scan.visited _ _ :=
    Directory.paged_pagesAfter clusters scan.visited
  rw [listed_eq]
  generalize Directory.pagesAfter source g clusters scan.visited = result at paged
  obtain ⟨read, later⟩ := result
  have unlisted : ∀ cluster ∈ read.map Prod.fst,
      cluster ∉ scan.listings.flatMap Listing.clusters :=
    fun cluster member old => paged.fresh cluster member (orderly.visited cluster old)
  have whole : ∀ page ∈ read, page.2.length = g.slotsPerCluster :=
    fun page member => Directory.length_of_slotsOf (paged.contents page member)
  have new : ∀ entry ∈ Directory.entries directory inDeleted scan.nextOrdinal []
      (Directory.placed read), entry.slotCluster ∈ read.map Prod.fst ∧
        (entry.deleted = false → inDeleted = false) := by
    intro entry member
    obtain ⟨pair, short, trace⟩ := Directory.exists_of_mem_entries member
    have place := Directory.mem_of_mem_shortSlots short
    rw [Directory.placed_eq] at place
    constructor
    · have cluster : entry.slotCluster = pair.1.cluster :=
        (congrArg Directory.Trace.cluster trace).symm
      rw [cluster]
      exact Directory.cluster_of_mem_placedFrom place
    · intro alive
      have deleted := (congrArg Directory.Trace.deleted trace).trans alive
      exact (Bool.or_eq_false_iff.mp deleted).2
  have all : (scan.listings ++ [Listing.mk directory inDeleted (read.map Prod.fst)]).flatMap
      Listing.clusters = scan.listings.flatMap Listing.clusters ++ read.map Prod.fst := by
    simp
  constructor
  · rw [List.map_append, List.nodup_append]
    refine ⟨orderly.places, ?_, ?_⟩
    · rw [Directory.map_place_entries]
      have places := Directory.nodup_place paged.nodup whole 0
      rw [Nat.zero_mul, ← Directory.placed_eq] at places
      have fewer := (Directory.map_fst_shortSlots (Directory.placed read)).map
        (PlacedSlot.place g.slotsPerCluster)
      rw [List.map_map] at fewer
      exact fewer.nodup places
    -- An entry in the place of an older one would stand in a cluster that is listed already.
    · intro place old place' member same
      obtain ⟨entry, known, rfl⟩ := List.mem_map.mp old
      obtain ⟨entry', found, rfl⟩ := List.mem_map.mp member
      have cluster : entry.slotCluster = entry'.slotCluster := congrArg Prod.fst same
      obtain ⟨listing, listed, here, -⟩ := orderly.standing entry known
      refine unlisted _ (new entry' found).1 ?_
      rw [← cluster]
      exact List.mem_flatMap.mpr ⟨listing, listed, here⟩
  · intro entry member
    rcases List.mem_append.mp member with old | found
    · obtain ⟨listing, listed, standing⟩ := orderly.standing entry old
      exact ⟨listing, List.mem_append_left _ listed, standing⟩
    · exact ⟨_, List.mem_append_right _ (List.mem_singleton_self _), new entry found⟩
  · rw [all, List.nodup_append]
    refine ⟨orderly.distinct, paged.nodup, ?_⟩
    rintro cluster old _ member rfl
    exact unlisted cluster member old
  · intro cluster member
    rw [all] at member
    apply paged.kept
    exact (List.mem_append.mp member).imp_left (orderly.visited cluster)
  · intro cluster member
    rw [all, List.mem_append]
    rcases paged.origin cluster member with old | here | unreadable
    · exact (orderly.origin cluster old).imp_left .inl
    · exact .inl (.inr here)
    · exact .inr unreadable

theorem steady_orderly : Steady source g limit (Orderly source g) fun _ _ _ => True where
  kept _ _ := trivial
  listed _ orderly _ := orderly_listed orderly _ _ _
  children _ _ _ _ := trivial

theorem orderly_of_ofRoot {maxDepth start : Nat} {scan : Scan}
    (answered : (ofRoot g maxDepth limit start).answer source g = .ok scan) :
    Orderly source g scan :=
  steady_orderly.tree orderly_empty trivial answered

/-- One entry stands in the place of an entry, this entry itself. -/
theorem Orderly.filter_place {scan : Scan} (orderly : Orderly source g scan) {entry : Entry}
    (member : entry ∈ scan.entries) :
    (scan.entries.filter fun other =>
      other.place g.slotsPerCluster = entry.place g.slotsPerCluster) = [entry] := by
  obtain ⟨before, after, split⟩ := List.append_of_mem member
  have places := orderly.places
  rw [split, List.map_append, List.map_cons, List.nodup_middle, List.nodup_cons,
    ← List.map_append] at places
  have others : ∀ other ∈ before ++ after,
      ¬ other.place g.slotsPerCluster = entry.place g.slotsPerCluster := by
    intro other known same
    apply places.1
    rw [← same]
    exact List.mem_map_of_mem known
  rw [split, List.filter_append, List.filter_cons_of_pos (by simp)]
  rw [List.filter_eq_nil_iff.mpr, List.filter_eq_nil_iff.mpr, List.nil_append]
  · intro other known
    simpa using others other (List.mem_append_right _ known)
  · intro other known
    simpa using others other (List.mem_append_left _ known)

/-- A cluster belongs to one listing. -/
theorem Orderly.eq_of_mem {scan : Scan} (orderly : Orderly source g scan)
    {listing listing' : Listing} (member : listing ∈ scan.listings)
    (member' : listing' ∈ scan.listings) {cluster : Nat} (here : cluster ∈ listing.clusters)
    (here' : cluster ∈ listing'.clusters) : listing = listing' := by
  by_contra different
  obtain ⟨-, apart⟩ := List.nodup_flatMap.mp orderly.distinct
  have symm : Std.Symm (Function.onFun List.Disjoint Listing.clusters) :=
    ⟨fun _ _ disjoint _ here here' => disjoint here' here⟩
  exact apart.forall member member' different here here'

end Scan

end Undelete
