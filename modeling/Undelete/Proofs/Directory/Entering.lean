import Undelete.Proofs.Directory.Traced

/-!
How a scan comes to a directory on a live path. As long as no deleted directory has been listed on
the way, the path's directories are entered one after another, each before anything below it has
been listed.
-/

namespace Undelete

namespace Scan

open Directory

variable {source : Source} {g : Geometry} {limit root maxDepth : Nat} {scan final : Scan}

/-- The clusters of a directory at the end of a path belong to no other live directory down to
some depth. -/
def Unshared (source : Source) (g : Geometry) (limit root maxDepth : Nat) (path : List Nat)
    (directory : Nat) : Prop :=
  ∀ other directory' crossed, LivePath source g limit root other directory' crossed →
    other.length ≤ maxDepth → other ≠ path →
    List.Disjoint (liveClusters source g limit directory) (liveClusters source g limit directory')

/-- A scan on its way to `final` that is about to enter the directory at the end of a path, and
has listed nothing below it yet. -/
structure Entering (source : Source) (g : Geometry) (limit root maxDepth : Nat) (final : Scan)
    (path : List Nat) (directory levels : Nat) (scan : Scan) : Prop where
  depth : levels + path.length = maxDepth + 1
  arrived : Arrives source g limit root scan path directory
  traced : Traced source g limit root (fun other => other.length ≤ maxDepth ∧ ¬ path <:+ other) scan
  orderly : Orderly source g scan
  extended : Extends scan final
  onward : ∀ later, (tree g limit levels directory false scan).answer source g = .ok later →
    Extends later final

theorem entering_root (answered : (ofRoot g maxDepth limit root).answer source g = .ok final) :
    Entering source g limit root maxDepth final [] root (maxDepth + 1) empty where
  depth := by simp
  arrived := ⟨[], .root, by simp⟩
  traced := by
    intro listing member
    cases member
  orderly := orderly_empty
  extended := extends_tree answered
  onward later again := by
    cases answered.symm.trans again
    exact .refl final

section

variable {path crossed : List Nat} {directory levels : Nat} {pair : PlacedSlot × ShortSlot}

/-- Up to a slot, a directory that is about to be entered has not been visited, unless a deleted
directory has been listed there. -/
theorem Entering.unvisited
    (entering : Entering source g limit root maxDepth final path directory levels scan)
    (apart : Unshared source g limit root maxDepth path directory)
    (live : pair ∈ liveSlots source g limit directory)
    (clear : ∀ cluster ∈ lead (liveClusters source g limit directory) pair.1.cluster,
      ¬ final.DeletedListed cluster) :
    ∀ cluster ∈ lead (liveClusters source g limit directory) pair.1.cluster,
      cluster ∉ scan.visited := by
  intro cluster led visited
  have front : (livePages source g limit directory).map Prod.fst <+:
      liveClusters source g limit directory := clusters_livePages_isPrefix directory
  have here := cluster_of_mem_liveSlots live
  have covered : cluster ∈ (livePages source g limit directory).map Prod.fst := by
    rw [lead_of_isPrefix front here] at led
    exact mem_of_mem_lead here led
  -- What was visited has been listed or could not be read, but this cluster can be read. A live
  -- listing of it would belong to another path.
  rcases entering.orderly.origin cluster visited with listed | ⟨failure, failed⟩
  · obtain ⟨listing, member, within⟩ := List.mem_flatMap.mp listed
    cases dead : listing.inDeleted with
    | true =>
      exact clear cluster led ⟨listing, entering.extended.listings.subset member, dead, within⟩
    | false =>
      obtain ⟨read, other, ⟨shallow, aside⟩, crossed, route, -⟩ :=
        entering.traced listing member dead
      have elsewhere : other ≠ path := by
        rintro rfl
        exact aside List.suffix_rfl
      exact apart other listing.directory crossed route shallow elsewhere (front.subset covered)
        ((clusters_livePages_isPrefix _).subset (read.subset within))
  · obtain ⟨page, member, rfl⟩ := List.mem_map.mp covered
    cases (contents_pagesOf member).symm.trans failed

theorem clustersOf_of_mem_liveSlots (live : pair ∈ liveSlots source g limit directory) :
    clustersOf source g limit directory false = .ok (liveClusters source g limit directory) := by
  have member := (clusters_livePages_isPrefix _).subset (cluster_of_mem_liveSlots live)
  unfold liveClusters at member ⊢
  cases answered : (g.liveChain directory limit).answer source g with
  | error failure =>
    rw [answered] at member
    cases member
  | ok clusters => exact answered

/-- The first cluster of a directory with a live slot is the one that its entry names. -/
theorem head_liveClusters (live : pair ∈ liveSlots source g limit directory) :
    g.Valid directory ∧
      directory ∈ lead (liveClusters source g limit directory) pair.1.cluster := by
  have member := (clusters_livePages_isPrefix _).subset (cluster_of_mem_liveSlots live)
  cases first : (liveClusters source g limit directory).head? with
  | none =>
    rw [List.head?_eq_none_iff.mp first] at member
    cases member
  | some head =>
    obtain ⟨rfl, valid⟩ := Geometry.head_liveChain (clustersOf_of_mem_liveSlots live) first
    exact ⟨valid, head_mem_lead _ first member⟩

/-- A directory that is entered clear of deleted ones up to a slot is listed with this slot, and
the scan goes on with its subdirectories. -/
theorem Entering.lists
    (entering : Entering source g limit root maxDepth final path directory (levels + 1) scan)
    (apart : Unshared source g limit root maxDepth path directory)
    (live : pair ∈ liveSlots source g limit directory)
    (clear : ∀ cluster ∈ lead (liveClusters source g limit directory) pair.1.cluster,
      ¬ final.DeletedListed cluster) :
    pair ∈ shortSlots (placed (pagesAfter source g (liveClusters source g limit directory)
        scan.visited).1) ∧
      Extends (explored source g limit levels directory false scan
        (liveClusters source g limit directory)) final := by
  have unvisited := entering.unvisited apart live clear
  obtain ⟨valid, heads⟩ := head_liveClusters live
  constructor
  · have alive := isDeleted_of_mem_liveSlots live
    refine (mem_read_iff alive).mpr ⟨live, ?_⟩
    have here := cluster_of_mem_liveSlots live
    rw [pagesAfter_liveClusters]
    apply mem_takeWhile_of_lead (fun cluster => decide (cluster ∉ scan.visited)) here
    intro cluster led
    rw [← lead_of_isPrefix (clusters_livePages_isPrefix _) here] at led
    exact decide_eq_true (unvisited cluster led)
  · apply entering.onward
    rw [answer_tree, if_neg, clustersOf_of_mem_liveSlots live]
    · rfl
    · rintro (invalid | visited)
      · exact invalid valid
      · exact unvisited directory heads visited

/-- What lies below one slot of a directory does not lie below another. -/
theorem not_suffix_of_sibling {index index' : Nat} {other : List Nat} (distinct : index ≠ index')
    (below : index :: path <:+ other) : ¬ index' :: path <:+ other := by
  intro below'
  have same := List.suffix_of_suffix_length_le below below' (by simp)
  have equal := same.eq_of_length (by simp)
  exact distinct (List.cons.inj equal).1

/-- A live directory that has been listed on its path leaves the scan traced, with nothing below
its slots. -/
theorem Entering.traced_listed
    (entering : Entering source g limit root maxDepth final path directory (levels + 1) scan)
    {clusters : List Nat} (chain : clustersOf source g limit directory false = .ok clusters)
    (index : Nat) :
    Traced source g limit root (fun other => other.length ≤ maxDepth ∧ ¬ index :: path <:+ other)
      (listed source g directory false clusters scan).1 := by
  have depth := entering.depth
  apply Scan.traced_listed chain
  · refine entering.traced.imp ?_
    rintro other ⟨shallow, aside⟩
    exact ⟨shallow, fun onward => aside ((List.suffix_cons index path).trans onward)⟩
  · intro _
    refine ⟨path, ⟨by omega, ?_⟩, entering.arrived⟩
    intro onward
    have longer := onward.length_le
    rw [List.length_cons] at longer
    omega

/-- Subdirectories before a slot keep the scan traced, with nothing below that slot. -/
theorem Entering.traced_before
    (entering : Entering source g limit root maxDepth final path directory (levels + 1) scan)
    {clusters : List Nat} (chain : clustersOf source g limit directory false = .ok clusters)
    {index : Nat} {before : List (PlacedSlot × ShortSlot)}
    (named : ∀ earlier ∈ before,
      earlier ∈ naming (pagesAfter source g clusters scan.visited).1 ∧ earlier.1.index ≠ index) :
    Traced source g limit root (fun other => other.length ≤ maxDepth ∧ ¬ index :: path <:+ other)
      ((before.map (childOf false)).foldl (descend source g limit levels)
        (listed source g directory false clusters scan).1) := by
  have depth := entering.depth
  apply (steady_traced _).foldl levels _ (entering.traced_listed chain index)
  intro child member alive
  obtain ⟨earlier, here, rfl⟩ := List.mem_map.mp member
  obtain ⟨found, distinct⟩ := named earlier here
  obtain ⟨short, isDirectory⟩ := List.mem_filter.mp found
  obtain ⟨live, -⟩ := Bool.or_eq_false_iff.mp alive
  refine ⟨earlier.1.index :: path, ?_, arrives_child chain entering.arrived short isDirectory live⟩
  rintro other ⟨below, shallow⟩
  rw [List.length_cons] at shallow
  exact ⟨by omega, not_suffix_of_sibling distinct below⟩

/-- Once a directory has been listed, the scan enters the subdirectory of each of its live slots,
after those before it. -/
theorem Entering.child
    (entering : Entering source g limit root maxDepth final path directory (levels + 1) scan)
    (apart : Unshared source g limit root maxDepth path directory)
    (live : pair ∈ liveSlots source g limit directory) (isDirectory : pair.2.isDirectory = true)
    (clear : ∀ cluster ∈ lead (liveClusters source g limit directory) pair.1.cluster,
      ¬ final.DeletedListed cluster) :
    ∃ later, Entering source g limit root maxDepth final (pair.1.index :: path)
      pair.2.firstCluster levels later := by
  obtain ⟨found, extended⟩ := entering.lists apart live clear
  have chain := clustersOf_of_mem_liveSlots live
  have alive := isDeleted_of_mem_liveSlots live
  have same : childOf false pair = (pair.2.firstCluster, false) := by simp [childOf, alive]
  have depth := entering.depth
  have named : pair ∈ naming (pagesAfter source g (liveClusters source g limit directory)
      scan.visited).1 := List.mem_filter.mpr ⟨found, isDirectory⟩
  have ascending := ascending_naming (pagesAfter source g
    (liveClusters source g limit directory) scan.visited).1
  obtain ⟨before, after, split⟩ := List.append_of_mem named
  have within : ∀ earlier ∈ before, earlier ∈ naming (pagesAfter source g
      (liveClusters source g limit directory) scan.visited).1 ∧
        earlier.1.index ≠ pair.1.index := by
    intro earlier member
    rw [split, List.pairwise_append] at ascending
    refine ⟨?_, Nat.ne_of_lt (ascending.2.2 earlier member pair List.mem_cons_self)⟩
    rw [split]
    exact List.mem_append_left _ member
  -- `extended` now tells of the children before the slot, its own, and those after it.
  rw [explored, children_listed, split, List.map_append, List.map_cons, List.foldl_append,
    List.foldl_cons, same] at extended
  refine ⟨_, ?_, ?_, entering.traced_before chain within, ?_, ?_, ?_⟩
  · rw [List.length_cons]
    omega
  · exact (arrives_child chain entering.arrived found isDirectory alive).mono
      (extends_foldl_descend _ _ _)
  · apply steady_orderly.foldl levels _ _ fun _ _ => trivial
    exact orderly_listed entering.orderly directory false _
  · exact (extends_descend _ _ _).trans ((extends_foldl_descend _ _ _).trans extended)
  · intro later answered
    rw [descend, answered] at extended
    exact (extends_foldl_descend _ _ _).trans extended

/-- The scan enters the directory at the end of each live path that crosses no cluster of a deleted
directory. -/
theorem entering_of_path (answered : (ofRoot g maxDepth limit root).answer source g = .ok final)
    (route : LivePath source g limit root path directory crossed) (shallow : path.length ≤ maxDepth)
    (apart : ∀ earlier directory' crossed', earlier <:+ path →
      LivePath source g limit root earlier directory' crossed' →
      Unshared source g limit root maxDepth earlier directory')
    (clear : ∀ cluster ∈ crossed, ¬ final.DeletedListed cluster) :
    ∃ levels scan,
      Entering source g limit root maxDepth final path directory (levels + 1) scan := by
  induction route with
  | root => exact ⟨maxDepth, empty, entering_root answered⟩
  | @step path directory crossed placed slot route live isDirectory ih =>
    rw [List.length_cons] at shallow
    obtain ⟨levels, scan, entering⟩ := ih (by omega)
      (fun earlier directory' crossed' before =>
        apart earlier directory' crossed' (before.trans (List.suffix_cons _ path)))
      (fun cluster member => clear cluster (List.mem_append_left _ member))
    obtain ⟨later, next⟩ := entering.child
      (apart path directory crossed (List.suffix_cons _ path) route) live isDirectory
      (fun cluster member => clear cluster (List.mem_append_right _ member))
    have depth := next.depth
    rw [List.length_cons] at depth
    obtain ⟨below, rfl⟩ := Nat.exists_eq_add_of_le' (show 1 ≤ levels by omega)
    exact ⟨below, later, next⟩

/-- A live slot in a directory that is entered clear of deleted ones is found as live. -/
theorem Entering.finds
    (entering : Entering source g limit root maxDepth final path directory (levels + 1) scan)
    (apart : Unshared source g limit root maxDepth path directory)
    (live : pair ∈ liveSlots source g limit directory)
    (clear : ∀ cluster ∈ lead (liveClusters source g limit directory) pair.1.cluster,
      ¬ final.DeletedListed cluster) :
    ∃ entry ∈ final.entries,
      entry.place g.slotsPerCluster = pair.1.place g.slotsPerCluster ∧ entry.deleted = false := by
  obtain ⟨found, extended⟩ := entering.lists apart live clear
  have alive := isDeleted_of_mem_liveSlots live
  obtain ⟨entry, member, trace⟩ :=
    exists_of_mem_shortSlots directory false scan.nextOrdinal [] found
  have cluster : entry.slotCluster = pair.1.cluster := congrArg Trace.cluster trace
  have index : entry.slotIndex = pair.1.index := congrArg Trace.index trace
  have deleted : entry.deleted = (pair.2.isDeleted || false) := congrArg Trace.deleted trace
  refine ⟨entry, ?_, ?_, ?_⟩
  · apply ((extends_foldl_descend _ _ _).trans extended).entries.subset
    rw [listed_eq]
    exact List.mem_append_right _ member
  · rw [Entry.place, PlacedSlot.place, cluster, index]
  · rw [deleted, alive]
    rfl

end

end Scan

end Undelete
