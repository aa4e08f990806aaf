import Undelete.Proofs.Directory.Findings
import Undelete.Proofs.Directory.Footprint

/-!
Two volumes that cannot be told apart by a walk over their directories. The walk looks at links,
at the ends of directories, at the slots that count as entries and at the directories that these
name. Where two volumes agree about that, their scans list the same directories in the same
clusters and give the same number to every entry.
-/

namespace Undelete

namespace Directory

/-- What a slot means to the walk. -/
inductive Way where
  | ends
  | passed
  | file
  | folder (start : Nat) (deleted : Bool)
  deriving DecidableEq

def wayOf (data : Bytes) : Way :=
  match Slot.decode data with
  | .unused => .ends
  | .fragment _ => .passed
  | .short slot =>
    if slot.isVolumeLabel || slot.isDot then .passed
    else if slot.isDirectory then .folder slot.firstCluster slot.isDeleted
    else .file

/-- How many entries there are before the end. -/
def countOf : List Way → Nat
  | [] => 0
  | .ends :: _ => 0
  | .passed :: rest => countOf rest
  | .file :: rest => countOf rest + 1
  | .folder _ _ :: rest => countOf rest + 1

/-- The directories that are named before the end. -/
def foldersOf (inDeleted : Bool) : List Way → List (Nat × Bool)
  | [] => []
  | .ends :: _ => []
  | .passed :: rest => foldersOf inDeleted rest
  | .file :: rest => foldersOf inDeleted rest
  | .folder start deleted :: rest => (start, deleted || inDeleted) :: foldersOf inDeleted rest

theorem wayOf_eq_ends {data : Bytes} : wayOf data = .ends ↔ data.byteAt 0 = endMark := by
  unfold wayOf Slot.decode
  by_cases ends : data.byteAt 0 = endMark
  · simp [ends]
  · rw [if_neg ends]
    simp only [ends, iff_false]
    split
    next used => split at used <;> cases used
    next => exact Way.noConfusion
    next slot _ =>
      split
      · exact Way.noConfusion
      · split <;> exact Way.noConfusion

theorem any_endMark (slots : List Bytes) :
    slots.any (·.byteAt 0 = endMark) = (slots.map wayOf).any (· = .ends) := by
  rw [List.any_map]
  refine congrArg (List.any slots) (funext fun data => ?_)
  exact decide_eq_decide.mpr wayOf_eq_ends.symm

/-- The ways of slots that have been placed. -/
def waysOf (slots : List PlacedSlot) : List Way := slots.map fun placed => wayOf placed.data

theorem entries_ways (directory ordinal : Nat) (inDeleted : Bool) (pending : List NameFragment)
    (slots : List PlacedSlot) :
    (entries directory inDeleted ordinal pending slots).length = countOf (waysOf slots) ∧
      Scan.subdirectories (entries directory inDeleted ordinal pending slots) =
        foldersOf inDeleted (waysOf slots) := by
  induction slots generalizing ordinal pending with
  | nil => exact ⟨rfl, rfl⟩
  | cons placed rest ih =>
    rw [waysOf, List.map_cons, ← waysOf]
    cases decoded : Slot.decode placed.data with
    | unused =>
      have way : wayOf placed.data = .ends := by rw [wayOf, decoded]
      simp only [entries, decoded, way]
      exact ⟨rfl, rfl⟩
    | fragment fragment =>
      have way : wayOf placed.data = .passed := by rw [wayOf, decoded]
      simp only [entries, decoded, way]
      exact ih _ _
    | short slot =>
      by_cases omitted : (slot.isVolumeLabel || slot.isDot) = true
      · have way : wayOf placed.data = .passed := by
          simp only [wayOf, decoded, if_pos omitted]
        simp only [entries, decoded, if_pos omitted, way]
        exact ih _ _
      · obtain ⟨length, folders⟩ := ih (ordinal + 1) []
        have named : (entryOf directory inDeleted ordinal placed slot pending).isDirectory =
            slot.isDirectory := rfl
        by_cases isDirectory : slot.isDirectory = true
        · have way : wayOf placed.data = .folder slot.firstCluster slot.isDeleted := by
            simp only [wayOf, decoded, if_neg omitted, if_pos isDirectory]
          simp only [entries, decoded, if_neg omitted, way]
          refine ⟨congrArg (· + 1) length, ?_⟩
          rw [foldersOf, ← folders, Scan.subdirectories,
            List.filter_cons_of_pos (named.trans isDirectory)]
          rfl
        · have way : wayOf placed.data = .file := by
            simp only [wayOf, decoded, if_neg omitted, if_neg isDirectory]
          simp only [entries, decoded, if_neg omitted, way]
          refine ⟨congrArg (· + 1) length, ?_⟩
          rw [foldersOf, ← folders, Scan.subdirectories,
            List.filter_cons_of_neg (by rwa [named])]
          rfl

/-- What the walk sees of pages. -/
def waysOfPages (read : List (Nat × List Bytes)) : List (Nat × List Way) :=
  read.map fun page => (page.1, page.2.map wayOf)

theorem waysOf_placed (read : List (Nat × List Bytes)) :
    waysOf (placed read) = (waysOfPages read).flatMap Prod.snd := by
  have data : waysOf (placed read) = ((placed read).map PlacedSlot.data).map wayOf := by
    rw [List.map_map]
    rfl
  rw [data, placed_eq, data_placedFrom, List.map_flatMap, waysOfPages, List.flatMap_map]

end Directory

open Directory

/-- Volumes that look the same to the walk. -/
structure Alike (source source' : Source) (g : Geometry) : Prop where
  fat : ∀ cluster, g.Valid cluster → source'.fatEntry g cluster = source.fatEntry g cluster
  ways : ∀ cluster, g.Valid cluster →
    (slotsOf source' g cluster).toOption.map (List.map wayOf) =
      (slotsOf source g cluster).toOption.map (List.map wayOf)

namespace Alike

variable {source source' : Source} {g : Geometry}

theorem refl (source : Source) (g : Geometry) : Alike source source g :=
  ⟨fun _ _ => rfl, fun _ _ => rfl⟩

theorem answer_chainFrom (alike : Alike source source' g) (limit : Nat) (seen : Std.TreeSet Nat)
    (trail : List Nat) (current : Nat) :
    (g.chainFrom limit seen trail current).answer source' g =
      (g.chainFrom limit seen trail current).answer source g := by
  induction limit generalizing seen trail current with
  | zero => rfl
  | succ limit ih =>
    rw [Geometry.chainFrom]
    split
    next onward =>
      rw [Probe.answer_bind, Probe.answer_bind, Probe.answer_entryOf, Probe.answer_entryOf,
        alike.fat current onward.1]
      split
      · rfl
      · exact ih _ _ _
      · rfl
    next => rfl

theorem clustersOf_eq (alike : Alike source source' g) (limit directory : Nat)
    (inDeleted : Bool) :
    Scan.clustersOf source' g limit directory inDeleted =
      Scan.clustersOf source g limit directory inDeleted := by
  unfold Scan.clustersOf
  split
  · rfl
  · exact alike.answer_chainFrom _ _ _ _

/-- A scan reads the same pages of a directory, as far as the walk can see. -/
theorem pagesAfter_ways (alike : Alike source source' g) {clusters : List Nat}
    (valid : ∀ cluster ∈ clusters, g.Valid cluster) (visited : Std.TreeSet Nat) :
    waysOfPages (pagesAfter source' g clusters visited).1 =
        waysOfPages (pagesAfter source g clusters visited).1 ∧
      (pagesAfter source' g clusters visited).2 = (pagesAfter source g clusters visited).2 := by
  induction clusters generalizing visited with
  | nil => exact ⟨rfl, rfl⟩
  | cons cluster rest ih =>
    obtain ⟨pages, later⟩ := ih (fun other member => valid other (List.mem_cons_of_mem _ member))
      (visited.insert cluster)
    have same := alike.ways cluster (valid cluster List.mem_cons_self)
    rw [pagesAfter_cons, pagesAfter_cons]
    split
    · exact ⟨rfl, rfl⟩
    cases first : slotsOf source g cluster with
    | error failure =>
      cases second : slotsOf source' g cluster with
      | error failure' => exact ⟨rfl, rfl⟩
      | ok slots' =>
        rw [first, second] at same
        cases same
    | ok slots =>
      cases second : slotsOf source' g cluster with
      | error failure' =>
        rw [first, second] at same
        cases same
      | ok slots' =>
        rw [first, second] at same
        have ways : slots'.map wayOf = slots.map wayOf := Option.some.inj same
        dsimp only
        rw [any_endMark slots', any_endMark slots, ways]
        split
        · exact ⟨congrArg (fun ways => [(cluster, ways)]) ways, rfl⟩
        · refine ⟨?_, later⟩
          rw [waysOfPages, List.map_cons, ways, ← waysOfPages, pages]
          rfl

end Alike

namespace Scan

variable {source source' : Source} {g : Geometry} {limit : Nat}

/-- Scans of two volumes that have come equally far, over valid clusters. -/
structure Abreast (g : Geometry) (scan scan' : Scan) : Prop where
  listings : scan'.listings = scan.listings
  visited : scan'.visited = scan.visited
  count : scan'.entries.length = scan.entries.length
  valid : ∀ listing ∈ scan.listings, ∀ cluster ∈ listing.clusters, g.Valid cluster

/-- Results that are abreast, or the same failure. -/
def Paired (g : Geometry) : Except Failure Scan → Except Failure Scan → Prop
  | .ok scan, .ok scan' => Abreast g scan scan'
  | .error failure, .error failure' => failure' = failure
  | _, _ => False

theorem abreast_listed (alike : Alike source source' g) {scan scan' : Scan}
    (abreast : Abreast g scan scan') {directory : Nat} {inDeleted : Bool} {clusters : List Nat}
    (nodup : clusters.Nodup) (valid : ∀ cluster ∈ clusters, g.Valid cluster) :
    Abreast g (listed source g directory inDeleted clusters scan).1
        (listed source' g directory inDeleted clusters scan').1 ∧
      (listed source' g directory inDeleted clusters scan').2 =
        (listed source g directory inDeleted clusters scan).2 := by
  obtain ⟨pages, later⟩ := alike.pagesAfter_ways valid scan.visited
  have ways := congrArg (List.flatMap Prod.snd) pages
  rw [← waysOf_placed, ← waysOf_placed] at ways
  have read : (pagesAfter source' g clusters scan.visited).1.map Prod.fst =
      (pagesAfter source g clusters scan.visited).1.map Prod.fst := by
    have firsts := congrArg (List.map Prod.fst) pages
    simp only [waysOfPages, List.map_map] at firsts
    exact firsts
  obtain ⟨count, folders⟩ := entries_ways directory scan.nextOrdinal inDeleted []
    (placed (pagesAfter source g clusters scan.visited).1)
  obtain ⟨count', folders'⟩ := entries_ways directory scan'.nextOrdinal inDeleted []
    (placed (pagesAfter source' g clusters scan.visited).1)
  rw [listed_eq, listed_eq, abreast.visited]
  dsimp only
  refine ⟨⟨?_, later, ?_, ?_⟩, ?_⟩
  · rw [abreast.listings, read]
  · rw [List.length_append, List.length_append, abreast.count, count', count, ways]
  · intro listing member
    rcases List.mem_append.mp member with old | new
    · exact abreast.valid listing old
    · rw [List.mem_singleton.mp new]
      exact fun cluster here => valid cluster
        ((clusters_pagesAfter_isPrefix nodup scan.visited).subset here)
  · rw [folders', folders, ways]

theorem abreast_foldl {levels : Nat}
    (trees : ∀ {scan scan' : Scan} {directory : Nat} {inDeleted : Bool}, Abreast g scan scan' →
      Paired g ((tree g limit levels directory inDeleted scan).answer source g)
        ((tree g limit levels directory inDeleted scan').answer source' g))
    (children : List (Nat × Bool)) {scan scan' : Scan} (abreast : Abreast g scan scan') :
    Abreast g (children.foldl (descend source g limit levels) scan)
      (children.foldl (descend source' g limit levels) scan') := by
  induction children generalizing scan scan' with
  | nil => exact abreast
  | cons child rest ih =>
    apply ih
    have paired := @trees scan scan' child.1 child.2 abreast
    unfold descend
    cases first : (tree g limit levels child.1 child.2 scan).answer source g with
    | error failure =>
      cases second : (tree g limit levels child.1 child.2 scan').answer source' g with
      | error failure' => exact abreast
      | ok later' =>
        rw [first, second] at paired
        exact paired.elim
    | ok later =>
      cases second : (tree g limit levels child.1 child.2 scan').answer source' g with
      | error failure' =>
        rw [first, second] at paired
        exact paired.elim
      | ok later' =>
        rw [first, second] at paired
        exact paired

/-- Trees of volumes that look the same are scanned in step. -/
theorem paired_tree (alike : Alike source source' g) (levels : Nat) {scan scan' : Scan}
    {directory : Nat} {inDeleted : Bool} (abreast : Abreast g scan scan') :
    Paired g ((tree g limit levels directory inDeleted scan).answer source g)
      ((tree g limit levels directory inDeleted scan').answer source' g) := by
  induction levels generalizing scan scan' directory inDeleted with
  | zero => exact abreast
  | succ levels ih =>
    rw [answer_tree, answer_tree, abreast.visited, alike.clustersOf_eq]
    split
    · exact abreast
    next entered =>
      obtain ⟨valid, -⟩ := not_or.mp entered
      cases chain : clustersOf source g limit directory inDeleted with
      | error failure => exact rfl
      | ok clusters =>
        obtain ⟨nodup, inside, -⟩ := clustersOf_spec (Decidable.not_not.mp valid) chain
        -- The listings of the two name the same directories, so that the descents go together.
        obtain ⟨abreast, children⟩ := @abreast_listed source source' g alike _ _ abreast directory
          inDeleted clusters nodup inside
        change Abreast g (explored source g limit levels directory inDeleted scan clusters)
          (explored source' g limit levels directory inDeleted scan' clusters)
        rw [explored, explored, children]
        exact abreast_foldl ih _ abreast

theorem abreast_of_ofRoot (alike : Alike source source' g) {maxDepth start : Nat} {scan : Scan}
    (answered : (ofRoot g maxDepth limit start).answer source g = .ok scan) :
    ∃ scan', (ofRoot g maxDepth limit start).answer source' g = .ok scan' ∧
      Abreast g scan scan' := by
  have nothing : Abreast g empty empty := ⟨rfl, rfl, rfl, fun _ none => nomatch none⟩
  have paired : Paired g ((ofRoot g maxDepth limit start).answer source g)
      ((ofRoot g maxDepth limit start).answer source' g) :=
    paired_tree alike (maxDepth + 1) nothing
  rw [answered] at paired
  cases second : (ofRoot g maxDepth limit start).answer source' g with
  | error failure =>
    rw [second] at paired
    exact paired.elim
  | ok scan' =>
    rw [second] at paired
    exact ⟨scan', rfl, paired⟩

end Scan

end Undelete
