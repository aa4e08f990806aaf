import Undelete.Proofs.Directory.Listings
import Undelete.Proofs.Volume.Addressing
import Undelete.Proofs.Volume.Requests

/-!
What a scan leaves behind, whatever the volume holds. It asks for FAT entries of valid clusters
only, and for the contents of a cluster only once, when the cluster is valid and has not been
visited. Each directory that it comes to costs at most one look at every FAT entry.
-/

namespace Undelete

namespace Geometry

variable {g : Geometry} {source : Source}

/-- The request for the contents of a cluster. -/
def clusterRequest (g : Geometry) (cluster : Nat) : Request :=
  .contents (g.clusterSector cluster) g.clusterSize

theorem requests_chainFrom (g : Geometry) (source : Source) (limit : Nat) (seen : Std.TreeSet Nat)
    (trail : List Nat) (current : Nat) :
    ∃ asked : List Nat, (g.chainFrom limit seen trail current).requests source g = asked.map .entry ∧
      asked.Nodup ∧ ∀ cluster ∈ asked, g.Valid cluster ∧ cluster ∉ seen := by
  induction limit generalizing seen trail current with
  | zero => exact ⟨[], rfl, List.nodup_nil, by simp⟩
  | succ limit ih =>
    rw [chainFrom]
    split
    next onward =>
      have only : ∃ asked : List Nat, [Request.entry current] ++ [] = asked.map .entry ∧
          asked.Nodup ∧ ∀ cluster ∈ asked, g.Valid cluster ∧ cluster ∉ seen :=
        ⟨[current], rfl, List.nodup_singleton _, by simpa using onward⟩
      rw [Probe.requests_bind, Probe.requests_entryOf, Probe.answer_entryOf]
      split
      · exact only
      next next _ =>
        obtain ⟨asked, same, nodup, fresh⟩ := ih (seen.insert current) (current :: trail) next
        refine ⟨current :: asked, by rw [same]; rfl, ?_, ?_⟩
        · refine List.nodup_cons.mpr ⟨fun again => ?_, nodup⟩
          exact (fresh current again).2 (Directory.mem_insert.mpr (.inl rfl))
        · refine List.forall_mem_cons.mpr ⟨onward, fun cluster member => ?_⟩
          obtain ⟨valid, new⟩ := fresh cluster member
          exact ⟨valid, fun old => new (Directory.mem_insert.mpr (.inr old))⟩
      · exact only
    · exact ⟨[], rfl, List.nodup_nil, by simp⟩

theorem valid_chainFrom (limit : Nat) (seen : Std.TreeSet Nat) (trail : List Nat) (current : Nat)
    (valid : ∀ cluster ∈ trail, g.Valid cluster) {clusters : List Nat}
    (answered : (g.chainFrom limit seen trail current).answer source g = .ok clusters) :
    ∀ cluster ∈ clusters, g.Valid cluster := by
  have reversed : ∀ {trail : List Nat}, (∀ cluster ∈ trail, g.Valid cluster) →
      ∀ cluster ∈ trail.reverse, g.Valid cluster :=
    fun valid cluster member => valid cluster (List.mem_reverse.mp member)
  induction limit generalizing seen trail current with
  | zero =>
    cases answered
    exact reversed valid
  | succ limit ih =>
    rw [chainFrom] at answered
    split at answered
    next onward =>
      have longer : ∀ cluster ∈ current :: trail, g.Valid cluster :=
        List.forall_mem_cons.mpr ⟨onward.1, valid⟩
      rw [Probe.answer_bind, Probe.answer_entryOf] at answered
      split at answered
      · cases answered
      · exact ih _ _ _ longer answered
      · cases answered
        exact reversed longer
    · cases answered
      exact reversed valid

/-- A chain from a valid cluster that may take any clusters begins with this one. -/
theorem liveChain_eq_cons {start limit : Nat} {clusters : List Nat} (valid : g.Valid start)
    (room : 1 ≤ limit) (answered : (g.liveChain start limit).answer source g = .ok clusters) :
    ∃ rest, clusters = start :: rest := by
  obtain ⟨limit, rfl⟩ := Nat.exists_eq_add_of_le' room
  have onward : g.Valid start ∧ start ∉ (∅ : Std.TreeSet Nat) := ⟨valid, by simp⟩
  rw [liveChain, chainFrom, if_pos onward, Probe.answer_bind, Probe.answer_entryOf] at answered
  split at answered
  · cases answered
  next next _ =>
    have same (cluster : Nat) :
        cluster ∈ (∅ : Std.TreeSet Nat).insert start ↔ cluster ∈ [start] := by
      rw [Directory.mem_insert]
      simp
    obtain ⟨rest, split, -⟩ := chainFrom_spec limit _ [start] next same
      (List.nodup_singleton _) answered
    exact ⟨rest, split⟩
  · cases answered
    exact ⟨[], rfl⟩

end Geometry

namespace Directory

variable {source : Source} {g : Geometry}

theorem requests_pages (source : Source) (g : Geometry) (clusters : List Nat)
    (visited : Std.TreeSet Nat) (read : List (Nat × List Bytes)) :
    ∃ asked : List Nat, (pages g clusters visited read).requests source g = asked.map g.clusterRequest ∧
      asked.Nodup ∧ ∀ cluster ∈ asked, cluster ∈ clusters ∧ cluster ∉ visited ∧
        cluster ∈ (pagesAfter source g clusters visited).2 := by
  induction clusters generalizing visited read with
  | nil => exact ⟨[], rfl, List.nodup_nil, by simp⟩
  | cons cluster rest ih =>
    rw [pages, pagesAfter_cons]
    by_cases known : cluster ∈ visited
    · rw [if_pos known]
      exact ⟨[], rfl, List.nodup_nil, by simp⟩
    rw [if_neg known, if_neg known, Probe.requests_bind, Probe.requests_bytesAt,
      Probe.answer_bytesAt, slotsOf]
    have new : cluster ∈ visited.insert cluster := mem_insert.mpr (.inl rfl)
    cases source.read (g.clusterSector cluster) g.clusterSize with
    | error failure =>
      exact ⟨[cluster], rfl, List.nodup_singleton _,
        List.forall_mem_singleton.mpr ⟨List.mem_cons_self, known, new⟩⟩
    | ok data =>
      simp only [Except.map]
      split
      · exact ⟨[cluster], rfl, List.nodup_singleton _,
          List.forall_mem_singleton.mpr ⟨List.mem_cons_self, known, new⟩⟩
      · obtain ⟨asked, same, nodup, fresh⟩ := ih (visited.insert cluster)
          ((cluster, Bytes.chunks slotSize data) :: read)
        refine ⟨cluster :: asked, by rw [same]; rfl, ?_, ?_⟩
        · exact List.nodup_cons.mpr ⟨fun again => (fresh cluster again).2.1 new, nodup⟩
        · refine List.forall_mem_cons.mpr ⟨⟨List.mem_cons_self, known, ?_⟩, ?_⟩
          · exact (paged_pagesAfter rest _).kept cluster (.inl new)
          · intro other member
            obtain ⟨place, unvisited, later⟩ := fresh other member
            exact ⟨List.mem_cons_of_mem _ place,
              fun old => unvisited (mem_insert.mpr (.inr old)), later⟩

/-- The first cluster of a directory has been visited once the directory has been read. -/
theorem head_mem_pagesAfter (cluster : Nat) (rest : List Nat) (visited : Std.TreeSet Nat) :
    cluster ∈ (pagesAfter source g (cluster :: rest) visited).2 := by
  have new : cluster ∈ visited.insert cluster := mem_insert.mpr (.inl rfl)
  rw [pagesAfter_cons]
  split
  · assumption
  split
  · exact new
  split
  · exact new
  · exact (paged_pagesAfter rest _).kept cluster (.inl new)

theorem parentCluster_of_mem_entries {directory ordinal : Nat} {inDeleted : Bool}
    {pending : List NameFragment} {slots : List PlacedSlot} {entry : Entry}
    (member : entry ∈ entries directory inDeleted ordinal pending slots) :
    entry.parentCluster = directory := by
  induction slots generalizing ordinal pending with
  | nil => cases member
  | cons placed rest ih =>
    rw [entries] at member
    split at member
    · cases member
    · exact ih member
    · split at member
      · exact ih member
      · rcases List.mem_cons.mp member with rfl | later
        · rfl
        · exact ih later

end Directory

namespace Scan

open Directory

variable {source : Source} {g : Geometry} {limit : Nat} {scan mid later : Scan}

/-- Distinct valid clusters that one scan has not visited and a later one has. -/
structure Fresh (g : Geometry) (scan later : Scan) (clusters : List Nat) : Prop where
  nodup : clusters.Nodup
  valid : ∀ cluster ∈ clusters, g.Valid cluster
  unvisited : ∀ cluster ∈ clusters, cluster ∉ scan.visited
  visited : ∀ cluster ∈ clusters, cluster ∈ later.visited

theorem Fresh.nil (g : Geometry) (scan later : Scan) : Fresh g scan later [] :=
  ⟨List.nodup_nil, by simp, by simp, by simp⟩

/-- What a scan does on its way to a later one, with what it asks for meanwhile. -/
structure Course (g : Geometry) (limit : Nat) (scan : Scan) (requests : List Request)
    (later : Scan) : Prop where
  kept : ∀ cluster ∈ scan.visited, cluster ∈ later.visited
  looked : ∀ cluster, .entry cluster ∈ requests → g.Valid cluster
  read : ∃ clusters : List Nat,
    requests.filter (!·.isEntry) = clusters.map g.clusterRequest ∧ Fresh g scan later clusters
  listings : 1 ≤ limit → ∃ listings, later.listings = scan.listings ++ listings ∧
    Fresh g scan later (listings.map Listing.directory)
  places : ∀ entry ∈ later.entries, entry ∈ scan.entries ∨
    g.Valid entry.slotCluster ∧ g.Valid entry.parentCluster

/-- All that is asked for meanwhile lies inside the volume. -/
theorem Course.inside {requests : List Request} (course : Course g limit scan requests later) :
    ∀ request ∈ requests, request.Inside g := by
  intro request member
  cases request with
  | entry cluster => exact course.looked cluster member
  | contents sector count =>
    obtain ⟨clusters, same, fresh⟩ := course.read
    have read : Request.contents sector count ∈ clusters.map g.clusterRequest := by
      rw [← same]
      exact List.mem_filter.mpr ⟨member, rfl⟩
    obtain ⟨cluster, known, place⟩ := List.mem_map.mp read
    cases place
    exact ⟨cluster, fresh.valid cluster known, rfl, rfl⟩

theorem Course.contents_le {requests : List Request}
    (course : Course g limit scan requests later) :
    (requests.filter (!·.isEntry)).length ≤ g.clusterCount := by
  obtain ⟨clusters, same, fresh⟩ := course.read
  rw [same, List.length_map]
  exact Geometry.length_le_clusterCount fresh.nodup fresh.valid

/-- Looking at FAT entries alone leaves a scan as it is. -/
theorem Course.still (scan : Scan) (asked : List Nat)
    (valid : ∀ cluster ∈ asked, g.Valid cluster) :
    Course g limit scan (asked.map .entry) scan where
  kept _ old := old
  looked cluster member := by
    obtain ⟨_, known, same⟩ := List.mem_map.mp member
    cases same
    exact valid cluster known
  read := by
    refine ⟨[], ?_, .nil g scan scan⟩
    rw [List.filter_map, List.filter_eq_nil_iff.mpr (by simp [Request.isEntry])]
    rfl
  listings _ := ⟨[], (List.append_nil _).symm, .nil g scan scan⟩
  places _ old := .inl old

theorem Fresh.append {clusters others : List Nat} (first : Fresh g scan mid clusters)
    (second : Fresh g mid later others)
    (kept : ∀ cluster ∈ scan.visited, cluster ∈ mid.visited)
    (kept' : ∀ cluster ∈ mid.visited, cluster ∈ later.visited) :
    Fresh g scan later (clusters ++ others) where
  nodup := by
    refine List.nodup_append.mpr ⟨first.nodup, second.nodup, ?_⟩
    rintro cluster member _ member' rfl
    exact second.unvisited cluster member' (first.visited cluster member)
  valid := List.forall_mem_append.mpr ⟨first.valid, second.valid⟩
  unvisited := by
    refine List.forall_mem_append.mpr ⟨first.unvisited, fun cluster member old => ?_⟩
    exact second.unvisited cluster member (kept cluster old)
  visited := by
    refine List.forall_mem_append.mpr ⟨fun cluster member => ?_, second.visited⟩
    exact kept' cluster (first.visited cluster member)

theorem Course.trans {asked onward : List Request} (first : Course g limit scan asked mid)
    (second : Course g limit mid onward later) : Course g limit scan (asked ++ onward) later where
  kept cluster old := second.kept cluster (first.kept cluster old)
  looked cluster member := by
    rcases List.mem_append.mp member with early | late
    · exact first.looked cluster early
    · exact second.looked cluster late
  read := by
    obtain ⟨clusters, same, fresh⟩ := first.read
    obtain ⟨others, same', fresh'⟩ := second.read
    refine ⟨clusters ++ others, ?_, fresh.append fresh' first.kept second.kept⟩
    rw [List.filter_append, same, same', List.map_append]
  listings room := by
    obtain ⟨listings, same, fresh⟩ := first.listings room
    obtain ⟨others, same', fresh'⟩ := second.listings room
    refine ⟨listings ++ others, ?_, ?_⟩
    · rw [same', same, List.append_assoc]
    · rw [List.map_append]
      exact fresh.append fresh' first.kept second.kept
  places entry member := by
    rcases second.places entry member with old | new
    · exact first.places entry old
    · exact .inr new

/-- The clusters of a valid directory are distinct and valid, and begin with its first one. -/
theorem clustersOf_spec {directory : Nat} {inDeleted : Bool} {clusters : List Nat}
    (valid : g.Valid directory)
    (chain : clustersOf source g limit directory inDeleted = .ok clusters) :
    clusters.Nodup ∧ (∀ cluster ∈ clusters, g.Valid cluster) ∧
      (1 ≤ limit → ∃ rest, clusters = directory :: rest) := by
  cases inDeleted with
  | true =>
    cases chain
    exact ⟨List.nodup_singleton _, List.forall_mem_singleton.mpr valid, fun _ => ⟨[], rfl⟩⟩
  | false =>
    have answered : (g.liveChain directory limit).answer source g = .ok clusters := chain
    exact ⟨Geometry.nodup_liveChain answered,
      Geometry.valid_chainFrom limit ∅ [] directory (by simp) answered,
      fun room => Geometry.liveChain_eq_cons valid room answered⟩

/-- A directory that has not been visited is listed with what can be read of it. -/
theorem course_listed {directory : Nat} {inDeleted : Bool} {clusters : List Nat}
    (valid : g.Valid directory) (new : directory ∉ scan.visited)
    (chain : clustersOf source g limit directory inDeleted = .ok clusters) :
    Course g limit scan ((pages g clusters scan.visited []).requests source g)
      (listed source g directory inDeleted clusters scan).1 := by
  obtain ⟨asked, same, nodup, fresh⟩ := requests_pages source g clusters scan.visited []
  obtain ⟨distinct, inside, heads⟩ := clustersOf_spec valid chain
  rw [same, listed_eq]
  dsimp only
  constructor
  · exact fun cluster old => (paged_pagesAfter clusters scan.visited).kept cluster (.inl old)
  · intro cluster member
    obtain ⟨_, _, impossible⟩ := List.mem_map.mp member
    cases impossible
  · refine ⟨asked, ?_, nodup, ?_, ?_, ?_⟩
    · rw [List.filter_map, List.filter_eq_self.mpr (by simp [Request.isEntry, Geometry.clusterRequest])]
    · exact fun cluster member => inside cluster (fresh cluster member).1
    · exact fun cluster member => (fresh cluster member).2.1
    · exact fun cluster member => (fresh cluster member).2.2
  · intro room
    obtain ⟨rest, rfl⟩ := heads room
    exact ⟨_, rfl, List.nodup_singleton _, List.forall_mem_singleton.mpr valid,
      List.forall_mem_singleton.mpr new,
      List.forall_mem_singleton.mpr (head_mem_pagesAfter directory rest scan.visited)⟩
  · intro entry member
    rcases List.mem_append.mp member with old | found
    · exact .inl old
    obtain ⟨pair, short, trace⟩ := exists_of_mem_entries found
    have place := mem_of_mem_shortSlots short
    rw [placed_eq] at place
    have here : entry.slotCluster ∈ clusters := by
      have cluster : pair.1.cluster = entry.slotCluster := congrArg Trace.cluster trace
      rw [← cluster]
      exact (clusters_pagesAfter_isPrefix distinct _).subset (cluster_of_mem_placedFrom place)
    refine .inr ⟨inside _ here, ?_⟩
    rw [parentCluster_of_mem_entries found]
    exact valid

/-- One step of the scan through the subdirectories of a directory. -/
def descent (g : Geometry) (limit levels : Nat) (scan : Scan) (child : Nat × Bool) : Probe Scan := do
  match ← tree g limit levels child.1 child.2 scan with
  | .ok later => pure later
  | .error _ => pure scan

theorem answer_descent (levels : Nat) (scan : Scan) (child : Nat × Bool) :
    (descent g limit levels scan child).answer source g =
      descend source g limit levels scan child := by
  rw [descent, descend, Probe.answer_bind]
  cases (tree g limit levels child.1 child.2 scan).answer source g <;> rfl

theorem requests_descent (levels : Nat) (scan : Scan) (child : Nat × Bool) :
    (descent g limit levels scan child).requests source g =
      (tree g limit levels child.1 child.2 scan).requests source g := by
  rw [descent, Probe.requests_bind]
  cases (tree g limit levels child.1 child.2 scan).answer source g <;> exact List.append_nil _

/-- What is asked for while the directory on some clusters is listed and its subdirectories are
scanned. -/
def exploration (source : Source) (g : Geometry) (limit levels directory : Nat) (inDeleted : Bool)
    (scan : Scan) (clusters : List Nat) : List Request :=
  (pages g clusters scan.visited []).requests source g ++
    ((listed source g directory inDeleted clusters scan).2.foldlM (descent g limit levels)
      (listed source g directory inDeleted clusters scan).1).requests source g

theorem requests_explored (levels directory : Nat) (inDeleted : Bool) (scan : Scan)
    (clusters : Except Failure (List Nat)) :
    (do
      match clusters with
      | .error failure => pure (.error failure)
      | .ok clusters =>
        let (scan, children) ← list g directory inDeleted clusters scan
        let scan ← children.foldlM (fun scan (child, deleted) => do
          match ← tree g limit levels child deleted scan with
          | .ok later => pure later
          | .error _ => pure scan) scan
        pure (.ok scan) : Probe (Except Failure Scan)).requests source g =
      match clusters with
      | .error _ => []
      | .ok clusters => exploration source g limit levels directory inDeleted scan clusters := by
  cases clusters with
  | error failure => rfl
  | ok clusters =>
    simp only [Probe.requests_bind, Probe.requests_pure, List.append_nil]
    rw [list, Probe.requests_bind, Probe.requests_pure, List.append_nil]
    rfl

theorem requests_tree (levels directory : Nat) (inDeleted : Bool) (scan : Scan) :
    (tree g limit (levels + 1) directory inDeleted scan).requests source g =
      if ¬ g.Valid directory ∨ directory ∈ scan.visited then []
      else (if inDeleted then [] else (g.liveChain directory limit).requests source g) ++
        match clustersOf source g limit directory inDeleted with
        | .error _ => []
        | .ok clusters => exploration source g limit levels directory inDeleted scan clusters := by
  rw [tree]
  split
  · rfl
  · cases inDeleted with
    | true => exact requests_explored levels directory true scan (.ok [directory])
    | false =>
      refine (Probe.requests_bind source g _ _).trans (congrArg (_ ++ ·) ?_)
      exact requests_explored levels directory false scan _

theorem requests_foldlM_descent (levels : Nat) (child : Nat × Bool) (rest : List (Nat × Bool))
    (scan : Scan) :
    ((child :: rest).foldlM (descent g limit levels) scan).requests source g =
      (tree g limit levels child.1 child.2 scan).requests source g ++
        (rest.foldlM (descent g limit levels)
          (descend source g limit levels scan child)).requests source g := by
  rw [List.foldlM_cons, Probe.requests_bind, requests_descent, answer_descent]

/-- What is looked at to find the clusters of a directory. -/
theorem requests_clustersOf (source : Source) (g : Geometry) (limit directory : Nat)
    (inDeleted : Bool) :
    ∃ asked : List Nat,
      (if inDeleted then [] else (g.liveChain directory limit).requests source g) =
        asked.map .entry ∧ asked.Nodup ∧ ∀ cluster ∈ asked, g.Valid cluster := by
  cases inDeleted with
  | true => exact ⟨[], rfl, List.nodup_nil, by simp⟩
  | false =>
    obtain ⟨asked, same, nodup, fresh⟩ :=
      g.requests_chainFrom source limit ∅ [] directory
    exact ⟨asked, same, nodup, fun cluster member => (fresh cluster member).1⟩

theorem descend_eq (levels : Nat) (scan : Scan) (child : Nat × Bool) :
    descend source g limit (levels + 1) scan child =
      if ¬ g.Valid child.1 ∨ child.1 ∈ scan.visited then scan
      else match clustersOf source g limit child.1 child.2 with
        | .error _ => scan
        | .ok clusters => explored source g limit levels child.1 child.2 scan clusters := by
  rw [descend, answer_tree]
  by_cases skipped : ¬ g.Valid child.1 ∨ child.1 ∈ scan.visited
  · rw [if_pos skipped, if_pos skipped]
  · rw [if_neg skipped, if_neg skipped]
    cases clustersOf source g limit child.1 child.2 <;> rfl

/-- The induction is on the levels left; within one level it goes through the subdirectories. -/
theorem course_descend (levels : Nat) (scan : Scan) (child : Nat × Bool) :
    Course g limit scan ((tree g limit levels child.1 child.2 scan).requests source g)
      (descend source g limit levels scan child) := by
  induction levels generalizing scan child with
  | zero => exact .still scan [] (by simp)
  | succ levels ih =>
    have below (children : List (Nat × Bool)) (scan : Scan) :
        Course g limit scan ((children.foldlM (descent g limit levels) scan).requests source g)
          (children.foldl (descend source g limit levels) scan) := by
      induction children generalizing scan with
      | nil => exact .still scan [] (by simp)
      | cons child rest onward =>
        rw [requests_foldlM_descent, List.foldl_cons]
        exact (ih scan child).trans (onward _)
    rw [requests_tree, descend_eq]
    split
    · exact .still scan [] (by simp)
    next entered =>
      obtain ⟨valid, new⟩ := not_or.mp entered
      have valid := Decidable.not_not.mp valid
      obtain ⟨asked, same, -, looked⟩ :=
        requests_clustersOf source g limit child.1 child.2
      rw [same]
      refine (Course.still scan asked looked).trans ?_
      split
      · exact .still scan [] (by simp)
      next clusters chain => exact (course_listed valid new chain).trans (below _ _)

theorem children_add_le (source : Source) (g : Geometry) (directory : Nat) (inDeleted : Bool)
    (clusters : List Nat) (scan : Scan) :
    (listed source g directory inDeleted clusters scan).2.length + scan.entries.length ≤
      (listed source g directory inDeleted clusters scan).1.entries.length := by
  rw [listed_eq, List.length_append, Nat.add_comm]
  dsimp only
  rw [subdirectories, List.length_map]
  exact Nat.add_le_add_left (List.length_filter_le _ _) _

/-- A directory costs at most one look at every FAT entry, and there is at most one directory for
each entry that is found. -/
theorem lookups_le (source : Source) (g : Geometry) (limit levels : Nat) (scan : Scan)
    (child : Nat × Bool) :
    ((tree g limit levels child.1 child.2 scan).requests source g).countP Request.isEntry +
        g.clusterCount * scan.entries.length ≤
      g.clusterCount * (1 + (descend source g limit levels scan child).entries.length) := by
  induction levels generalizing scan child with
  | zero =>
    change 0 + _ ≤ g.clusterCount * (1 + scan.entries.length)
    rw [Nat.mul_add]
    omega
  | succ levels ih =>
    have below (children : List (Nat × Bool)) (scan : Scan) :
        ((children.foldlM (descent g limit levels) scan).requests source g).countP
            Request.isEntry + g.clusterCount * scan.entries.length ≤
          g.clusterCount * (children.length +
            (children.foldl (descend source g limit levels) scan).entries.length) := by
      induction children generalizing scan with
      | nil => simp
      | cons child rest onward =>
        have first := ih scan child
        have later := onward (descend source g limit levels scan child)
        rw [requests_foldlM_descent, List.foldl_cons, List.countP_append, List.length_cons]
        simp only [Nat.mul_add] at first later ⊢
        omega
    have idle : 0 + g.clusterCount * scan.entries.length ≤
        g.clusterCount * (1 + scan.entries.length) := by
      rw [Nat.mul_add]
      omega
    rw [requests_tree, descend_eq]
    split
    · exact idle
    · obtain ⟨asked, same, nodup, looked⟩ :=
        requests_clustersOf source g limit child.1 child.2
      have few := Geometry.length_le_clusterCount nodup looked
      have all : (asked.map Request.entry).countP Request.isEntry = asked.length := by
        simp [List.countP_map, Request.isEntry, Function.comp_def]
      rw [same, List.countP_append, all]
      split
      · rw [List.countP_nil, Nat.mul_add]
        omega
      next clusters chain =>
        have onward := below (listed source g child.1 child.2 clusters scan).2
          (listed source g child.1 child.2 clusters scan).1
        obtain ⟨read, contents, -⟩ :=
          requests_pages source g clusters scan.visited []
        have none : (read.map g.clusterRequest).countP Request.isEntry = 0 := by
          simp [List.countP_map, Request.isEntry, Geometry.clusterRequest, Function.comp_def]
        have fewer := Nat.mul_le_mul_left g.clusterCount
          (children_add_le source g child.1 child.2 clusters scan)
        rw [exploration, List.countP_append, contents, none, explored]
        simp only [Nat.mul_add] at onward fewer ⊢
        omega

end Scan

end Undelete
