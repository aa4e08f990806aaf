import Mathlib.Data.List.ProdSigma
import Undelete.Proofs.Directory.Footprint
import Undelete.Proofs.Directory.Numbering
import Undelete.Proofs.Volume.Regions
import Undelete.Proofs.Volume.Small

/-!
Scans of damaged volumes, where directories may name themselves, those above them, or the middle of
others. Every scan ends after a number of requests that depends on the size of the volume alone. It
fails only when its first directory cannot be followed, and a subdirectory that cannot be followed
is the only one that is left out.
-/

namespace Undelete

namespace Scan

open Directory

variable {source : Source} {g : Geometry} {limit maxDepth start : Nat} {scan later : Scan}

/-- The directories that so many entries lead to from the start, one below the other. -/
inductive Leads (scan : Scan) (start : Nat) : (depth directory : Nat) → Prop
  | start : Leads scan start 0 start
  | onward {depth : Nat} {entry : Entry} : Leads scan start depth entry.parentCluster →
    entry ∈ scan.entries → entry.isDirectory = true → Leads scan start (depth + 1) entry.startCluster

theorem Leads.mono (extended : Extends scan later) {depth directory : Nat}
    (leads : scan.Leads start depth directory) : later.Leads start depth directory := by
  induction leads with
  | start => exact .start
  | onward _ member isDirectory ih => exact .onward ih (extended.entries.subset member) isDirectory

/-- Whether a scan has come to the directory that an entry names. Only one whose FAT chain cannot be
read is left out, or one that lies below the last level. -/
def Pursued (source : Source) (g : Geometry) (limit maxDepth start : Nat) (scan : Scan)
    (entry : Entry) : Prop :=
  entry.startCluster ∈ scan.visited ∨
    (∃ failure, clustersOf source g limit entry.startCluster entry.deleted = .error failure) ∨
    scan.Leads start maxDepth entry.parentCluster

theorem Pursued.mono (extended : Extends scan later)
    (kept : ∀ cluster ∈ scan.visited, cluster ∈ later.visited) {entry : Entry}
    (pursued : Pursued source g limit maxDepth start scan entry) :
    Pursued source g limit maxDepth start later entry := by
  rcases pursued with visited | broken | deep
  · exact .inl (kept _ visited)
  · exact .inr (.inl broken)
  · exact .inr (.inr (deep.mono extended))

theorem visited_foldl_descend (levels : Nat) (children : List (Nat × Bool)) (scan : Scan) :
    ∀ cluster ∈ scan.visited,
      cluster ∈ (children.foldl (descend source g limit levels) scan).visited := by
  have kept (later : Scan) (child : Nat × Bool)
      (before : ∀ cluster ∈ scan.visited, cluster ∈ later.visited) :
      ∀ cluster ∈ scan.visited, cluster ∈ (descend source g limit levels later child).visited :=
    fun cluster old => (course_descend levels later child).kept cluster (before cluster old)
  exact foldl_keeps kept children fun _ old => old

/-- A subdirectory has been visited after the descent to it, unless it cannot be followed. -/
theorem visited_descend (room : 1 ≤ limit) (levels : Nat) (scan : Scan) {child : Nat × Bool}
    (valid : g.Valid child.1) :
    child.1 ∈ (descend source g limit (levels + 1) scan child).visited ∨
      ∃ failure, clustersOf source g limit child.1 child.2 = .error failure := by
  rw [descend_eq]
  split
  next skipped => exact .inl (skipped.resolve_left (not_not_intro valid))
  · split
    next failure broken => exact .inr ⟨failure, broken⟩
    next clusters chain =>
      obtain ⟨-, -, heads⟩ := clustersOf_spec valid chain
      obtain ⟨rest, rfl⟩ := heads room
      left
      rw [explored]
      apply visited_foldl_descend
      rw [listed_eq]
      exact head_mem_pagesAfter child.1 rest scan.visited

/-- What a scan has added, it has pursued. -/
def AllPursued (source : Source) (g : Geometry) (limit maxDepth start : Nat)
    (scan later : Scan) : Prop :=
  ∀ entry ∈ later.entries, entry ∈ scan.entries ∨ (entry.isDirectory = true →
    g.Valid entry.startCluster → Pursued source g limit maxDepth start later entry)

/-- Whether the descent to every directory at some depth pursues what it adds. -/
def Pursues (source : Source) (g : Geometry) (limit maxDepth start depth levels : Nat) : Prop :=
  ∀ {scan : Scan} {child : Nat × Bool}, scan.Leads start depth child.1 →
    AllPursued source g limit maxDepth start scan (descend source g limit levels scan child)

theorem Pursues.foldl {depth levels : Nat}
    (trees : Pursues source g limit maxDepth start depth levels) (children : List (Nat × Bool))
    {scan : Scan} (leads : ∀ child ∈ children, scan.Leads start depth child.1) :
    AllPursued source g limit maxDepth start scan
      (children.foldl (descend source g limit levels) scan) := by
  induction children generalizing scan with
  | nil => exact fun _ old => .inl old
  | cons child rest ih =>
    obtain ⟨first, others⟩ := List.forall_mem_cons.mp leads
    have extended : Extends scan (descend source g limit levels scan child) :=
      extends_descend levels scan child
    rw [List.foldl_cons]
    intro entry member
    rcases ih (fun other known => (others other known).mono extended) entry member with old | new
    · refine (trees first entry old).imp_right fun pursued isDirectory valid => ?_
      exact (pursued isDirectory valid).mono (extends_foldl_descend levels rest _)
        (visited_foldl_descend levels rest _)
    · exact .inr new

theorem visited_children (room : 1 ≤ limit) (levels : Nat) (children : List (Nat × Bool))
    (scan : Scan) {child : Nat × Bool} (member : child ∈ children) (valid : g.Valid child.1) :
    child.1 ∈ (children.foldl (descend source g limit (levels + 1)) scan).visited ∨
      ∃ failure, clustersOf source g limit child.1 child.2 = .error failure := by
  induction children generalizing scan with
  | nil => cases member
  | cons first rest ih =>
    rw [List.foldl_cons]
    rcases List.mem_cons.mp member with rfl | later
    · refine (visited_descend room levels scan valid).imp_left fun here => ?_
      exact visited_foldl_descend _ rest _ _ here
    · exact ih _ later

/-- An entry that is found in a directory names a subdirectory that comes next, if any. -/
theorem mem_entries_listed {directory : Nat} {inDeleted : Bool} {clusters : List Nat} {entry : Entry}
    (member : entry ∈ (listed source g directory inDeleted clusters scan).1.entries) :
    entry ∈ scan.entries ∨ entry.parentCluster = directory ∧ (entry.isDirectory = true →
      (entry.startCluster, entry.deleted) ∈
        (listed source g directory inDeleted clusters scan).2) := by
  rw [listed_eq] at member ⊢
  refine (List.mem_append.mp member).imp_right fun found => ?_
  refine ⟨parentCluster_of_mem_entries found, fun isDirectory => ?_⟩
  exact List.mem_map.mpr ⟨entry, List.mem_filter.mpr ⟨found, isDirectory⟩, rfl⟩

theorem Leads.listed {depth directory : Nat} (leads : scan.Leads start depth directory)
    (inDeleted : Bool) (clusters : List Nat) :
    ∀ child ∈ (Scan.listed source g directory inDeleted clusters scan).2,
      (Scan.listed source g directory inDeleted clusters scan).1.Leads start (depth + 1)
        child.1 := by
  have extended : Extends scan (Scan.listed source g directory inDeleted clusters scan).1 :=
    extends_listed directory inDeleted clusters scan
  have here := leads.mono extended
  rw [listed_eq] at here ⊢
  intro child member
  obtain ⟨entry, found, rfl⟩ := List.mem_map.mp member
  obtain ⟨found, isDirectory⟩ := List.mem_filter.mp found
  refine .onward ?_ (List.mem_append_right _ found) isDirectory
  rw [parentCluster_of_mem_entries found]
  exact here

/-- The induction is on the levels left. An entry that the last level finds stands at the greatest
depth; a subdirectory of another level is descended to right after its entry was found. -/
theorem pursues (room : 1 ≤ limit) {depth levels : Nat} (deep : depth + levels = maxDepth + 1) :
    Pursues source g limit maxDepth start depth levels := by
  induction levels generalizing depth with
  | zero => exact fun _ _ old => .inl old
  | succ levels ih =>
    intro scan child leads
    rw [descend_eq]
    split
    · exact fun _ old => .inl old
    split
    · exact fun _ old => .inl old
    next clusters chain =>
      have below : Pursues source g limit maxDepth start (depth + 1) levels := ih (by omega)
      have extended : Extends scan (explored source g limit levels child.1 child.2 scan clusters) :=
        (extends_listed child.1 child.2 clusters scan).trans (extends_foldl_descend levels _ _)
      intro entry member
      rcases below.foldl _ (leads.listed child.2 clusters) entry member with old | new
      · refine (mem_entries_listed old).imp_right fun ⟨parent, named⟩ isDirectory valid => ?_
        cases levels with
        | zero =>
          obtain rfl : depth = maxDepth := by omega
          rw [Pursued, parent]
          exact .inr (.inr (leads.mono extended))
        | succ levels =>
          rcases visited_children room levels _ _ (named isDirectory) valid with here | broken
          · exact .inl here
          · exact .inr (.inl broken)
      · exact .inr new

/-- The entries in the clusters of listings, numbered through. -/
def contents (source : Source) (g : Geometry) : (ordinal : Nat) → List Listing → List Entry
  | _, [] => []
  | ordinal, listing :: rest =>
    let found := Directory.entries listing.directory listing.inDeleted ordinal []
      (placed (pagesOf source g listing.clusters))
    found ++ contents source g (ordinal + found.length) rest

theorem contents_append (ordinal : Nat) (listings others : List Listing) :
    contents source g ordinal (listings ++ others) =
      contents source g ordinal listings ++
        contents source g (ordinal + (contents source g ordinal listings).length) others := by
  induction listings generalizing ordinal with
  | nil => rfl
  | cons listing rest ih =>
    rw [List.cons_append, contents, ih, contents, List.append_assoc, List.length_append,
      Nat.add_assoc]

/-- The pages of a directory that a scan reads are all the pages of their clusters. -/
theorem pagesOf_pagesAfter (clusters : List Nat) (visited : Std.TreeSet Nat) :
    pagesOf source g ((pagesAfter source g clusters visited).1.map Prod.fst) =
      (pagesAfter source g clusters visited).1 := by
  induction clusters generalizing visited with
  | nil => rfl
  | cons cluster rest ih =>
    rw [pagesAfter_cons]
    split
    · rfl
    cases slots : slotsOf source g cluster with
    | error failure => rfl
    | ok slots =>
      dsimp only
      split
      next last => simp [pagesOf, slots, last]
      next goesOn => rw [List.map_cons, pagesOf, slots, ih]; simp [goesOn]

/-- The entries of a scan are those in the clusters of its listings. -/
theorem entries_eq_contents
    (answered : (ofRoot g maxDepth limit start).answer source g = .ok scan) :
    scan.entries = contents source g 1 scan.listings := by
  have keeps (directory : Nat) (inDeleted : Bool) (clusters : List Nat) (scan : Scan)
      (before : scan.entries = contents source g 1 scan.listings) :
      (listed source g directory inDeleted clusters scan).1.entries =
        contents source g 1 (listed source g directory inDeleted clusters scan).1.listings := by
    simp only [listed_eq]
    rw [contents_append, ← before, contents, contents, List.append_nil, pagesOf_pagesAfter,
      nextOrdinal, Nat.add_comm]
  exact tree_keeps keeps (maxDepth + 1) start false rfl answered

/-- The scan of a whole tree, as the descent to its first directory. -/
def result (source : Source) (g : Geometry) (limit maxDepth start : Nat) : Scan :=
  descend source g limit (maxDepth + 1) empty (start, false)

theorem result_eq (answered : (ofRoot g maxDepth limit start).answer source g = .ok scan) :
    result source g limit maxDepth start = scan := by
  rw [ofRoot] at answered
  rw [result, descend, answered]

theorem course_result (source : Source) (g : Geometry) (limit maxDepth start : Nat) :
    Course g limit empty ((ofRoot g maxDepth limit start).requests source g)
      (result source g limit maxDepth start) :=
  course_descend (maxDepth + 1) empty (start, false)

theorem failure_iff {failure : Failure} :
    (ofRoot g maxDepth limit start).answer source g = .error failure ↔
      g.Valid start ∧ (g.liveChain start limit).answer source g = .error failure := by
  rw [ofRoot, answer_tree]
  have nothing : start ∉ empty.visited := by simp [empty]
  by_cases valid : g.Valid start
  · rw [if_neg (by simpa using ⟨valid, nothing⟩)]
    have chain : clustersOf source g limit start false =
      (g.liveChain start limit).answer source g := rfl
    rw [chain]
    cases (g.liveChain start limit).answer source g <;> simp [Except.map, valid]
  · rw [if_pos (.inl valid)]
    simp [valid]

/-- When directories have no clusters at all, nothing is found. -/
theorem entries_eq_nil (answered : (ofRoot g maxDepth 0 start).answer source g = .ok scan) :
    scan.entries = [] := by
  rw [ofRoot, answer_tree] at answered
  split at answered
  · cases answered
    rfl
  · cases answered
    rfl

theorem pursued_of_ofRoot
    (answered : (ofRoot g maxDepth limit start).answer source g = .ok scan) {entry : Entry}
    (member : entry ∈ scan.entries) (isDirectory : entry.isDirectory = true)
    (valid : g.Valid entry.startCluster) :
    Pursued source g limit maxDepth start scan entry := by
  cases limit with
  | zero =>
    rw [entries_eq_nil answered] at member
    cases member
  | succ limit =>
    have whole : Pursues source g (limit + 1) maxDepth start 0 (maxDepth + 1) :=
      pursues (Nat.le_add_left 1 limit) (Nat.zero_add (maxDepth + 1))
    have all : AllPursued source g (limit + 1) maxDepth start empty
        (result source g (limit + 1) maxDepth start) := whole .start
    rw [result_eq answered] at all
    rcases all entry member with none | pursued
    · cases none
    · exact pursued isDirectory valid

/-- There are no more entries than the volume has slots. -/
theorem entries_le (regular : g.Regular) {scan : Scan}
    (places : (scan.entries.map (Entry.place g.slotsPerCluster)).Nodup)
    (valid : ∀ entry ∈ scan.entries, g.Valid entry.slotCluster) :
    scan.entries.length ≤ g.clusterCount * g.slotsPerCluster := by
  have positive : 0 < g.slotsPerCluster :=
    Nat.div_pos (Nat.le_trans (by decide) regular.clusterSize_pos) (by decide)
  have inside : scan.entries.map (Entry.place g.slotsPerCluster) ⊆
      List.range' 2 g.clusterCount ×ˢ List.range g.slotsPerCluster := by
    intro place member
    obtain ⟨entry, known, rfl⟩ := List.mem_map.mp member
    obtain ⟨low, high⟩ := valid entry known
    rw [Geometry.maxCluster] at high
    refine List.mem_product.mpr ⟨List.mem_range'_1.mpr ⟨low, ?_⟩, ?_⟩
    · omega
    · exact List.mem_range.mpr (Nat.mod_lt _ positive)
  have fewer := (places.subperm inside).length_le
  rwa [List.length_map, List.length_product, List.length_range', List.length_range] at fewer

/-- What a scan of any volume is like. -/
structure Sane (source : Source) (g : Geometry) (limit maxDepth start : Nat) (scan : Scan) :
    Prop where
  ordinals : scan.entries.map Entry.ordinal = List.range' 1 scan.entries.length
  fileIds : scan.entries.length < UInt32.size →
    ∀ entry ∈ scan.entries, entry.fileId = entry.ordinal
  places : (scan.entries.map (Entry.place g.slotsPerCluster)).Nodup
  entries_le : scan.entries.length ≤ g.clusterCount * g.slotsPerCluster
  clusters : ∀ entry ∈ scan.entries, g.Valid entry.slotCluster ∧ g.Valid entry.parentCluster
  directories_le : 1 ≤ limit → scan.directories ≤ g.clusterCount
  complete : scan.entries = contents source g 1 scan.listings
  reached : ∀ entry ∈ scan.entries, entry.isDirectory = true → g.Valid entry.startCluster →
    entry.startCluster ∈ scan.listings.flatMap Listing.clusters ∨
      (∃ failure, slotsOf source g entry.startCluster = .error failure) ∨
      (∃ failure, clustersOf source g limit entry.startCluster entry.deleted = .error failure) ∨
      scan.Leads start maxDepth entry.parentCluster

theorem sane_of_ofRoot (regular : g.Regular)
    (answered : (ofRoot g maxDepth limit start).answer source g = .ok scan) :
    Sane source g limit maxDepth start scan := by
  have tidy := tidy_of_ofRoot answered
  have orderly := orderly_of_ofRoot answered
  have course : Course g limit empty _ scan := result_eq answered ▸ course_result ..
  have valid : ∀ entry ∈ scan.entries, g.Valid entry.slotCluster ∧ g.Valid entry.parentCluster :=
    fun entry member => (course.places entry member).resolve_left (nomatch ·)
  constructor
  case ordinals => exact tidy.numbered.ordinals
  case fileIds => exact fun few entry member => (tidy.numbered.fileId_eq few member).1
  case places => exact orderly.places
  case entries_le => exact entries_le regular orderly.places fun entry member => (valid entry member).1
  case clusters => exact valid
  case directories_le =>
    intro room
    obtain ⟨listings, same, fresh⟩ := course.listings room
    rw [directories, same]
    have fewer := Geometry.length_le_clusterCount fresh.nodup fresh.valid
    rwa [List.length_map] at fewer
  case complete => exact entries_eq_contents answered
  case reached =>
    intro entry member isDirectory inside
    rcases pursued_of_ofRoot answered member isDirectory inside with visited | left
    · exact (orderly.origin _ visited).imp_right .inl
    · exact .inr (.inr left)

theorem entries_result_le (regular : g.Regular) (source : Source) (limit maxDepth start : Nat) :
    (result source g limit maxDepth start).entries.length ≤
      g.clusterCount * g.slotsPerCluster := by
  cases answered : (ofRoot g maxDepth limit start).answer source g with
  | ok scan =>
    rw [result_eq answered]
    exact (sane_of_ofRoot regular answered).entries_le
  | error failure =>
    rw [ofRoot] at answered
    rw [result, descend, answered]
    exact Nat.zero_le _

/-- A scan asks a number of questions that depends on the size of the volume alone, however deep
it may go. -/
theorem requests_le (regular : g.Regular) :
    ((ofRoot g maxDepth limit start).requests source g).length ≤
      g.clusterCount * (2 + g.clusterCount * g.slotsPerCluster) := by
  have lookups : ((ofRoot g maxDepth limit start).requests source g).countP Request.isEntry +
      g.clusterCount * 0 ≤
        g.clusterCount * (1 + (result source g limit maxDepth start).entries.length) :=
    lookups_le source g limit (maxDepth + 1) empty (start, false)
  have contents := (course_result source g limit maxDepth start).contents_le
  have entries := Nat.mul_le_mul_left g.clusterCount
    (entries_result_le regular source limit maxDepth start)
  rw [List.length_eq_length_filter_add Request.isEntry, ← List.countP_eq_length_filter]
  simp only [Nat.mul_add] at lookups ⊢
  omega

/-- A scan reads every cluster at most once as directory content. -/
theorem reads_data (regular : g.Regular) :
    ∃ clusters : List Nat, clusters.Nodup ∧ (∀ cluster ∈ clusters, g.Valid cluster) ∧
      (((ofRoot g maxDepth limit start).run source (.empty g) []).2.2.filter
        fun read => g.dataStart ≤ read.1) =
        clusters.map fun cluster => (g.clusterSector cluster, g.clusterSize) := by
  obtain ⟨reads, logged, served⟩ := Probe.run_served (ofRoot g maxDepth limit start) []
    (FatTable.faithful_empty source g)
  have course := course_result source g limit maxDepth start
  obtain ⟨clusters, same, fresh⟩ := course.read
  have served : Served g ((ofRoot g maxDepth limit start).requests source g) reads := served
  have told : ∀ request ∈ (ofRoot g maxDepth limit start).requests source g,
      decide (g.dataStart ≤ (request.place g).1) = !request.isEntry := by
    intro request member
    have inside := course.inside request member
    cases request with
    | entry cluster =>
      have below := (regular.fat_inside cluster inside).2
      exact decide_eq_false
        (Nat.not_le.mpr (Nat.lt_of_lt_of_le below regular.fat_before_data))
    | contents sector count =>
      obtain ⟨cluster, valid, rfl, rfl⟩ := inside
      exact decide_eq_true (regular.data_inside cluster valid).1
  refine ⟨clusters.reverse, List.nodup_reverse.mpr fresh.nodup, ?_, ?_⟩
  · exact fun cluster member => fresh.valid cluster (List.mem_reverse.mp member)
  · rw [logged, List.append_nil, List.filter_reverse, served.filter_eq told, same, List.map_map,
      List.map_reverse]
    rfl

/-- On any volume, however damaged, a scan ends after boundedly many requests, reads no cluster
twice as directory content, finds every slot at most once, and fails only when the FAT chain of
its first directory cannot be read. -/
theorem ofRoot_sane {boot : BootSector} (accepted : boot.geometry = .ok g) (source : Source)
    (maxDepth limit start : Nat) :
    let outcome := (ofRoot g maxDepth limit start).run source (.empty g) []
    (∀ failure, outcome.1 = .error failure ↔ g.Valid start ∧
      ((g.liveChain start limit).run source (.empty g) []).1 = .error failure) ∧
    (∀ scan, outcome.1 = .ok scan → Sane source g limit maxDepth start scan) ∧
    (∃ clusters : List Nat, clusters.Nodup ∧ (∀ cluster ∈ clusters, g.Valid cluster) ∧
      (outcome.2.2.filter fun read => g.dataStart ≤ read.1) =
        clusters.map fun cluster => (g.clusterSector cluster, g.clusterSize)) ∧
    ((ofRoot g maxDepth limit start).requests source g).length ≤
      g.clusterCount * (2 + g.clusterCount * g.slotsPerCluster) := by
  have regular := BootSector.regular_of_geometry accepted
  intro outcome
  refine ⟨fun failure => ?_, fun scan scanned => ?_, reads_data regular, requests_le regular⟩
  · rw [Probe.run_empty, Probe.run_empty]
    exact failure_iff
  · rw [Probe.run_empty] at scanned
    exact sane_of_ofRoot regular scanned

/-- The root is linked to itself behind its second cluster. It names itself, its second cluster, a
deleted directory full of garbage, and a directory that leads back to all of them. -/
def tangled : Source :=
  Small.source [0, 0, 3, 2, 0, Small.chainEnd]
    [Small.slot 0x41 0x10 2 0 ++ Small.slot 0x42 0x10 3 0 ++ Small.slot 0xE5 0x10 4 0 ++
        Small.slot 0x44 0x10 5 0 ++ (List.replicate 12 (Small.slot 0x45 0x20 0 0)).flatten,
      Small.slot 0x46 0x10 2 0 ++ Small.slot 0x47 0x20 0 0, List.replicate 512 0x37,
      Small.slot 0x48 0x10 4 0 ++ Small.slot 0x49 0x10 5 0 ++ Small.slot 0x4A 0x10 2 0]

theorem ofRoot_sane_tangled :
    ∃ boot, BootSector.parse (Small.boot 4) = .ok boot ∧ boot.geometry = .ok (Small.geometry 4) ∧
      ∃ scan, ((ofRoot (Small.geometry 4) 4294967295 4294967295 2).run tangled
          (.empty (Small.geometry 4)) []).1 = .ok scan ∧
        Sane tangled (Small.geometry 4) 4294967295 4294967295 2 scan ∧
        scan.entries.length = 37 ∧ scan.directories = 3 := by
  obtain ⟨boot, parsed, accepted⟩ : ∃ boot, BootSector.parse (Small.boot 4) = .ok boot ∧
      boot.geometry = .ok (Small.geometry 4) :=
    exists_ok (by decide +kernel)
  obtain ⟨scan, scanned, length, directories⟩ :
      ∃ scan, (ofRoot (Small.geometry 4) 4294967295 4294967295 2).answer tangled
          (Small.geometry 4) = .ok scan ∧ scan.entries.length = 37 ∧ scan.directories = 3 := by
    rw [tangled, Small.source, Probe.answer_ofImage]
    exact exists_ok (by decide +kernel)
  rw [← Probe.run_empty _ _ _ []] at scanned
  obtain ⟨-, sane, -, -⟩ := ofRoot_sane accepted tangled 4294967295 4294967295 2
  exact ⟨boot, parsed, accepted, scan, scanned, sane scan scanned, length, directories⟩

end Scan

end Undelete
