import Undelete.Proofs.Directory.Findings
import Undelete.Proofs.Directory.Listings
import Undelete.Proofs.Volume.Small

/-!
The scan of a well-formed tree. It comes to every directory of the tree with none of its clusters
visited, so that it reads the whole directory and finds what stands there, no more and no less.
-/

namespace Undelete

namespace Geometry

variable {g : Geometry} {source : Source}

/-- A scan that may take enough clusters follows the whole of a chain without loops. -/
theorem answer_chainFrom {room limit : Nat} {seen : Std.TreeSet Nat} {trail : List Nat}
    {current : Nat} (same : ∀ cluster, cluster ∈ seen ↔ cluster ∈ trail)
    (distinct : (trail ++ (source.volume g).chain room current).Nodup)
    (linked : ∀ cluster ∈ (source.volume g).chain room current,
      ∃ entry, source.fatEntry g cluster = .ok entry)
    (enough : ((source.volume g).chain room current).length ≤ limit)
    (ends : ((source.volume g).chain room current).length < room) :
    (g.chainFrom limit seen trail current).answer source g =
      .ok (trail.reverse ++ (source.volume g).chain room current) := by
  induction room generalizing limit seen trail current with
  | zero => cases ends
  | succ room ih =>
    rw [Volume.chain] at distinct linked enough ends ⊢
    by_cases valid : (source.volume g).geometry.Valid current
    · rw [if_pos valid] at distinct linked enough ends ⊢
      obtain ⟨entry, answered⟩ := linked current List.mem_cons_self
      have stored : (source.volume g).fat current = .ok entry := answered
      obtain ⟨limit, rfl⟩ : ∃ rest, limit = rest + 1 := by
        rw [List.length_cons] at enough
        exact ⟨limit - 1, by omega⟩
      -- The trail and what follows it share no cluster, so the walk does not stop here.
      have fresh : current ∉ seen := by
        intro old
        rw [List.nodup_append] at distinct
        exact distinct.2.2 current ((same current).mp old) current List.mem_cons_self rfl
      have still : ∀ cluster, cluster ∈ seen.insert current ↔ cluster ∈ current :: trail := by
        intro cluster
        rw [Directory.mem_insert, List.mem_cons, same]
      rw [stored] at distinct linked enough ends ⊢
      rw [chainFrom, if_pos ⟨valid, fresh⟩, Probe.answer_bind, Probe.answer_entryOf, answered]
      have stops : (pure (.ok (current :: trail).reverse) :
          Probe (Except Failure (List Nat))).answer source g = .ok (trail.reverse ++ [current]) := by
        rw [List.reverse_cons]
        rfl
      cases entry with
      | next next =>
        dsimp only at distinct linked enough ends ⊢
        rw [ih still ?_ ?_ ?_ ?_, List.reverse_cons, List.append_assoc]
        · rfl
        · exact (List.perm_middle.nodup_iff).mp distinct
        · exact fun cluster member => linked cluster (List.mem_cons_of_mem _ member)
        · exact Nat.le_of_succ_le_succ enough
        · exact Nat.lt_of_succ_lt_succ ends
      | free => exact stops
      | reserved => exact stops
      | bad => exact stops
      | endOfChain => exact stops
    · rw [if_neg valid, List.append_nil]
      cases limit with
      | zero => rfl
      | succ limit =>
        rw [chainFrom, if_neg fun onward => valid onward.1]
        rfl

end Geometry

namespace Scan

variable {source : Source} {g : Geometry} {limit : Nat}

/-- What a scan has more after it has come through some directories. -/
structure Grown (volume : Volume) (scan later : Scan) (folders : List Folder)
    (found : List Finding) : Prop where
  entries : later.entries = scan.entries ++ Finding.number scan.nextOrdinal found
  directories : later.directories = scan.directories + folders.length
  visited : ∀ cluster ∈ later.visited,
    cluster ∈ scan.visited ∨ cluster ∈ folders.flatMap volume.clusters

theorem Grown.refl (volume : Volume) (scan : Scan) : Grown volume scan scan [] [] :=
  ⟨(List.append_nil _).symm, rfl, fun _ old => .inl old⟩

theorem Grown.trans {volume : Volume} {scan middle later : Scan} {folders folders' : List Folder}
    {found found' : List Finding} (first : Grown volume scan middle folders found)
    (second : Grown volume middle later folders' found') :
    Grown volume scan later (folders ++ folders') (found ++ found') where
  entries := by
    have ordinal : middle.nextOrdinal = scan.nextOrdinal + found.length := by
      rw [nextOrdinal, nextOrdinal, first.entries, List.length_append, Finding.length_number]
      omega
    rw [second.entries, first.entries, ordinal, Finding.number_append, List.append_assoc]
  directories := by
    rw [second.directories, first.directories, List.length_append, Nat.add_assoc]
  visited := by
    intro cluster member
    rw [List.flatMap_append, List.mem_append]
    rcases second.visited cluster member with middle | new
    · rcases first.visited cluster middle with old | new
      · exact .inl old
      · exact .inr (.inl new)
    · exact .inr (.inr new)

theorem clustersOf_eq {folder : Folder} (valid : g.Valid folder.start)
    (wellFormed : (source.volume g).WellFormed limit [folder]) :
    clustersOf source g limit folder.start folder.inDeleted =
      .ok ((source.volume g).clusters folder) := by
  obtain ⟨linked, short, -, distinct⟩ := wellFormed
  rw [List.flatMap_singleton] at distinct
  specialize linked folder (List.mem_singleton_self _)
  specialize short folder (List.mem_singleton_self _)
  unfold clustersOf
  unfold Volume.clusters at linked short distinct ⊢
  split
  · rfl
  next alive =>
    rw [if_neg alive] at linked short distinct
    rw [Bool.not_eq_true] at alive
    have ends := Volume.length_chain_lt valid distinct
    exact Geometry.answer_chainFrom (by simp) distinct (linked alive) (short alive) ends

/-- A directory none of whose clusters has been visited is read to its end. -/
theorem grown_listed {folder : Folder} {scan : Scan}
    (wellFormed : (source.volume g).WellFormed limit [folder])
    (fresh : ∀ cluster ∈ (source.volume g).clusters folder, cluster ∉ scan.visited) :
    Grown (source.volume g) scan (listed source g folder.start folder.inDeleted
        ((source.volume g).clusters folder) scan).1 [folder] ((source.volume g).findings folder) ∧
      (listed source g folder.start folder.inDeleted ((source.volume g).clusters folder) scan).2 =
        ((source.volume g).children folder).map fun child => (child.start, child.inDeleted) := by
  have nodup : ((source.volume g).clusters folder).Nodup := by
    have distinct := wellFormed.distinct
    rwa [List.flatMap_singleton] at distinct
  have whole : (Directory.pagesAfter source g ((source.volume g).clusters folder)
      scan.visited).1 = Directory.pagesOf source g ((source.volume g).clusters folder) := by
    rw [Directory.pagesAfter_eq_takeWhile nodup, List.takeWhile_eq_self_iff]
    intro page member
    have place := (Directory.clusters_pagesOf_isPrefix _).subset (List.mem_map_of_mem member)
    exact decide_eq_true (fresh _ place)
  have found : Directory.entries folder.start folder.inDeleted scan.nextOrdinal []
      (Directory.placed (Directory.pagesOf source g ((source.volume g).clusters folder))) =
        Finding.number scan.nextOrdinal ((source.volume g).findings folder) := by
    have readable := wellFormed.readable folder (List.mem_singleton_self _)
    rw [← Directory.entries_takeWhile, Directory.placed_eq, Directory.takeWhile_pagesOf readable,
      ← Directory.placed_eq]
    have named := Directory.entries_eq_number folder scan.nextOrdinal []
      ((source.volume g).slotsOf folder) fun _ member => List.mem_takeWhile_imp member
    simp only [List.nil_append, List.map_id'] at named
    exact named
  rw [listed_eq]
  dsimp only
  rw [whole, found]
  refine ⟨⟨rfl, ?_, ?_⟩, Finding.subdirectories_number _ _⟩
  · rw [directories, List.length_append]
    rfl
  · intro cluster member
    rw [List.flatMap_singleton]
    exact Directory.mem_visited_pagesAfter member

/-- Whether a scan finds all of every well-formed tree of so many levels that it has not come to
yet. -/
def FindsAll (source : Source) (g : Geometry) (limit levels : Nat) : Prop :=
  ∀ {folder : Folder} {scan : Scan},
    (source.volume g).WellFormed limit ((source.volume g).folders levels folder) →
    (∀ cluster ∈ ((source.volume g).folders levels folder).flatMap (source.volume g).clusters,
      cluster ∉ scan.visited) →
    ∃ later, (tree g limit levels folder.start folder.inDeleted scan).answer source g = .ok later ∧
      Grown (source.volume g) scan later ((source.volume g).folders levels folder)
        ((source.volume g).listing levels folder)

theorem FindsAll.foldl {levels : Nat} (trees : FindsAll source g limit levels)
    (children : List Folder) {scan : Scan}
    (wellFormed : (source.volume g).WellFormed limit
      (children.flatMap ((source.volume g).folders levels)))
    (fresh : ∀ cluster ∈ (children.flatMap ((source.volume g).folders levels)).flatMap
      (source.volume g).clusters, cluster ∉ scan.visited) :
    Grown (source.volume g) scan
      ((children.map fun child => (child.start, child.inDeleted)).foldl
        (descend source g limit levels) scan)
      (children.flatMap ((source.volume g).folders levels))
      (children.flatMap ((source.volume g).listing levels)) := by
  induction children generalizing scan with
  | nil => exact .refl _ scan
  | cons child rest ih =>
    rw [List.flatMap_cons] at wellFormed
    simp only [List.flatMap_cons, List.flatMap_append, List.mem_append] at fresh
    obtain ⟨first, others, apart⟩ := wellFormed.append
    obtain ⟨later, answered, grown⟩ := trees first fun cluster member => fresh cluster (.inl member)
    have next : descend source g limit levels scan (child.start, child.inDeleted) = later := by
      rw [descend, answered]
    rw [List.map_cons, List.foldl_cons, next, List.flatMap_cons, List.flatMap_cons]
    refine grown.trans (ih others ?_)
    -- What has been visited meanwhile belongs to the first child, and shares nothing with these.
    intro cluster member visited
    rcases grown.visited cluster visited with old | here
    · exact fresh cluster (.inr member) old
    · exact apart cluster here member

theorem findsAll (source : Source) (g : Geometry) (limit levels : Nat) :
    FindsAll source g limit levels := by
  intro folder scan wellFormed fresh
  induction levels generalizing folder scan with
  | zero => exact ⟨scan, rfl, .refl _ _⟩
  | succ levels ih =>
    rw [Volume.folders] at wellFormed fresh ⊢
    rw [Volume.listing, answer_tree]
    by_cases valid : g.Valid folder.start
    · have sound : (source.volume g).geometry.Valid folder.start := valid
      rw [if_pos sound] at wellFormed fresh ⊢
      rw [if_pos sound]
      change (source.volume g).WellFormed limit ([folder] ++ _) at wellFormed
      simp only [List.flatMap_cons, List.mem_append] at fresh
      obtain ⟨own, below, apart⟩ := wellFormed.append
      have new : folder.start ∉ scan.visited :=
        fresh _ (.inl (Volume.head_mem_clusters sound))
      obtain ⟨grown, children⟩ := grown_listed own fun cluster member => fresh cluster (.inl member)
      rw [if_neg (by simp [valid, new]), clustersOf_eq valid own]
      refine ⟨_, rfl, ?_⟩
      rw [explored, children]
      refine grown.trans (FindsAll.foldl ih _ below ?_)
      intro cluster member visited
      rcases grown.visited cluster visited with old | here
      · exact fresh cluster (.inr member) old
      · exact apart cluster here member
    · have unsound : ¬ (source.volume g).geometry.Valid folder.start := valid
      rw [if_neg unsound, if_neg unsound, if_pos (.inl valid)]
      exact ⟨scan, rfl, .refl _ _⟩

/-- The scan of a well-formed tree finds what the tree lists and nothing else, in the same order. -/
theorem ofRoot_eq_listing {maxDepth start : Nat}
    (wellFormed : (source.volume g).WellFormed limit
      ((source.volume g).folders (maxDepth + 1) (.root start))) :
    ∃ scan, ((ofRoot g maxDepth limit start).run source (FatTable.empty g) []).1 = .ok scan ∧
      scan.entries = Finding.number 1 ((source.volume g).listing (maxDepth + 1) (.root start)) ∧
      scan.directories = ((source.volume g).folders (maxDepth + 1) (.root start)).length ∧
      List.Forall₂ (fun finding entry => entry.deleted = true ↔
          finding.placed.data.byteAt 0 = deletedMark ∨
            ∃ ancestor ∈ finding.folder.ancestry, ancestor.name.byteAt 0 = deletedMark)
        ((source.volume g).listing (maxDepth + 1) (.root start)) scan.entries := by
  obtain ⟨scan, answered, grown⟩ : ∃ scan, (ofRoot g maxDepth limit start).answer source g =
      .ok scan ∧ Grown (source.volume g) empty scan _ _ :=
    findsAll source g limit (maxDepth + 1) wellFormed (by simp [empty])
  refine ⟨scan, ?_, grown.entries, grown.directories.trans (Nat.zero_add _), ?_⟩
  · rw [Probe.run_empty]
    exact answered
  · rw [grown.entries]
    apply Finding.forall₂_number
    intro finding member ordinal
    rw [Volume.listing_eq] at member
    obtain ⟨folder, -, member⟩ := List.mem_flatMap.mp member
    exact Volume.deleted_entry_iff member ordinal

end Scan

/-- The volume in an image that is a list of bytes. -/
theorem Source.volume_ofImage (image : Bytes) (sectorSize : Nat) (g : Geometry) :
    (ofImage image.toArray sectorSize).volume g =
      ⟨g, fatEntryList image sectorSize g, fun cluster =>
        (readList image sectorSize (g.clusterSector cluster) g.clusterSize).map
          (Bytes.chunks slotSize)⟩ := by
  rw [volume, fatEntry_ofImage]
  congr 1
  funext cluster
  rw [Directory.slotsOf, read_ofImage]

namespace Scan

/-- Below the root a live directory of two clusters with another one in it, a deleted directory
with one in it, and a live file. -/
def nested : Source :=
  Small.source [0, 0, Small.chainEnd, 4, Small.chainEnd, 0, 0, Small.chainEnd, 0]
    [Small.slot 0x41 0x10 3 0 ++ Small.slot 0xE5 0x10 5 0 ++ Small.slot 0x42 0x20 8 100,
      (List.replicate 16 (Small.slot 0x43 0x20 0 0)).flatten, Small.slot 0x44 0x10 7 0,
      Small.slot 0x45 0x10 6 0 ++ Small.slot 0xE5 0x20 8 10, Small.slot 0x46 0x20 8 10, [], []]

theorem ofRoot_eq_listing_nested :
    (nested.volume (Small.geometry 7)).WellFormed 2
        ((nested.volume (Small.geometry 7)).folders 3 (.root 2)) ∧
      ∃ scan, ((ofRoot (Small.geometry 7) 2 2 2).run nested
          (FatTable.empty (Small.geometry 7)) []).1 = .ok scan ∧
        scan.entries =
          Finding.number 1 ((nested.volume (Small.geometry 7)).listing 3 (.root 2)) ∧
        scan.directories = 5 ∧
        ((scan.entries.filter Entry.deleted).map fun entry =>
          (entry.slotCluster, entry.startCluster)) = [(2, 5), (5, 6), (5, 8), (6, 8)] := by
  have wellFormed : (nested.volume (Small.geometry 7)).WellFormed 2
      ((nested.volume (Small.geometry 7)).folders 3 (.root 2)) := by
    rw [nested, Small.source, Source.volume_ofImage]
    decide +kernel
  have count : ((nested.volume (Small.geometry 7)).folders 3 (.root 2)).length = 5 := by
    rw [nested, Small.source, Source.volume_ofImage]
    decide +kernel
  obtain ⟨scan, answered, entries, directories, -⟩ := ofRoot_eq_listing wellFormed
  refine ⟨wellFormed, scan, answered, entries, directories.trans count, ?_⟩
  rw [entries, nested, Small.source, Source.volume_ofImage]
  decide +kernel

end Scan

end Undelete
