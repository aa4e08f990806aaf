import Undelete.Proofs.Directory.Entering
import Undelete.Proofs.Volume.Small

/-!
Which live slots a scan finds as live. What decides is whether a deleted directory has been
listed with a cluster that the path to the slot crosses.
-/

namespace Undelete

namespace Scan

open Directory

variable {source : Source} {g : Geometry} {limit root maxDepth : Nat} {final : Scan}
  {path crossed : List Nat} {directory : Nat} {pair : PlacedSlot × ShortSlot}

/-- What the path to a slot crosses has been listed as live when the slot is found as live. -/
theorem liveListed_of_found (answered : (ofRoot g maxDepth limit root).answer source g = .ok final)
    (route : LivePath source g limit root path directory crossed)
    (apart : Unshared source g limit root maxDepth path directory)
    (live : pair ∈ liveSlots source g limit directory) {entry : Entry}
    (member : entry ∈ final.entries)
    (place : entry.place g.slotsPerCluster = pair.1.place g.slotsPerCluster)
    (alive : entry.deleted = false) :
    ∀ cluster ∈ crossed ++ lead (liveClusters source g limit directory) pair.1.cluster,
      final.LiveListed cluster := by
  have same : entry.slotCluster = pair.1.cluster := congrArg Prod.fst place
  obtain ⟨listing, listed, here, standing⟩ :=
    (orderly_of_ofRoot answered).standing entry member
  have traced : Traced source g limit root (fun other => other.length ≤ maxDepth) final := by
    refine (steady_traced _).tree ?_ (fun _ => ⟨[], ?_, [], .root, by simp⟩) answered
    · intro listing member
      cases member
    · rintro other ⟨-, short⟩
      rw [List.length_nil] at short
      omega
  obtain ⟨read, other, shallow, crossed', route', known⟩ :=
    traced listing listed (standing alive)
  rw [same] at here
  have front := read.trans (clusters_livePages_isPrefix listing.directory)
  have equal : other = path := by
    by_contra elsewhere
    exact apart other _ _ route' shallow elsewhere
      ((clusters_livePages_isPrefix directory).subset (cluster_of_mem_liveSlots live))
      (front.subset here)
  subst equal
  obtain ⟨rfl, rfl⟩ := route'.unique route
  intro cluster crosses
  rcases List.mem_append.mp crosses with earlier | led
  · exact known cluster earlier
  · rw [lead_of_isPrefix front here] at led
    exact ⟨listing, listed, standing alive, mem_of_mem_lead here led⟩

/-- A live slot of a directory that is reached through live entries, and that shares its clusters
with no other live directory, is found once and as live exactly if the scan has listed no deleted
directory on the way to it. Such a listing comes from a deleted entry that names the cluster. -/
theorem live_slot_found_iff
    (scanned : ((ofRoot g maxDepth limit root).run source (FatTable.empty g) []).1 = .ok final)
    (route : LivePath source g limit root path directory crossed) (shallow : path.length ≤ maxDepth)
    (apart : ∀ earlier directory' crossed', earlier <:+ path →
      LivePath source g limit root earlier directory' crossed' →
      Unshared source g limit root maxDepth earlier directory')
    (live : pair ∈ liveSlots source g limit directory) :
    ((∃ entry, (final.entries.filter fun other =>
        other.place g.slotsPerCluster = pair.1.place g.slotsPerCluster) = [entry] ∧
        entry.deleted = false) ↔
      ∀ cluster ∈ crossed ++ lead (liveClusters source g limit directory) pair.1.cluster,
        ¬ final.DeletedListed cluster) ∧
      ∀ cluster, final.DeletedListed cluster → final.DeletedNamed cluster := by
  rw [Probe.run_empty] at scanned
  have orderly := orderly_of_ofRoot scanned
  have alone := apart path directory crossed List.suffix_rfl route
  refine ⟨⟨?_, ?_⟩, fun cluster => deletedNamed_of_ofRoot scanned⟩
  · rintro ⟨entry, only, alive⟩ cluster crosses ⟨listing', member', dead, here'⟩
    have member : entry ∈ final.entries.filter _ := only ▸ List.mem_singleton_self entry
    obtain ⟨member, place⟩ := List.mem_filter.mp member
    obtain ⟨listing, listed, spared, here⟩ := liveListed_of_found scanned route alone live member
      (of_decide_eq_true place) alive cluster crosses
    rw [orderly.eq_of_mem listed member' here here', dead] at spared
    cases spared
  · intro clear
    obtain ⟨levels, scan, entering⟩ := entering_of_path scanned route shallow apart
      fun cluster member => clear cluster (List.mem_append_left _ member)
    obtain ⟨entry, member, place, alive⟩ := entering.finds alone live
      fun cluster member => clear cluster (List.mem_append_right _ member)
    refine ⟨entry, ?_, alive⟩
    rw [← place]
    exact orderly.filter_place member

/-- A volume whose root names a deleted directory and, behind it, a live one in cluster 3 that has
a live file. -/
def renamed (stale : Nat) : Source :=
  Small.source [0, 0, Small.chainEnd, Small.chainEnd]
    [Small.slot 0xE5 0x10 stale 0 ++ Small.slot 0x44 0x10 3 0, Small.slot 0x41 0x20 5 100, [], []]

theorem liveClusters_renamed : ∀ stale ∈ [3, 4],
    liveClusters (renamed stale) (Small.geometry 4) 4096 2 = [2] ∧
      liveClusters (renamed stale) (Small.geometry 4) 4096 3 = [3] := by
  simp only [liveClusters, renamed, Small.source, Probe.answer_ofImage]
  decide +kernel

theorem liveSlots_renamed : ∀ stale ∈ [3, 4],
    (liveSlots (renamed stale) (Small.geometry 4) 4096 2).map (traceOf false) =
        [⟨2, 1, 3, true, false⟩] ∧
      (liveSlots (renamed stale) (Small.geometry 4) 4096 3).map (traceOf false) =
        [⟨3, 0, 5, false, false⟩] := by
  intro stale either
  obtain ⟨root, inner⟩ := liveClusters_renamed stale either
  rw [liveSlots, liveSlots, livePages, livePages, root, inner]
  clear root inner
  revert stale
  simp only [pagesOf, slotsOf, renamed, Small.source, Source.read_ofImage]
  decide +kernel

theorem exists_liveSlot_renamed {stale : Nat} (either : stale ∈ [3, 4]) :
    ∃ pair, liveSlots (renamed stale) (Small.geometry 4) 4096 3 = [pair] ∧
      pair.1.cluster = 3 ∧ pair.1.index = 0 ∧ pair.2.isDirectory = false := by
  obtain ⟨-, inner⟩ := liveSlots_renamed stale either
  obtain ⟨pair, only, trace⟩ := List.map_eq_singleton_iff.mp inner
  exact ⟨pair, only, congrArg Trace.cluster trace, congrArg Trace.index trace,
    congrArg Trace.isDirectory trace⟩

theorem exists_directory_renamed {stale : Nat} (either : stale ∈ [3, 4]) :
    ∃ pair, liveSlots (renamed stale) (Small.geometry 4) 4096 2 = [pair] ∧
      pair.1.cluster = 2 ∧ pair.1.index = 1 ∧ pair.2.firstCluster = 3 ∧
      pair.2.isDirectory = true := by
  obtain ⟨root, -⟩ := liveSlots_renamed stale either
  obtain ⟨pair, only, trace⟩ := List.map_eq_singleton_iff.mp root
  exact ⟨pair, only, congrArg Trace.cluster trace, congrArg Trace.index trace,
    congrArg Trace.startCluster trace, congrArg Trace.isDirectory trace⟩

theorem livePath_renamed {stale : Nat} (either : stale ∈ [3, 4]) :
    LivePath (renamed stale) (Small.geometry 4) 4096 2 path directory crossed ↔
      (path = [] ∧ directory = 2 ∧ crossed = []) ∨
        (path = [1] ∧ directory = 3 ∧ crossed = [2]) := by
  obtain ⟨⟨placed, slot⟩, root, cluster, index, start, isDirectory⟩ :=
    exists_directory_renamed either
  obtain ⟨file, inner, -, -, regular⟩ := exists_liveSlot_renamed either
  obtain ⟨clusters, -⟩ := liveClusters_renamed stale either
  constructor
  · intro route
    induction route with
    | root => exact .inl ⟨rfl, rfl, rfl⟩
    | step route live named ih =>
      rcases ih with ⟨rfl, rfl, rfl⟩ | ⟨rfl, rfl, rfl⟩
      · rw [root, List.mem_singleton] at live
        cases live
        rw [index, start, cluster, clusters]
        exact .inr ⟨rfl, rfl, rfl⟩
      · rw [inner, List.mem_singleton] at live
        cases live
        rw [named] at regular
        cases regular
  · rintro (⟨rfl, rfl, rfl⟩ | ⟨rfl, rfl, rfl⟩)
    · exact .root
    · have live : (placed, slot) ∈ liveSlots (renamed stale) (Small.geometry 4) 4096 2 := by
        rw [root]
        exact List.mem_singleton_self _
      have onward := LivePath.step .root live isDirectory
      rwa [index, start, cluster, clusters] at onward

theorem unshared_renamed {stale : Nat} (either : stale ∈ [3, 4])
    (route : LivePath (renamed stale) (Small.geometry 4) 4096 2 path directory crossed) :
    Unshared (renamed stale) (Small.geometry 4) 4096 2 32 path directory := by
  intro other directory' crossed' route' _ different
  obtain ⟨root, inner⟩ := liveClusters_renamed stale either
  rcases (livePath_renamed either).mp route with ⟨rfl, rfl, -⟩ | ⟨rfl, rfl, -⟩ <;>
    rcases (livePath_renamed either).mp route' with ⟨rfl, rfl, -⟩ | ⟨rfl, rfl, -⟩
  · exact absurd rfl different
  · simp [root, inner]
  · simp [root, inner]
  · exact absurd rfl different

/-- A stale entry of another cluster leaves the live file as it is. -/
theorem live_slot_found_iff_renamed :
    ∃ scan, ((ofRoot (Small.geometry 4) 32 4096 2).run (renamed 4)
        (FatTable.empty (Small.geometry 4)) []).1 = .ok scan ∧
      ∃ pair ∈ liveSlots (renamed 4) (Small.geometry 4) 4096 3,
        pair.1.place (Small.geometry 4).slotsPerCluster = (3, 0) ∧
        ∃ entry, (scan.entries.filter fun other =>
          other.place (Small.geometry 4).slotsPerCluster =
            pair.1.place (Small.geometry 4).slotsPerCluster) = [entry] ∧ entry.deleted = false := by
  obtain ⟨scan, scanned, spared⟩ :
      ∃ scan, (ofRoot (Small.geometry 4) 32 4096 2).answer (renamed 4) (Small.geometry 4) =
          .ok scan ∧
        ∀ listing ∈ scan.listings, listing.inDeleted = true → 2 ∉ listing.clusters ∧
          3 ∉ listing.clusters := by
    apply exists_ok
    simp only [renamed, Small.source, Probe.answer_ofImage]
    decide +kernel
  have either : 4 ∈ [3, 4] := by decide
  obtain ⟨pair, only, cluster, index, -⟩ := exists_liveSlot_renamed either
  have live : pair ∈ liveSlots (renamed 4) (Small.geometry 4) 4096 3 := by
    rw [only]
    exact List.mem_singleton_self _
  rw [← Probe.run_empty] at scanned
  refine ⟨scan, scanned, pair, live, ?_, ?_⟩
  · rw [PlacedSlot.place, cluster, index]
    rfl
  · have route := (livePath_renamed either).mpr (.inr ⟨rfl, rfl, rfl⟩)
    apply (live_slot_found_iff scanned route (by decide)
      (fun _ _ _ _ => unshared_renamed either) live).1.mpr
    rw [(liveClusters_renamed 4 either).2, cluster]
    rintro other crosses ⟨listing, member, dead, here⟩
    obtain ⟨root, inside⟩ := spared listing member dead
    have either' : other = 2 ∨ other = 3 := by simpa [lead] using crosses
    rcases either' with rfl | rfl
    · exact root here
    · exact inside here

/-- A stale entry of the live directory's own cluster makes the live file a deleted one. -/
theorem deleted_renamed :
    ∃ scan, ((ofRoot (Small.geometry 4) 32 4096 2).run (renamed 3)
        (FatTable.empty (Small.geometry 4)) []).1 = .ok scan ∧
      LivePath (renamed 3) (Small.geometry 4) 4096 2 [1] 3 [2] ∧
      (∀ path directory crossed,
        LivePath (renamed 3) (Small.geometry 4) 4096 2 path directory crossed →
        Unshared (renamed 3) (Small.geometry 4) 4096 2 32 path directory) ∧
      ∃ pair ∈ liveSlots (renamed 3) (Small.geometry 4) 4096 3,
        pair.1.place (Small.geometry 4).slotsPerCluster = (3, 0) ∧
        ∃ entry, (scan.entries.filter fun other =>
          other.place (Small.geometry 4).slotsPerCluster = (3, 0)) = [entry] ∧
          entry.deleted = true := by
  obtain ⟨scan, scanned, found⟩ :
      ∃ scan, (ofRoot (Small.geometry 4) 32 4096 2).answer (renamed 3) (Small.geometry 4) =
          .ok scan ∧
        (scan.entries.filter fun other =>
          other.place (Small.geometry 4).slotsPerCluster = (3, 0)).map Entry.deleted = [true] := by
    apply exists_ok
    simp only [renamed, Small.source, Probe.answer_ofImage]
    decide +kernel
  have either : 3 ∈ [3, 4] := by decide
  obtain ⟨pair, only, cluster, index, -⟩ := exists_liveSlot_renamed either
  have live : pair ∈ liveSlots (renamed 3) (Small.geometry 4) 4096 3 := by
    rw [only]
    exact List.mem_singleton_self _
  obtain ⟨entry, alone, dead⟩ := List.map_eq_singleton_iff.mp found
  rw [← Probe.run_empty] at scanned
  refine ⟨scan, scanned, (livePath_renamed either).mpr (.inr ⟨rfl, rfl, rfl⟩),
    fun _ _ _ => unshared_renamed either, pair, live, ?_, entry, alone, dead⟩
  rw [PlacedSlot.place, cluster, index]
  rfl

end Scan

end Undelete
