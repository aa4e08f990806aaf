import Mathlib.Data.List.Forall2
import Undelete.Proofs.Directory.Damaged
import Undelete.Proofs.Directory.Items

/-!
A scan gives back what was written into a directory. A listing goes through all clusters of its
directory, unless one of them belongs to another listing, and the entries of a directory are those
of its own listing.
-/

namespace Undelete

/-- Clusters hold whole slots. -/
theorem Geometry.Regular.slotSize_dvd {g : Geometry} (regular : g.Regular) :
    slotSize ∣ g.clusterSize := by
  have sectors : ∀ size ∈ BootSector.sectorSizes, slotSize ∣ size := by decide
  exact Nat.dvd_mul_right_of_dvd (sectors _ regular.sectorSize) _

namespace Directory

variable {source : Source} {g : Geometry}

/-- A scan reads all that can be read of a directory, unless it has visited some of that. -/
theorem pagesAfter_whole {clusters : List Nat} (nodup : clusters.Nodup)
    (visited : Std.TreeSet Nat) :
    (pagesAfter source g clusters visited).1 = pagesOf source g clusters ∨
      ∃ page ∈ pagesOf source g clusters, page.1 ∈ visited ∧
        page.1 ∉ (pagesAfter source g clusters visited).1.map Prod.fst := by
  rw [pagesAfter_eq_takeWhile nodup]
  by_cases all : ∀ page ∈ pagesOf source g clusters, page.1 ∉ visited
  · exact .inl (List.takeWhile_eq_self_iff.mpr (by simpa using all))
  · push Not at all
    obtain ⟨page, member, known⟩ := all
    refine .inr ⟨page, member, known, fun taken => ?_⟩
    obtain ⟨other, kept, same⟩ := List.mem_map.mp taken
    have new : other.1 ∉ visited := by simpa using List.mem_takeWhile_imp kept
    exact new (same ▸ known)

end Directory

namespace Scan

open Directory

variable {source : Source} {g : Geometry} {maxDepth limit start : Nat} {scan : Scan}

/-- Every listing begins what its directory has, and has all that can be read of it unless a
cluster of that belongs to another listing. -/
def Followed (source : Source) (g : Geometry) (limit : Nat) (scan : Scan) : Prop :=
  ∀ listing ∈ scan.listings, ∃ clusters,
    clustersOf source g limit listing.directory listing.inDeleted = .ok clusters ∧
    listing.clusters <+: clusters ∧
    (listing.clusters = (pagesOf source g clusters).map Prod.fst ∨
      ∃ cluster ∈ clusters, cluster ∉ listing.clusters ∧
        ∃ other ∈ scan.listings, cluster ∈ other.clusters)

theorem nodup_clustersOf {directory : Nat} {inDeleted : Bool} {clusters : List Nat}
    (chain : clustersOf source g limit directory inDeleted = .ok clusters) : clusters.Nodup := by
  cases inDeleted with
  | true =>
    cases chain
    exact List.nodup_singleton _
  | false => exact Geometry.nodup_liveChain chain

theorem followed_listed {directory : Nat} {inDeleted : Bool} {clusters : List Nat}
    (chain : clustersOf source g limit directory inDeleted = .ok clusters)
    (orderly : Orderly source g scan) (followed : Followed source g limit scan) :
    Followed source g limit (listed source g directory inDeleted clusters scan).1 := by
  have nodup := nodup_clustersOf chain
  have extended : Extends scan (listed source g directory inDeleted clusters scan).1 :=
    extends_listed directory inDeleted clusters scan
  intro listing member
  have known := member
  rw [listed_eq, List.mem_append, List.mem_singleton] at known
  rcases known with old | rfl
  · obtain ⟨clusters', chain', before, whole | ⟨cluster, here, missed, other, known, taken⟩⟩ :=
      followed listing old
    · exact ⟨clusters', chain', before, .inl whole⟩
    · exact ⟨clusters', chain', before, .inr ⟨cluster, here, missed, other,
        extended.listings.subset known, taken⟩⟩
  · refine ⟨clusters, chain, clusters_pagesAfter_isPrefix nodup _, ?_⟩
    rcases @pagesAfter_whole source g clusters nodup scan.visited with
      whole | ⟨page, readable, visited, missed⟩
    · exact .inl (congrArg (List.map Prod.fst) whole)
    -- A visited cluster that can be read belongs to a listing.
    · have here : page.1 ∈ clusters :=
        (clusters_pagesOf_isPrefix clusters).subset (List.mem_map_of_mem readable)
      rcases orderly.origin page.1 visited with taken | ⟨failure, failed⟩
      · obtain ⟨other, known, taken⟩ := List.mem_flatMap.mp taken
        exact .inr ⟨page.1, here, missed, other, extended.listings.subset known, taken⟩
      · rw [contents_pagesOf readable] at failed
        cases failed

theorem followed_of_ofRoot
    (answered : (ofRoot g maxDepth limit start).answer source g = .ok scan) :
    Followed source g limit scan := by
  have steady : Steady source g limit
      (fun scan => Orderly source g scan ∧ Followed source g limit scan) fun _ _ _ => True :=
    { kept := fun _ _ => trivial
      listed := fun chain ⟨orderly, followed⟩ _ =>
        ⟨orderly_listed orderly _ _ _, followed_listed chain orderly followed⟩
      children := fun _ _ _ _ => trivial }
  exact (steady.tree ⟨orderly_empty, fun _ none => nomatch none⟩ trivial answered).2

end Scan

namespace Small

/-- A short slot of a file whose name is one byte. -/
def shortSlot (name attributes : UInt8) (cluster size : Nat) : ShortSlot :=
  { name := name :: List.replicate 7 0x20, extension := List.replicate 3 0x20, attributes
    caseFlags := 0, createTenths := 0, createTime := 0, createDate := 0, accessDate := 0
    clusterHigh := 0, writeTime := 0, writeDate := 0, clusterLow := cluster, fileSize := size }

end Small

namespace Scan

/-- Fourteen files, one of whose names lies across two clusters, and a deleted one. -/
def filedItems : List Item :=
  List.replicate 13 ⟨Small.shortSlot 0x05 0x20 5 9, none, false⟩ ++
    [⟨Small.shortSlot 0x44 0x20 6 7, some "Brief an 💾 und an Grete.txt", false⟩,
      ⟨Small.shortSlot 0x45 0x20 7 8, some "Dreizehn.txt\u00e4", true⟩]

def filedSlots : Bytes := (filedItems.flatMap Item.slots).flatten

/-- Below the root a directory of two clusters. -/
def filed : Source :=
  Small.source [0, 0, Small.chainEnd, 4, Small.chainEnd]
    [Small.slot 0x41 0x10 3 0, filedSlots.take 512, filedSlots.drop 512]

/-- Seventeen files, of which the last one lies in the second cluster. -/
def joinedItems : List Item :=
  List.replicate 16 ⟨Small.shortSlot 0x43 0x20 5 9, none, false⟩ ++
    [⟨Small.shortSlot 0x42 0x20 5 9, none, false⟩]

def joinedData (cluster : Nat) : Bytes :=
  Small.sector (if cluster = 3 then ((joinedItems.take 16).flatMap Item.slots).flatten
    else ((joinedItems.drop 16).flatMap Item.slots).flatten)

/-- Below the root a directory of two clusters, and one that begins in the second of these. -/
def joined : Source :=
  Small.source [0, 0, Small.chainEnd, 4, Small.chainEnd]
    [Small.slot 0x41 0x10 3 0 ++ Small.slot 0x42 0x10 4 0, joinedData 3, joinedData 4]

end Scan

end Undelete
