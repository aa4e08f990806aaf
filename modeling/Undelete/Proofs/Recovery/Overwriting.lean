import Undelete.Proofs.Chain.Takers
import Undelete.Proofs.Directory.Pages
import Undelete.Proofs.Recovery.Memory
import Undelete.Proofs.Volume.Small

/-!
What the overwrites in a pass's statuses mean. A cluster of a candidate's chain is overwritten
exactly when the root directory, a live entry or a deleted entry found later claims it as well,
and its takers are all of these. The filters select candidates and decide nothing about them.
-/

namespace Undelete

namespace Pass

variable {config : Config} {g : Geometry} {source : Source} {found : Survey} {entry : Entry}

/-- Who claims a cluster and counts before the entry of a given ordinal: the root directory, then
the entries in the order of the scan. -/
def claimants (config : Config) (g : Geometry) (source : Source) (found : Survey)
    (ordinal cluster : Nat) : List Nat :=
  (if cluster ∈ found.root then [Ledger.rootId] else []) ++
    (found.scan.entries.filter fun other =>
      other.ordinal ≠ ordinal ∧ (other.deleted = false ∨ ordinal < other.ordinal) ∧
        cluster ∈ (chainOf config g source other).clusters).map Entry.fileId

/-- What an overwrite says about an entry, by the chains that the pass has walked. -/
structure Overwritten (config : Config) (g : Geometry) (source : Source) (found : Survey)
    (entry : Entry) (overwrite : Overwrite) : Prop where
  taken_iff : ∀ cluster ∈ (chainOf config g source entry).clusters,
    cluster ∈ overwrite.clusters ↔ TakenFrom config g source found entry.ordinal cluster
  ordered : overwrite.clusters.Sublist (chainOf config g source entry).clusters
  distinct : overwrite.clusters.Nodup
  keys : ∀ cluster, cluster ∈ overwrite.takers.map Prod.fst ↔ cluster ∈ overwrite.clusters
  keys_ascending : (overwrite.takers.map Prod.fst).Pairwise (· < ·)
  takers : ∀ pair ∈ overwrite.takers,
    pair.2 = claimants config g source found entry.ordinal pair.1 ∧ pair.2.Pairwise (· < ·)
  /-- A file without any clusters is taken to need one. -/
  share : ∃ lost, lost = ((chainOf config g source entry).clusters.take
      (max (g.clustersFor entry.size) 1)).countP (· ∈ overwrite.clusters) ∧
    lost ≤ max (g.clustersFor entry.size) 1 ∧
    overwrite.share = Number.clamp 0.0 1.0 (Number.ratio lost (max (g.clustersFor entry.size) 1))

theorem nodup_root (surveyed : survey config g source = .ok found) : found.root.Nodup :=
  Geometry.nodup_liveChain (survey_eq surveyed).2.1

theorem flatMap_singletons {α β : Type} (keep : α → Prop) [DecidablePred keep] (name : α → β)
    (items : List α) :
    (items.flatMap fun item => if keep item then [name item] else []) =
      (items.filter keep).map name := by
  induction items with
  | nil => rfl
  | cons item rest ih =>
    rw [List.flatMap_cons, ih]
    by_cases kept : keep item <;> simp [kept]

/-- While file numbers do not wrap, the claims on one cluster come from distinct claimants. -/
theorem distinct_claims (surveyed : survey config g source = .ok found)
    (few : found.scan.entries.length < UInt32.size) (cluster : Nat) :
    ((claims g found).filter (·.cluster = cluster)).Pairwise fun first second =>
      first.fileId ≠ second.fileId := by
  have numbered := (survey_tidy surveyed).numbered
  have alone {fileId ordinal : Nat} {deleted : Bool} {clusters : List Nat}
      (nodup : clusters.Nodup) :
      ((Claim.along fileId ordinal deleted g.clusterSize clusters).filter
        (·.cluster = cluster)).Pairwise fun first second => first.fileId ≠ second.fileId := by
    obtain ⟨offset, only⟩ := Claim.filter_along fileId ordinal deleted g.clusterSize nodup cluster
    rw [only]
    split <;> simp
  rw [claims, (survey_eq surveyed).2.2, List.flatMap_map, List.filter_append, List.filter_flatMap]
  refine List.pairwise_append.mpr ⟨alone (nodup_root surveyed), ?_, ?_⟩
  · refine List.pairwise_flatMap.mpr ⟨fun entry _ => alone (nodup_chainOf entry), ?_⟩
    refine numbered.ascending.imp_of_mem ?_
    intro earlier later known known' less first member second member'
    have number := (numbered.fileId_eq few known).1
    have number' := (numbered.fileId_eq few known').1
    have first := (Claim.of_mem_along (List.mem_filter.mp member).1).2.1
    have second := (Claim.of_mem_along (List.mem_filter.mp member').1).2.1
    omega
  · intro first member second member'
    obtain ⟨entry, known, here⟩ := List.mem_flatMap.mp member'
    have number := numbered.fileId_eq few known
    have first : first.fileId = 0 := (Claim.of_mem_along (List.mem_filter.mp member).1).2.1
    have second := (Claim.of_mem_along (List.mem_filter.mp here).1).2.1
    omega

/-- While file numbers do not wrap, the ledger keeps every claim. -/
theorem claimsFor_ledgerOf (surveyed : survey config g source = .ok found)
    (few : found.scan.entries.length < UInt32.size) (cluster : Nat) :
    (ledgerOf g found.root found.chains).claimsFor cluster =
      (claims g found).filter (·.cluster = cluster) := by
  rw [ledgerOf_eq, Ledger.claimsFor_claimAll, Ledger.claimsFor_empty]
  exact Claim.foldl_addFirst_of_distinct (distinct_claims surveyed few cluster)

/-- The ledger names all claimants that count, in the order of the scan. -/
theorem takersOf_eq_claimants (surveyed : survey config g source = .ok found)
    (few : found.scan.entries.length < UInt32.size) (known : entry ∈ found.scan.entries)
    (cluster : Nat) :
    (ledgerOf g found.root found.chains).takersOf entry.fileId entry.ordinal cluster =
      claimants config g source found entry.ordinal cluster := by
  have numbered := (survey_tidy surveyed).numbered
  have number := numbered.fileId_eq few known
  rw [Ledger.takersOf, claimsFor_ledgerOf surveyed few, claims, (survey_eq surveyed).2.2,
    List.flatMap_map, List.filter_append, List.filter_flatMap, List.filter_append, List.filter_flatMap,
    List.map_append, List.map_flatMap, claimants]
  congr 1
  · have root : Ledger.rootId ≠ entry.fileId := by
      rw [Ledger.rootId]
      omega
    rw [Claim.takers_along (nodup_root surveyed)]
    simp [root]
  · rw [← flatMap_singletons]
    apply List.flatMap_congr
    intro other known'
    have number' := numbered.fileId_eq few known'
    have same : other.fileId ≠ entry.fileId ↔ other.ordinal ≠ entry.ordinal := by omega
    simp only [Claim.takers_along (nodup_chainOf other), same]

/-- Claimants come in ascending order, which is the order of their ordinals. -/
theorem ascending_claimants (surveyed : survey config g source = .ok found)
    (few : found.scan.entries.length < UInt32.size) (ordinal cluster : Nat) :
    (claimants config g source found ordinal cluster).Pairwise (· < ·) := by
  have numbered := (survey_tidy surveyed).numbered
  refine List.pairwise_append.mpr ⟨?_, ?_, ?_⟩
  · split <;> simp
  · rw [List.pairwise_map]
    refine (numbered.ascending.imp_of_mem ?_).filter _
    intro earlier later known known' less
    rw [(numbered.fileId_eq few known).1, (numbered.fileId_eq few known').1]
    exact less
  · intro root member fileId member'
    obtain ⟨other, here, rfl⟩ := List.mem_map.mp member'
    have number := numbered.fileId_eq few (List.mem_filter.mp here).1
    have zero : root = 0 := by
      split at member
      · exact List.mem_singleton.mp member
      · cases member
    omega

theorem overwritten_of_ledger (surveyed : survey config g source = .ok found)
    (few : found.scan.entries.length < UInt32.size) (known : entry ∈ found.scan.entries) :
    Overwritten config g source found entry ((ledgerOf g found.root found.chains).overwrite
      (chainOf config g source entry) entry.ordinal (g.clustersFor entry.size)) := by
  have nodup : (chainOf config g source entry).clusters.Nodup := nodup_chainOf entry
  have sublist : ((ledgerOf g found.root found.chains).overwrite (chainOf config g source entry)
      entry.ordinal (g.clustersFor entry.size)).clusters.Sublist
        (chainOf config g source entry).clusters := by
    change (Ledger.lost ..).Sublist _
    rw [Ledger.lost_of_nodup nodup]
    exact List.filter_sublist
  constructor
  · intro cluster member
    have same : (chainOf config g source entry).fileId = entry.fileId := fileId_chainOf entry
    rw [← takersOf_ne_nil_iff surveyed few known cluster, ← same]
    exact Ledger.mem_lost.trans (and_iff_right member)
  · exact sublist
  · exact nodup.sublist sublist
  · intro cluster
    rw [Ledger.keys_overwrite]
    exact List.mem_mergeSort
  · exact Ledger.ascending_keys nodup
  · intro pair member
    rw [Ledger.mem_takers member, fileId_chainOf, takersOf_eq_claimants surveyed few known]
    exact ⟨rfl, ascending_claimants surveyed few entry.ordinal pair.1⟩
  · refine ⟨_, rfl, ?_, ?_⟩
    · exact Nat.le_trans List.countP_le_length (List.length_take_le _ _)
    · rw [← Ledger.lostCount_eq nodup]
      rfl

theorem overwrite_of_delivers {plan : Plan} {status : Status}
    (delivered : Delivers (verdict source config g plan) status) :
    status.overwrite = plan.status.overwrite := by
  rw [delivered.eq_update]

/-- Every status of a pass tells truly what its candidate has lost, and under any other filters
it tells the same. -/
theorem run_overwrites [Digests] {ω : Type} [Output ω] {partition : Nat} {before after : Run ω}
    {result : PassResult} (ok : run config partition g before = (.ok result, after))
    (few : result.entries < UInt32.size) :
    ∃ found, survey config g before.source = .ok found ∧
      List.Forall₂ (fun entry status => status.ordinal = entry.ordinal ∧
          Overwritten config g before.source found entry status.overwrite)
        (found.scan.entries.filter config.selects) result.statuses ∧
      ∀ {ω' : Type} [Output ω'] (targetCluster targetSize : Option Nat) (partition' : Nat)
        (before' after' : Run ω') (result' : PassResult), before'.source = before.source →
        run { config with targetCluster, targetSize } partition' g before' =
          (.ok result', after') →
        ∀ status ∈ result.statuses, ∀ status' ∈ result'.statuses,
          status'.ordinal = status.ordinal → status'.overwrite = status.overwrite := by
  obtain ⟨found, surveyed, count, reports⟩ := run_reports ok
  rw [count] at few
  refine ⟨found, surveyed, reports.imp ?_, ?_⟩
  · rintro entry status ⟨known, -, delivered⟩
    refine ⟨ordinal_of_delivers delivered, ?_⟩
    rw [overwrite_of_delivers delivered]
    exact overwritten_of_ledger surveyed few known
  · intro ω' _ targetCluster targetSize partition' before' after' result' same ok'
      status reported status' reported' ordinal
    obtain ⟨found', surveyed', -, reports'⟩ := run_reports ok'
    -- The survey does not look at the filters, so that both passes have the same one.
    have again : survey config g before.source = .ok found' := same ▸ surveyed'
    cases surveyed.symm.trans again
    obtain ⟨entry, -, known, -, delivered⟩ := exists_of_forall₂ reports.flip reported
    obtain ⟨entry', -, known', -, delivered'⟩ := exists_of_forall₂ reports'.flip reported'
    rw [ordinal_of_delivers delivered, ordinal_of_delivers delivered'] at ordinal
    cases (survey_tidy surveyed).numbered.eq_of_ordinal known' known ordinal
    rw [overwrite_of_delivers delivered, overwrite_of_delivers delivered', same]
    rfl

/-- A live file in cluster 4 among deleted files. The root directory and a later deleted file take
cluster 2 from the first one, and the live file and a later one cluster 4 from the second. -/
def contested : Source :=
  Small.source [0, 0, Small.chainEnd, 0, Small.chainEnd]
    [Small.slot 0xE5 0x20 2 100 ++ Small.slot 0xE5 0x20 3 1000 ++ Small.slot 0x41 0x20 4 100
      ++ Small.slot 0xE5 0x20 2 10 ++ Small.slot 0xE5 0x20 4 100, [1], [2], [], []]

theorem run_overwrites_contested :
    ∃ result after, run {} 0 (Small.geometry 5) ⟨contested, MemoryOutput.empty, []⟩ =
        (.ok result, after) ∧ result.entries < UInt32.size ∧
      ∃ found, survey {} (Small.geometry 5) contested = .ok found ∧
        (found.scan.entries.map fun entry =>
          (chainOf {} (Small.geometry 5) contested entry).clusters.map fun cluster =>
            (cluster, claimants {} (Small.geometry 5) contested found entry.ordinal cluster)) =
          [[(2, [0, 4])], [(3, []), (4, [3, 5])], [(4, [5])], [(2, [0])], [(4, [3])]] ∧
        List.Forall₂ (fun entry status => status.ordinal = entry.ordinal ∧
            Overwritten {} (Small.geometry 5) contested found entry status.overwrite)
          (found.scan.entries.filter (Config.selects {})) result.statuses := by
  obtain ⟨found, surveyed, count, claimed⟩ : ∃ found,
      survey {} (Small.geometry 5) contested = .ok found ∧ found.scan.entries.length = 5 ∧
        (found.scan.entries.map fun entry =>
          (chainOf {} (Small.geometry 5) contested entry).clusters.map fun cluster =>
            (cluster, claimants {} (Small.geometry 5) contested found entry.ordinal cluster)) =
          [[(2, [0, 4])], [(3, []), (4, [3, 5])], [(4, [5])], [(2, [0])], [(4, [3])]] := by
    apply exists_ok
    simp only [survey, claimants, chainOf, contested, Small.source, Probe.answer_ofImage]
    decide +kernel
  have small : found.scan.entries.length < UInt32.size := by
    rw [count]
    decide
  obtain ⟨result, after, ok, -⟩ := run_memory surveyed small 0 []
  have few : result.entries < UInt32.size := by
    obtain ⟨found', surveyed', entries, -⟩ := run_ok ok
    cases surveyed.symm.trans surveyed'
    rwa [entries]
  obtain ⟨found', surveyed', told, -⟩ := run_overwrites ok few
  cases surveyed.symm.trans surveyed'
  exact ⟨result, after, ok, few, found, surveyed, claimed, told⟩

end Pass

end Undelete
