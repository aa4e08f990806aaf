import Undelete.Proofs.Directory.Alike
import Undelete.Proofs.Directory.Traced
import Undelete.Proofs.Directory.Written
import Undelete.Proofs.Recovery.Overwriting

/-!
The clusters of directories in the ledger of a pass. The walk along the chain of a directory's
entry takes the clusters that the scan follows, so that what was read of a directory is claimed by
the entry that names it and is not given away.
-/

namespace Undelete

namespace Geometry

variable {g : Geometry} {source : Source}

/-- One step along a live chain, with the FAT entry read from the source. -/
theorem chainFrom_answer (limit : Nat) (seen : Std.TreeSet Nat) (trail : List Nat)
    (current : Nat) :
    (g.chainFrom (limit + 1) seen trail current).answer source g =
      if g.Valid current ∧ current ∉ seen then
        match source.fatEntry g current with
        | .error failure => .error failure
        | .ok (.next next) =>
          (g.chainFrom limit (seen.insert current) (current :: trail) next).answer source g
        | .ok _ => .ok (current :: trail).reverse
      else .ok trail.reverse := by
  rw [chainFrom]
  split
  · rw [Probe.answer_bind, Probe.answer_entryOf]
    cases source.fatEntry g current with
    | error failure => rfl
    | ok entry => cases entry <;> rfl
  · rfl

theorem chainFrom_of_invalid (limit : Nat) (seen : Std.TreeSet Nat) (trail : List Nat)
    {current : Nat} (invalid : ¬ g.Valid current) :
    (g.chainFrom limit seen trail current).answer source g = .ok trail.reverse := by
  cases limit with
  | zero => rfl
  | succ limit => rw [chainFrom_answer, if_neg fun onward => invalid onward.1]

end Geometry

namespace Walker

variable {g : Geometry} {source : Source} {fileId expected : Nat} {clusters : List Nat}

/-- From a valid cluster on, a walk that expects no more than one cluster takes those of the live
chain. A FAT entry that is free ends both, because no cluster is expected behind the first. -/
theorem clusters_follow (walker : Walker) (few : expected ≤ 1) (spare : Nat)
    (seen : Std.TreeSet Nat) (trail : List Nat) (inferred : Nat) {current : Nat}
    (valid : g.Valid current)
    (answered : (g.chainFrom (spare + 1) seen trail current).answer source g = .ok clusters) :
    ((walker.follow g fileId expected spare seen trail inferred current).answer source
      g).clusters = clusters := by
  induction spare using Nat.strongRecOn generalizing seen trail inferred current with
  | ind spare ih =>
    rw [Geometry.chainFrom_answer] at answered
    rw [follow_answer]
    by_cases known : current ∈ seen
    · rw [if_neg fun onward => onward.2 known] at answered
      cases answered
      rw [if_pos known]
    rw [if_pos ⟨valid, known⟩] at answered
    rw [if_neg known]
    cases held : source.fatEntry g current with
    | error failure =>
      rw [held] at answered
      cases answered
    | ok entry =>
      rw [held] at answered
      cases entry with
      | next next =>
        have later : (g.chainFrom spare (seen.insert current) (current :: trail) next).answer
            source g = .ok clusters := answered
        simp only [link]
        by_cases onward : g.Valid next
        · simp only [onward, not_true, if_false]
          cases spare with
          | zero =>
            cases later
            rfl
          | succ spare => exact ih spare (Nat.lt_succ_self spare) _ _ _ onward later
        · rw [Geometry.chainFrom_of_invalid _ _ _ onward] at later
          cases later
          simp only [onward, not_false_eq_true, if_true]
      | free =>
        cases answered
        have taken : expected ≤ trail.length + 1 := by omega
        cases contiguous : walker.contiguous <;> simp [link, taken, contiguous]
      | endOfChain | bad | reserved =>
        cases answered
        rfl

/-- The walk for a directory takes exactly the clusters of its live chain. -/
theorem clusters_walkFrom (walker : Walker) (fileId : Nat) {start limit : Nat} (some : 1 ≤ limit)
    (answered : (g.liveChain start limit).answer source g = .ok clusters) :
    ((walker.walkFrom g fileId start 1 limit).answer source g).clusters = clusters := by
  obtain ⟨spare, rfl⟩ := Nat.exists_eq_add_of_le' some
  by_cases valid : g.Valid start
  · rw [walkFrom, if_pos valid]
    exact clusters_follow walker (Nat.le_refl 1) spare ∅ [] 0 valid answered
  · rw [Geometry.liveChain, Geometry.chainFrom_of_invalid _ _ _ valid] at answered
    cases answered
    rw [walkFrom_of_invalid walker source fileId 1 _ valid]
    rfl

end Walker

namespace Pass

variable {config : Config} {g : Geometry} {source : Source} {found : Survey} {entry : Entry}
  {cluster : Nat}

/-- A directory's chain goes as far as its live chain, over no cluster if the cap is zero. -/
theorem mem_chainOf_of_liveChain (isDirectory : entry.isDirectory = true) {clusters : List Nat}
    (answered : (g.liveChain entry.startCluster config.maxDirectoryClusters).answer source g =
      .ok clusters) (member : cluster ∈ clusters) :
    cluster ∈ (chainOf config g source entry).clusters := by
  have some : 1 ≤ config.maxDirectoryClusters := by
    by_contra none
    have zero : config.maxDirectoryClusters = 0 := by omega
    rw [zero] at answered
    cases answered
    cases member
  rw [chainOf, Walker.walk, if_pos isDirectory]
  exact (config.walker.clusters_walkFrom entry.fileId some answered) ▸ member

theorem start_mem_chainOf (isDirectory : entry.isDirectory = true)
    (valid : g.Valid entry.startCluster) :
    entry.startCluster ∈ (chainOf config g source entry).clusters := by
  rw [chainOf, Walker.walk, if_pos isDirectory]
  exact List.mem_of_head? (Walker.walkFrom_walked config.walker g source entry.fileId 1
    config.walker.directoryLimit valid).first

/-- The ledger has the claims of an entry on the clusters of its chain. -/
theorem claimed_of_entry (surveyed : survey config g source = .ok found)
    (few : found.scan.entries.length < UInt32.size) (known : entry ∈ found.scan.entries)
    (place : cluster ∈ (chainOf config g source entry).clusters) :
    ∃ claim ∈ (ledgerOf g found.root found.chains).claimsFor cluster,
      claim.fileId = entry.fileId ∧ claim.deleted = entry.deleted := by
  obtain ⟨record, member, here, fileId, -, deleted⟩ := exists_claim_entry surveyed known place
  refine ⟨record, ?_, fileId, deleted⟩
  rw [claimsFor_ledgerOf surveyed few]
  exact List.mem_filter.mpr ⟨member, decide_eq_true here⟩

theorem claimed_of_root (surveyed : survey config g source = .ok found)
    (few : found.scan.entries.length < UInt32.size) (place : cluster ∈ found.root) :
    ∃ claim ∈ (ledgerOf g found.root found.chains).claimsFor cluster,
      claim.fileId = Ledger.rootId ∧ claim.deleted = false := by
  obtain ⟨record, member, here, told⟩ := exists_claim_root (g := g) place
  refine ⟨record, ?_, told⟩
  rw [claimsFor_ledgerOf surveyed few]
  exact List.mem_filter.mpr ⟨member, decide_eq_true here⟩

/-- Who has claimed a cluster that was read of a directory. A live directory is the root or has an
entry, and that claims the cluster as live. Of a deleted directory only the first cluster is read,
and every entry that names it claims it. -/
structure Kept (g : Geometry) (found : Survey) (listing : Listing) (cluster : Nat) : Prop where
  live : listing.inDeleted = false →
    ∃ claim ∈ (ledgerOf g found.root found.chains).claimsFor cluster, claim.deleted = false ∧
      (listing.directory = g.rootCluster ∧ claim.fileId = Ledger.rootId ∨
        ∃ entry ∈ found.scan.entries, entry.isDirectory = true ∧ entry.deleted = false ∧
          entry.startCluster = listing.directory ∧ claim.fileId = entry.fileId)
  deleted : listing.inDeleted = true →
    cluster = listing.directory ∧
      (∃ entry ∈ found.scan.entries, entry.isDirectory = true ∧ entry.deleted = true ∧
        entry.startCluster = cluster) ∧
      ∀ entry ∈ found.scan.entries, entry.isDirectory = true → entry.startCluster = cluster →
        ∃ claim ∈ (ledgerOf g found.root found.chains).claimsFor cluster,
          claim.fileId = entry.fileId ∧ claim.deleted = entry.deleted

theorem kept_of_mem (surveyed : survey config g source = .ok found)
    (few : found.scan.entries.length < UInt32.size) {listing : Listing}
    (member : listing ∈ found.scan.listings) (here : cluster ∈ listing.clusters) :
    Kept g found listing cluster := by
  obtain ⟨scanned, root, -⟩ := survey_eq surveyed
  obtain ⟨named, only⟩ := Scan.allNamed_of_ofRoot scanned listing member
  constructor
  · intro alive
    obtain ⟨clusters, chain, read, -⟩ := Scan.followed_of_ofRoot scanned listing member
    rw [alive] at named chain
    have followed : (g.liveChain listing.directory config.maxDirectoryClusters).answer source g =
      .ok clusters := chain
    rcases named with first |
      ⟨entry, known, live, isDirectory, (start : entry.startCluster = listing.directory)⟩
    · obtain ⟨start, -⟩ := Prod.mk.inj first
      rw [start, root] at followed
      cases followed
      obtain ⟨claim, claimed, fileId, live⟩ := claimed_of_root surveyed few (read.subset here)
      exact ⟨claim, claimed, live, .inl ⟨start, fileId⟩⟩
    · rw [← start] at followed
      obtain ⟨claim, claimed, fileId, deleted⟩ := claimed_of_entry surveyed few known
        (mem_chainOf_of_liveChain isDirectory followed (read.subset here))
      exact ⟨claim, claimed, deleted.trans live,
        .inr ⟨entry, known, isDirectory, live, start, fileId⟩⟩
  · intro dead
    obtain rfl := only dead cluster here
    rw [dead] at named
    obtain ⟨scan', -, abreast⟩ := Scan.abreast_of_ofRoot (.refl source g) scanned
    have valid := abreast.valid listing member _ here
    refine ⟨rfl, ?_, ?_⟩
    · rcases named with first | ⟨entry, known, deleted, isDirectory, start⟩
      · cases (Prod.mk.inj first).2
      · exact ⟨entry, known, isDirectory, deleted, start⟩
    · intro entry known isDirectory start
      rw [← start] at valid ⊢
      exact claimed_of_entry surveyed few known (start_mem_chainOf isDirectory valid)

/-- The scan and the walks of a pass agree on directories. The walk for a directory takes the
clusters of its live chain, and every cluster that was read of a directory is claimed for it. -/
theorem run_claims_directories [Digests] :
    (∀ (source : Source) (g : Geometry) (walker : Walker) (fileId start limit : Nat)
        (clusters : List Nat), 1 ≤ limit →
      ((g.liveChain start limit).run source (.empty g) []).1 = .ok clusters →
      ((walker.walkFrom g fileId start 1 limit).run source (.empty g) []).1.clusters = clusters) ∧
    ∀ {ω : Type} [Output ω] (config : Config) (partition : Nat) (g : Geometry)
        (before after : Run ω) (result : PassResult),
      run config partition g before = (.ok result, after) → result.entries < UInt32.size →
      ∃ found, survey config g before.source = .ok found ∧
        ∀ listing ∈ found.scan.listings, ∀ cluster ∈ listing.clusters,
          Kept g found listing cluster := by
  constructor
  · intro source g walker fileId start limit clusters some answered
    rw [Probe.run_empty] at answered ⊢
    exact walker.clusters_walkFrom fileId some answered
  · intro ω _ config partition g before after result ok few
    obtain ⟨found, surveyed, count, -⟩ := run_ok ok
    rw [count] at few
    exact ⟨found, surveyed, fun listing member cluster here => kept_of_mem surveyed few member here⟩

/-- A root directory with a live directory in clusters 3 and 4 and a deleted one in cluster 5. -/
def shelved : Source :=
  Small.source [0, 0, Small.chainEnd, 4, Small.chainEnd, 0]
    [Small.slot 0x44 0x10 3 0 ++ Small.slot 0xE5 0x10 5 0,
      (List.replicate 16 (Small.slot 0x41 0x20 0 0)).flatten, Small.slot 0x42 0x20 0 0,
      Small.slot 0x43 0x20 0 0]

theorem run_claims_directories_shelved :
    (((Small.geometry 4).liveChain 3 4096).run shelved (.empty (Small.geometry 4)) []).1 =
        .ok [3, 4] ∧
      ((({ } : Walker).walkFrom (Small.geometry 4) 1 3 1 4096).run shelved
        (.empty (Small.geometry 4)) []).1.clusters = [3, 4] ∧
      ∃ result after found,
        run {} 0 (Small.geometry 4) ⟨shelved, MemoryOutput.empty, []⟩ = (.ok result, after) ∧
        result.entries < UInt32.size ∧ survey {} (Small.geometry 4) shelved = .ok found ∧
        found.scan.listings = [⟨2, false, [2]⟩, ⟨3, false, [3, 4]⟩, ⟨5, true, [5]⟩] ∧
        Kept (Small.geometry 4) found ⟨3, false, [3, 4]⟩ 4 ∧
        Kept (Small.geometry 4) found ⟨5, true, [5]⟩ 5 := by
  obtain ⟨walks, claims⟩ := run_claims_directories
  obtain ⟨clusters, answered, rfl⟩ : ∃ clusters,
      ((Small.geometry 4).liveChain 3 4096).answer shelved (Small.geometry 4) = .ok clusters ∧
        clusters = [3, 4] := by
    rw [shelved, Small.source, Probe.answer_ofImage]
    exact exists_ok (by decide +kernel)
  rw [← Probe.run_empty _ _ _ []] at answered
  refine ⟨answered, walks shelved (Small.geometry 4) {} 1 3 4096 [3, 4] (by decide) answered, ?_⟩
  obtain ⟨found, surveyed, count, listings⟩ : ∃ found,
      survey {} (Small.geometry 4) shelved = .ok found ∧ found.scan.entries.length = 20 ∧
        found.scan.listings = [⟨2, false, [2]⟩, ⟨3, false, [3, 4]⟩, ⟨5, true, [5]⟩] := by
    apply exists_ok
    simp only [survey, chainOf, shelved, Small.source, Probe.answer_ofImage]
    decide +kernel
  have small : found.scan.entries.length < UInt32.size := by
    rw [count]
    decide
  obtain ⟨result, after, ok, -⟩ := run_memory surveyed small 0 []
  have few : result.entries < UInt32.size := by
    obtain ⟨found', surveyed', entries, -⟩ := run_ok ok
    cases surveyed.symm.trans surveyed'
    rwa [entries]
  obtain ⟨found', surveyed', kept⟩ := claims {} 0 (Small.geometry 4) _ after result ok few
  cases surveyed.symm.trans surveyed'
  refine ⟨result, after, found, ok, few, surveyed, listings, ?_, ?_⟩
  · exact kept _ (by rw [listings]; decide) 4 (by decide)
  · exact kept _ (by rw [listings]; decide) 5 (by decide)

end Pass

end Undelete
