import Undelete.Proofs.Chain.Ledger
import Undelete.Proofs.Chain.Walk
import Undelete.Proofs.Directory.Numbering
import Undelete.Recovery.Pass

/-!
What a pass knows before it recovers anything: the scan, the clusters of the root directory and
the chain of every entry. While file numbers do not wrap, a cluster of a candidate's chain is
problematic from the start when the root directory, a live entry, or a deleted entry found later
claims it too.
-/

namespace Undelete

theorem Probe.answer_mapM {α β : Type} (source : Source) (g : Geometry) (work : α → Probe β)
    (items : List α) :
    (items.mapM work).answer source g = items.map fun item => (work item).answer source g := by
  have loop (done : List β) : (List.mapM.loop work items done).answer source g =
      done.reverse ++ items.map fun item => (work item).answer source g := by
    induction items generalizing done with
    | nil => simp [List.mapM.loop]
    | cons item rest ih => simp [List.mapM.loop, ih]
  exact loop []

/-- What a pass has found when all chains have been walked. -/
structure Survey where
  scan : Scan
  /-- The clusters of the root directory. -/
  root : List Nat
  chains : List (Entry × Chain)

theorem Config.deleted_of_selects {config : Config} {entry : Entry}
    (selected : config.selects entry = true) :
    entry.deleted = true ∧ entry.isDirectory = false := by
  simp only [selects, Entry.isCandidate, Bool.and_eq_true, Bool.not_eq_true'] at selected
  exact selected.1

namespace Pass

/-- The chain of an entry with the answers of a source. -/
def chainOf (config : Config) (g : Geometry) (source : Source) (entry : Entry) : Chain :=
  (config.walker.walk g entry).answer source g

def survey (config : Config) (g : Geometry) (source : Source) : Except Failure Survey := do
  let scan ← (Scan.ofRoot g config.maxDirectoryDepth config.maxDirectoryClusters
    g.rootCluster).answer source g
  let root ← (g.liveChain g.rootCluster config.maxDirectoryClusters).answer source g
  pure ⟨scan, root, scan.entries.map fun entry => (entry, chainOf config g source entry)⟩

/-- The candidates that pass the filters, with their analyzed chains. -/
def plans (config : Config) (g : Geometry) (found : Survey) : List Plan :=
  (found.chains.filter fun (entry, _) => config.selects entry).map fun (entry, chain) =>
    planOf config g (ledgerOf g found.root found.chains) entry chain

variable {config : Config} {g : Geometry} {source : Source} {found : Survey}

theorem survey_eq (surveyed : survey config g source = .ok found) :
    (Scan.ofRoot g config.maxDirectoryDepth config.maxDirectoryClusters
        g.rootCluster).answer source g = .ok found.scan ∧
      (g.liveChain g.rootCluster config.maxDirectoryClusters).answer source g = .ok found.root ∧
      found.chains =
        found.scan.entries.map fun entry => (entry, chainOf config g source entry) := by
  unfold survey at surveyed
  cases scanned : (Scan.ofRoot g config.maxDirectoryDepth config.maxDirectoryClusters
      g.rootCluster).answer source g with
  | error failure => simp [scanned, bind, Except.bind] at surveyed
  | ok scan =>
    cases walked : (g.liveChain g.rootCluster config.maxDirectoryClusters).answer source g with
    | error failure => simp [scanned, walked, bind, Except.bind] at surveyed
    | ok root =>
      simp only [scanned, walked, bind, Except.bind, pure, Except.pure,
        Except.ok.injEq] at surveyed
      subst surveyed
      exact ⟨rfl, rfl, rfl⟩

theorem survey_tidy (surveyed : survey config g source = .ok found) : found.scan.Tidy :=
  Scan.tidy_of_ofRoot (survey_eq surveyed).1

theorem fileId_chainOf (entry : Entry) : (chainOf config g source entry).fileId = entry.fileId := by
  unfold chainOf Walker.walk
  split
  · exact Walker.fileId_walkFrom ..
  · exact Walker.fileId_walkFrom ..

theorem nodup_chainOf (entry : Entry) : (chainOf config g source entry).clusters.Nodup := by
  unfold chainOf Walker.walk
  split
  · exact Walker.nodup_walkFrom ..
  · exact Walker.nodup_walkFrom ..

theorem valid_chainOf (entry : Entry) :
    ∀ cluster ∈ (chainOf config g source entry).clusters, g.Valid cluster := by
  unfold chainOf Walker.walk
  split
  · exact Walker.valid_walkFrom _ _ _ _ _ _ _
  · exact Walker.valid_walkFrom _ _ _ _ _ _ _

theorem plans_eq (surveyed : survey config g source = .ok found) :
    plans config g found = (found.scan.entries.filter config.selects).map fun entry =>
      planOf config g (ledgerOf g found.root found.chains) entry
        (chainOf config g source entry) := by
  rw [plans, (survey_eq surveyed).2.2, List.filter_map, List.map_map]
  rfl

theorem mem_plans (surveyed : survey config g source = .ok found) {plan : Plan} :
    plan ∈ plans config g found ↔ ∃ entry ∈ found.scan.entries, config.selects entry = true ∧
      plan = planOf config g (ledgerOf g found.root found.chains) entry
        (chainOf config g source entry) := by
  rw [plans_eq surveyed, List.mem_map]
  constructor
  · rintro ⟨entry, member, rfl⟩
    obtain ⟨known, selected⟩ := List.mem_filter.mp member
    exact ⟨entry, known, selected, rfl⟩
  · rintro ⟨entry, known, selected, rfl⟩
    exact ⟨entry, List.mem_filter.mpr ⟨known, selected⟩, rfl⟩

theorem plans_ascending (surveyed : survey config g source = .ok found) :
    (plans config g found).Pairwise fun earlier later =>
      earlier.entry.ordinal < later.entry.ordinal := by
  rw [plans_eq surveyed, List.pairwise_map]
  exact (survey_tidy surveyed).numbered.ascending.filter _

/-- Whether a cluster is claimed by somebody who counts before the entry of a given ordinal. -/
def TakenFrom (config : Config) (g : Geometry) (source : Source) (found : Survey) (ordinal : Nat)
    (cluster : Nat) : Prop :=
  cluster ∈ found.root ∨ ∃ other ∈ found.scan.entries, other.ordinal ≠ ordinal ∧
    (other.deleted = false ∨ ordinal < other.ordinal) ∧
    cluster ∈ (chainOf config g source other).clusters

/-- What a live entry claims is taken from every candidate. -/
theorem takenFrom_of_live (surveyed : survey config g source = .ok found) {entry live : Entry}
    (known : entry ∈ found.scan.entries) (selected : config.selects entry = true)
    (known' : live ∈ found.scan.entries) (alive : live.deleted = false) {cluster : Nat}
    (place : cluster ∈ (chainOf config g source live).clusters) :
    TakenFrom config g source found entry.ordinal cluster := by
  refine .inr ⟨live, known', ?_, .inl alive, place⟩
  intro same
  have equal := (survey_tidy surveyed).numbered.eq_of_ordinal known' known same
  rw [equal, (Config.deleted_of_selects selected).1] at alive
  cases alive

/-- All claims of a pass, in their order. -/
def claims (g : Geometry) (found : Survey) : List Claim :=
  Claim.along Ledger.rootId 0 false g.clusterSize found.root ++
    found.chains.flatMap fun (entry, chain) =>
      Claim.along entry.fileId entry.ordinal entry.deleted g.clusterSize chain.clusters

theorem mem_claims (surveyed : survey config g source = .ok found) {record : Claim}
    (member : record ∈ claims g found) :
    record.cluster ∈ found.root ∧ record.fileId = 0 ∧ record.ordinal = 0 ∧
        record.deleted = false ∨
      ∃ entry ∈ found.scan.entries, record.cluster ∈ (chainOf config g source entry).clusters ∧
        record.fileId = entry.fileId ∧ record.ordinal = entry.ordinal ∧
        record.deleted = entry.deleted := by
  rcases List.mem_append.mp member with root | walked
  · exact .inl (Claim.of_mem_along root)
  · rw [(survey_eq surveyed).2.2, List.flatMap_map] at walked
    obtain ⟨entry, known, along⟩ := List.mem_flatMap.mp walked
    exact .inr ⟨entry, known, Claim.of_mem_along along⟩

theorem exists_claim_root {cluster : Nat} (place : cluster ∈ found.root) :
    ∃ record ∈ claims g found, record.cluster = cluster ∧ record.fileId = Ledger.rootId ∧
      record.deleted = false := by
  obtain ⟨record, member, here⟩ := Claim.exists_mem_along place
  obtain ⟨-, fileId, -, deleted⟩ := Claim.of_mem_along member
  exact ⟨record, List.mem_append_left _ member, here, fileId, deleted⟩

theorem exists_claim_entry (surveyed : survey config g source = .ok found) {entry : Entry}
    (known : entry ∈ found.scan.entries) {cluster : Nat}
    (place : cluster ∈ (chainOf config g source entry).clusters) :
    ∃ record ∈ claims g found, record.cluster = cluster ∧ record.fileId = entry.fileId ∧
      record.ordinal = entry.ordinal ∧ record.deleted = entry.deleted := by
  obtain ⟨record, member, here⟩ := Claim.exists_mem_along place
  obtain ⟨-, told⟩ := Claim.of_mem_along member
  refine ⟨record, List.mem_append_right _ ?_, here, told⟩
  rw [(survey_eq surveyed).2.2, List.flatMap_map]
  exact List.mem_flatMap.mpr ⟨entry, known, member⟩

theorem ledgerOf_eq (g : Geometry) (found : Survey) :
    ledgerOf g found.root found.chains = Ledger.empty.claimAll (claims g found) :=
  Ledger.claimAll_append ..

theorem consistent_claims (surveyed : survey config g source = .ok found)
    (few : found.scan.entries.length < UInt32.size) : Claim.Consistent (claims g found) := by
  have tidy := survey_tidy surveyed
  intro first member second member' same
  rcases mem_claims surveyed member with ⟨-, fileId, ordinal, deleted⟩ |
    ⟨entry, known, -, fileId, ordinal, deleted⟩
  · rcases mem_claims surveyed member' with ⟨-, fileId', ordinal', deleted'⟩ |
      ⟨other, known', -, fileId', -, -⟩
    · exact ⟨ordinal.trans ordinal'.symm, deleted.trans deleted'.symm⟩
    · have := tidy.numbered.fileId_eq few known'
      omega
  · have number := tidy.numbered.fileId_eq few known
    rcases mem_claims surveyed member' with ⟨-, fileId', -, -⟩ |
      ⟨other, known', -, fileId', ordinal', deleted'⟩
    · omega
    · have number' := tidy.numbered.fileId_eq few known'
      have equal : entry = other := tidy.numbered.eq_of_ordinal known known' (by omega)
      subst equal
      exact ⟨ordinal.trans ordinal'.symm, deleted.trans deleted'.symm⟩

/-- While file numbers do not wrap, the ledger tells exactly who counts before a candidate. -/
theorem takersOf_ne_nil_iff (surveyed : survey config g source = .ok found)
    (few : found.scan.entries.length < UInt32.size) {entry : Entry}
    (known : entry ∈ found.scan.entries) (cluster : Nat) :
    (ledgerOf g found.root found.chains).takersOf entry.fileId entry.ordinal cluster ≠ [] ↔
      TakenFrom config g source found entry.ordinal cluster := by
  have numbered := (survey_tidy surveyed).numbered
  have number := numbered.fileId_eq few known
  rw [ledgerOf_eq, Ledger.takersOf_ne_nil_iff (consistent_claims surveyed few)]
  constructor
  · rintro ⟨record, member, here, supersedes⟩
    simp only [Claim.supersedes, Bool.and_eq_true, Bool.or_eq_true, decide_eq_true_eq,
      Bool.not_eq_true', ne_eq] at supersedes
    rcases mem_claims surveyed member with ⟨place, -⟩ |
      ⟨other, known', place, fileId, ordinal, deleted⟩
    · exact .inl (here ▸ place)
    · have number' := numbered.fileId_eq few known'
      refine .inr ⟨other, known', by omega, ?_, here ▸ place⟩
      rw [← deleted, ← ordinal]
      exact supersedes.2
  · rintro (root | ⟨other, known', different, before, place⟩)
    · obtain ⟨record, member, here, fileId, deleted⟩ := exists_claim_root root
      refine ⟨record, member, here, ?_⟩
      have other : ¬ 0 = entry.fileId := by omega
      simp [Claim.supersedes, fileId, deleted, Ledger.rootId, other]
    · obtain ⟨record, member, here, fileId, ordinal, deleted⟩ :=
        exists_claim_entry surveyed known' place
      have number' := numbered.fileId_eq few known'
      have distinct : ¬ other.fileId = entry.fileId := by omega
      refine ⟨record, member, here, ?_⟩
      simpa [Claim.supersedes, fileId, ordinal, deleted, distinct] using before

/-- A cluster that is taken from a candidate is problematic in its plan. -/
theorem problematic_of_taken (surveyed : survey config g source = .ok found)
    (few : found.scan.entries.length < UInt32.size) {entry : Entry}
    (known : entry ∈ found.scan.entries) {cluster : Nat}
    (member : cluster ∈ (chainOf config g source entry).clusters)
    (taken : TakenFrom config g source found entry.ordinal cluster) :
    cluster ∈ (planOf config g (ledgerOf g found.root found.chains) entry
      (chainOf config g source entry)).status.problematic := by
  have takers : (ledgerOf g found.root found.chains).takersOf
      (chainOf config g source entry).fileId entry.ordinal cluster ≠ [] := by
    rw [fileId_chainOf]
    exact (takersOf_ne_nil_iff surveyed few known cluster).mpr taken
  simp only [planOf, Status.ofAnalysis, Status.unclean, List.mem_filter, Bool.or_eq_true]
  exact ⟨member, .inr (Ledger.isOverwritten_iff.mpr ⟨member, takers⟩)⟩

end Pass

end Undelete
