import Undelete.Proofs.Chain.Contiguous
import Undelete.Proofs.Recovery.Covered
import Undelete.Proofs.Recovery.Memory
import Undelete.Proofs.Volume.Small

/-!
An intact deleted file is recovered byte for byte. Its FAT entries have been cleared, so that its
chain is inferred; the chain has no damage, nobody claims a cluster of it who counts before the
file, and every cluster can be read.
-/

namespace Undelete

namespace Pass

variable {config : Config} {g : Geometry} {source : Source}

/-- The shares of a file along clusters with known contents make up the start of the contents. -/
theorem flatMap_portions {data : Nat → Bytes} {size : Nat} (positive : 0 < g.clusterSize)
    (clusters : List Nat) (offset : Nat)
    (length : ∀ cluster ∈ clusters, (data cluster).length = g.clusterSize) :
    ((portions g size clusters offset).flatMap fun (cluster, share) => (data cluster).take share) =
      (clusters.flatMap data).take (size - offset) := by
  induction clusters generalizing offset with
  | nil => simp [portions]
  | cons cluster rest ih =>
    rw [portions_cons positive]
    split
    next past => simp [Nat.sub_eq_zero_of_le past]
    · have here := length cluster List.mem_cons_self
      have later := ih (offset + g.clusterSize) fun other member =>
        length other (List.mem_cons_of_mem _ member)
      rw [List.flatMap_cons, List.flatMap_cons, later, List.take_append, here]
      congr 1
      · rw [List.take_eq_take_iff]
        omega
      · rw [Nat.sub_add_eq]

theorem length_flatMap {data : Nat → Bytes} {clusters : List Nat} {size : Nat}
    (length : ∀ cluster ∈ clusters, (data cluster).length = size) :
    (clusters.flatMap data).length = clusters.length * size := by
  induction clusters with
  | nil => simp
  | cons cluster rest ih =>
    rw [List.flatMap_cons, List.length_append, length cluster List.mem_cons_self,
      ih fun other member => length other (List.mem_cons_of_mem _ member), List.length_cons,
      Nat.succ_mul, Nat.add_comm]

/-- When nothing is problematic and every cluster can be read, the pieces are all the shares. -/
theorem pieces_of_clean (positive : 0 < g.clusterSize) {plan : Plan} {data : Nat → Bytes}
    (clean : plan.status.problematic = [])
    (readable : ∀ cluster ∈ plan.chain.clusters, contentsOf source g cluster = .ok (data cluster)) :
    (pieces source g plan).flatMap Prod.snd =
      (plan.chain.clusters.flatMap data).take plan.entry.size := by
  have whole : pieces source g plan =
      (portions g plan.entry.size plan.chain.clusters 0).map fun (cluster, share) =>
        (cluster, (data cluster).take share) := by
    unfold pieces
    rw [← List.filterMap_eq_map]
    apply List.filterMap_congr
    intro portion member
    have known := readable portion.1 (mem_of_mem_portions member).1
    simp [pieceOf, clean, known]
  have length : ∀ cluster ∈ plan.chain.clusters, (data cluster).length = g.clusterSize :=
    fun cluster member => length_contents (readable cluster member)
  rw [whole, List.flatMap_map]
  exact flatMap_portions positive plan.chain.clusters 0 length

/-- The root directory of a volume that can be scanned can be walked, too. -/
theorem survey_of_scan {scan : Scan} (root : g.Valid g.rootCluster)
    (scanned : (Scan.ofRoot g config.maxDirectoryDepth config.maxDirectoryClusters
      g.rootCluster).answer source g = .ok scan) :
    ∃ found, survey config g source = .ok found ∧ found.scan = scan := by
  have unseen : ¬ (¬ g.Valid g.rootCluster ∨ g.rootCluster ∈ Scan.empty.visited) := by
    simp [root, Scan.empty]
  have followed := scanned
  rw [Scan.ofRoot, Scan.answer_tree, if_neg unseen, Scan.clustersOf,
    if_neg Bool.false_ne_true] at followed
  unfold survey
  rw [scanned]
  cases walked : (g.liveChain g.rootCluster config.maxDirectoryClusters).answer source g with
  | error failure =>
    rw [walked] at followed
    cases followed
  | ok root => exact ⟨_, rfl, rfl⟩

end Pass

/-- The clusters of a file that lies in one piece. -/
def Entry.span (g : Geometry) (entry : Entry) : List Nat :=
  List.range' entry.startCluster (Number.ceilDiv entry.size g.clusterSize)

namespace Pass

variable {config : Config} {g : Geometry} {source : Source} {found : Survey} {entry : Entry}

theorem chainOf_span (sound : g.Sound) (contiguous : config.assumeContiguous = true)
    (file : entry.isDirectory = false) (filled : 1 ≤ entry.size) (word : entry.size < UInt32.size)
    (valid : ∀ cluster ∈ entry.span g, g.Valid cluster)
    (free : ∀ cluster ∈ entry.span g, source.fatEntry g cluster = .ok .free) :
    chainOf config g source entry =
      ⟨entry.fileId, entry.span g, [], (entry.span g).length - 1, false, .endOfChain⟩ := by
  have inside {index : Nat} (less : index < Number.ceilDiv entry.size g.clusterSize) :
      entry.startCluster + index ∈ entry.span g := by
    rw [Entry.span, List.mem_range'_1]
    omega
  have capped := config.walker.expected_lt_maxLength (Number.ceilDiv entry.size g.clusterSize)
  rw [chainOf, Walker.walk, file, if_neg Bool.false_ne_true]
  simp only [Geometry.clustersFor_eq sound.clusterSize_pos filled word]
  rw [Walker.walkFrom_contiguous contiguous (Number.ceilDiv_pos filled sound.clusterSize_pos)
    (fun index less => valid _ (inside less)) (fun index less => free _ (inside less))
    (Nat.le_of_lt capped), Entry.span, List.length_range']

/-- A chain in one piece that nobody claims who counts before the file is clean. -/
theorem problematic_of_span (surveyed : survey config g source = .ok found)
    (few : found.scan.entries.length < UInt32.size) (known : entry ∈ found.scan.entries)
    (chain : chainOf config g source entry =
      ⟨entry.fileId, entry.span g, [], (entry.span g).length - 1, false, .endOfChain⟩)
    (untaken : ∀ cluster ∈ entry.span g, ¬ TakenFrom config g source found entry.ordinal cluster) :
    (planOf config g (ledgerOf g found.root found.chains) entry
      (chainOf config g source entry)).status.problematic = [] := by
  have consecutive : (chainOf config g source entry).clusters = List.range' entry.startCluster
      (Number.ceilDiv entry.size g.clusterSize) := by
    rw [chain]
    rfl
  have calm : ((chainOf config g source entry).damage
      (g.gapThreshold config.largeGapShare)).suspects = [] :=
    Chain.suspects_of_consecutive (Nat.le_max_right _ _) (by rw [chain])
      (Chain.links_range' consecutive)
  simp only [planOf, Status.ofAnalysis, Status.unclean, calm, List.contains_nil, Bool.false_or,
    List.filter_eq_nil_iff]
  intro cluster member overwritten
  obtain ⟨-, takers⟩ := Ledger.isOverwritten_iff.mp overwritten
  rw [fileId_chainOf] at takers
  rw [chain] at member
  exact untaken cluster member ((takersOf_ne_nil_iff surveyed few known cluster).mp takers)

/-- A clean file in one piece has all its bytes. -/
theorem length_pieces_of_span (sound : g.Sound) {plan : Plan} {data : Nat → Bytes}
    (clean : plan.status.problematic = []) (span : plan.chain.clusters = plan.entry.span g)
    (readable : ∀ cluster ∈ plan.chain.clusters, contentsOf source g cluster = .ok (data cluster)) :
    ((pieces source g plan).flatMap Prod.snd).length = plan.entry.size := by
  have lengths : ∀ cluster ∈ plan.chain.clusters, (data cluster).length = g.clusterSize :=
    fun cluster member => length_contents (readable cluster member)
  rw [pieces_of_clean sound.clusterSize_pos clean readable, List.length_take,
    length_flatMap lengths, span, Entry.span, List.length_range']
  exact Nat.min_eq_left (Number.le_ceilDiv_mul plan.entry.size sound.clusterSize_pos)

/-- The verdict on a candidate whose chain is clean and can be read as a whole. -/
theorem verdict_of_clean (writing : config.analyzeOnly = false) {plan : Plan}
    (clean : plan.status.problematic = []) (declared : plan.status.declaredSize = plan.entry.size)
    (filled : 1 ≤ plan.entry.size)
    (readable : ∀ cluster ∈ plan.chain.clusters, Readable source g cluster)
    (complete : ((pieces source g plan).flatMap Prod.snd).length = plan.entry.size) :
    isRecovered source g plan = true ∧
      (verdict source config g plan).outcome = .success ∧
      (verdict source config g plan).problematic = [] ∧
      (verdict source config g plan).termination = plan.status.termination ∧
      (verdict source config g plan).inferred = plan.status.inferred := by
  have settled := settled_haulOf source config g plan
  have spotless : (haulOf source config g plan).status.problematic = [] := by
    refine List.eq_nil_iff_forall_not_mem.mpr ?_
    intro cluster member
    rcases settled.noted cluster member with old | ⟨place, unreadable⟩
    · rw [clean] at old
      cases old
    · exact unreadable (readable cluster place)
  have recovered : isRecovered source g plan = true := by
    rw [isRecovered, complete]
    simp only [Bool.or_eq_true, decide_eq_true_eq]
    omega
  obtain ⟨-, bytes, -⟩ := haulOf_pieces source g writing plan
  have wrote : hasContent plan (haulOf source config g plan) = true := by
    rw [hasContent, bytes]
    exact recovered
  have size : (haulOf source config g plan).status.declaredSize = plan.entry.size := by
    rw [settled.same]
    exact declared
  refine ⟨recovered, ?_, spotless, ?_, ?_⟩
  · change (haulOf source config g plan).status.outcomeOf _ (hasContent plan _) = .success
    rw [Status.outcomeOf, wrote, spotless, bytes, size, complete]
    simp
  · change (haulOf source config g plan).status.termination = _
    rw [settled.same]
  · change (haulOf source config g plan).status.inferred = _
    rw [settled.same]

/-- An intact deleted file is recovered completely, from clusters that follow one another, and
what is stored are its first bytes. -/
theorem run_intact [Digests] {boot : BootSector} (accepted : boot.geometry = .ok g)
    (contiguous : config.assumeContiguous = true) (writing : config.analyzeOnly = false)
    {scan : Scan}
    (scanned : ((Scan.ofRoot g config.maxDirectoryDepth config.maxDirectoryClusters
      g.rootCluster).run source (FatTable.empty g) []).1 = .ok scan)
    (few : scan.entries.length < UInt32.size) (known : entry ∈ scan.entries)
    (selected : config.selects entry = true) (filled : 1 ≤ entry.size)
    (valid : ∀ cluster ∈ entry.span g, g.Valid cluster) {data : Nat → Bytes}
    (readable : ∀ cluster ∈ entry.span g,
      source.read (g.clusterSector cluster) g.clusterSize = .ok (data cluster))
    (free : ∀ cluster ∈ entry.span g, source.fatEntry g cluster = .ok .free)
    (apart : ∀ root, (g.liveChain g.rootCluster config.maxDirectoryClusters).answer source g =
      .ok root → ∀ cluster ∈ entry.span g, cluster ∉ root)
    (untaken : ∀ other ∈ scan.entries, other.deleted = false ∨ entry.ordinal < other.ordinal →
      ∀ cluster ∈ entry.span g, cluster ∉ (chainOf config g source other).clusters)
    (partition : Nat) (journal : List Event) :
    ∃ result after,
      run config partition g ⟨source, MemoryOutput.empty, journal⟩ = (.ok result, after) ∧
      (∃ status ∈ result.statuses, status.ordinal = entry.ordinal) ∧
      (∀ status ∈ result.statuses, status.ordinal = entry.ordinal →
        status.outcome = .success ∧ status.termination = .endOfChain ∧
        status.inferred = Number.ceilDiv entry.size g.clusterSize - 1 ∧ status.problematic = []) ∧
      after.output.get? partition entry.fileId =
        some (((entry.span g).flatMap data).take entry.size) := by
  rw [Probe.run_empty] at scanned
  have sound := BootSector.sound_of_geometry accepted
  obtain ⟨found, surveyed, rfl⟩ := survey_of_scan sound.root_valid scanned
  have tidy := survey_tidy surveyed
  obtain ⟨deleted, file⟩ := Config.deleted_of_selects selected
  have chain := chainOf_span sound contiguous file filled (tidy.size_lt entry known) valid free
  have free : ∀ cluster ∈ entry.span g,
      ¬ TakenFrom config g source found entry.ordinal cluster := by
    rintro cluster member (root | ⟨other, known', -, before, place⟩)
    · exact apart found.root (survey_eq surveyed).2.1 cluster member root
    · exact untaken other known' before cluster member place
  have clean := problematic_of_span surveyed few known chain free
  let plan := planOf config g (ledgerOf g found.root found.chains) entry
    (chainOf config g source entry)
  have planned : plan ∈ plans config g found :=
    (mem_plans surveyed).mpr ⟨entry, known, selected, rfl⟩
  have clusters : plan.chain.clusters = entry.span g := congrArg Chain.clusters chain
  have contents : ∀ cluster ∈ plan.chain.clusters,
      contentsOf source g cluster = .ok (data cluster) := by
    intro cluster member
    rw [clusters] at member
    rw [contentsOf_eq sound (valid cluster member)]
    exact readable cluster member
  have stored := pieces_of_clean sound.clusterSize_pos clean contents
  obtain ⟨recovered, success, spotless, termination, inferred⟩ := verdict_of_clean writing clean
    rfl filled (fun cluster member => ⟨data cluster, contents cluster member⟩)
    (length_pieces_of_span sound clean clusters contents)
  obtain ⟨result, after, ok, files⟩ := run_memory surveyed few partition journal
  obtain ⟨found', surveyed', -, ⟨reports, origins⟩, -⟩ := run_ok ok
  rw [surveyed] at surveyed'
  cases surveyed'
  refine ⟨result, after, ok, ?_, ?_, ?_⟩
  · obtain ⟨status, reported, delivered⟩ := reports plan planned
    exact ⟨status, reported, ordinal_of_delivers delivered⟩
  · intro status reported same
    obtain ⟨plan', planned', delivered⟩ := origins status reported
    obtain ⟨entry', known', -, rfl⟩ := (mem_plans surveyed).mp planned'
    have equal : entry' = entry := tidy.numbered.eq_of_ordinal known' known
      ((ordinal_of_delivers delivered).symm.trans same)
    subst equal
    obtain ⟨path, digest, rfl⟩ := delivered
    refine ⟨success, termination.trans ?_, inferred.trans ?_, spotless⟩
    · exact congrArg Chain.termination chain
    · refine (congrArg Chain.inferred chain).trans ?_
      rw [Entry.span, List.length_range']
  · refine (files plan planned).trans ?_
    rw [storedOf, writing, recovered, stored, clusters]
    rfl

/-- A deleted file in the clusters 4 and 5, after a live file and an older deleted file that had
cluster 5 before. -/
def undisturbed : Source :=
  Small.source [0, 0, Small.chainEnd, Small.chainEnd]
    [Small.slot 0xE5 0x20 5 100 ++ Small.slot 0x41 0x20 3 100 ++ Small.slot 0xE5 0x20 4 600,
      [1], [2], [3], []]

theorem run_intact_undisturbed :
    ∃ scan, ((Scan.ofRoot (Small.geometry 5) 32 4096 2).run undisturbed
        (FatTable.empty (Small.geometry 5)) []).1 = .ok scan ∧
      ∃ entry ∈ scan.entries, entry.startCluster = 4 ∧ entry.size = 600 ∧
      ∃ result after, run {} 0 (Small.geometry 5) ⟨undisturbed, MemoryOutput.empty, []⟩ =
          (.ok result, after) ∧
        (∀ status ∈ result.statuses, status.ordinal = entry.ordinal →
          status.outcome = .success ∧ status.termination = .endOfChain ∧ status.inferred = 1 ∧
            status.problematic = []) ∧
        after.output.get? 0 entry.fileId =
          some ((Small.sector [2] ++ Small.sector [3]).take 600) := by
  obtain ⟨scan, scanned, count, entry, known, selected, start, size, untaken⟩ :
      ∃ scan, (Scan.ofRoot (Small.geometry 5) 32 4096 2).answer undisturbed (Small.geometry 5) =
          .ok scan ∧ scan.entries.length = 3 ∧
        ∃ entry ∈ scan.entries, Config.selects {} entry = true ∧ entry.startCluster = 4 ∧
          entry.size = 600 ∧
          ∀ other ∈ scan.entries, other.deleted = false ∨ entry.ordinal < other.ordinal →
            ∀ cluster ∈ [4, 5],
              cluster ∉ (chainOf {} (Small.geometry 5) undisturbed other).clusters := by
    apply exists_ok
    simp only [chainOf, undisturbed, Small.source, Probe.answer_ofImage]
    decide +kernel
  have span : entry.span (Small.geometry 5) = [4, 5] := by
    rw [Entry.span, start, size]
    rfl
  have root : ((Small.geometry 5).liveChain 2 4096).answer undisturbed (Small.geometry 5) =
      .ok [2] := by
    simp only [undisturbed, Small.source, Probe.answer_ofImage]
    decide +kernel
  have readable : ∀ cluster ∈ [4, 5],
      undisturbed.read ((Small.geometry 5).clusterSector cluster) 512 =
        .ok (Small.sector [UInt8.ofNat (cluster - 2)]) := by
    simp only [undisturbed, Small.source, Source.read_ofImage]
    decide +kernel
  have free : ∀ cluster ∈ [4, 5],
      undisturbed.fatEntry (Small.geometry 5) cluster = .ok .free := by
    simp only [undisturbed, Small.source, Source.fatEntry_ofImage]
    decide +kernel
  have accepted : (BootSector.decode (Small.boot 5)).geometry = .ok (Small.geometry 5) := by
    decide +kernel
  rw [← Probe.run_empty undisturbed (Small.geometry 5) _ []] at scanned
  have few : scan.entries.length < UInt32.size := by
    rw [count]
    decide
  rw [← span] at untaken readable free
  have filled : 1 ≤ entry.size := by
    rw [size]
    decide
  have valid : ∀ cluster ∈ entry.span (Small.geometry 5), (Small.geometry 5).Valid cluster := by
    rw [span]
    decide
  have apart : ∀ directory, ((Small.geometry 5).liveChain 2 4096).answer undisturbed
      (Small.geometry 5) = .ok directory →
        ∀ cluster ∈ entry.span (Small.geometry 5), cluster ∉ directory := by
    intro directory walked
    cases walked.symm.trans root
    rw [span]
    decide
  have contiguous : Config.assumeContiguous {} = true := rfl
  obtain ⟨result, after, ok, -, statuses, stored⟩ := run_intact accepted contiguous rfl scanned few
    known selected filled valid readable free apart untaken 0 []
  rw [size] at statuses
  rw [size, span, List.flatMap_cons, List.flatMap_cons, List.flatMap_nil,
    List.append_nil] at stored
  exact ⟨scan, scanned, entry, known, start, size, result, after, ok, statuses, stored⟩

end Pass

end Undelete
