import Mathlib.Data.List.Nodup
import Undelete.Proofs.Chain.Takers
import Undelete.Proofs.Recovery.Chunks

/-!
In what order a status lists the clusters that are left out. The analysis notes the suspect and the
overwritten clusters, in the order of the chain. Those that cannot be read are noted when the
recovery comes to them, behind all that were noted before. So the list follows the chain unless a
cluster that cannot be read stands in front of a suspect or an overwritten one.
-/

namespace Undelete

section

variable {α : Type} {first second : α → Bool}

/-- If items of the first kind are put in front of one of the second, and all of them are in their
old order, then there are none. -/
theorem filter_eq_nil_of_sublist {head : α} {rest : List α} (one : ¬ first head = true)
    (two : second head = true)
    (sorted : (rest.filter first ++ head :: rest.filter second).Sublist (head :: rest)) :
    rest.filter first = [] := by
  rcases List.sublist_cons_iff.mp sorted with inner | ⟨tail, same, -⟩
  · -- The rest has too few items of the second kind.
    have tooMany : (head :: rest.filter second).Sublist rest :=
      (List.sublist_append_right _ _).trans inner
    have fewer := (tooMany.filter second).length_le
    rw [List.filter_cons_of_pos two, List.filter_filter] at fewer
    simp only [Bool.and_self] at fewer
    exact absurd fewer (Nat.not_succ_le_self _)
  · cases front : rest.filter first with
    | nil => rfl
    | cons item others =>
      have member : item ∈ rest.filter first := front ▸ List.mem_cons_self
      rw [front, List.cons_append] at same
      rw [(List.cons.inj same).1] at member
      exact absurd (List.of_mem_filter member) one

/-- Items of two kinds, sorted by kind, are in their old order exactly if no item of the second
kind stood in front of one of the first. -/
theorem filter_append_filter_sublist_iff (apart : ∀ item, first item = true → second item = false)
    (items : List α) :
    (items.filter first ++ items.filter second).Sublist items ↔
      items.Pairwise fun earlier later => second earlier = true → first later = false := by
  induction items with
  | nil => simp
  | cons head rest ih =>
    rw [List.pairwise_cons, ← ih]
    by_cases one : first head = true
    · have other := apart head one
      simp [one, other]
    by_cases two : second head = true
    · rw [List.filter_cons_of_neg one, List.filter_cons_of_pos two]
      simp only [two, true_implies]
      constructor
      · intro sorted
        have none := filter_eq_nil_of_sublist one two sorted
        have calm : ∀ later ∈ rest, first later = false := by simpa using none
        refine ⟨calm, ?_⟩
        rw [none, List.nil_append]
        exact List.filter_sublist
      · rintro ⟨calm, -⟩
        have none : rest.filter first = [] := by simpa using calm
        rw [none, List.nil_append]
        exact List.filter_sublist.cons_cons head
    · rw [List.filter_cons_of_neg one, List.filter_cons_of_neg two, List.sublist_cons_iff]
      have absent (tail : List α) : rest.filter first ++ rest.filter second ≠ head :: tail := by
        intro same
        have member : head ∈ rest.filter first ++ rest.filter second := by simp [same]
        rcases List.mem_append.mp member with inner | inner
        · exact one (List.of_mem_filter inner)
        · exact two (List.of_mem_filter inner)
      simp [absent, two]

end

namespace Pass

variable {config : Config} {g : Geometry} {source : Source} {found : Survey} {entry : Entry}

/-- Whether the analysis finds a cluster of an entry's chain suspect or overwritten. -/
def spoiled (config : Config) (g : Geometry) (source : Source) (found : Survey) (entry : Entry)
    (cluster : Nat) : Bool :=
  let chain := chainOf config g source entry
  let overwrite := (ledgerOf g found.root found.chains).overwrite chain entry.ordinal
    (g.clustersFor entry.size)
  (chain.damage (g.gapThreshold config.largeGapShare)).suspects.contains cluster ||
    overwrite.isOverwritten cluster

/-- Whether the recovery of an entry comes to a cluster that is not spoiled and cannot read it. -/
def fails (config : Config) (g : Geometry) (source : Source) (found : Survey) (entry : Entry)
    (cluster : Nat) : Bool :=
  let covered := (chainOf config g source entry).clusters.take
    (Number.ceilDiv entry.size g.clusterSize)
  !config.analyzeOnly && !spoiled config g source found entry cluster &&
    covered.contains cluster && (source.cluster? g cluster).isNone

/-- What a status lists of a chain as left out. -/
structure LeavesOut (chain : List Nat) (spoiled fails : Nat → Bool) (listed : List Nat) : Prop where
  parts : listed = chain.filter spoiled ++ chain.filter fails
  distinct : listed.Nodup
  subset : listed ⊆ chain
  sublist_iff : listed.Sublist chain ↔
    chain.Pairwise fun earlier later => fails earlier = true → spoiled later = false

theorem gatherOne_analyzing (haul : Haul) (portion : Nat × Nat) :
    (gatherOne source g true haul portion).status = haul.status := by
  unfold gatherOne
  split <;> rfl

/-- A pass that only analyzes notes nothing more. -/
theorem status_haulOf_analyzing (analyzing : config.analyzeOnly = true) (plan : Plan) :
    (haulOf source config g plan).status = plan.status := by
  rw [haulOf, analyzing]
  refine List.foldlRecOn _ _ (motive := fun haul : Haul => haul.status = plan.status) rfl ?_
  intro haul same portion _
  exact (gatherOne_analyzing haul portion).trans same

/-- On a chain without repetitions the unreadable clusters come up as they stand in the chain. -/
theorem unread_eq (sound : g.Sound) {plan : Plan} (nodup : plan.chain.clusters.Nodup) :
    unread source g plan =
      (plan.chain.clusters.take (Number.ceilDiv plan.entry.size g.clusterSize)).filter
        fun cluster => cluster ∉ plan.status.problematic ∧ source.cluster? g cluster = none := by
  have covered : (reached g plan.entry.size plan.chain.clusters).map Prod.fst =
      plan.chain.clusters.take (Number.ceilDiv plan.entry.size g.clusterSize) := by
    rw [← Nat.sub_zero plan.entry.size, ← map_fst_portions sound.clusterSize_pos,
      portions_eq_reached sound.clusterSize_pos, List.map_map]
    rfl
  rw [unread, covered]
  exact eraseDups_of_nodup ((nodup.sublist (List.take_sublist _ _)).filter _)

/-- A filter of the beginning of a list without repetitions is one of the list. -/
theorem filter_take_of_nodup {items : List Nat} (nodup : items.Nodup) (count : Nat)
    (holds : Nat → Bool) :
    (items.take count).filter holds =
      items.filter fun item => (items.take count).contains item && holds item := by
  have none : (items.drop count).filter
      (fun item => (items.take count).contains item && holds item) = [] := by
    rw [List.filter_eq_nil_iff]
    intro item late both
    rw [Bool.and_eq_true, List.contains_iff_mem] at both
    exact List.disjoint_take_drop nodup (Nat.le_refl count) both.1 late
  calc (items.take count).filter holds
      = (items.take count).filter
          (fun item => (items.take count).contains item && holds item) := by
        refine List.filter_congr fun item member => ?_
        simp [member]
    _ = (items.take count ++ items.drop count).filter
          (fun item => (items.take count).contains item && holds item) := by
        rw [List.filter_append, none, List.append_nil]
    _ = _ := by rw [List.take_append_drop]

/-- What is left out in the end are the spoiled clusters and then those that could not be read,
both in the order of the chain. -/
theorem problematic_verdict (sound : g.Sound) (found : Survey) (entry : Entry) :
    (verdict source config g (planOf config g (ledgerOf g found.root found.chains) entry
      (chainOf config g source entry))).problematic =
      (chainOf config g source entry).clusters.filter (spoiled config g source found entry) ++
      (chainOf config g source entry).clusters.filter (fails config g source found entry) := by
  let chain := chainOf config g source entry
  let plan := planOf config g (ledgerOf g found.root found.chains) entry chain
  have noted : plan.status.problematic =
      chain.clusters.filter (spoiled config g source found entry) := rfl
  change (haulOf source config g plan).status.problematic = _
  cases analyzing : config.analyzeOnly with
  | true =>
    have none : chain.clusters.filter (fails config g source found entry) = [] := by
      simp [fails, analyzing]
    rw [status_haulOf_analyzing analyzing, noted, none, List.append_nil]
  | false =>
    have nodup : plan.chain.clusters.Nodup := nodup_chainOf entry
    rw [problematic_haulOf sound analyzing, unread_eq sound nodup, filter_take_of_nodup nodup]
    refine congrArg (plan.status.problematic ++ ·) (List.filter_congr fun cluster member => ?_)
    have old : cluster ∈ plan.status.problematic ↔
        spoiled config g source found entry cluster = true := by
      rw [noted, List.mem_filter]
      exact and_iff_right member
    have same : plan.chain.clusters.take (Number.ceilDiv plan.entry.size g.clusterSize) =
        (chainOf config g source entry).clusters.take (Number.ceilDiv entry.size g.clusterSize) := rfl
    rw [Bool.eq_iff_iff]
    simp [fails, analyzing, old, same, and_left_comm, and_assoc]

theorem leavesOut_verdict (sound : g.Sound) (found : Survey) (entry : Entry) :
    LeavesOut (chainOf config g source entry).clusters (spoiled config g source found entry)
      (fails config g source found entry)
      (verdict source config g (planOf config g (ledgerOf g found.root found.chains) entry
        (chainOf config g source entry))).problematic := by
  have nodup : (chainOf config g source entry).clusters.Nodup := nodup_chainOf entry
  have apart (cluster : Nat) (old : spoiled config g source found entry cluster = true) :
      fails config g source found entry cluster = false := by
    simp [fails, old]
  have parts : (verdict source config g (planOf config g (ledgerOf g found.root found.chains) entry
      (chainOf config g source entry))).problematic = _ := problematic_verdict sound found entry
  refine ⟨parts, ?_, ?_, ?_⟩
  · rw [parts, List.nodup_append']
    refine ⟨nodup.filter _, nodup.filter _, ?_⟩
    intro cluster old new
    have none := apart cluster (List.of_mem_filter old)
    rw [List.of_mem_filter new] at none
    cases none
  · rw [parts]
    exact List.append_subset.mpr ⟨List.filter_sublist.subset, List.filter_sublist.subset⟩
  · rw [parts]
    exact filter_append_filter_sublist_iff apart _

/-- Whatever a pass answers about a candidate, it lists clusters of its chain as left out, each
once: the spoiled ones and behind them those that it came to and could not read. They are listed in
the order of the chain if and only if no spoiled cluster stands behind one that could not be
read. -/
theorem run_leavesOut [Digests] {ω : Type} [Output ω] {boot : BootSector}
    (accepted : boot.geometry = .ok g) {partition : Nat} {before after : Run ω}
    {result : PassResult} (ok : run config partition g before = (.ok result, after)) :
    ∃ found, survey config g before.source = .ok found ∧
      List.Forall₂ (fun entry status => status.ordinal = entry.ordinal ∧
          LeavesOut (chainOf config g before.source entry).clusters
            (spoiled config g before.source found entry)
            (fails config g before.source found entry) status.problematic)
        (found.scan.entries.filter config.selects) result.statuses := by
  have sound := BootSector.sound_of_geometry accepted
  obtain ⟨found, surveyed, -, reports⟩ := run_reports ok
  refine ⟨found, surveyed, reports.imp ?_⟩
  rintro entry status ⟨-, -, delivered⟩
  refine ⟨ordinal_of_delivers delivered, ?_⟩
  obtain ⟨path, digest, rfl⟩ := delivered
  exact leavesOut_verdict sound found entry

/-- A volume of six clusters whose image ends behind cluster 5. A deleted file goes from there to
cluster 6 and back to 4, and two more have the clusters 7 and 3. -/
def torn : Source :=
  let fat := [0, 0, Small.chainEnd, Small.chainEnd, Small.chainEnd, 6, 4, Small.chainEnd]
  let root := Small.slot 0xE5 0x20 5 1500 ++ Small.slot 0xE5 0x20 7 100 ++ Small.slot 0xE5 0x20 3 100
  Source.ofImage (Small.boot 6 ++ Small.sector (fat.flatMap (Bytes.ofNat 4)) ++
    [root, [0x61], [0x62], [0x63]].flatMap Small.sector).toArray 512

theorem geometry_torn :
    (BootSector.decode (Small.boot 6)).geometry = .ok (Small.geometry 6) := by
  decide +kernel

theorem survey_torn :
    ∃ found, survey {} (Small.geometry 6) torn = .ok found ∧
      found.scan.entries.length < UInt32.size ∧
      ((plans {} (Small.geometry 6) found).map fun plan =>
        (plan.chain.clusters, (verdict torn {} (Small.geometry 6) plan).problematic)) =
          [([5, 6, 4], [4, 6]), ([7], [7]), ([3], [])] := by
  apply exists_ok
  simp only [survey, verdict, haulOf, chainOf, torn, Probe.answer_ofImage]
  decide +kernel

theorem run_torn [Digests] :
    ∃ result after found, run {} 0 (Small.geometry 6) ⟨torn, MemoryOutput.empty, []⟩ =
        (.ok result, after) ∧
      survey {} (Small.geometry 6) torn = .ok found ∧
      (found.scan.entries.filter (Config.selects {})).map (fun entry =>
        (chainOf {} (Small.geometry 6) torn entry).clusters) = [[5, 6, 4], [7], [3]] ∧
      result.statuses.map Status.problematic = [[4, 6], [7], []] := by
  obtain ⟨found, surveyed, few, told⟩ := survey_torn
  obtain ⟨result, after, ok, -⟩ := run_memory surveyed few 0 []
  obtain ⟨found', surveyed', -, -, delivered, -⟩ := run_delivers ok
  cases surveyed.symm.trans surveyed'
  refine ⟨result, after, found, ok, surveyed, ?_, ?_⟩
  · have chains := congrArg (List.map Prod.fst) told
    rw [plans_eq surveyed, List.map_map, List.map_map] at chains
    exact chains
  · have lists := congrArg (List.map Prod.snd) told
    rw [List.map_map] at lists
    exact (map_of_delivers delivered Status.problematic fun _ _ _ => rfl).trans lists

theorem run_leavesOut_torn :
    (BootSector.decode (Small.boot 6)).geometry = .ok (Small.geometry 6) ∧
      ∃ result after, run {} 0 (Small.geometry 6) ⟨torn, MemoryOutput.empty, []⟩ =
        (.ok result, after) ∧
      result.statuses.map Status.problematic = [[4, 6], [7], []] ∧
      ∃ found, survey {} (Small.geometry 6) torn = .ok found ∧
        List.Forall₂ (fun entry status => status.ordinal = entry.ordinal ∧
            LeavesOut (chainOf {} (Small.geometry 6) torn entry).clusters
              (spoiled {} (Small.geometry 6) torn found entry)
              (fails {} (Small.geometry 6) torn found entry) status.problematic)
          (found.scan.entries.filter (Config.selects {})) result.statuses := by
  obtain ⟨result, after, -, ok, -, -, lists⟩ := run_torn
  obtain ⟨found, surveyed, leaves⟩ := run_leavesOut geometry_torn ok
  exact ⟨geometry_torn, result, after, ok, lists, found, surveyed, leaves⟩

/-- The file that goes on to an unreadable cluster and then back does not list the two in the order
of its chain. -/
theorem problematic_torn :
    (BootSector.decode (Small.boot 6)).geometry = .ok (Small.geometry 6) ∧
      ∃ result after found, run {} 0 (Small.geometry 6) ⟨torn, MemoryOutput.empty, []⟩ =
        (.ok result, after) ∧
      survey {} (Small.geometry 6) torn = .ok found ∧
      ¬ List.Forall₂ (fun entry status => status.problematic.Sublist
          (chainOf {} (Small.geometry 6) torn entry).clusters)
        (found.scan.entries.filter (Config.selects {})) result.statuses := by
  obtain ⟨result, after, found, ok, surveyed, chains, lists⟩ := run_torn
  refine ⟨geometry_torn, result, after, found, ok, surveyed, ?_⟩
  intro ordered
  have told : List.Forall₂ (fun chain listed : List Nat => listed.Sublist chain)
      [[5, 6, 4], [7], [3]] [[4, 6], [7], []] := by
    rw [← chains, ← lists]
    simpa using ordered
  cases told with
  | cons first _ => exact absurd first (by decide +kernel)

end Pass

end Undelete
