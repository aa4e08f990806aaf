import Undelete.Proofs.Chain.Damage
import Undelete.Proofs.Recovery.Covered
import Undelete.Proofs.Recovery.Memory
import Undelete.Proofs.Volume.Small

/-!
What an outcome tells. A recovery is a success exactly when the chain is long enough for the size,
shows no damage and has been taken by nobody, and every cluster that the size covers can be read.
It has failed exactly when no byte came, except for an empty file whose chain exists.
-/

namespace Undelete

theorem Outcome.eq_partly_iff (outcome : Outcome) :
    outcome = .partly ↔ ¬ outcome = .success ∧ ¬ outcome = .failed := by
  cases outcome <;> decide

namespace Ledger

theorem takersOf_eq_nil_iff {ledger : Ledger} {fileId ordinal cluster : Nat} :
    ledger.takersOf fileId ordinal cluster = [] ↔
      ∀ record ∈ ledger.claimsFor cluster, record.supersedes fileId ordinal = false := by
  simp [takersOf]

end Ledger

namespace Pass

variable {config : Config} {g : Geometry} {source : Source} {found : Survey} {entry : Entry}

theorem repeated_subset_chainOf (entry : Entry) :
    (chainOf config g source entry).repeated ⊆ (chainOf config g source entry).clusters := by
  unfold chainOf Walker.walk
  split
  · exact Walker.repeated_subset_walkFrom ..
  · exact Walker.repeated_subset_walkFrom ..

/-- A chain starts clean if it shows no damage and nobody has taken any of it. -/
theorem problematic_planOf_eq_nil_iff (ledger : Ledger) (entry : Entry) :
    (planOf config g ledger entry (chainOf config g source entry)).status.problematic = [] ↔
      (chainOf config g source entry).repeated = [] ∧
      (chainOf config g source entry).Forward (g.gapThreshold config.largeGapShare) ∧
      ∀ cluster ∈ (chainOf config g source entry).clusters,
        ∀ record ∈ ledger.claimsFor cluster,
          record.supersedes entry.fileId entry.ordinal = false := by
  rw [← and_assoc, ← Chain.spotless_iff (nodup_chainOf entry) (repeated_subset_chainOf entry),
    ← forall₂_and]
  simp only [planOf, Status.ofAnalysis, Status.unclean, List.filter_eq_nil_iff, Bool.or_eq_true,
    not_or, List.contains_iff_mem, Ledger.isOverwritten_iff, not_and, fileId_chainOf,
    Decidable.not_not, Ledger.takersOf_eq_nil_iff]
  refine forall₂_congr fun cluster member => and_congr_right fun _ => ?_
  exact ⟨fun untaken => untaken member, fun untaken _ => untaken⟩

section

variable {plan : Plan}

/-- A candidate ends up clean if it starts so and every covered cluster can be read. -/
theorem problematic_haulOf_eq_nil_iff (positive : 0 < g.clusterSize)
    (writing : config.analyzeOnly = false) (plan : Plan) :
    (haulOf source config g plan).status.problematic = [] ↔
      plan.status.problematic = [] ∧
      ∀ cluster ∈ plan.chain.clusters.take (Number.ceilDiv plan.entry.size g.clusterSize),
        Readable source g cluster := by
  have covered : (portions g plan.entry.size plan.chain.clusters 0).map Prod.fst =
      plan.chain.clusters.take (Number.ceilDiv plan.entry.size g.clusterSize) :=
    map_fst_portions positive _ 0
  have gathered : haulOf source config g plan =
      (portions g plan.entry.size plan.chain.clusters 0).foldl (gatherOne source g false)
        (Haul.nothing plan.status) := by
    rw [haulOf, writing]
  have settled : Settled source g
      ((portions g plan.entry.size plan.chain.clusters 0).map Prod.fst) plan.status
        (haulOf source config g plan).status := by
    rw [gathered]
    exact Settled.foldl (.refl plan.status) fun _ => List.mem_map_of_mem
  rw [← covered]
  constructor
  · intro spotless
    constructor
    · refine List.eq_nil_iff_forall_not_mem.mpr ?_
      intro cluster member
      have kept := settled.kept cluster member
      rw [spotless] at kept
      cases kept
    · intro cluster member
      obtain ⟨portion, place, rfl⟩ := List.mem_map.mp member
      by_contra unreadable
      have noted := noted_of_unreadable (Haul.nothing plan.status) place unreadable
      rw [← gathered, spotless] at noted
      cases noted
  · rintro ⟨clean, readable⟩
    refine List.eq_nil_iff_forall_not_mem.mpr ?_
    intro cluster member
    rcases settled.noted cluster member with old | ⟨place, unreadable⟩
    · rw [clean] at old
      cases old
    · exact unreadable (readable cluster place)

/-- When everything is clean, the bytes that come are as many as the chain has room for. -/
theorem bytes_haulOf_of_clean (positive : 0 < g.clusterSize)
    (writing : config.analyzeOnly = false) (clean : plan.status.problematic = [])
    (readable : ∀ cluster ∈
      plan.chain.clusters.take (Number.ceilDiv plan.entry.size g.clusterSize),
        Readable source g cluster) :
    (haulOf source config g plan).bytes =
      min plan.entry.size (plan.chain.clusters.length * g.clusterSize) := by
  rw [(haulOf_pieces source g writing plan).2.1, pieces, length_pieces_eq clean, sum_portions,
    Nat.sub_zero]
  intro portion member
  refine ⟨readable portion.1 ?_, (mem_of_mem_portions member).2.2⟩
  have covered := List.mem_map_of_mem (f := Prod.fst) member
  rwa [map_fst_portions positive, Nat.sub_zero] at covered

theorem outcome_verdict_eq_success_iff (positive : 0 < g.clusterSize)
    (writing : config.analyzeOnly = false) (plan : Plan)
    (declared : plan.status.declaredSize = plan.entry.size) :
    (verdict source config g plan).outcome = .success ↔
      plan.chain.clusters ≠ [] ∧
      Number.ceilDiv plan.entry.size g.clusterSize ≤ plan.chain.clusters.length ∧
      plan.status.problematic = [] ∧
      ∀ cluster ∈ plan.chain.clusters.take (Number.ceilDiv plan.entry.size g.clusterSize),
        Readable source g cluster := by
  have size : (haulOf source config g plan).status.declaredSize = plan.entry.size := by
    rw [(settled_haulOf source config g plan).same]
    exact declared
  have bound := bytes_le source g plan
  rw [← (haulOf_pieces source g writing plan).2.1] at bound
  change (haulOf source config g plan).status.outcomeOf _ (hasContent plan _) = .success ↔ _
  rw [Status.outcomeOf_eq_success_iff, problematic_haulOf_eq_nil_iff positive writing,
    hasContent_iff, size, Number.ceilDiv_le_iff positive]
  constructor
  · rintro ⟨wrote, ⟨clean, readable⟩, complete⟩
    refine ⟨?_, by omega, clean, readable⟩
    -- Without any cluster there would be no room for the bytes that came.
    rcases wrote with came | ⟨-, filled⟩
    · intro bare
      rw [bare, List.length_nil] at bound
      omega
    · exact filled
  · rintro ⟨filled, long, clean, readable⟩
    have bytes := bytes_haulOf_of_clean positive writing clean readable
    refine ⟨?_, ⟨clean, readable⟩, by omega⟩
    by_cases empty : plan.entry.size = 0
    · exact .inr ⟨empty, filled⟩
    · exact .inl (by omega)

theorem outcome_verdict_eq_failed_iff (plan : Plan) :
    (verdict source config g plan).outcome = .failed ↔
      (verdict source config g plan).recoveredBytes = 0 ∧
      ¬ (plan.entry.size = 0 ∧ plan.chain.clusters ≠ []) := by
  change (haulOf source config g plan).status.outcomeOf _ (hasContent plan _) = .failed ↔
    (haulOf source config g plan).bytes = 0 ∧ _
  rw [Status.outcomeOf_eq_failed_iff, ← Bool.not_eq_true, hasContent_iff, not_or, Nat.not_lt,
    Nat.le_zero]

end

/-- What a candidate needs to be recovered whole. -/
structure Flawless (config : Config) (g : Geometry) (source : Source) (found : Survey)
    (entry : Entry) : Prop where
  filled : (chainOf config g source entry).clusters ≠ []
  long : Number.ceilDiv entry.size g.clusterSize ≤ (chainOf config g source entry).clusters.length
  once : (chainOf config g source entry).repeated = []
  /-- Also the links past the size count. -/
  forward : (chainOf config g source entry).Forward (g.gapThreshold config.largeGapShare)
  untaken : ∀ cluster ∈ (chainOf config g source entry).clusters,
    ∀ record ∈ (ledgerOf g found.root found.chains).claimsFor cluster,
      record.supersedes entry.fileId entry.ordinal = false
  readable : ∀ cluster ∈ (chainOf config g source entry).clusters.take
    (Number.ceilDiv entry.size g.clusterSize), Readable source g cluster

/-- Whether a status judges an entry by what could be had of it. -/
structure Judged (config : Config) (g : Geometry) (source : Source) (found : Survey)
    (entry : Entry) (status : Status) : Prop where
  success_iff : status.outcome = .success ↔ Flawless config g source found entry
  failed_iff : status.outcome = .failed ↔ status.recoveredBytes = 0 ∧
    ¬ (entry.size = 0 ∧ (chainOf config g source entry).clusters ≠ [])
  partly_iff : status.outcome = .partly ↔
    ¬ Flawless config g source found entry ∧ ¬ (status.recoveredBytes = 0 ∧
      ¬ (entry.size = 0 ∧ (chainOf config g source entry).clusters ≠ []))
  recovered : status.recoveredBytes = ((pieces source g (planOf config g
    (ledgerOf g found.root found.chains) entry (chainOf config g source entry))).flatMap
      Prod.snd).length
  lifecycle : status.lifecycle = .written status.outcome

theorem flawless_iff :
    Flawless config g source found entry ↔
      (chainOf config g source entry).clusters ≠ [] ∧
      Number.ceilDiv entry.size g.clusterSize ≤ (chainOf config g source entry).clusters.length ∧
      (planOf config g (ledgerOf g found.root found.chains) entry
        (chainOf config g source entry)).status.problematic = [] ∧
      ∀ cluster ∈ (chainOf config g source entry).clusters.take
        (Number.ceilDiv entry.size g.clusterSize), Readable source g cluster := by
  rw [problematic_planOf_eq_nil_iff]
  constructor
  · rintro ⟨filled, long, once, forward, untaken, readable⟩
    exact ⟨filled, long, ⟨once, forward, untaken⟩, readable⟩
  · rintro ⟨filled, long, ⟨once, forward, untaken⟩, readable⟩
    exact ⟨filled, long, once, forward, untaken, readable⟩

theorem judged_of_delivers (positive : 0 < g.clusterSize) (writing : config.analyzeOnly = false)
    {status : Status} (delivered : Delivers (verdict source config g (planOf config g
      (ledgerOf g found.root found.chains) entry (chainOf config g source entry))) status) :
    Judged config g source found entry status := by
  obtain ⟨path, digest, rfl⟩ := delivered
  let plan := planOf config g (ledgerOf g found.root found.chains) entry
    (chainOf config g source entry)
  have success : (verdict source config g plan).outcome = .success ↔
      Flawless config g source found entry :=
    (outcome_verdict_eq_success_iff positive writing plan rfl).trans flawless_iff.symm
  have failed : (verdict source config g plan).outcome = .failed ↔ _ ∧ _ :=
    outcome_verdict_eq_failed_iff plan
  have partly := (Outcome.eq_partly_iff (verdict source config g plan).outcome).trans
    (and_congr (not_congr success) (not_congr failed))
  exact ⟨success, failed, partly, (haulOf_pieces source g writing plan).2.1, rfl⟩

/-- Every status of a pass that writes is a success if its candidate is flawless, a failure if
nothing came of a file that is not just empty, and else a part. -/
theorem run_outcomes [Digests] {ω : Type} [Output ω] {boot : BootSector}
    (accepted : boot.geometry = .ok g) (writing : config.analyzeOnly = false) {partition : Nat}
    {before after : Run ω} {result : PassResult}
    (ok : run config partition g before = (.ok result, after)) :
    ∃ found, survey config g before.source = .ok found ∧
      List.Forall₂ (fun entry status => status.ordinal = entry.ordinal ∧
          Judged config g before.source found entry status)
        (found.scan.entries.filter config.selects) result.statuses := by
  have positive := (BootSector.sound_of_geometry accepted).clusterSize_pos
  obtain ⟨found, surveyed, -, reports⟩ := run_reports ok
  refine ⟨found, surveyed, reports.imp ?_⟩
  rintro entry status ⟨-, -, delivered⟩
  exact ⟨ordinal_of_delivers delivered, judged_of_delivers positive writing delivered⟩

theorem outcomes_of_delivers {candidates : List Plan} {statuses : List Status}
    (delivered : List.Forall₂ (fun plan => Delivers (verdict source config g plan)) candidates
      statuses) :
    statuses.map Status.outcome =
      candidates.map fun plan => (verdict source config g plan).outcome :=
  map_of_delivers delivered Status.outcome fun _ _ _ => rfl

/-- Two live files in the clusters 5 and 8, and deleted files: one in the clusters 3 and 4, one
that has lost its cluster 5, an empty one, one that has lost its second cluster 8, and an empty one
without a cluster. -/
def assorted : Source :=
  Small.source [0, 0, Small.chainEnd, 0, 0, Small.chainEnd, 0, 0, Small.chainEnd]
    [Small.slot 0xE5 0x20 3 600 ++ Small.slot 0x41 0x20 5 100 ++ Small.slot 0xE5 0x20 5 100
      ++ Small.slot 0xE5 0x20 6 0 ++ Small.slot 0xE5 0x20 7 600 ++ Small.slot 0x42 0x20 8 100
      ++ Small.slot 0xE5 0x20 0 0, [], [], [], [], [], []]

theorem survey_assorted :
    ∃ found, survey {} (Small.geometry 7) assorted = .ok found ∧
      found.scan.entries.length < UInt32.size ∧
      ((plans {} (Small.geometry 7) found).map fun plan =>
        (verdict assorted {} (Small.geometry 7) plan).outcome) =
          [.success, .failed, .success, .partly, .failed] := by
  apply exists_ok
  simp only [survey, verdict, haulOf, chainOf, assorted, Small.source, Probe.answer_ofImage]
  decide +kernel

theorem run_outcomes_assorted :
    ∃ result after, run {} 0 (Small.geometry 7) ⟨assorted, MemoryOutput.empty, []⟩ =
        (.ok result, after) ∧
      result.statuses.map Status.outcome = [.success, .failed, .success, .partly, .failed] ∧
      ∃ found, survey {} (Small.geometry 7) assorted = .ok found ∧
        List.Forall₂ (fun entry status => status.ordinal = entry.ordinal ∧
            Judged {} (Small.geometry 7) assorted found entry status)
          (found.scan.entries.filter (Config.selects {})) result.statuses := by
  obtain ⟨found, surveyed, few, outcomes⟩ := survey_assorted
  have accepted : (BootSector.decode (Small.boot 7)).geometry = .ok (Small.geometry 7) := by
    decide +kernel
  obtain ⟨result, after, ok, -⟩ := run_memory surveyed few 0 []
  obtain ⟨found', surveyed', -, -, delivered, -⟩ := run_delivers ok
  cases surveyed.symm.trans surveyed'
  obtain ⟨found', surveyed', judged⟩ := run_outcomes accepted rfl ok
  cases surveyed.symm.trans surveyed'
  exact ⟨result, after, ok, (outcomes_of_delivers delivered).trans outcomes, found, surveyed,
    judged⟩

end Pass

end Undelete
