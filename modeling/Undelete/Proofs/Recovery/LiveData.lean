import Undelete.Proofs.Recovery.Memory
import Undelete.Proofs.Volume.Small

/-!
A clean result contains no data of a live file within the cap of the live file's walk. Beyond the
cap the clusters of a live file are claimed by nobody, and a deleted file may be recovered from
them as if nothing was wrong.
-/

namespace Undelete

namespace Pass

variable {config : Config} {g : Geometry} {source : Source} {found : Survey}

/-- A candidate that is recovered completely has a chain without problematic clusters. -/
theorem problematic_of_delivered {plan : Plan} {status : Status}
    (delivered : Delivers (verdict source config g plan) status)
    (success : status.outcome = .success) : plan.status.problematic = [] := by
  obtain ⟨path, digest, rfl⟩ := delivered
  obtain ⟨-, none, -⟩ := Status.outcomeOf_eq_success_iff.mp success
  refine List.eq_nil_iff_forall_not_mem.mpr ?_
  intro cluster member
  have kept := (settled_haulOf source config g plan).kept cluster member
  rw [none] at kept
  cases kept

/-- The walk along a live file claims every cluster that fewer links lead to than its cap. -/
theorem mem_chainOf_of_fatTrail {live : Entry} (file : live.isDirectory = false)
    {links cluster : Nat} (trail : g.FatTrail (source.fatEntry g) live.startCluster links cluster)
    (within : links < config.walker.maxLength (g.clustersFor live.size)) :
    cluster ∈ (chainOf config g source live).clusters := by
  have walked := Walker.walkFrom_walked config.walker g source live.fileId
    (g.clustersFor live.size) (config.walker.maxLength (g.clustersFor live.size)) trail.valid_start
  unfold chainOf Walker.walk
  rw [file]
  exact walked.mem_of_fatTrail trail (by omega)

/-- A file that is recovered completely has no cluster in common with a live file as far as the
cap on the live file's walk goes. -/
theorem run_success_spares_live [Digests] {ω : Type} [Output ω] {partition : Nat}
    {before after : Run ω} {result : PassResult}
    (ok : run config partition g before = (.ok result, after)) (few : result.entries < UInt32.size)
    {status : Status} (reported : status ∈ result.statuses) (success : status.outcome = .success) :
    ∃ found, survey config g before.source = .ok found ∧
      ∃ entry ∈ found.scan.entries, entry.ordinal = status.ordinal ∧
        ∀ live ∈ found.scan.entries, live.deleted = false → live.isDirectory = false →
          ∀ links cluster,
            g.FatTrail (before.source.fatEntry g) live.startCluster links cluster →
            links < config.walker.maxLength (g.clustersFor live.size) →
            cluster ∉ (chainOf config g before.source entry).clusters := by
  obtain ⟨found, surveyed, count, ⟨-, planned⟩, -⟩ := run_ok ok
  rw [count] at few
  obtain ⟨plan, member, delivered⟩ := planned status reported
  have clean := problematic_of_delivered delivered success
  obtain ⟨entry, known, selected, rfl⟩ := (mem_plans surveyed).mp member
  refine ⟨found, surveyed, entry, known, ?_, ?_⟩
  · exact (ordinal_of_delivers delivered).symm
  · intro live known' alive file links cluster trail within shared
    have claimed := mem_chainOf_of_fatTrail file trail within
    have taken := takenFrom_of_live surveyed known selected known' alive claimed
    have problematic := problematic_of_taken surveyed few known shared taken
    rw [clean] at problematic
    cases problematic

/-- A live file of ten bytes with a FAT chain of the clusters 3 to 6, and a deleted file whose
entry points at the third of them. -/
def beyondCap : Source :=
  Small.source [0, 0, Small.chainEnd, 4, 5, 6, Small.chainEnd]
    [Small.slot 0x41 0x20 3 10 ++ Small.slot 0xE5 0x20 5 1000, [1], [2], [3], [4]]

/-- What the survey of that volume tells, with the outcome that follows for the deleted file. -/
theorem survey_beyondCap :
    ∃ found, survey {} (Small.geometry 5) beyondCap = .ok found ∧
      found.scan.entries.length = 2 ∧
      (∃ plan ∈ plans {} (Small.geometry 5) found,
        (verdict beyondCap {} (Small.geometry 5) plan).outcome = .success ∧
        5 ∈ plan.chain.clusters.take ((Small.geometry 5).clustersFor plan.entry.size)) ∧
      ∃ live ∈ found.scan.entries, live.deleted = false ∧ live.isDirectory = false ∧
        live.startCluster = 3 := by
  apply exists_ok
  simp only [survey, chainOf, verdict, haulOf, beyondCap, Small.source, Probe.answer_ofImage]
  decide +kernel

theorem run_beyondCap [Digests] :
    ∃ found result after, survey {} (Small.geometry 5) beyondCap = .ok found ∧
      run {} 0 (Small.geometry 5) ⟨beyondCap, MemoryOutput.empty, []⟩ = (.ok result, after) ∧
      result.entries = 2 ∧
      (∃ status ∈ result.statuses, status.outcome = .success ∧
        ∃ entry ∈ found.scan.entries, entry.ordinal = status.ordinal ∧
          5 ∈ (chainOf {} (Small.geometry 5) beyondCap entry).clusters.take
            ((Small.geometry 5).clustersFor entry.size)) ∧
      ∃ live ∈ found.scan.entries, live.deleted = false ∧ live.isDirectory = false ∧
        live.startCluster = 3 := by
  obtain ⟨found, surveyed, count, ⟨plan, planned, outcome, covered⟩, others⟩ := survey_beyondCap
  obtain ⟨result, after, ok, -⟩ := run_memory surveyed (by rw [count]; decide) 0 []
  obtain ⟨found', surveyed', entries, ⟨reports, -⟩, -⟩ := run_ok ok
  rw [surveyed] at surveyed'
  cases surveyed'
  obtain ⟨status, reported, delivered⟩ := reports plan planned
  have ordinal := ordinal_of_delivers delivered
  have success : status.outcome = .success := by
    obtain ⟨path, digest, rfl⟩ := delivered
    exact outcome
  obtain ⟨entry, known, -, rfl⟩ := (mem_plans surveyed).mp planned
  exact ⟨found, result, after, surveyed, ok, entries.trans count,
    ⟨status, reported, success, entry, known, ordinal.symm, covered⟩, others⟩

theorem run_success_spares_live_beyondCap :
    ∃ result after, run {} 0 (Small.geometry 5) ⟨beyondCap, MemoryOutput.empty, []⟩ =
        (.ok result, after) ∧ result.entries < UInt32.size ∧
      ∃ status ∈ result.statuses, status.outcome = .success ∧
      ∃ found, survey {} (Small.geometry 5) beyondCap = .ok found ∧
      ∃ entry ∈ found.scan.entries, entry.ordinal = status.ordinal ∧
        ∀ live ∈ found.scan.entries, live.deleted = false → live.isDirectory = false →
          ∀ links cluster, (Small.geometry 5).FatTrail
              (beyondCap.fatEntry (Small.geometry 5)) live.startCluster links cluster →
            links < Walker.maxLength {} ((Small.geometry 5).clustersFor live.size) →
            cluster ∉ (chainOf {} (Small.geometry 5) beyondCap entry).clusters := by
  obtain ⟨-, result, after, -, ok, count, ⟨status, reported, success, -⟩, -⟩ := run_beyondCap
  have few : result.entries < UInt32.size := by
    rw [count]
    decide
  exact ⟨result, after, ok, few, status, reported, success,
    run_success_spares_live ok few reported success⟩

/-- The live file's walk stops after two of its clusters, so that the deleted file is recovered
from the others as if they were its own. -/
theorem success_beyondCap :
    beyondCap.geometry 0 = .ok (Small.geometry 5) ∧
    ∃ found result after, survey {} (Small.geometry 5) beyondCap = .ok found ∧
      run {} 0 (Small.geometry 5) ⟨beyondCap, MemoryOutput.empty, []⟩ = (.ok result, after) ∧
      ∃ status ∈ result.statuses, status.outcome = .success ∧
      ∃ entry ∈ found.scan.entries, entry.ordinal = status.ordinal ∧
      ∃ live ∈ found.scan.entries, live.deleted = false ∧ live.isDirectory = false ∧
      ∃ cluster ∈ (chainOf {} (Small.geometry 5) beyondCap entry).clusters.take
          ((Small.geometry 5).clustersFor entry.size),
        ∃ links, (Small.geometry 5).FatTrail (beyondCap.fatEntry (Small.geometry 5))
          live.startCluster links cluster := by
  obtain ⟨found, result, after, surveyed, ok, -, ⟨status, reported, success, entry, known,
    ordinal, covered⟩, live, known', alive, file, start⟩ := run_beyondCap
  refine ⟨?_, found, result, after, surveyed, ok, status, reported, success, entry, known,
    ordinal, live, known', alive, file, 5, covered, 2, ?_⟩
  · simp only [Source.geometry, BootSector.ofSource, beyondCap, Small.source, Source.read_ofImage]
    decide +kernel
  · rw [start, beyondCap, Small.source, Source.fatEntry_ofImage]
    have three : (Small.geometry 5).Valid 3 := by decide
    have four : (Small.geometry 5).Valid 4 := by decide
    have five : (Small.geometry 5).Valid 5 := by decide
    refine .link (.link (.start three) ?_ four) ?_ five
    · decide +kernel
    · decide +kernel

end Pass

end Undelete
