import Undelete.Proofs.Recovery.Obstacles

/-!
What is skipped leaves nothing behind. A pass stops for a reason other than its output before it
has called the output, and for a volume that is skipped no file is handed over at all.
-/

namespace Undelete

namespace Tour

variable [Digests] {ω : Type} [Output ω] {config : Config} {source : Source} {category : Category}
  {stops : Stops} {output last : ω} {reports : List PartitionReport}

/-- A report of a tour comes from the visit to the volume with its index. -/
theorem exists_visit (tour : Tour output stops reports last)
    (numbered : stops.Numbered (Visit.Of config source category) 0) {part : PartitionReport}
    (reported : part ∈ reports) :
    ∃ visit told, stops[part.index]? = some (.ok visit) ∧
      visit.Of config source category part.index ∧ part = visit.report told := by
  obtain ⟨place, here⟩ := List.mem_iff_getElem?.mp reported
  obtain ⟨visit, told, before, later, known, -, rfl⟩ := tour.visited_at here
  have of := numbered place visit known
  rw [Nat.zero_add] at of
  rw [of.index_report]
  exact ⟨visit, told, known, of, rfl⟩

/-- No file is handed over for a volume that is skipped. -/
theorem no_files_of_skipped (tour : Tour output stops reports last)
    (numbered : stops.Numbered (Visit.Of config source category) 0) {part : PartitionReport}
    (reported : part ∈ reports) {reason : String} (outcome : part.outcome = .skipped reason) :
    (∀ file ∈ stops.files, file.partition ≠ part.index) ∧
      part.directories = 0 ∧ part.entries = 0 ∧ part.statuses = [] := by
  obtain ⟨visit, told, known, of, same⟩ := tour.exists_visit numbered reported
  rw [same] at outcome
  obtain ⟨files, blank⟩ := of.nothing_of_skipped outcome
  rw [← same] at blank
  refine ⟨fun file member own => ?_, blank⟩
  have none := numbered.filter_files known
  rw [Nat.zero_add, files] at none
  exact List.filter_eq_nil_iff.mp none file member (decide_eq_true own)

end Tour

namespace Device

variable {ω : Type} [Output ω]

/-- A partition that is skipped has no calls on the output and nothing in its report, and a pass
that fails without the output's fault has not called the output. -/
theorem recover_spares_skipped [Digests] [LawfulOutput ω] (config : Config) :
    (∀ (session : Session) (drive : Drive) (before after : Run ω) (report : Report),
      recover config session drive before = (.ok report, after) →
      ∃ files : List Delivery, after.calls = before.calls ++ files.flatMap Delivery.calls ∧
        ∀ part ∈ report.partitions, ∀ reason, part.outcome = .skipped reason →
          (∀ file ∈ files, file.partition ≠ part.index) ∧
            part.directories = 0 ∧ part.entries = 0 ∧ part.statuses = []) ∧
      ∀ (partition : Nat) (g : Geometry) (before after : Run ω) (failure : Failure),
        Pass.run config partition g before = (.error failure, after) →
        (∀ reason, failure ≠ .output reason) →
        after.output = before.output ∧ after.calls = before.calls := by
  constructor
  · intro session drive before after report ok
    obtain ⟨stops, planned, tour, calls⟩ := (travels_recover config session drive before).ok ok
    obtain ⟨here, -, planned⟩ := stops_of_route planned
    exact ⟨stops.files, calls, fun part reported reason outcome =>
      tour.no_files_of_skipped (numbered_stops planned) reported outcome⟩
  · intro partition g before after failure stopped elsewhere
    obtain ⟨-, quiet⟩ := Pass.quiet_of_stopped stopped elsewhere
    exact ⟨quiet.output, quiet.calls⟩

/-- The volume of which nothing but the boot sector is left has no FAT to survey it by. -/
theorem survey_mixed : Pass.survey {} (Small.geometry 2) (mixed.setStart 9) =
    .error (.unreadableSector 1) := by
  have unlinked : ((Small.geometry 2).liveChain 2 4096).answer (mixed.setStart 9)
      (Small.geometry 2) = .error (.unreadableSector 1) := by
    simp only [mixed, Small.disk, Probe.answer_setStart]
    decide +kernel
  have valid : (Small.geometry 2).Valid 2 := by decide
  have scanned : (Scan.ofRoot (Small.geometry 2) 32 4096 2).answer (mixed.setStart 9)
      (Small.geometry 2) = .error (.unreadableSector 1) :=
    Scan.failure_iff.mpr ⟨valid, unlinked⟩
  unfold Pass.survey
  exact congrArg (· >>= _) scanned

/-- A run over a disk with a partition of another type, and a pass over a volume without a FAT. -/
theorem recover_spares_skipped_mixed :
    (∃ report after, recover {} ⟨⟨0⟩, Timestamp.ofUnix 0, Timestamp.ofUnix 1⟩
        (Drive.image "disk" .physical) ⟨mixed, MemoryOutput.empty, []⟩ = (.ok report, after) ∧
      ∃ part ∈ report.partitions, part.index = 1 ∧ part.outcome ≠ .recovered ∧
        ∃ files : List Delivery, after.calls = files.flatMap Delivery.calls ∧
          (∀ file ∈ files, file.partition ≠ 1) ∧ part.directories = 0 ∧ part.entries = 0 ∧
            part.statuses = []) ∧
      ∃ after, Pass.run {} 3 (Small.geometry 2) ⟨mixed.setStart 9, MemoryOutput.empty, []⟩ =
          (.error (.unreadableSector 1), after) ∧
        after.output = MemoryOutput.empty ∧ after.calls = [] := by
  constructor
  · have disk : (Drive.image "disk" .physical).category = .physical := rfl
    obtain ⟨report, after, partitions, ok, listed, reports⟩ :=
      recover_clear ⟨⟨0⟩, Timestamp.ofUnix 0, Timestamp.ofUnix 1⟩ disk rfl (by decide)
        (fewEntries_mixed {}) [] clear_mixed
    obtain ⟨partitions', listed', places⟩ := listing_mixed
    cases listed.symm.trans listed'
    obtain ⟨first, rest, rfl, -, places⟩ := List.map_eq_cons_iff.mp places
    obtain ⟨second, rest, rfl, foreign, -⟩ := List.map_eq_cons_iff.mp places
    replace foreign := congrArg Prod.fst foreign
    cases reported : report.partitions with
    | nil =>
      rw [reported] at reports
      cases reports
    | cons one others =>
      rw [reported] at reports
      obtain ⟨-, reports⟩ := List.forall₂_cons.mp reports
      cases reports with
      | @cons _ part _ others told _ =>
        have passedBy : part.outcome ≠ .recovered := by
          intro recovered
          cases foreign.symm.trans (told.recovered_iff.mp recovered).1
        obtain ⟨reason, skipped⟩ := told.outcome.resolve_left passedBy
        obtain ⟨files, calls, nothing⟩ := (recover_spares_skipped {}).1 _ _ _ after report ok
        have member : part ∈ report.partitions := by simp [reported]
        obtain ⟨absent, blank⟩ := nothing part member reason skipped
        rw [told.index] at absent
        exact ⟨report, after, ok, part, member, told.index, passedBy, files, calls,
          absent, blank⟩
  · let before : Run MemoryOutput := ⟨mixed.setStart 9, MemoryOutput.empty, []⟩
    have unsurveyed : Pass.survey {} (Small.geometry 2) before.source =
      .error (.unreadableSector 1) := survey_mixed
    obtain ⟨after, stopped, -⟩ := Pass.run_unsurveyed 3 unsurveyed
    exact ⟨after, stopped, (recover_spares_skipped {}).2 _ _ before after _ stopped (by simp)⟩

end Device

end Undelete
