import Undelete.Proofs.Recovery.Outcome
import Undelete.Proofs.Recovery.Stored

/-!
What a report tells and what memory holds after a whole run. Over all partitions, visited or
skipped, the stored files are those of the candidates that have not failed, and the totals of the
report count exactly what is stored.
-/

namespace Undelete

/-- Work that is done only under a condition can be passed over. -/
theorem Engine.ok_of_when {ω α β : Type} {run after : Run ω} {condition : Bool}
    {work : Engine ω α} {onward : Engine ω β} {result : β}
    (ok : (if condition = true then work >>= fun _ => onward else onward) run =
      (.ok result, after)) :
    ∃ mid, onward mid = (.ok result, after) := by
  split at ok
  · obtain ⟨_, mid, done, ok⟩ := ok_of_bind ok
    exact ⟨mid, ok⟩
  · exact ⟨run, ok⟩

/-- The statuses of a partition, each with the partition's index. -/
def PartitionReport.told (report : PartitionReport) : List (Nat × Status) :=
  report.statuses.map (report.index, ·)

/-- All statuses with the indices of their partitions. -/
def Report.told (report : Report) : List (Nat × Status) :=
  report.partitions.flatMap PartitionReport.told

/-- What a visit stores in memory is what its report tells of. -/
theorem Visit.Of.filed [Digests] {config : Config} {source : Source} {category : Category}
    {index : Nat} {visit : Visit} {output last : MemoryOutput} {told : List (Option String)}
    (of : visit.Of config source category index) (writing : config.analyzeOnly = false)
    (accepts : Output.Accepts output visit.calls told last) :
    Filed output.files (visit.report told).told last.files := by
  cases of with
  | @skipped listed blank reason =>
    cases accepts
    simp only [PartitionReport.told, Visit.skipped, blank.statuses]
    exact .done _
  | @passing listed g volume blank known =>
    rw [Visit.calls_passing] at accepts
    simp only [PartitionReport.told, Visit.passing]
    cases surveyed : Pass.survey config g volume with
    | error failure =>
      rw [Pass.outputCalls, surveyed] at accepts
      cases accepts
      simp only [blank.statuses]
      exact .done _
    | ok found =>
      let before : Run MemoryOutput := ⟨volume, output, []⟩
      have surveyed' : Pass.survey config g before.source = .ok found := surveyed
      obtain ⟨after, ok, rfl⟩ := Pass.run_accepted surveyed' accepts
      exact Pass.run_filed writing ok

/-- A tour stores in memory what its reports tell of. -/
theorem Tour.filed [Digests] {config : Config} {source : Source} {category : Category} {first : Nat}
    {stops : Stops} {output last : MemoryOutput} {reports : List PartitionReport}
    (tour : Tour output stops reports last)
    (numbered : stops.Numbered (Visit.Of config source category) first)
    (writing : config.analyzeOnly = false) :
    Filed output.files (reports.flatMap PartitionReport.told) last.files := by
  induction tour generalizing first with
  | done => exact .done _
  | visit accepts _ ih => exact (numbered.head.filed writing accepts).append (ih numbered.tail)

namespace Device

variable [Digests] {config : Config} {session : Session} {drive : Drive} {report : Report}

theorem totals_of_recover {ω : Type} [Output ω] {run after : Run ω}
    (ok : recover config session drive run = (.ok report, after)) :
    report.totals = Totals.ofPartitions report.partitions := by
  unfold recover at ok
  obtain ⟨_, told, announced, ok⟩ := Engine.ok_of_bind ok
  obtain ⟨_, _, got, ok⟩ := Engine.ok_of_bind ok
  obtain ⟨mid, ok⟩ := Engine.ok_of_when ok
  split at ok
  next =>
    obtain ⟨reports, last, visited, ok⟩ := Engine.ok_of_bind ok
    cases ok
    rfl
  next =>
    obtain ⟨⟨scheme, reports⟩, last, visited, ok⟩ := Engine.ok_of_bind ok
    cases ok
    rfl

theorem recover_filed (writing : config.analyzeOnly = false) {run after : Run MemoryOutput}
    (ok : recover config session drive run = (.ok report, after)) :
    Filed run.output.files report.told after.output.files ∧
      report.totals = Totals.ofPartitions report.partitions := by
  obtain ⟨stops, planned, tour, -⟩ := (travels_recover config session drive run).ok ok
  obtain ⟨here, -, planned⟩ := stops_of_route planned
  exact ⟨tour.filed (numbered_stops planned) writing, totals_of_recover ok⟩

end Device

namespace Totals

/-- Every candidate has one of the three outcomes. -/
theorem length_eq_counts (statuses : List Status) :
    statuses.length = statuses.countP (·.outcome = .success) +
      statuses.countP (·.outcome = .partly) + statuses.countP (·.outcome = .failed) := by
  induction statuses with
  | nil => rfl
  | cons status rest ih =>
    simp only [List.length_cons, List.countP_cons]
    cases status.outcome <;> simp only [reduceCtorEq, decide_true, decide_false, if_true,
      Bool.false_eq_true, if_false] <;> omega

theorem foldl_recoveredBytes (statuses : List Status) :
    statuses.foldl (fun total status => total + status.recoveredBytes) 0 =
      (statuses.map Status.recoveredBytes).sum := by
  rw [List.sum_eq_foldl, List.foldl_map]

end Totals

namespace Report

variable {report : Report} {output : MemoryOutput}

theorem mem_told {pair : Nat × Status} :
    pair ∈ report.told ↔
      ∃ part ∈ report.partitions, ∃ status ∈ part.statuses, (part.index, status) = pair := by
  simp [told, PartitionReport.told]

theorem map_snd_told (report : Report) : report.told.map Prod.snd = report.statuses := by
  simp [told, statuses, PartitionReport.told, List.map_flatMap, Function.comp_def]

/-- Whether memory holds exactly the files that a report tells of. -/
structure Agrees [Digests] (report : Report) (output : MemoryOutput) : Prop where
  keys : ∀ partition fileId, output.get? partition fileId ≠ none ↔
    ∃ part ∈ report.partitions, ∃ status ∈ part.statuses, status.outcome ≠ .failed ∧
      part.index = partition ∧ status.fileId = fileId
  distinct : (output.files.map MemoryFile.key).Nodup
  size : output.size = report.statuses.countP (·.outcome ≠ .failed)
  stored : ∀ part ∈ report.partitions, ∀ status ∈ part.statuses, status.outcome ≠ .failed →
    ∃ contents, output.get? part.index status.fileId = some contents ∧
      contents.length = status.recoveredBytes ∧ status.sha256 = some (Digests.sha256 contents)
  bounded : ∀ status ∈ report.statuses, status.recoveredBytes ≤ status.declaredSize
  digest : ∀ status ∈ report.statuses, status.sha256 = none ↔ status.outcome = .failed
  candidates : report.totals.candidates =
    report.totals.succeeded + report.totals.partly + report.totals.failed
  partitions : report.totals.partitionsRecovered + report.totals.partitionsSkipped =
    report.partitions.length
  bytes : report.totals.recoveredBytes =
    (output.files.map fun file => file.contents.length).sum

theorem agrees_of_filed [Digests] (filed : Filed [] report.told output.files)
    (totals : report.totals = Totals.ofPartitions report.partitions) : report.Agrees output := by
  have distinct := filed.nodup List.nodup_nil
  have known {status : Status} (reported : status ∈ report.statuses) :
      ∃ pair ∈ report.told, pair.2 = status := by
    rw [← map_snd_told] at reported
    exact List.mem_map.mp reported
  constructor
  · intro partition fileId
    rw [ne_eq, MemoryOutput.get?_eq_none_iff_key, not_not, filed.mem_keys]
    simp only [List.map_nil, List.not_mem_nil, false_or, mem_told]
    constructor
    · rintro ⟨_, ⟨part, visited, status, reported, rfl⟩, outcome, key⟩
      obtain ⟨rfl, rfl⟩ := Prod.mk.inj key
      exact ⟨part, visited, status, reported, outcome, rfl, rfl⟩
    · rintro ⟨part, visited, status, reported, outcome, rfl, rfl⟩
      exact ⟨_, ⟨part, visited, status, reported, rfl⟩, outcome, rfl⟩
  · exact distinct
  · rw [← map_snd_told, List.countP_map, MemoryOutput.size, filed.length_eq]
    exact Nat.zero_add _
  · intro part visited status reported outcome
    obtain ⟨file, member, key, length, digest⟩ :=
      filed.exists_matches (mem_told.mpr ⟨part, visited, status, reported, rfl⟩) outcome
    obtain ⟨index, fileId⟩ := Prod.mk.inj key
    have found := MemoryOutput.get?_of_mem distinct member
    rw [index, fileId] at found
    exact ⟨file.contents, found, length, digest⟩
  · intro status reported
    obtain ⟨pair, told, rfl⟩ := known reported
    exact filed.bytes_le told
  · intro status reported
    obtain ⟨pair, told, rfl⟩ := known reported
    exact filed.digest_eq_none_iff told
  · rw [totals]
    exact Totals.length_eq_counts _
  · rw [totals, List.length_eq_countP_add_countP PartitionReport.isRecovered]
    simp [Totals.ofPartitions]
  · have each : report.told.map (fun pair => pair.2.recoveredBytes) =
        report.statuses.map Status.recoveredBytes := by
      rw [← map_snd_told, List.map_map]
      rfl
    rw [totals, filed.sum_lengths, each, List.map_nil, List.sum_nil, Nat.zero_add]
    exact Totals.foldl_recoveredBytes _

end Report

namespace Device

/-- After every run that succeeds, report and memory agree. -/
theorem recover_agrees [Digests] {config : Config} (writing : config.analyzeOnly = false)
    {session : Session} {drive : Drive} {source : Source} {journal : List Event} {report : Report}
    {after : Run MemoryOutput}
    (ok : recover config session drive ⟨source, MemoryOutput.empty, journal⟩ =
      (.ok report, after)) :
    report.Agrees after.output := by
  obtain ⟨filed, totals⟩ := recover_filed writing ok
  exact Report.agrees_of_filed filed totals

/-- A logical drive whose volume is recognized and can be surveyed is recovered. -/
theorem recover_logical [Digests] {config : Config} {session : Session} {drive : Drive}
    {source : Source} {g : Geometry} {found : Survey} (single : drive.category = .logical)
    (fresh : source.reopen = .ok source) (recognized : source.geometry 0 = .ok g)
    (surveyed : Pass.survey config g source = .ok found)
    (few : found.scan.entries.length < UInt32.size) (journal : List Event) :
    ∃ report after,
      recover config session drive ⟨source, MemoryOutput.empty, journal⟩ = (.ok report, after) ∧
      List.Forall₂ (fun plan => Pass.Delivers (Pass.verdict source config g plan))
        (Pass.plans config g found) report.statuses := by
  let visit : Visit := .passing config g { PartitionReport.fresh 0 source.startLba .unknown with
    declared := .fat32
    sectorCount := g.totalSectors } source
  have planned : Visit.ofLogical config source = .ok visit := by
    unfold Visit.ofLogical
    rw [recognized, fresh]
    rfl
  have stops : Device.stops config source .logical = .ok [.ok visit] := by
    rw [Device.stops, planned]
  have alone : FewEntries config source .logical := by
    intro g' volume found' known surveyed'
    cases known with
    | logical recognized' again =>
      cases recognized.symm.trans recognized'
      cases fresh.symm.trans again
      cases surveyed.symm.trans surveyed'
      exact few
  have distinct : (visit.files.map Delivery.key).Nodup := by
    have nodup := (numbered_stops stops).distinct alone
    rwa [Stops.files_cons_ok, Stops.files, List.flatMap_nil, List.append_nil] at nodup
  obtain ⟨report, after, told, ok, reported, -⟩ :=
    recover_single session single fresh planned distinct journal
  refine ⟨report, after, ok, ?_⟩
  rw [Report.statuses, reported, List.flatMap_singleton]
  simp only [visit, Visit.passing, surveyed]
  exact Pass.delivers_statusesAt ..

theorem recover_agrees_assorted :
    ∃ report after, recover {} ⟨⟨0⟩, Timestamp.ofUnix 0, Timestamp.ofUnix 1⟩
        (Drive.image "volume" .logical) ⟨Pass.assorted, MemoryOutput.empty, []⟩ =
          (.ok report, after) ∧
      report.statuses.map Status.outcome = [.success, .failed, .success, .partly, .failed] ∧
      report.Agrees after.output := by
  obtain ⟨found, surveyed, few, outcomes⟩ := Pass.survey_assorted
  have recognized : Pass.assorted.geometry 0 = .ok (Small.geometry 7) := by
    simp only [Source.geometry, BootSector.ofSource, Pass.assorted, Small.source,
      Source.read_ofImage]
    decide +kernel
  have single : (Drive.image "volume" .logical).category = .logical := rfl
  obtain ⟨report, after, ok, delivered⟩ := recover_logical single rfl recognized surveyed few []
  exact ⟨report, after, ok, (Pass.outcomes_of_delivers delivered).trans outcomes,
    recover_agrees rfl ok⟩

end Device

end Undelete
