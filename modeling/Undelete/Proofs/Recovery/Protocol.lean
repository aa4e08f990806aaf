import Undelete.Proofs.Recovery.Agreement
import Undelete.Proofs.Recovery.Blame

/-!
The order of calls on an output. A run starts a file, appends what there is of it piece by piece
and closes it before the next one is started. There is one file for every candidate that has not
failed, in the order in which the candidates are told. No output is therefore called out of turn.
-/

namespace Undelete

/-- Whether a file is that of a candidate, told with its partition. -/
structure Delivery.Fits (file : Delivery) (told : Nat × Status) : Prop where
  partition : file.partition = told.1
  fileId : file.entry.fileId = told.2.fileId
  ordinal : file.entry.ordinal = told.2.ordinal
  startCluster : file.entry.startCluster = told.2.startCluster
  size : file.entry.size = told.2.declaredSize
  displayName : file.entry.displayName = told.2.displayName

namespace Pass

variable {config : Config} {g : Geometry} {source : Source} {found : Survey} {plan : Plan}

/-- No piece of a file is empty. -/
theorem pieces_ne_nil {piece : Nat × Bytes} (member : piece ∈ pieces source g plan) :
    piece.2 ≠ [] := by
  obtain ⟨portion, covered, taken⟩ := List.mem_filterMap.mp member
  unfold pieceOf at taken
  split at taken
  · cases taken
  split at taken
  next data answered =>
    cases taken
    obtain ⟨-, share, fits⟩ := mem_of_mem_portions covered
    have length := length_contents answered
    intro empty
    have none := congrArg List.length empty
    rw [List.length_take, length, List.length_nil] at none
    omega
  next => cases taken

theorem outcome_statusAt_iff [Digests] (writing : config.analyzeOnly = false)
    (place : Option String) (plan : Plan) :
    (statusAt source config g place plan).outcome = .failed ↔
      isSkipped source config g plan = true := by
  have same : (statusAt source config g place plan).outcome =
      (verdict source config g plan).outcome := by
    unfold statusAt
    split <;> rfl
  have outcome : (verdict source config g plan).outcome = .failed ↔
      hasContent plan (haulOf source config g plan) = false :=
    Status.outcomeOf_eq_failed_iff
  have skipped := skipped_eq source config g plan
  rw [same, outcome, ← skipped, writing]
  simp

theorem fits_statusAt [Digests] (surveyed : survey config g source = .ok found)
    (planned : plan ∈ plans config g found) (partition : Nat) (place : Option String) :
    (deliveryOf source g partition plan).Fits (partition, statusAt source config g place plan) := by
  obtain ⟨entry, -, -, rfl⟩ := (mem_plans surveyed).mp planned
  rw [(delivers_statusAt source config g place _).eq_update]
  exact ⟨rfl, rfl, rfl, rfl, rfl, rfl⟩

/-- The candidates that have not failed are those whose files are handed over. -/
theorem files_fit [Digests] (writing : config.analyzeOnly = false) {partition : Nat}
    {candidates : List Plan}
    (fits : ∀ plan ∈ candidates, ∀ place, (deliveryOf source g partition plan).Fits
      (partition, statusAt source config g place plan)) (told : List (Option String)) :
    List.Forall₂ Delivery.Fits
      ((candidates.filter fun plan => !isSkipped source config g plan).map
        (deliveryOf source g partition))
      (((statusesAt source config g candidates told).map (partition, ·)).filter
        (·.2.outcome ≠ .failed)) := by
  induction candidates generalizing told with
  | nil => exact .nil
  | cons plan rest ih =>
    -- Whatever places are told, a candidate drops out of both lists or stays in both.
    have later := ih fun plan member => fits plan (List.mem_cons_of_mem _ member)
    have outcome : (statusAt source config g told.head?.join plan).outcome = .failed ↔
        isSkipped source config g plan = true := outcome_statusAt_iff writing _ plan
    rw [statusesAt, List.map_cons, List.filter_cons, List.filter_cons]
    by_cases skipped : isSkipped source config g plan = true
    · rw [outcome.mpr skipped]
      simpa [skipped] using later told
    · have kept : (statusAt source config g told.head?.join plan).outcome ≠ .failed :=
        fun failed => skipped (outcome.mp failed)
      simp only [skipped, Bool.not_false, if_true, kept, ne_eq, not_false_eq_true, decide_true,
        List.map_cons, Bool.false_eq_true, if_false]
      exact .cons (fits plan List.mem_cons_self _) (later _)

end Pass

namespace Visit.Of

variable [Digests] {config : Config} {source : Source} {category : Category} {index : Nat}
  {visit : Visit} (of : visit.Of config source category index)
include of

theorem pieces_ne_nil {file : Delivery} (member : file ∈ visit.files) {piece : Bytes}
    (part : piece ∈ file.data) : piece ≠ [] := by
  cases of with
  | skipped blank reason => cases member
  | @passing listed g volume blank known =>
    dsimp only [Visit.passing, Pass.deliveries] at member
    split at member
    · obtain ⟨plan, planned, rfl⟩ := List.mem_map.mp member
      obtain ⟨whole, taken, rfl⟩ := List.mem_map.mp part
      exact Pass.pieces_ne_nil taken
    · cases member

/-- A report tells of the files of its visit, and otherwise only of candidates that failed. -/
theorem fit (writing : config.analyzeOnly = false) (told : List (Option String)) :
    List.Forall₂ Delivery.Fits visit.files
      ((visit.report told).told.filter (·.2.outcome ≠ .failed)) := by
  cases of with
  | skipped blank reason =>
    simp only [PartitionReport.told, Visit.skipped, blank.statuses]
    exact .nil
  | @passing listed g volume blank known =>
    simp only [PartitionReport.told, Visit.passing, Pass.deliveries]
    cases surveyed : Pass.survey config g volume with
    | error failure =>
      simp only [blank.statuses]
      exact .nil
    | ok found =>
      exact Pass.files_fit writing (fun plan planned place =>
        Pass.fits_statusAt surveyed planned listed.index place) told

end Visit.Of

namespace Tour

variable [Digests] {config : Config} {source : Source} {category : Category} {first : Nat}

theorem pieces_ne_nil {stops : Stops}
    (numbered : stops.Numbered (Visit.Of config source category) first) {file : Delivery}
    (member : file ∈ stops.files) {piece : Bytes} (part : piece ∈ file.data) : piece ≠ [] := by
  obtain ⟨place, visit, own, of⟩ := numbered.exists_visit member
  exact of.pieces_ne_nil own part

theorem fit {ω : Type} [Output ω] {output last : ω} {stops : Stops}
    {reports : List PartitionReport} (tour : Tour output stops reports last)
    (numbered : stops.Numbered (Visit.Of config source category) first)
    (writing : config.analyzeOnly = false) :
    List.Forall₂ Delivery.Fits stops.files
      ((reports.flatMap PartitionReport.told).filter (·.2.outcome ≠ .failed)) := by
  induction tour generalizing first with
  | done => exact .nil
  | visit accepts _ ih =>
    rw [Stops.files_cons_ok, List.flatMap_cons, List.filter_append]
    exact List.rel_append (numbered.head.fit writing _) (ih numbered.tail)

end Tour

/-- Whether files are handed over as a report tells: one for every candidate that has not failed,
in order, and none twice. -/
structure Report.Settles (report : Report) (files : List Delivery) : Prop where
  filled : ∀ file ∈ files, ∀ piece ∈ file.data, piece ≠ []
  fit : List.Forall₂ Delivery.Fits files (report.told.filter (·.2.outcome ≠ .failed))
  ascending : files.Pairwise fun earlier later => earlier.partition < later.partition ∨
    earlier.partition = later.partition ∧ earlier.entry.ordinal < later.entry.ordinal
  keys : (files.map Delivery.key).Nodup
  ordinals : (files.map fun file => (file.partition, file.entry.ordinal)).Nodup

/-- The files of a tour settle its report. -/
theorem Tour.settles [Digests] {config : Config} {source : Source} {category : Category} {ω : Type}
    [Output ω] {output last : ω} {stops : Stops} {report : Report}
    (tour : Tour output stops report.partitions last)
    (numbered : stops.Numbered (Visit.Of config source category) 0)
    (few : Device.FewEntries config source category) (writing : config.analyzeOnly = false) :
    report.Settles stops.files where
  filled file member piece part := Tour.pieces_ne_nil numbered member part
  fit := tour.fit numbered writing
  ascending := numbered.ascending
  keys := numbered.distinct few
  ordinals := by
    refine List.pairwise_map.mpr (numbered.ascending.imp ?_)
    intro earlier later order same
    obtain ⟨partition, ordinal⟩ := Prod.mk.inj same
    omega

namespace FolderOutput

open Output

variable {output : FolderOutput} {root path : String} {failure : Failure}

/-- An open file is filled and closed without any refusal. -/
theorem not_refuses_of_opened [Digests] (opened : Opened root path output) (data : List Bytes) :
    ¬ Refuses output (data.map Event.append ++ [.close]) failure := by
  induction data generalizing output with
  | nil =>
    intro refuses
    rcases refuses.of_cons with fails | ⟨told, mid, -, onward⟩
    · cases fails with
      | close failed =>
        obtain ⟨-, file, here, -⟩ := opened
        cases here.symm.trans (close_fails failed).1
    · exact not_refuses_nil onward
  | cons piece rest ih =>
    intro refuses
    rcases refuses.of_cons with fails | ⟨told, mid, first, onward⟩
    · cases fails with
      | append failed =>
        obtain ⟨-, file, here, -⟩ := opened
        cases here.symm.trans (append_fails failed).1
    · cases first with
      | append appended done =>
        cases done
        exact ih (opened_of_append opened appended) onward

/-- Between two files, a folder refuses a file only because it cannot be created. -/
theorem refuses_files [Digests] {files : List Delivery} (between : output.current = none)
    (refuses : Refuses output (files.flatMap Delivery.calls) failure) :
    ∃ path, failure = .output (path ++ " already exists") ∨
      ∃ refusal : HostError, failure = .output (path ++ ": " ++ refusal.text) := by
  induction files generalizing output with
  | nil => exact absurd refuses not_refuses_nil
  | cons file rest ih =>
    rcases refuses.of_append with own | ⟨told, mid, accepts, later⟩
    · rcases own.of_cons with fails | ⟨told, mid, first, onward⟩
      · cases fails with
        | start failed =>
          rcases start_fails failed with ⟨held, here, -⟩ | ⟨-, reason⟩
          · cases between.symm.trans here
          · exact ⟨_, reason⟩
      · cases first with
        | start started done =>
          cases done
          exact absurd onward (not_refuses_of_opened (opened_of_start ⟨rfl, between⟩ started) _)
    · exact ih ((places output.root file.partition).told ⟨rfl, between⟩ accepts).2.2 later

theorem getLast?_append_text (path : String) {text : String} (filled : text.toList ≠ []) :
    (path ++ text).toList.getLast? = text.toList.getLast? := by
  rw [String.toList_append, List.getLast?_append_of_ne_nil _ filled]

/-- That a file is open, or that none is, would be said in other words. -/
theorem last_ne_of_refuses [Digests] {files : List Delivery} {reason : String}
    (between : output.current = none)
    (refuses : Refuses output (files.flatMap Delivery.calls) (.output reason)) :
    reason.toList.getLast? ≠ some 'n' := by
  -- A path may hold any text, so that only the end of a reason tells one from another.
  obtain ⟨path, taken | ⟨refusal, uncreated⟩⟩ := refuses_files between refuses
  · cases taken
    rw [getLast?_append_text path (by decide)]
    decide
  · cases uncreated
    rw [getLast?_append_text _ (by cases refusal <;> decide)]
    cases refusal <;> decide

end FolderOutput

namespace Device

variable {config : Config} {source : Source} {failure : Failure}

/-- An output is never called out of turn: its calls are those that hand over the files of the
report, one file after the other. A folder is therefore never found with a file open or without
one, and memory accepts all files. -/
theorem recover_keeps_protocol [Digests] {session : Session} {drive : Drive}
    (writing : config.analyzeOnly = false)
    (few : ∀ here, source.opened = .ok here → FewEntries config here drive.category) :
    (∀ {ω : Type} [Output ω] [LawfulOutput ω] (output : ω) (report : Report) (after : Run ω),
      recover config session drive (.ofParts source output) = (.ok report, after) →
      ∃ files : List Delivery, after.calls = files.flatMap Delivery.calls ∧
        report.Settles files) ∧
      (∀ (output : FolderOutput) (failure : Failure) (after : Run FolderOutput),
        output.current = none →
        recover config session drive (.ofParts source output) = (.error failure, after) →
        failure ≠ noOpenFile ∧ ∀ path, failure ≠ .output (path ++ " is still open")) ∧
      ∀ (failure : Failure) (after : Run MemoryOutput),
        recover config session drive (.ofParts source MemoryOutput.empty) =
          (.error failure, after) →
        ∀ reason, failure ≠ .output reason := by
  refine ⟨?_, ?_, ?_⟩
  · intro ω _ _ output report after ok
    obtain ⟨stops, planned, tour, calls⟩ :=
      (travels_recover config session drive (.ofParts source output)).ok ok
    obtain ⟨here, opened, planned⟩ := stops_of_route planned
    exact ⟨stops.files, calls, tour.settles (numbered_stops planned) (few here opened) writing⟩
  · intro output failure after between stopped
    constructor
    · rintro rfl
      obtain ⟨stops, -, refused⟩ := refuses_of_recover stopped
      exact FolderOutput.last_ne_of_refuses between refused rfl
    · rintro path rfl
      obtain ⟨stops, -, refused⟩ := refuses_of_recover stopped
      refine FolderOutput.last_ne_of_refuses between refused ?_
      rw [FolderOutput.getLast?_append_text path (by decide)]
      rfl
  · rintro failure after stopped reason rfl
    obtain ⟨stops, planned, refused⟩ := refuses_of_recover stopped
    obtain ⟨here, opened, planned⟩ := stops_of_route planned
    exact not_refuses_memory planned (few here opened) refused

/-- A disk with a boot sector that cannot be read stops a run, whatever its output. -/
theorem stopped_of_bootObstacle [Digests] {ω : Type} [Output ω] [LawfulOutput ω] (config : Config)
    (session : Session) {drive : Drive} (disk : drive.category = .physical)
    (fresh : source.reopen = .ok source) (known : source.sectorSize ≠ 0)
    {partitions : List Partition} (listed : listing source = .ok partitions)
    (obstacle : BootObstacle source partitions failure) (output : ω) :
    ∃ reason after, recover config session drive (.ofParts source output) =
      (.error reason, after) := by
  have blocked : (stopsOf config source partitions).Blocked failure :=
    (blocked_stopsOf_iff fresh known partitions).mpr obstacle
  have route := route_physical config fresh
  rw [listed] at route
  cases done : recover config session drive (.ofParts source output) with
  | mk result after =>
    cases result with
    | error reason => exact ⟨reason, after, rfl⟩
    | ok report =>
      obtain ⟨stops, planned, tour, -⟩ :=
        (travels_recover config session drive (.ofParts source output)).ok done
      rw [disk] at planned
      cases route.symm.trans planned
      exact absurd blocked tour.not_blocked

/-- A run that succeeds with memory, and runs that are stopped with a folder and with memory. -/
theorem recover_keeps_protocol_mixed :
    (∃ report after, recover {} ⟨⟨0⟩, Timestamp.ofUnix 0, Timestamp.ofUnix 1⟩
        (Drive.image "disk" .physical) (.ofParts mixed MemoryOutput.empty) = (.ok report, after) ∧
      ∃ files : List Delivery, after.calls = files.flatMap Delivery.calls ∧
        report.Settles files) ∧
      (∃ failure after, recover {} ⟨⟨0⟩, Timestamp.ofUnix 0, Timestamp.ofUnix 1⟩
          (Drive.image "disk" .physical)
          (.ofParts truncated (⟨"out", FileTree.empty, none, []⟩ : FolderOutput)) =
            (.error failure, after) ∧
        failure ≠ noOpenFile ∧ ∀ path, failure ≠ .output (path ++ " is still open")) ∧
      ∃ failure after, recover {} ⟨⟨0⟩, Timestamp.ofUnix 0, Timestamp.ofUnix 1⟩
          (Drive.image "disk" .physical) (.ofParts truncated MemoryOutput.empty) =
            (.error failure, after) ∧
        ∀ reason, failure ≠ .output reason := by
  have disk : (Drive.image "disk" .physical).category = .physical := rfl
  have few : ∀ here, mixed.opened = .ok here → FewEntries {} here .physical := by
    intro here opened
    cases (Source.opened_of_fresh rfl).symm.trans opened
    exact fewEntries_mixed {}
  have few' : ∀ here, truncated.opened = .ok here → FewEntries {} here .physical := by
    intro here opened
    cases (Source.opened_of_fresh rfl).symm.trans opened
    exact fewEntries_truncated {}
  obtain ⟨partitions, listed, obstacle⟩ := bootObstacle_truncated
  refine ⟨?_, ?_, ?_⟩
  · obtain ⟨report, after, -, ok, -⟩ :=
      recover_clear ⟨⟨0⟩, Timestamp.ofUnix 0, Timestamp.ofUnix 1⟩ disk rfl (by decide)
        (fewEntries_mixed {}) [] clear_mixed
    exact ⟨report, after, ok, (recover_keeps_protocol rfl few).1 _ report after ok⟩
  · obtain ⟨failure, after, stopped⟩ := stopped_of_bootObstacle {} _ disk rfl (by decide) listed
      obstacle (⟨"out", FileTree.empty, none, []⟩ : FolderOutput)
    exact ⟨failure, after, stopped,
      (recover_keeps_protocol rfl few').2.1 _ failure after rfl stopped⟩
  · obtain ⟨failure, after, stopped⟩ := stopped_of_bootObstacle {} _ disk rfl (by decide) listed
      obstacle MemoryOutput.empty
    exact ⟨failure, after, stopped, (recover_keeps_protocol rfl few').2.2 failure after stopped⟩

end Device

end Undelete
