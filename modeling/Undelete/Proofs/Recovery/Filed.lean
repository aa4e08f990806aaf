import Undelete.Proofs.Recovery.Covered
import Undelete.Proofs.Recovery.Deliveries

/-!
How memory fills while candidates are settled. Each one is stored under a key that was free, with
as many bytes as its status tells and with the digest that it tells, or it has failed, and then
nothing of it is stored.
-/

namespace Undelete

namespace MemoryFile

/-- What a file is known by. -/
def key (file : MemoryFile) : Nat × Nat := (file.partition, file.fileId)

/-- Whether a file is the one that a status of a partition tells of. -/
structure Matches [Digests] (file : MemoryFile) (partition : Nat) (status : Status) : Prop where
  key : file.key = (partition, status.fileId)
  length : file.contents.length = status.recoveredBytes
  digest : status.sha256 = some (Digests.sha256 file.contents)

end MemoryFile

namespace MemoryOutput

variable {output : MemoryOutput} {partition fileId : Nat}

theorem get?_eq_none_iff_key :
    output.get? partition fileId = none ↔
      (partition, fileId) ∉ output.files.map MemoryFile.key := by
  simp [get?, MemoryFile.isKnownBy, MemoryFile.key]

/-- While no two files share a key, each is found by its own. -/
theorem get?_of_mem (distinct : (output.files.map MemoryFile.key).Nodup) {file : MemoryFile}
    (member : file ∈ output.files) :
    output.get? file.partition file.fileId = some file.contents := by
  obtain ⟨files, current⟩ := output
  induction files with
  | nil => cases member
  | cons first rest ih =>
    rw [List.map_cons, List.nodup_cons] at distinct
    rcases List.mem_cons.mp member with rfl | later
    · simp [get?, MemoryFile.isKnownBy]
    · have unknown : first.isKnownBy (file.partition, file.fileId) = false := by
        refine decide_eq_false fun same => distinct.1 ?_
        exact List.mem_map.mpr ⟨file, later, same.symm⟩
      have found := ih distinct.2 later
      simpa only [get?, List.find?_cons, unknown] using found

end MemoryOutput

/-- How the files in memory, newest first, grow while candidates of partitions are settled. -/
inductive Filed [Digests] : List MemoryFile → List (Nat × Status) → List MemoryFile → Prop
  | done (files : List MemoryFile) : Filed files [] files
  | failed {files later : List MemoryFile} {partition : Nat} {status : Status}
      {rest : List (Nat × Status)} (outcome : status.outcome = .failed)
      (bytes : status.recoveredBytes = 0) (digest : status.sha256 = none)
      (onward : Filed files rest later) : Filed files ((partition, status) :: rest) later
  | stored {files later : List MemoryFile} {partition : Nat} {status : Status}
      {rest : List (Nat × Status)} {file : MemoryFile} (outcome : status.outcome ≠ .failed)
      (bound : status.recoveredBytes ≤ status.declaredSize) (told : file.Matches partition status)
      (free : file.key ∉ files.map MemoryFile.key) (onward : Filed (file :: files) rest later) :
      Filed files ((partition, status) :: rest) later

namespace Filed

variable [Digests] {files later last : List MemoryFile} {told others : List (Nat × Status)}
  {pair : Nat × Status}

theorem append (first : Filed files told later) (second : Filed later others last) :
    Filed files (told ++ others) last := by
  induction first with
  | done => exact second
  | failed outcome bytes digest _ ih => exact .failed outcome bytes digest (ih second)
  | stored outcome bound told free _ ih => exact .stored outcome bound told free (ih second)

theorem subset (filed : Filed files told later) : files ⊆ later := by
  induction filed with
  | done => exact List.Subset.refl _
  | failed _ _ _ _ ih => exact ih
  | stored _ _ _ _ _ ih => exact fun file member => ih (List.mem_cons_of_mem _ member)

theorem nodup (filed : Filed files told later) (distinct : (files.map MemoryFile.key).Nodup) :
    (later.map MemoryFile.key).Nodup := by
  induction filed with
  | done => exact distinct
  | failed _ _ _ _ ih => exact ih distinct
  | stored _ _ _ free _ ih => exact ih (List.nodup_cons.mpr ⟨free, distinct⟩)

/-- The keys in the end are the old ones and those of the candidates that have not failed. -/
theorem mem_keys (filed : Filed files told later) (key : Nat × Nat) :
    key ∈ later.map MemoryFile.key ↔ key ∈ files.map MemoryFile.key ∨
      ∃ pair ∈ told, pair.2.outcome ≠ .failed ∧ (pair.1, pair.2.fileId) = key := by
  induction filed with
  | done => simp
  | failed outcome _ _ _ ih => simp [ih, outcome]
  | stored outcome _ told _ _ ih =>
    rw [ih, List.map_cons, List.mem_cons, told.key]
    simp only [List.exists_mem_cons_iff, outcome, ne_eq, not_false_eq_true, true_and]
    rw [or_assoc, or_left_comm, eq_comm]

theorem length_eq (filed : Filed files told later) :
    later.length = files.length + told.countP (·.2.outcome ≠ .failed) := by
  induction filed with
  | done => rfl
  | failed outcome _ _ _ ih => simp [ih, outcome]
  | stored outcome _ _ _ _ ih =>
    simp [ih, outcome]
    omega

theorem sum_lengths (filed : Filed files told later) :
    (later.map fun file => file.contents.length).sum =
      (files.map fun file => file.contents.length).sum +
        (told.map fun pair => pair.2.recoveredBytes).sum := by
  induction filed with
  | done => rfl
  | failed _ bytes _ _ ih => rw [ih, List.map_cons, List.sum_cons, bytes, Nat.zero_add]
  | stored _ _ told _ _ ih =>
    simp only [ih, List.map_cons, List.sum_cons, told.length]
    omega

theorem exists_matches (filed : Filed files told later) (member : pair ∈ told)
    (outcome : pair.2.outcome ≠ .failed) : ∃ file ∈ later, file.Matches pair.1 pair.2 := by
  induction filed with
  | done => cases member
  | failed failed _ _ _ ih =>
    rcases List.mem_cons.mp member with rfl | next
    · exact absurd failed outcome
    · exact ih next
  | stored _ _ told _ onward ih =>
    rcases List.mem_cons.mp member with rfl | next
    · exact ⟨_, onward.subset List.mem_cons_self, told⟩
    · exact ih next

theorem digest_eq_none_iff (filed : Filed files told later) (member : pair ∈ told) :
    pair.2.sha256 = none ↔ pair.2.outcome = .failed := by
  induction filed with
  | done => cases member
  | failed outcome _ digest _ ih =>
    rcases List.mem_cons.mp member with rfl | next
    · simp [outcome, digest]
    · exact ih next
  | stored outcome _ told _ _ ih =>
    rcases List.mem_cons.mp member with rfl | next
    · simp [outcome, told.digest]
    · exact ih next

theorem bytes_le (filed : Filed files told later) (member : pair ∈ told) :
    pair.2.recoveredBytes ≤ pair.2.declaredSize := by
  induction filed with
  | done => cases member
  | failed _ bytes _ _ ih =>
    rcases List.mem_cons.mp member with rfl | next
    · simp [bytes]
    · exact ih next
  | stored _ bound _ _ _ ih =>
    rcases List.mem_cons.mp member with rfl | next
    · exact bound
    · exact ih next

end Filed

namespace Pass

variable {config : Config} {g : Geometry} {partition : Nat} {source : Source}

/-- Whether nothing has been settled for a candidate. -/
structure Untouched (plan : Plan) : Prop where
  fileId : plan.status.fileId = plan.entry.fileId
  declaredSize : plan.status.declaredSize = plan.entry.size
  sha256 : plan.status.sha256 = none

theorem verdict_kept (source : Source) (config : Config) (g : Geometry) (plan : Plan) :
    (verdict source config g plan).fileId = plan.status.fileId ∧
      (verdict source config g plan).declaredSize = plan.status.declaredSize ∧
      (verdict source config g plan).sha256 = plan.status.sha256 := by
  rw [verdict, Status.finish, (settled_haulOf source config g plan).same]
  exact ⟨rfl, rfl, rfl⟩

theorem recoveredBytes_verdict_le {plan : Plan}
    (writing : config.analyzeOnly = false) (untouched : Untouched plan) :
    (verdict source config g plan).recoveredBytes ≤
      (verdict source config g plan).declaredSize := by
  obtain ⟨-, size, -⟩ := verdict_kept source config g plan
  have bound := bytes_le source g plan
  rw [← (haulOf_pieces source g writing plan).2.1] at bound
  rw [size, untouched.declaredSize]
  exact Nat.le_trans bound (Nat.min_le_left _ _)

/-- The file that holds a candidate's pieces is the one that its status tells of. -/
theorem matches_verdict [Digests] {plan : Plan} (writing : config.analyzeOnly = false)
    (untouched : Untouched plan) (partition : Nat) (path : Option String) :
    (MemoryFile.mk partition plan.entry.fileId
      ((pieces source g plan).map Prod.snd).reverse).Matches partition { verdict source config g plan with
        outputPath := path
        sha256 := some (Digests.sha256 ((pieces source g plan).flatMap Prod.snd)) } where
  key := by
    obtain ⟨fileId, -, -⟩ := verdict_kept source config g plan
    rw [MemoryFile.key, fileId, untouched.fileId]
  length := by
    rw [MemoryFile.contents, List.reverse_reverse, ← List.flatMap_def]
    exact (haulOf_pieces source g writing plan).2.1.symm
  digest := by rw [MemoryFile.contents, List.reverse_reverse, List.flatMap_def]

/-- A candidate that memory accepts is stored under a free key or has failed. -/
theorem filed_of_accepts [Digests] (writing : config.analyzeOnly = false) {plan : Plan}
    (untouched : Untouched plan) {output last : MemoryOutput} {told : List (Option String)}
    (accepts : Output.Accepts output (fileCalls source config g partition plan) told last) :
    ∃ place, told = (if isSkipped source config g plan then [] else [place]) ∧
      Filed output.files [(partition, statusAt source config g place plan)] last.files := by
  have outcome : (verdict source config g plan).outcome = .failed ↔
      hasContent plan (haulOf source config g plan) = false :=
    Status.outcomeOf_eq_failed_iff
  have content := skipped_eq source config g plan
  rw [writing, Bool.false_or] at content
  rw [fileCalls_eq] at accepts
  refine ⟨none, ?_⟩
  unfold statusAt
  by_cases skipped : isSkipped source config g plan = true
  · rw [if_pos skipped] at accepts ⊢
    cases accepts
    rw [skipped, Bool.not_eq_true'] at content
    rw [if_pos skipped]
    refine ⟨rfl, .failed (outcome.mpr content) ?_ ?_ (.done _)⟩
    · have short := (Bool.not_eq_true _).mpr content
      rw [hasContent_iff, not_or, Nat.not_lt] at short
      exact Nat.le_zero.mp short.1
    · exact (verdict_kept source config g plan).2.2.trans untouched.sha256
  · rw [if_neg skipped] at accepts ⊢
    obtain ⟨free, rfl, rfl⟩ := MemoryOutput.accepts_fileCalls_iff.mp accepts
    rw [if_neg skipped]
    refine ⟨rfl, .stored ?_ (recoveredBytes_verdict_le writing untouched)
      (matches_verdict writing untouched partition none)
      (MemoryOutput.get?_eq_none_iff_key.mp free) (.done _)⟩
    intro failed
    rw [outcome.mp failed] at content
    exact skipped content.symm

theorem filed_of_acceptsAll [Digests] (writing : config.analyzeOnly = false)
    {candidates : List Plan} (untouched : ∀ plan ∈ candidates, Untouched plan)
    {output last : MemoryOutput} {told : List (Option String)}
    (accepts : Output.Accepts output
      (candidates.flatMap (fileCalls source config g partition)) told last) :
    Filed output.files ((statusesAt source config g candidates told).map (partition, ·))
      last.files := by
  induction candidates generalizing output told with
  | nil =>
    cases accepts
    exact .done _
  | cons plan rest ih =>
    obtain ⟨first, mid, second, early, late, rfl⟩ := accepts.of_append
    obtain ⟨place, rfl, filed⟩ :=
      filed_of_accepts writing (untouched plan List.mem_cons_self) early
    rw [statusesAt_cons]
    exact filed.append (ih (fun plan member => untouched plan (List.mem_cons_of_mem _ member)) late)

/-- The files of a pass that succeeds are those that its statuses tell of. -/
theorem run_filed [Digests] (writing : config.analyzeOnly = false) {run after : Run MemoryOutput}
    {result : PassResult} (ok : Pass.run config partition g run = (.ok result, after)) :
    Filed run.output.files (result.statuses.map (partition, ·)) after.output.files := by
  obtain ⟨found, surveyed⟩ := surveyed_of_run ok
  obtain ⟨told, accepts, -, rfl⟩ := (performs_run partition surveyed).of_ok ok
  rw [outputCalls, surveyed] at accepts
  refine filed_of_acceptsAll writing ?_ accepts
  intro plan planned
  obtain ⟨entry, -, -, rfl⟩ := (mem_plans surveyed).mp planned
  exact ⟨rfl, rfl, rfl⟩

end Pass

end Undelete
