import Undelete.Proofs.Recovery.Accepted

/-!
A pass into memory. Storing a file under a number that is still free cannot fail, and it leaves
the other files as they were. A pass over a volume that can be surveyed therefore succeeds, and
afterwards each candidate of which anything is recovered is stored with all its pieces.
-/

namespace Undelete

namespace MemoryOutput

variable {partition fileId : Nat} {files old : List MemoryFile} {current : Option (Nat × Nat)}

theorem isKnownBy_iff {file : MemoryFile} :
    file.isKnownBy (partition, fileId) = true ↔
      file.partition = partition ∧ file.fileId = fileId := by
  simp [MemoryFile.isKnownBy]

/-- A number is free when no file is known by it. -/
theorem get?_eq_none_iff :
    get? ⟨files, current⟩ partition fileId = none ↔
      ∀ file ∈ files, ¬ file.isKnownBy (partition, fileId) = true := by
  simp [get?]

theorem get?_newest (pieces : List Bytes) :
    get? ⟨⟨partition, fileId, pieces⟩ :: old, current⟩ partition fileId =
      some pieces.reverse.flatten := by
  simp [get?, MemoryFile.isKnownBy, MemoryFile.contents]

theorem get?_older {other : Nat} (pieces : List Bytes) (different : other ≠ fileId) :
    get? ⟨⟨partition, fileId, pieces⟩ :: old, current⟩ partition other =
      get? ⟨old, none⟩ partition other := by
  have unknown : (⟨partition, fileId, pieces⟩ : MemoryFile).isKnownBy (partition, other) =
      false := by
    simp [MemoryFile.isKnownBy, different.symm]
  simp only [get?, List.find?_cons, unknown]

variable {output : MemoryOutput} {entry : Entry}

theorem start_apply (free : output.get? partition entry.fileId = none) :
    start partition entry output =
      (.ok (),
        ⟨⟨partition, entry.fileId, []⟩ :: output.files, some (partition, entry.fileId)⟩) := by
  have unknown : output.files.any (·.isKnownBy (partition, entry.fileId)) = false := by
    simpa using get?_eq_none_iff.mp free
  change (if output.files.any (·.isKnownBy (partition, entry.fileId)) then _
    else set (⟨⟨partition, entry.fileId, []⟩ :: output.files, some (partition, entry.fileId)⟩ :
      MemoryOutput) : Act MemoryOutput Unit) output = _
  rw [unknown]
  rfl

/-- A number that is in use cannot be started again, and nothing changes. -/
theorem start_taken {entry : Entry} (taken : output.get? partition entry.fileId ≠ none) :
    ∃ reason, start partition entry output = (.error (.output reason), output) := by
  have known : output.files.any (·.isKnownBy (partition, entry.fileId)) = true := by
    simpa [get?] using taken
  refine ⟨s!"file {entry.fileId} of partition {partition} already stored", ?_⟩
  change (if output.files.any (·.isKnownBy (partition, entry.fileId)) then _ else _ :
    Act MemoryOutput Unit) output = _
  rw [known]
  rfl

theorem append_cases (data : Bytes) (output : MemoryOutput) :
    (∃ later, append data output = (.ok (), later)) ∨
      append data output = (.error noOpenFile, output) := by
  obtain ⟨files, _ | key⟩ := output
  · exact .inr rfl
  · exact .inl ⟨_, rfl⟩

/-- Data goes to the file that is open, which is the newest. -/
theorem append_apply {pieces : List Bytes} (data : Bytes)
    (others : ∀ file ∈ old, ¬ file.isKnownBy (partition, fileId) = true) :
    append data ⟨⟨partition, fileId, pieces⟩ :: old, some (partition, fileId)⟩ =
      (.ok (), ⟨⟨partition, fileId, data :: pieces⟩ :: old, some (partition, fileId)⟩) := by
  have unchanged : (old.map fun file =>
      if file.isKnownBy (partition, fileId) then { file with pieces := data :: file.pieces }
      else file) = old :=
    (List.map_congr_left fun file member => if_neg (others file member)).trans (List.map_id old)
  have newest : (⟨partition, fileId, pieces⟩ : MemoryFile).isKnownBy (partition, fileId) = true :=
    isKnownBy_iff.mpr ⟨rfl, rfl⟩
  change (Except.ok (), (⟨List.map _ (_ :: old), _⟩ : MemoryOutput)) = _
  rw [List.map_cons, unchanged, if_pos newest]

theorem accepts_appends (others : ∀ file ∈ old, ¬ file.isKnownBy (partition, fileId) = true)
    (data kept : List Bytes) :
    Output.Accepts (⟨⟨partition, fileId, kept⟩ :: old, some (partition, fileId)⟩ : MemoryOutput)
      (data.map Event.append) []
      ⟨⟨partition, fileId, data.reverse ++ kept⟩ :: old, some (partition, fileId)⟩ := by
  induction data generalizing kept with
  | nil => exact .done _
  | cons piece rest ih =>
    rw [List.reverse_cons, List.append_assoc]
    exact .append (append_apply piece others) (ih _)

/-- A file under a free number is accepted, and is put with all its data before the others. -/
theorem accepts_fileCalls (free : output.get? partition entry.fileId = none) (data : List Bytes) :
    Output.Accepts output (Output.fileCalls partition entry data) [none]
      ⟨⟨partition, entry.fileId, data.reverse⟩ :: output.files, none⟩ := by
  have appends := accepts_appends (get?_eq_none_iff.mp free) data []
  rw [List.append_nil] at appends
  exact .start (start_apply free) (appends.trans (.close rfl (.done _)))

/-- Memory tells no place, and it holds a file that it accepts before those that it held. -/
theorem accepts_fileCalls_iff {data : List Bytes} {told : List (Option String)}
    {last : MemoryOutput} :
    Output.Accepts output (Output.fileCalls partition entry data) told last ↔
      output.get? partition entry.fileId = none ∧ told = [none] ∧
        last = ⟨⟨partition, entry.fileId, data.reverse⟩ :: output.files, none⟩ := by
  constructor
  · intro accepts
    have free : output.get? partition entry.fileId = none := by
      by_contra taken
      obtain ⟨begun, filled, place, started, -⟩ := accepts.file
      obtain ⟨reason, refused⟩ := start_taken taken
      cases refused.symm.trans started
    exact ⟨free, accepts.unique (accepts_fileCalls free data)⟩
  · rintro ⟨free, rfl, rfl⟩
    exact accepts_fileCalls free data

end MemoryOutput

namespace Pass

variable {config : Config} {g : Geometry} {partition : Nat} {source : Source}

/-- What a pass into memory stores for a candidate. -/
def storedOf (source : Source) (config : Config) (g : Geometry) (plan : Plan) : Option Bytes :=
  if config.analyzeOnly || !isRecovered source g plan then none
  else some ((pieces source g plan).flatMap Prod.snd)

/-- A candidate under a free number is accepted, and the other numbers are left alone. -/
theorem accepts_memory {output : MemoryOutput} {plan : Plan}
    (free : output.get? partition plan.entry.fileId = none) :
    ∃ told last, Output.Accepts output (fileCalls source config g partition plan) told last ∧
      last.get? partition plan.entry.fileId = storedOf source config g plan ∧
      ∀ other, other ≠ plan.entry.fileId →
        last.get? partition other = output.get? partition other := by
  rw [fileCalls_eq, storedOf, ← isSkipped]
  by_cases skipped : isSkipped source config g plan = true
  · rw [if_pos skipped, if_pos skipped]
    exact ⟨[], output, .done output, free, fun _ _ => rfl⟩
  · rw [if_neg skipped, if_neg skipped]
    refine ⟨_, _, MemoryOutput.accepts_fileCalls free _, ?_, ?_⟩
    · rw [MemoryOutput.get?_newest, List.reverse_reverse, List.flatMap_def]
    · exact fun other different => MemoryOutput.get?_older _ different

theorem acceptsAll_memory (source : Source) (config : Config) (g : Geometry)
    {output : MemoryOutput} {candidates : List Plan}
    (distinct : candidates.Pairwise fun earlier later =>
      earlier.entry.fileId ≠ later.entry.fileId)
    (free : ∀ plan ∈ candidates, output.get? partition plan.entry.fileId = none) :
    ∃ told last,
      Output.Accepts output (candidates.flatMap (fileCalls source config g partition)) told last ∧
      (∀ plan ∈ candidates, last.get? partition plan.entry.fileId =
        storedOf source config g plan) ∧
      ∀ other, (∀ plan ∈ candidates, other ≠ plan.entry.fileId) →
        last.get? partition other = output.get? partition other := by
  induction candidates generalizing output with
  | nil => exact ⟨[], output, .done output, by simp, fun _ _ => rfl⟩
  | cons plan rest ih =>
    obtain ⟨different, distinct⟩ := List.pairwise_cons.mp distinct
    obtain ⟨told, mid, first, own, others⟩ := accepts_memory (free plan List.mem_cons_self)
    have freeLater : ∀ later ∈ rest, mid.get? partition later.entry.fileId = none := by
      intro later member
      rw [others _ (different later member).symm]
      exact free later (List.mem_cons_of_mem _ member)
    obtain ⟨told', last, onward, stored, kept⟩ := ih distinct freeLater
    refine ⟨told ++ told', last, first.trans onward, ?_, ?_⟩
    · intro candidate member
      rcases List.mem_cons.mp member with rfl | later
      · rw [kept _ different, own]
      · exact stored candidate later
    · intro other absent
      rw [kept other fun later member => absent later (List.mem_cons_of_mem _ member),
        others other (absent plan List.mem_cons_self)]

/-- A pass into an empty memory succeeds when the volume can be surveyed, and it stores every
candidate of which anything is recovered. -/
theorem run_memory [Digests] {source : Source} {found : Survey}
    (surveyed : survey config g source = .ok found) (few : found.scan.entries.length < UInt32.size)
    (partition : Nat) (journal : List Event) :
    ∃ result after,
      Pass.run config partition g ⟨source, MemoryOutput.empty, journal⟩ = (.ok result, after) ∧
      ∀ plan ∈ plans config g found, after.output.get? partition plan.entry.fileId =
        storedOf source config g plan := by
  have numbered := (survey_tidy surveyed).numbered
  have number {plan : Plan} (member : plan ∈ plans config g found) :
      plan.entry.fileId = plan.entry.ordinal := by
    obtain ⟨entry, known, -, rfl⟩ := (mem_plans surveyed).mp member
    exact (numbered.fileId_eq few known).1
  have distinct : (plans config g found).Pairwise fun earlier later =>
      earlier.entry.fileId ≠ later.entry.fileId := by
    refine (plans_ascending surveyed).imp_of_mem ?_
    intro earlier later member member' less
    rw [number member, number member']
    exact Nat.ne_of_lt less
  let before : Run MemoryOutput := ⟨source, MemoryOutput.empty, journal⟩
  have free : ∀ plan ∈ plans config g found,
      before.output.get? partition plan.entry.fileId = none := fun _ _ => rfl
  obtain ⟨told, last, accepts, stored, -⟩ := acceptsAll_memory source config g distinct free
  have calls : Output.Accepts before.output (outputCalls config g partition before.source) told
      last := by
    rwa [outputCalls, surveyed]
  obtain ⟨after, ok, rfl⟩ := run_accepted surveyed calls
  exact ⟨_, after, ok, stored⟩

end Pass

end Undelete
