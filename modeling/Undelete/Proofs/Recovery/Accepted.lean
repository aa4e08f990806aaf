import Undelete.Proofs.Recovery.Journal
import Undelete.Recovery.FolderOutput
import Undelete.Recovery.MemoryOutput

/-!
Outputs that accept what they are given. A pass over a volume that can be surveyed succeeds with
such an output, and its statuses depend on the output only in the places it tells. Memory tells no
place, and a folder tells one that depends on the file alone.
-/

namespace Undelete

namespace Pass

open Output

variable [Digests] {ω : Type} [Output ω] {config : Config} {g : Geometry} {partition : Nat}
  {after : Run ω} {told : List (Option String)} {last : ω}

/-- A pass over a volume that can be surveyed succeeds when its calls are accepted. -/
theorem run_accepted {before : Run ω} {found : Survey}
    (surveyed : survey config g before.source = .ok found)
    (accepts : Accepts before.output (outputCalls config g partition before.source) told last) :
    ∃ after, Pass.run config partition g before =
        (.ok ⟨g, found.scan.directories, found.scan.entries.length,
          statusesAt before.source config g (plans config g found) told⟩, after) ∧
      after.output = last := by
  obtain ⟨result, after, ok, output, -, rfl⟩ := (performs_run partition surveyed).of_accepts accepts
  exact ⟨after, ok, output⟩

/-- A pass succeeds only with an output that accepts its calls. -/
theorem accepts_of_run {before : Run ω} {result : PassResult}
    (ok : Pass.run config partition g before = (.ok result, after)) :
    ∃ told, Accepts before.output (outputCalls config g partition before.source) told
      after.output := by
  obtain ⟨found, surveyed⟩ := surveyed_of_run ok
  obtain ⟨told, accepts, -, -⟩ := (performs_run partition surveyed).of_ok ok
  exact ⟨told, accepts⟩

/-- A pass succeeds exactly when the volume can be surveyed and the output accepts its calls. -/
theorem run_ok_iff {before : Run ω} :
    (∃ result after, Pass.run config partition g before = (.ok result, after)) ↔
      (∃ found, survey config g before.source = .ok found) ∧
        ∃ told last,
          Accepts before.output (outputCalls config g partition before.source) told last := by
  constructor
  · rintro ⟨result, after, ok⟩
    obtain ⟨told, accepts⟩ := accepts_of_run ok
    exact ⟨surveyed_of_run ok, told, after.output, accepts⟩
  · rintro ⟨⟨found, surveyed⟩, told, last, accepts⟩
    obtain ⟨after, ok, -⟩ := run_accepted surveyed accepts
    exact ⟨_, after, ok⟩

section

variable {source : Source}

/-- What does not look at the place and the digest is told by the verdicts alone. -/
theorem map_statusesAt {β : Type} {f : Status → β} {base : Plan → β} (candidates : List Plan)
    (same : ∀ place, ∀ plan ∈ candidates, f (statusAt source config g place plan) = base plan)
    (told : List (Option String)) :
    (statusesAt source config g candidates told).map f = candidates.map base := by
  induction candidates generalizing told with
  | nil => rfl
  | cons plan rest ih =>
    rw [statusesAt, List.map_cons, List.map_cons, same _ plan List.mem_cons_self,
      ih fun place later member => same place later (List.mem_cons_of_mem _ member)]

/-- Where the places depend on the files alone, so do the statuses. -/
theorem statusesAt_places (place : Entry → Option String) (candidates : List Plan) :
    statusesAt source config g candidates
        ((candidates.filter fun plan => !isSkipped source config g plan).map
          fun plan => place plan.entry) =
      candidates.map fun plan => statusAt source config g (place plan.entry) plan := by
  induction candidates with
  | nil => rfl
  | cons plan rest ih =>
    rw [statusesAt, List.map_cons, List.filter_cons]
    by_cases skipped : isSkipped source config g plan = true
    · simp only [skipped, Bool.not_true, Bool.false_eq_true, if_false, if_true]
      rw [ih, statusAt, statusAt, if_pos skipped, if_pos skipped]
    · simp only [skipped, Bool.not_false, Bool.false_eq_true, if_false, if_true, List.map_cons,
        List.head?_cons, List.tail_cons]
      rw [ih]
      rfl

end

end Pass

/-- Whether an output, in the states that hold between files, tells for every file of a partition a
place that depends on the file alone. -/
structure Output.Places {ω : Type} [Output ω] (Between : ω → Prop) (partition : Nat)
    (place : Entry → Option String) : Prop where
  told : ∀ {output last : ω} {entry : Entry} {data : List Bytes} {told : List (Option String)},
    Between output → Output.Accepts output (Output.fileCalls partition entry data) told last →
    told = [place entry] ∧ Between last

theorem Output.Places.told_eq {ω : Type} [Output ω] {Between : ω → Prop} {partition : Nat}
    {place : Entry → Option String} (places : Output.Places Between partition place)
    {source : Source} {config : Config} {g : Geometry} {candidates : List Plan} {output last : ω}
    {told : List (Option String)} (between : Between output)
    (accepts : Output.Accepts output
      (candidates.flatMap (Pass.fileCalls source config g partition)) told last) :
    told = (candidates.filter fun plan => !Pass.isSkipped source config g plan).map
      fun plan => place plan.entry := by
  induction candidates generalizing output told with
  | nil =>
    cases accepts
    rfl
  | cons plan rest ih =>
    obtain ⟨first, mid, second, early, late, rfl⟩ := accepts.of_append
    rw [Pass.fileCalls_eq] at early
    rw [List.filter_cons]
    by_cases skipped : Pass.isSkipped source config g plan = true
    · rw [if_pos skipped] at early
      cases early
      simpa [skipped] using ih between late
    · rw [if_neg skipped] at early
      obtain ⟨rfl, between⟩ := places.told between early
      simpa [skipped] using ih between late

theorem MemoryOutput.places (partition : Nat) :
    Output.Places (fun _ : MemoryOutput => True) partition fun _ => none where
  told _ accepts := by
    obtain ⟨begun, filled, place, -, -, finished, rfl⟩ := accepts.file
    cases finished
    exact ⟨rfl, trivial⟩

namespace FolderOutput

variable {output later : FolderOutput} {partition : Nat} {entry : Entry} {root path : String}

/-- Whether a folder has a file open under a path. -/
def Opened (root path : String) (output : FolderOutput) : Prop :=
  output.root = root ∧ ∃ file, output.current = some file ∧ file.path = path

theorem opened_of_start (between : output.root = root ∧ output.current = none)
    (started : start partition entry output = (.ok (), later)) :
    Opened root (pathOf root partition entry) later := by
  obtain ⟨folder, tree, current, written⟩ := output
  obtain ⟨rfl, rfl⟩ := between
  have got : (get : Act FolderOutput FolderOutput) = fun output => (.ok output, output) := rfl
  rw [start, got] at started
  simp only [bind, ExceptT.bind, ExceptT.mk, StateT.bind, ExceptT.bindCont] at started
  cases created : tree.create (pathOf folder partition entry) with
  | error refusal =>
    rw [created] at started
    cases refusal <;> cases started
  | ok made =>
    rw [created] at started
    cases started
    exact ⟨rfl, _, rfl, rfl⟩

theorem path_accept (tree : FileTree) (file : OpenFile) (data : Bytes) :
    (accept tree file data).2.path = file.path := by
  unfold accept
  dsimp only
  split <;> rfl

theorem opened_of_append {data : Bytes} (opened : Opened root path output)
    (appended : append data output = (.ok (), later)) : Opened root path later := by
  obtain ⟨folder, tree, current, written⟩ := output
  obtain ⟨rfl, file, rfl, rfl⟩ := opened
  cases appended
  exact ⟨rfl, _, rfl, path_accept tree file data⟩

theorem close_of_opened [Digests] {place : Option String} (opened : Opened root path output)
    (finished : close output = (.ok place, later)) :
    place = some path ∧ later.root = root ∧ later.current = none := by
  obtain ⟨folder, tree, current, written⟩ := output
  obtain ⟨rfl, file, rfl, rfl⟩ := opened
  cases finished
  exact ⟨rfl, rfl, rfl⟩

/-- Where a folder puts a file depends on the name of the file alone. -/
theorem places [Digests] (root : String) (partition : Nat) :
    Output.Places (fun output : FolderOutput => output.root = root ∧ output.current = none)
      partition fun entry => some (pathOf root partition entry) where
  told between accepts := by
    obtain ⟨begun, filled, place, started, appends, finished, rfl⟩ := accepts.file
    obtain ⟨-, opened⟩ := appends.appends_keep opened_of_append (opened_of_start between started)
    obtain ⟨rfl, closed⟩ := close_of_opened opened finished
    exact ⟨rfl, closed⟩

end FolderOutput

end Undelete
