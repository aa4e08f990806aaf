import Mathlib.Data.List.Forall2
import Undelete.Proofs.Recovery.Gather
import Undelete.Proofs.Recovery.Outputs

/-!
What becomes of a candidate: the calls that store it, and its status when its recovery is settled.
The status depends on the output only in the place that is told for the file.
-/

namespace Undelete

namespace Pass

/-- Whether anything of a candidate is recovered. An empty file is, once its chain exists. -/
def isRecovered (source : Source) (g : Geometry) (plan : Plan) : Bool :=
  0 < ((pieces source g plan).flatMap Prod.snd).length ||
    (plan.entry.size = 0 && plan.chain.clusters ≠ [])

/-- The calls on the output that store a candidate. -/
def fileCalls (source : Source) (config : Config) (g : Geometry) (partition : Nat) (plan : Plan) :
    List Event :=
  if config.analyzeOnly || !isRecovered source g plan then []
  else
    .start partition plan.entry ::
      ((pieces source g plan).map fun (_, data) => Event.append data) ++ [.close]

/-- Whether nothing of a candidate is stored. -/
def isSkipped (source : Source) (config : Config) (g : Geometry) (plan : Plan) : Bool :=
  config.analyzeOnly || !isRecovered source g plan

/-- The status of a candidate when its recovery is settled. -/
def verdict (source : Source) (config : Config) (g : Geometry) (plan : Plan) : Status :=
  let haul := haulOf source config g plan
  haul.status.finish haul.clusters haul.bytes (hasContent plan haul)

/-- The status of a candidate whose file, if it is stored, goes to some place. -/
def statusAt [Digests] (source : Source) (config : Config) (g : Geometry) (place : Option String)
    (plan : Plan) : Status :=
  if isSkipped source config g plan then verdict source config g plan
  else
    { verdict source config g plan with
      outputPath := place
      sha256 := some (Digests.sha256 ((pieces source g plan).flatMap Prod.snd)) }

/-- The statuses of candidates, with the places that are told for those that are stored. -/
def statusesAt [Digests] (source : Source) (config : Config) (g : Geometry) :
    (candidates : List Plan) → (told : List (Option String)) → List Status
  | [], _ => []
  | plan :: rest, told =>
    statusAt source config g told.head?.join plan ::
      statusesAt source config g rest
        (if isSkipped source config g plan then told else told.tail)

/-- A status that says where the file went and what its digest is, and else is the verdict. -/
def Delivers (verdict status : Status) : Prop :=
  ∃ path digest, status = { verdict with outputPath := path, sha256 := digest }

variable {source : Source} {config : Config} {g : Geometry} {partition : Nat} {plan : Plan}

theorem hasContent_iff {haul : Haul} :
    hasContent plan haul = true ↔
      0 < haul.bytes ∨ plan.entry.size = 0 ∧ plan.chain.clusters ≠ [] := by
  simp [hasContent]

/-- Nothing is stored of a candidate when only analyzing or when nothing is recovered. -/
theorem skipped_eq (source : Source) (config : Config) (g : Geometry) (plan : Plan) :
    (config.analyzeOnly || !hasContent plan (haulOf source config g plan)) =
      isSkipped source config g plan := by
  unfold isSkipped
  cases writing : config.analyzeOnly with
  | true => rfl
  | false =>
    obtain ⟨-, bytes, -⟩ := haulOf_pieces source g writing plan
    rw [hasContent, isRecovered, bytes]

theorem writing_of_not_skipped (taken : ¬ isSkipped source config g plan = true) :
    config.analyzeOnly = false := by
  simp only [isSkipped, Bool.or_eq_true, not_or, Bool.not_eq_true] at taken
  exact taken.1

theorem fileCalls_eq (source : Source) (plan : Plan) :
    fileCalls source config g partition plan =
      if isSkipped source config g plan then []
      else Output.fileCalls partition plan.entry ((pieces source g plan).map Prod.snd) := by
  rw [fileCalls, isSkipped, Output.fileCalls, List.map_map]
  rfl

/-- What is settled when a candidate has been recovered; all else stays as it was analyzed. -/
theorem Delivers.eq_update {status : Status}
    (delivered : Delivers (verdict source config g plan) status) :
    status = { plan.status with
      recoveredClusters := status.recoveredClusters
      recoveredBytes := status.recoveredBytes
      problematic := status.problematic
      recoverability := status.recoverability
      lifecycle := status.lifecycle
      outcome := status.outcome
      outputPath := status.outputPath
      sha256 := status.sha256 } := by
  obtain ⟨path, digest, rfl⟩ := delivered
  have same := (settled_haulOf source config g plan).same
  rw [verdict, Status.finish, same]

theorem ordinal_of_delivers {status : Status}
    (delivered : Delivers (verdict source config g plan) status) :
    status.ordinal = plan.status.ordinal := by
  rw [delivered.eq_update]

/-- What does not depend on places and digests is told by the verdicts. -/
theorem map_of_delivers {β : Type} {candidates : List Plan} {statuses : List Status}
    (delivered : List.Forall₂ (fun plan => Delivers (verdict source config g plan))
      candidates statuses)
    (tell : Status → β) (blind : ∀ (status : Status) path digest,
      tell { status with outputPath := path, sha256 := digest } = tell status) :
    statuses.map tell = candidates.map fun plan => tell (verdict source config g plan) := by
  induction delivered with
  | nil => rfl
  | cons first _ ih =>
    obtain ⟨path, digest, rfl⟩ := first
    rw [List.map_cons, List.map_cons, ih, blind]

theorem delivers_statusAt [Digests] (source : Source) (config : Config) (g : Geometry)
    (place : Option String) (plan : Plan) :
    Delivers (verdict source config g plan) (statusAt source config g place plan) := by
  unfold statusAt
  split
  · exact ⟨_, _, rfl⟩
  · exact ⟨_, _, rfl⟩

theorem delivers_statusesAt [Digests] (source : Source) (config : Config) (g : Geometry)
    (candidates : List Plan) (told : List (Option String)) :
    List.Forall₂ (fun plan => Delivers (verdict source config g plan)) candidates
      (statusesAt source config g candidates told) := by
  induction candidates generalizing told with
  | nil => exact .nil
  | cons plan rest ih => exact .cons (delivers_statusAt ..) (ih _)

/-- Only a candidate that is stored takes a place from those told. -/
theorem statusesAt_cons [Digests] (plan : Plan) (rest : List Plan) (place : Option String)
    (told : List (Option String)) :
    statusesAt source config g (plan :: rest)
        ((if isSkipped source config g plan then [] else [place]) ++ told) =
      statusAt source config g place plan :: statusesAt source config g rest told := by
  rw [statusesAt]
  by_cases skipped : isSkipped source config g plan = true
  · simp only [if_pos skipped, List.nil_append, statusAt]
  · simp only [if_neg skipped]
    rfl

end Pass

end Undelete
