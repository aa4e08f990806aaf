import Undelete.Proofs.Recovery.Memory

/-!
The files that a pass hands to its output, one after the other. A pass stops for one of two
reasons: the volume cannot be surveyed, and then the output has not been called, or the output
refuses one of the calls that hand over these files.
-/

namespace Undelete

/-- A file as it is handed to an output: whose it is, and its data piece by piece. -/
structure Delivery where
  partition : Nat
  entry : Entry
  data : List Bytes

namespace Delivery

def calls (delivery : Delivery) : List Event :=
  Output.fileCalls delivery.partition delivery.entry delivery.data

/-- What the file is known by. -/
def key (delivery : Delivery) : Nat × Nat := (delivery.partition, delivery.entry.fileId)

end Delivery

/-- An output that takes the blame for every call that it fails. -/
class LawfulOutput (ω : Type) [Output ω] : Prop where
  blames : ∀ {output : ω} {event : Event} {failure : Failure},
    Output.Fails output event failure → ∃ reason, failure = .output reason

theorem Output.Refuses.blames {ω : Type} [Output ω] [LawfulOutput ω] {output : ω}
    {calls : List Event} {failure : Failure} (refuses : Output.Refuses output calls failure) :
    ∃ reason, failure = .output reason := by
  obtain ⟨accepted, event, rest, told, mid, rfl, early, fails⟩ := refuses
  exact LawfulOutput.blames fails

/-- An output that never fails has no blame to take. -/
theorem LawfulOutput.of_accepting {ω : Type} [Output ω]
    (accepting : ∀ (output : ω) event failure, ¬ Output.Fails output event failure) :
    LawfulOutput ω where
  blames fails := absurd fails (accepting _ _ _)

instance : LawfulOutput Discard := by
  refine .of_accepting fun output event failure fails => ?_
  cases fails with
  | start failed => cases failed
  | append failed => cases failed
  | close failed => cases failed

instance : LawfulOutput MemoryOutput where
  blames {output _ _} fails := by
    cases fails with
    | @start _ partition entry _ failed =>
      by_cases free : output.get? partition entry.fileId = none
      · cases (MemoryOutput.start_apply free).symm.trans failed
      · obtain ⟨reason, taken⟩ := MemoryOutput.start_taken free
        cases taken.symm.trans failed
        exact ⟨reason, rfl⟩
    | @append _ data _ failed =>
      rcases MemoryOutput.append_cases data output with ⟨filled, appended⟩ | closed
      · cases appended.symm.trans failed
      · cases closed.symm.trans failed
        exact ⟨_, rfl⟩
    | close failed => cases failed

namespace FolderOutput

variable {output later : FolderOutput} {partition : Nat} {entry : Entry} {failure : Failure}

/-- A file cannot be started while another one is open, or when the host refuses to create it. -/
theorem start_fails (failed : start partition entry output = (.error failure, later)) :
    (∃ file, output.current = some file ∧ failure = .output (file.path ++ " is still open")) ∨
      output.current = none ∧
        (failure = .output (pathOf output.root partition entry ++ " already exists") ∨
          ∃ refusal : HostError,
            failure = .output (pathOf output.root partition entry ++ ": " ++ refusal.text)) := by
  obtain ⟨folder, tree, current, written⟩ := output
  have got : (get : Act FolderOutput FolderOutput) = fun output => (.ok output, output) := rfl
  rw [start, got] at failed
  simp only [bind, ExceptT.bind, ExceptT.mk, StateT.bind, ExceptT.bindCont] at failed
  cases current with
  | some file =>
    cases failed
    exact .inl ⟨file, rfl, rfl⟩
  | none =>
    refine .inr ⟨rfl, ?_⟩
    cases created : tree.create (pathOf folder partition entry) with
    | ok made =>
      rw [created] at failed
      cases failed
    | error refusal =>
      rw [created] at failed
      by_cases taken : refusal = .alreadyExists
      · subst taken
        cases failed
        exact .inl rfl
      · refine .inr ⟨refusal, ?_⟩
        cases refusal with
        | alreadyExists => exact absurd rfl taken
        | _ =>
          cases failed
          rfl

theorem append_fails {data : Bytes} (failed : append data output = (.error failure, later)) :
    output.current = none ∧ failure = noOpenFile := by
  obtain ⟨folder, tree, current, written⟩ := output
  cases current with
  | none =>
    cases failed
    exact ⟨rfl, rfl⟩
  | some file => cases failed

theorem close_fails [Digests] (failed : close output = (.error failure, later)) :
    output.current = none ∧ failure = noOpenFile := by
  obtain ⟨folder, tree, current, written⟩ := output
  cases current with
  | none =>
    cases failed
    exact ⟨rfl, rfl⟩
  | some file => cases failed

end FolderOutput

instance [Digests] : LawfulOutput FolderOutput where
  blames fails := by
    cases fails with
    | start failed =>
      rcases FolderOutput.start_fails failed with ⟨file, -, rfl⟩ | ⟨-, rfl | ⟨refusal, rfl⟩⟩
      · exact ⟨_, rfl⟩
      · exact ⟨_, rfl⟩
      · exact ⟨_, rfl⟩
    | append failed => exact ⟨_, (FolderOutput.append_fails failed).2⟩
    | close failed => exact ⟨_, (FolderOutput.close_fails failed).2⟩

namespace Pass

open Output

variable {ω : Type} [Output ω] {config : Config} {g : Geometry} {partition : Nat}
  {run after : Run ω} {failure : Failure}

/-- A pass that is stopped could not survey the volume, or the output refused its calls. -/
theorem stopped_of_run [Digests] {before : Run ω}
    (stopped : Pass.run config partition g before = (.error failure, after)) :
    (survey config g before.source = .error failure ∧ before.Quiet after) ∨
      Refuses before.output (outputCalls config g partition before.source) failure := by
  cases surveyed : survey config g before.source with
  | error reason =>
    obtain ⟨later, unsurveyed, quiet⟩ := run_unsurveyed partition surveyed
    cases unsurveyed.symm.trans stopped
    exact .inl ⟨rfl, quiet⟩
  | ok found => exact .inr ((performs_run partition surveyed).of_error stopped)

/-- A pass that is stopped, but not by the output, has not called it. -/
theorem quiet_of_stopped [Digests] [LawfulOutput ω] {before : Run ω}
    (stopped : Pass.run config partition g before = (.error failure, after))
    (elsewhere : ∀ reason, failure ≠ .output reason) :
    survey config g before.source = .error failure ∧ before.Quiet after := by
  rcases stopped_of_run stopped with unsurveyed | refused
  · exact unsurveyed
  · obtain ⟨reason, blamed⟩ := refused.blames
    exact absurd blamed (elsewhere reason)

/-- What a pass that succeeds has called. -/
theorem called_of_run [Digests] {before : Run ω} {result : PassResult}
    (ok : Pass.run config partition g before = (.ok result, after)) :
    Run.Called (outputCalls config g partition before.source) before after := by
  obtain ⟨found, surveyed⟩ := surveyed_of_run ok
  obtain ⟨told, -, called, -⟩ := (performs_run partition surveyed).of_ok ok
  exact called

/-- The file of a candidate. -/
def deliveryOf (source : Source) (g : Geometry) (partition : Nat) (plan : Plan) : Delivery :=
  ⟨partition, plan.entry, (pieces source g plan).map Prod.snd⟩

/-- The files that a pass hands to its output when all its calls are accepted. -/
def deliveries (config : Config) (g : Geometry) (partition : Nat) (source : Source) :
    List Delivery :=
  match survey config g source with
  | .ok found =>
    ((plans config g found).filter fun plan => !isSkipped source config g plan).map
      (deliveryOf source g partition)
  | .error _ => []

theorem outputCalls_eq (config : Config) (g : Geometry) (partition : Nat) (source : Source) :
    outputCalls config g partition source =
      (deliveries config g partition source).flatMap Delivery.calls := by
  unfold outputCalls deliveries
  cases survey config g source with
  | error failure => rfl
  | ok found =>
    dsimp only
    induction plans config g found with
    | nil => rfl
    | cons plan rest ih =>
      rw [List.flatMap_cons, fileCalls_eq, List.filter_cons, ih]
      cases isSkipped source config g plan with
      | true => rfl
      | false => rfl

theorem partition_of_mem_deliveries {source : Source} {delivery : Delivery}
    (member : delivery ∈ deliveries config g partition source) : delivery.partition = partition := by
  unfold deliveries at member
  split at member
  · obtain ⟨plan, -, rfl⟩ := List.mem_map.mp member
    rfl
  · cases member

end Pass

end Undelete
