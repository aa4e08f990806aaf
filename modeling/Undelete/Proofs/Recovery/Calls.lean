import Undelete.Proofs.History
import Undelete.Proofs.Recovery.Memory

/-!
Memory in use. Calls may come in any order and some of them fail, but those that fail leave no
trace. What is stored can therefore be told from the calls that succeeded. A file holds what was
appended between its start and the next start or close, and nothing changes it afterwards.
-/

namespace Undelete

/-- A call on an output. -/
inductive OutputCall where
  | start (partition : Nat) (entry : Entry)
  | append (data : Bytes)
  | close

namespace OutputCall

/-- What is appended before the next file is started or the open one is closed. -/
def pending : List OutputCall → Bytes
  | .append data :: rest => data ++ pending rest
  | _ => []

def isStart : OutputCall → Bool
  | start .. => true
  | append _ | close => false

/-- Whether every file that was started has been closed since. -/
def AllClosed (done : List OutputCall) : Prop := Followed (·.isStart = true) .close done

end OutputCall

open OutputCall

namespace MemoryOutput

/-- What a call answers, and the output after it. -/
def perform (output : MemoryOutput) : OutputCall → Except Failure Unit × MemoryOutput
  | .start partition entry => start partition entry output
  | .append data => append data output
  | .close => (Functor.discard close : Act MemoryOutput Unit) output

/-- The output after some calls, whether or not they succeed. -/
def after (output : MemoryOutput) (calls : List OutputCall) : MemoryOutput :=
  calls.foldl (fun output call => (output.perform call).2) output

/-- Those of some calls that succeed. -/
def accepted : MemoryOutput → List OutputCall → List OutputCall
  | _, [] => []
  | output, call :: rest =>
    let (result, later) := output.perform call
    if result.isOk then call :: accepted later rest else accepted later rest

/-- A file without contents, put before the others and open. -/
def opened (output : MemoryOutput) (partition fileId : Nat) : MemoryOutput :=
  ⟨⟨partition, fileId, []⟩ :: output.files, some (partition, fileId)⟩

/-- The output with data behind what is stored under a key. -/
def grown (output : MemoryOutput) (key : Nat × Nat) (data : Bytes) : MemoryOutput :=
  { output with files := output.files.map fun (file : MemoryFile) =>
      if file.isKnownBy key then { file with pieces := data :: file.pieces } else file }

/-- All that a call can do. -/
inductive Step (output : MemoryOutput) :
    OutputCall → Except Failure Unit → MemoryOutput → Prop
  | started {partition : Nat} {entry : Entry}
      (free : output.get? partition entry.fileId = none) :
      Step output (.start partition entry) (.ok ()) (output.opened partition entry.fileId)
  | taken {partition : Nat} {entry : Entry} {reason : String}
      (stored : output.get? partition entry.fileId ≠ none) :
      Step output (.start partition entry) (.error (.output reason)) output
  | appended {key : Nat × Nat} {data : Bytes} (filling : output.current = some key) :
      Step output (.append data) (.ok ()) (output.grown key data)
  | unopened {data : Bytes} (idle : output.current = none) :
      Step output (.append data) (.error noOpenFile) output
  | closed : Step output .close (.ok ()) { output with current := none }

variable {output later : MemoryOutput} {call : OutputCall} {calls more : List OutputCall}
  {result : Except Failure Unit} {partition fileId : Nat}

theorem step_of_perform (performed : output.perform call = (result, later)) :
    Step output call result later := by
  cases call with
  | start partition entry =>
    by_cases free : output.get? partition entry.fileId = none
    · cases (start_apply free).symm.trans performed
      exact .started free
    · obtain ⟨reason, refused⟩ := start_taken free
      cases refused.symm.trans performed
      exact .taken free
  | append data =>
    obtain ⟨files, _ | key⟩ := output
    · cases performed
      exact .unopened rfl
    · cases performed
      exact .appended rfl
  | close =>
    cases performed
    exact .closed

theorem after_cons : output.after (call :: calls) = (output.perform call).2.after calls := rfl

theorem after_append : output.after (calls ++ more) = (output.after calls).after more :=
  List.foldl_append

theorem accepted_cons_ok (performed : output.perform call = (.ok (), later)) :
    output.accepted (call :: calls) = call :: later.accepted calls := by
  rw [accepted, performed]
  rfl

theorem accepted_cons_error {failure : Failure}
    (performed : output.perform call = (.error failure, later)) :
    output.accepted (call :: calls) = later.accepted calls := by
  rw [accepted, performed]
  rfl

/-- A call that fails changes nothing. -/
theorem eq_of_error {failure : Failure}
    (performed : output.perform call = (.error failure, later)) : later = output := by
  cases step_of_perform performed <;> rfl

theorem get?_cons (file : MemoryFile) (files : List MemoryFile) (current : Option (Nat × Nat))
    (partition fileId : Nat) :
    get? ⟨file :: files, current⟩ partition fileId =
      if file.isKnownBy (partition, fileId) then some file.contents
      else get? ⟨files, current⟩ partition fileId := by
  unfold get?
  rw [List.find?_cons]
  split
  next known => rw [if_pos known]; rfl
  next unknown => rw [if_neg (ne_true_of_eq_false unknown)]

theorem get?_opened (output : MemoryOutput) (key : Nat × Nat) (partition fileId : Nat) :
    (output.opened key.1 key.2).get? partition fileId =
      if key = (partition, fileId) then some [] else output.get? partition fileId := by
  unfold opened
  rw [get?_cons]
  simp only [MemoryFile.isKnownBy, decide_eq_true_eq]
  rfl

/-- What is appended goes to the end of one file. -/
theorem get?_grown (output : MemoryOutput) (key : Nat × Nat) (data : Bytes)
    (partition fileId : Nat) :
    (output.grown key data).get? partition fileId =
      (output.get? partition fileId).map fun stored =>
        if key = (partition, fileId) then stored ++ data else stored := by
  obtain ⟨files, current⟩ := output
  unfold grown
  induction files with
  | nil => rfl
  | cons file files ih =>
    dsimp only at ih ⊢
    rw [List.map_cons, get?_cons, get?_cons, ih]
    have kept : (if file.isKnownBy key then { file with pieces := data :: file.pieces }
        else file).isKnownBy (partition, fileId) = file.isKnownBy (partition, fileId) := by
      split <;> rfl
    rw [kept]
    by_cases known : file.isKnownBy (partition, fileId) = true
    · have same : file.isKnownBy key = true ↔ key = (partition, fileId) := by
        obtain ⟨rfl, rfl⟩ := isKnownBy_iff.mp known
        simp [MemoryFile.isKnownBy, eq_comm]
      rw [if_pos known, if_pos known, Option.map_some]
      by_cases here : key = (partition, fileId)
      · rw [if_pos here, if_pos (same.mpr here)]
        simp [MemoryFile.contents]
      · rw [if_neg here, if_neg (mt same.mp here)]
    · rw [if_neg known, if_neg known]

/-- Starting a file or closing one leaves what is stored as it is, and not open. -/
theorem get?_of_stop {stored : Bytes} (known : output.get? partition fileId = some stored)
    (performed : output.perform call = (.ok (), later)) (stops : ∀ data, call ≠ .append data) :
    later.get? partition fileId = some stored ∧ later.current ≠ some (partition, fileId) := by
  cases step_of_perform performed with
  | @started other entry free =>
    have different : ¬ (other, entry.fileId) = (partition, fileId) := by
      rintro ⟨⟩
      cases free.symm.trans known
    refine ⟨?_, fun same => different (Option.some.inj same)⟩
    rw [get?_opened output (other, entry.fileId), if_neg different, known]
  | appended _ => exact absurd rfl (stops _)
  | closed => exact ⟨known, nofun⟩

/-- What is stored under a number stays, and what is appended to it comes behind. -/
theorem get?_after {stored : Bytes} (known : output.get? partition fileId = some stored)
    (calls : List OutputCall) :
    (output.after calls).get? partition fileId = some (stored ++
      if output.current = some (partition, fileId) then pending (output.accepted calls) else []) := by
  induction calls generalizing output stored with
  | nil =>
    have nothing : stored ++ (if output.current = some (partition, fileId) then pending [] else []) =
        stored := by
      split <;> exact List.append_nil stored
    exact known.trans (congrArg some nothing.symm)
  | cons call rest ih =>
    cases performed : output.perform call with
    | mk result later =>
      rw [after_cons, performed]
      -- A start or a close ends what is pending, and the file is not open after it.
      have ended (ok : output.perform call = (.ok (), later)) (stops : ∀ data, call ≠ .append data)
          (silent : pending (output.accepted (call :: rest)) = []) :
          (later.after rest).get? partition fileId = some (stored ++
            if output.current = some (partition, fileId) then
              pending (output.accepted (call :: rest)) else []) := by
        obtain ⟨kept, shut⟩ := get?_of_stop known ok stops
        rw [ih kept, if_neg shut, silent, ite_self]
      cases step_of_perform performed with
      | started _ =>
        exact ended performed nofun (congrArg pending (accepted_cons_ok performed))
      | taken _ => rw [accepted_cons_error performed, ih known]
      | @appended key data filling =>
        have more : (output.grown key data).get? partition fileId =
            some (if key = (partition, fileId) then stored ++ data else stored) := by
          rw [get?_grown, known, Option.map_some]
        have still : (output.grown key data).current = some key := filling
        rw [accepted_cons_ok performed, ih more, still, filling]
        by_cases here : key = (partition, fileId)
        · rw [if_pos here, if_pos (congrArg some here), if_pos (congrArg some here),
            List.append_assoc]
          rfl
        · have apart : ¬ some key = some (partition, fileId) := mt Option.some.inj here
          rw [if_neg here, if_neg apart, if_neg apart]
      | unopened _ => rw [accepted_cons_error performed, ih known]
      | closed => exact ended performed nofun (congrArg pending (accepted_cons_ok performed))

theorem get?_eq_none_of_step (performed : output.perform call = (.ok (), later)) :
    later.get? partition fileId = none ↔ output.get? partition fileId = none ∧
      ∀ entry, call = .start partition entry → entry.fileId ≠ fileId := by
  cases step_of_perform performed with
  | @started other entry free =>
    rw [get?_opened output (other, entry.fileId)]
    constructor
    · intro unused
      split at unused
      · cases unused
      next different =>
        refine ⟨unused, ?_⟩
        rintro _ ⟨⟩ rfl
        exact different rfl
    · rintro ⟨unused, different⟩
      rw [if_neg, unused]
      rintro ⟨⟩
      exact different entry rfl rfl
  | appended _ =>
    rw [get?_grown, Option.map_eq_none_iff]
    exact (and_iff_left nofun).symm
  | closed => exact (and_iff_left nofun).symm

/-- A number is in use once a start with it has succeeded. -/
theorem get?_after_eq_none_iff :
    (output.after calls).get? partition fileId = none ↔ output.get? partition fileId = none ∧
      ∀ entry, .start partition entry ∈ output.accepted calls → entry.fileId ≠ fileId := by
  induction calls generalizing output with
  | nil => exact (and_iff_left nofun).symm
  | cons call rest ih =>
    cases performed : output.perform call with
    | mk result later =>
      rw [after_cons, performed, ih]
      cases result with
      | error failure => rw [accepted_cons_error performed, eq_of_error performed]
      | ok value =>
        rw [accepted_cons_ok performed, get?_eq_none_of_step performed, and_assoc]
        simp only [List.mem_cons, or_imp, forall_and, eq_comm]

theorem current_eq_none_of_step (performed : output.perform call = (.ok (), later)) :
    later.current = none ↔ (output.current = none ∨ call = .close) ∧ ¬ call.isStart = true := by
  cases step_of_perform performed with
  | started free => simp [opened, isStart]
  | appended filling => simp [grown, filling]
  | closed => simp [isStart]

/-- No file is open exactly if every file that was started has been closed since. -/
theorem current_after_eq_none_iff :
    (output.after calls).current = none ↔
      (output.current = none ∨ .close ∈ output.accepted calls) ∧
        AllClosed (output.accepted calls) := by
  induction calls generalizing output with
  | nil => simp [after, accepted, AllClosed, followed_nil]
  | cons call rest ih =>
    cases performed : output.perform call with
    | mk result later =>
      rw [after_cons, performed, ih]
      cases result with
      | error failure => rw [accepted_cons_error performed, eq_of_error performed]
      | ok value =>
        rw [accepted_cons_ok performed, AllClosed, AllClosed, followed_cons_iff,
          current_eq_none_of_step performed, List.mem_cons, eq_comm (a := OutputCall.close)]
        tauto

/-- A call among those that succeed was made at some point, and it succeeded there. -/
theorem exists_of_accepted {earlier onward : List OutputCall}
    (split : output.accepted calls = earlier ++ call :: onward) :
    ∃ before rest opened, calls = before ++ call :: rest ∧
      (output.after before).perform call = (.ok (), opened) ∧ opened.accepted rest = onward := by
  induction calls generalizing output earlier with
  | nil => cases earlier <;> cases split
  | cons first rest ih =>
    cases performed : output.perform first with
    | mk result later =>
      cases result with
      | error failure =>
        rw [accepted_cons_error performed] at split
        obtain ⟨before, others, opened, rfl, succeeds, same⟩ := ih split
        refine ⟨first :: before, others, opened, rfl, ?_, same⟩
        rwa [after_cons, performed]
      | ok value =>
        rw [accepted_cons_ok performed] at split
        cases earlier with
        | nil =>
          obtain ⟨rfl, rfl⟩ := List.cons.inj split
          exact ⟨[], rest, later, rfl, performed, rfl⟩
        | cons other earlier =>
          obtain ⟨before, others, opened, rfl, succeeds, same⟩ := ih (List.cons.inj split).2
          refine ⟨first :: before, others, opened, rfl, ?_, same⟩
          rwa [after_cons, performed]

theorem fails_start_iff {entry : Entry} :
    (∃ failure, (output.perform (.start partition entry)).1 = .error failure) ↔
      output.get? partition entry.fileId ≠ none := by
  cases performed : output.perform (.start partition entry) with
  | mk result later =>
    cases step_of_perform performed with
    | started free => simp [free]
    | taken stored => simp [stored]

theorem fails_append_iff {data : Bytes} :
    (∃ failure, (output.perform (.append data)).1 = .error failure) ↔ output.current = none := by
  cases performed : output.perform (.append data) with
  | mk result later =>
    cases step_of_perform performed with
    | appended filling => simp [filling]
    | unopened idle => simp [idle]

theorem get?_after_empty_iff :
    (empty.after calls).get? partition fileId = none ↔
      ∀ entry, .start partition entry ∈ empty.accepted calls → entry.fileId ≠ fileId := by
  rw [get?_after_eq_none_iff]
  exact and_iff_right rfl

/-- What can be told of memory from the calls that were made on it since it was empty. -/
structure Exact (calls : List OutputCall) : Prop where
  /-- A call that fails changes nothing. -/
  unchanged : ∀ call failure later,
    (empty.after calls).perform call = (.error failure, later) → later = empty.after calls
  /-- A file can be started exactly if none of its number in its partition was started before. -/
  start_fails_iff : ∀ partition entry,
    (∃ failure, ((empty.after calls).perform (.start partition entry)).1 = .error failure) ↔
      ∃ other, .start partition other ∈ empty.accepted calls ∧ other.fileId = entry.fileId
  /-- Data can be appended exactly if some file was started and not closed. -/
  append_fails_iff : ∀ data,
    (∃ failure, ((empty.after calls).perform (.append data)).1 = .error failure) ↔
      AllClosed (empty.accepted calls)
  close_ok : ((empty.after calls).perform .close).1 = .ok ()
  absent_iff : ∀ partition fileId, (empty.after calls).get? partition fileId = none ↔
    ∀ entry, .start partition entry ∈ empty.accepted calls → entry.fileId ≠ fileId
  /-- A file holds what was appended between its start and the next start or close. -/
  stored : ∀ earlier partition entry onward,
    empty.accepted calls = earlier ++ .start partition entry :: onward →
    (empty.after calls).get? partition entry.fileId = some (pending onward)
  /-- What is stored when another file is started or the open one is closed stays as it is. -/
  settled : ∀ partition fileId data, (empty.after calls).get? partition fileId = some data →
    ∀ call, (∀ piece, call ≠ .append piece) → ((empty.after calls).perform call).1 = .ok () →
      ∀ more, (empty.after (calls ++ call :: more)).get? partition fileId = some data

/-- Memory neither loses nor mixes data, in whatever order it is called. -/
theorem exact_after (calls : List OutputCall) : Exact calls where
  unchanged call failure later performed := eq_of_error performed
  start_fails_iff partition entry := by
    rw [fails_start_iff, Ne, get?_after_empty_iff]
    simp
  append_fails_iff data := by
    rw [fails_append_iff, current_after_eq_none_iff]
    exact and_iff_right (.inl rfl)
  close_ok := rfl
  absent_iff partition fileId := get?_after_empty_iff
  stored earlier partition entry onward split := by
    obtain ⟨before, rest, later, rfl, started, rfl⟩ := exists_of_accepted split
    rw [after_append, after_cons, started]
    cases step_of_perform started with
    | started free =>
      have fresh : ((empty.after before).opened partition entry.fileId).get? partition
          entry.fileId = some [] := by
        rw [get?_opened _ (partition, entry.fileId), if_pos rfl]
      exact (get?_after fresh rest).trans (congrArg some (if_pos rfl))
  settled partition fileId data known call stops ok more := by
    cases performed : (empty.after calls).perform call with
    | mk result later =>
      rw [performed] at ok
      cases ok
      obtain ⟨kept, shut⟩ := get?_of_stop known performed stops
      rw [after_append, after_cons, performed, get?_after kept, if_neg shut, List.append_nil]

/-- A file of some number, found at the root. -/
def numbered (fileId : Nat) : Entry :=
  { fileId, ordinal := fileId, shortName := [], extension := [], longName := none
    recoveredInitial := none, attributes := 0, startCluster := 3, size := 1, deleted := true
    parentCluster := 2, slotCluster := 2, slotIndex := 0, modified := none }

/-- A start that is refused does not disturb the file that is open, and data that comes before
another file's start or after a close is in no file but its own. -/
theorem exact_after_crossed :
    let calls : List OutputCall :=
      [.append [9], .start 0 (numbered 3), .append [1, 2], .start 0 (numbered 3), .append [3],
        .start 1 (numbered 3), .append [4], .close, .append [5], .start 1 (numbered 3)]
    empty.accepted calls = [.start 0 (numbered 3), .append [1, 2], .append [3],
        .start 1 (numbered 3), .append [4], .close] ∧
      (empty.after calls).get? 0 3 = some [1, 2, 3] ∧
      (empty.after calls).get? 1 3 = some [4] ∧ (empty.after calls).get? 0 4 = none := by
  intro calls
  have accepted : empty.accepted calls = [.start 0 (numbered 3), .append [1, 2], .append [3],
      .start 1 (numbered 3), .append [4], .close] := rfl
  refine ⟨accepted, ?_, ?_, ?_⟩
  · exact (exact_after calls).stored [] 0 (numbered 3) _ accepted
  · exact (exact_after calls).stored [.start 0 (numbered 3), .append [1, 2], .append [3]] 1
      (numbered 3) _ accepted
  · refine ((exact_after calls).absent_iff 0 4).mpr fun entry member => ?_
    rw [accepted] at member
    simp only [List.mem_cons, OutputCall.start.injEq, reduceCtorEq, List.not_mem_nil, false_or,
      or_false] at member
    rcases member with ⟨-, rfl⟩ | ⟨-, rfl⟩ <;> decide

end MemoryOutput

end Undelete
