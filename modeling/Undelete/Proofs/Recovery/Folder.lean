import Mathlib.Data.String.Basic
import Undelete.Proofs.Directory.Written
import Undelete.Proofs.Recovery.FileNames
import Undelete.Proofs.Recovery.Heeding
import Undelete.Proofs.Recovery.Protocol

/-!
Recovery into a folder that nothing is in. The names of the files that a run hands over are all
different, so that the host refuses one of them only when it is too long. Nothing shortens a name
that is: the run then ends with the file that has it.
-/

namespace Undelete

namespace FileTree

/-- Nothing but the contents of files is different. -/
structure SamePlaces (tree later : FileTree) : Prop where
  home : later.home = tree.home
  folders : later.folders = tree.folders
  files : later.files.map HostFile.location = tree.files.map HostFile.location

theorem SamePlaces.refl (tree : FileTree) : tree.SamePlaces tree := ⟨rfl, rfl, rfl⟩

theorem SamePlaces.trans {first second third : FileTree} (early : first.SamePlaces second)
    (late : second.SamePlaces third) : first.SamePlaces third :=
  ⟨late.home.trans early.home, late.folders.trans early.folders, late.files.trans early.files⟩

theorem samePlaces_append (tree : FileTree) (location : Location) (pieces : List Bytes) :
    tree.SamePlaces (tree.append location pieces) where
  home := rfl
  folders := rfl
  files := by
    rw [append, List.map_map]
    refine List.map_congr_left fun file _ => ?_
    rw [Function.comp_apply]
    split <;> rfl

/-- A new file takes its place, and the other places are as they were. -/
theorem isTaken_cons_file {tree : FileTree} {location other : Location} :
    isTaken { tree with files := ⟨location, []⟩ :: tree.files } other = true ↔
      other = location ∨ tree.isTaken other = true := by
  rw [isTaken, isTaken, Bool.or_eq_true, Bool.or_eq_true, isFile_iff, isFile_iff, List.map_cons,
    List.mem_cons]
  exact or_left_comm

end FileTree

namespace FolderOutput

open Output

/-- What a run says of a file whose name is too long. -/
def tooLong (root : String) (partition : Nat) (entry : Entry) : String :=
  pathOf root partition entry ++ ": " ++ HostError.nameTooLong.text

/-- Whether the name of a file is longer than the host takes. -/
def IsLong (partition : Nat) (entry : Entry) : Prop :=
  HostPath.maxNameBytes < (FileName.stored partition entry).utf8ByteSize

instance (partition : Nat) (entry : Entry) : Decidable (IsLong partition entry) :=
  inferInstanceAs (Decidable (_ < _))

/-- A name is too long when what is left of it without unsafe characters is. -/
theorem isLong_of_letters {partition : Nat} {entry : Entry}
    (letters : HostPath.maxNameBytes <
      String.utf8Len (FileName.sanitizeChars entry.displayName.toList)) :
    IsLong partition entry := by
  rw [IsLong, ← @String.ofList_toList (FileName.stored partition entry),
    String.utf8ByteSize_ofList, FileName.toList_stored]
  simp only [String.utf8Len_cons, String.utf8Len_append]
  omega

/-- Whether an output stores files in a folder where no other names than these are taken. -/
structure Stores (root : String) (folder : Location) (names : List String)
    (output : FolderOutput) : Prop where
  rooted : output.root = root
  reaches : output.tree.walk ((HostPath.ofText root).origin output.tree.home)
    (HostPath.ofText root).names = .ok folder
  taken : ∀ name, output.tree.isTaken (folder ++ [name]) = true → name ∈ names

section

variable {root : String} {folder : Location} {names : List String} {output later : FolderOutput}
  {partition : Nat} {entry : Entry} {failure : Failure}

theorem Stores.of_samePlaces (stores : Stores root folder names output)
    (same : later.root = output.root) (places : output.tree.SamePlaces later.tree) :
    Stores root folder names later where
  rooted := same.trans stores.rooted
  reaches := by
    rw [places.home]
    refine FileTree.walk_of_subset (fun location known => ?_) stores.reaches
    rwa [FileTree.isFolder, places.folders]
  taken name known := by
    refine stores.taken name ?_
    rw [FileTree.isTaken, Bool.or_eq_true, FileTree.isFile_iff, FileTree.isFolder] at known ⊢
    rwa [places.folders, places.files] at known

theorem start_eq (between : output.current = none) (partition : Nat) (entry : Entry) :
    start partition entry output =
      match output.tree.create (pathOf output.root partition entry) with
      | .ok (location, tree) =>
        (.ok (), { output with
          tree
          current := some ⟨partition, entry.fileId, pathOf output.root partition entry, location,
            [], []⟩ })
      | .error .alreadyExists =>
        (.error (.output (pathOf output.root partition entry ++ " already exists")), output)
      | .error refusal =>
        (.error (.output (pathOf output.root partition entry ++ ": " ++ refusal.text)), output) := by
  obtain ⟨folder, tree, current, written⟩ := output
  subst between
  have got : (get : Act FolderOutput FolderOutput) = fun output => (.ok output, output) := rfl
  rw [start, got]
  simp only [bind, ExceptT.bind, ExceptT.mk, StateT.bind, ExceptT.bindCont]
  cases tree.create (pathOf folder partition entry) with
  | ok made => rfl
  | error refusal => cases refusal <;> rfl

variable (short : root.utf8ByteSize + 1 + HostPath.maxNameBytes ≤ HostPath.maxPathBytes)
include short

/-- What comes of a file that is to be created. -/
theorem Stores.create_eq (stores : Stores root folder names output) (partition : Nat)
    (entry : Entry) :
    output.tree.create (pathOf output.root partition entry) =
      if IsLong partition entry then .error .nameTooLong
      else if output.tree.isTaken (folder ++ [FileName.stored partition entry]) then
        .error .alreadyExists
      else .ok (folder ++ [FileName.stored partition entry],
        { output.tree with
          files := ⟨folder ++ [FileName.stored partition entry], []⟩ :: output.tree.files }) := by
  rw [stores.rooted]
  exact FileTree.create_join (FileName.plain_stored partition entry) stores.reaches short

theorem Stores.start_ok (stores : Stores root folder names output)
    (started : start partition entry output = (.ok (), later)) :
    ¬ IsLong partition entry ∧
      Stores root folder (FileName.stored partition entry :: names) later := by
  cases current : output.current with
  | some file =>
    obtain ⟨root, tree, open_, written⟩ := output
    cases current
    cases started
  | none =>
    rw [start_eq current, stores.create_eq short] at started
    by_cases long : IsLong partition entry
    · rw [if_pos long] at started
      cases started
    rw [if_neg long] at started
    split at started
    next location tree created =>
      split at created
      · cases created
      next free =>
        cases created
        cases started
        refine ⟨long, stores.rooted, ?_, fun name known => List.mem_cons.mpr ?_⟩
        · refine FileTree.walk_of_subset (fun location known => ?_) stores.reaches
          exact known
        rcases FileTree.isTaken_cons_file.mp known with same | old
        · exact .inl (List.cons.inj (List.append_cancel_left same)).1
        · exact .inr (stores.taken name old)
    next => cases started
    next => cases started

theorem Stores.start_error (stores : Stores root folder names output)
    (between : output.current = none)
    (failed : start partition entry output = (.error failure, later)) :
    IsLong partition entry ∧ failure = .output (tooLong root partition entry) ∨
      FileName.stored partition entry ∈ names ∧
        failure = .output (pathOf root partition entry ++ " already exists") := by
  have known := stores.taken (FileName.stored partition entry)
  rw [start_eq between, stores.create_eq short, stores.rooted] at failed
  by_cases long : IsLong partition entry
  · rw [if_pos long] at failed
    cases failed
    exact .inl ⟨long, rfl⟩
  · rw [if_neg long] at failed
    by_cases taken : output.tree.isTaken (folder ++ [FileName.stored partition entry]) = true
    · rw [if_pos taken] at failed
      cases failed
      exact .inr ⟨known taken, rfl⟩
    · rw [if_neg taken] at failed
      cases failed

omit short

theorem samePlaces_accept (tree : FileTree) (file : OpenFile) (data : Bytes) :
    tree.SamePlaces (accept tree file data).1 := by
  unfold accept
  dsimp only
  split
  · split
    · exact (tree.samePlaces_append _ _).trans (FileTree.samePlaces_append _ _ _)
    · exact tree.samePlaces_append _ _
  · split
    · exact tree.samePlaces_append _ _
    · exact .refl tree

theorem Stores.append {data : Bytes} (stores : Stores root folder names output)
    (appended : FolderOutput.append data output = (.ok (), later)) :
    Stores root folder names later := by
  obtain ⟨home, tree, current, written⟩ := output
  cases current with
  | none => cases appended
  | some file =>
    cases appended
    exact stores.of_samePlaces rfl (samePlaces_accept tree file data)

theorem Stores.close [Digests] {place : Option String} (stores : Stores root folder names output)
    (finished : FolderOutput.close output = (.ok place, later)) :
    Stores root folder names later ∧ later.current = none := by
  obtain ⟨home, tree, current, written⟩ := output
  cases current with
  | none => cases finished
  | some file =>
    cases finished
    exact ⟨stores.of_samePlaces rfl (tree.samePlaces_append _ _), rfl⟩

include short

/-- Whatever is called, the folder is reached, and no file with too long a name is started. -/
theorem Stores.accepts [Digests] {calls : List Event} {told : List (Option String)}
    (stores : Stores root folder names output) (accepts : Accepts output calls told later) :
    (∃ taken, Stores root folder taken later) ∧
      ∀ partition entry, .start partition entry ∈ calls → ¬ IsLong partition entry := by
  induction accepts generalizing names with
  | done => exact ⟨⟨names, stores⟩, fun _ _ member => nomatch member⟩
  | start started _ ih =>
    obtain ⟨fits, stores⟩ := stores.start_ok short started
    obtain ⟨onward, rest⟩ := ih stores
    refine ⟨onward, fun partition entry member => ?_⟩
    rcases List.mem_cons.mp member with same | later
    · cases same
      exact fits
    · exact rest partition entry later
  | append appended _ ih =>
    obtain ⟨onward, rest⟩ := ih (stores.append appended)
    exact ⟨onward, fun partition entry member =>
      rest partition entry (List.mem_of_ne_of_mem Event.noConfusion member)⟩
  | close finished _ ih =>
    obtain ⟨onward, rest⟩ := ih (stores.close finished).1
    exact ⟨onward, fun partition entry member =>
      rest partition entry (List.mem_of_ne_of_mem Event.noConfusion member)⟩

/-- A file that is accepted takes its name, and none is open afterwards. -/
theorem Stores.file [Digests] {file : Delivery} {told : List (Option String)}
    (stores : Stores root folder names output) (accepts : Accepts output file.calls told later) :
    Stores root folder (FileName.stored file.partition file.entry :: names) later ∧
      later.current = none := by
  obtain ⟨begun, filled, place, started, appends, finished, -⟩ := accepts.file
  obtain ⟨-, opened⟩ := stores.start_ok short started
  obtain ⟨-, filled⟩ := appends.appends_keep Stores.append opened
  exact filled.close finished

/-- Of files with different names one is refused only when its name is too long. -/
theorem Stores.refuses_files [Digests] {files : List Delivery}
    (stores : Stores root folder names output) (between : output.current = none)
    (distinct : (files.map fun file => FileName.stored file.partition file.entry).Nodup)
    (fresh : ∀ file ∈ files, FileName.stored file.partition file.entry ∉ names)
    (refuses : Refuses output (files.flatMap Delivery.calls) failure) :
    ∃ file ∈ files, IsLong file.partition file.entry ∧
      failure = .output (tooLong root file.partition file.entry) := by
  induction files generalizing output names with
  | nil => exact absurd refuses not_refuses_nil
  | cons file rest ih =>
    rw [List.map_cons, List.nodup_cons] at distinct
    rcases refuses.of_append with own | ⟨told, mid, accepts, later⟩
    · rcases own.of_cons with fails | ⟨told, mid, first, onward⟩
      · cases fails with
        | start failed =>
          rcases stores.start_error short between failed with ⟨long, reason⟩ | ⟨known, -⟩
          · exact ⟨file, List.mem_cons_self, long, reason⟩
          · exact absurd known (fresh file List.mem_cons_self)
      · cases first with
        | start started done =>
          cases done
          exact absurd onward (not_refuses_of_opened (opened_of_start ⟨rfl, between⟩ started) _)
    · obtain ⟨stores, between⟩ := stores.file short accepts
      obtain ⟨found, member, long, reason⟩ := ih stores between distinct.2 (fun other member => by
        rw [List.mem_cons, not_or]
        refine ⟨fun same => distinct.1 ?_, fresh other (List.mem_cons_of_mem _ member)⟩
        exact List.mem_map.mpr ⟨other, member, same⟩) later
      exact ⟨found, List.mem_cons_of_mem _ member, long, reason⟩

end

/-- Files of different partitions or with different ordinals have different names. -/
theorem nodup_stored {files : List Delivery}
    (ascending : files.Pairwise fun earlier later => earlier.partition < later.partition ∨
      earlier.partition = later.partition ∧ earlier.entry.ordinal < later.entry.ordinal) :
    (files.map fun file => FileName.stored file.partition file.entry).Nodup := by
  refine List.pairwise_map.mpr (ascending.imp ?_)
  intro earlier later order same
  obtain ⟨partition, ordinal⟩ := FileName.stored_inj same
  omega

/-- An output made for an empty folder stores files there under any names. -/
theorem stores_of_ofFolder {root : String} {tree later : FileTree} {output : FolderOutput}
    (made : ofFolder root tree = (.ok output, later))
    (empty : ∀ name,
      later.isTaken ((HostPath.ofText root).target later.home ++ [name]) = false) :
    Stores root ((HostPath.ofText root).target later.home) [] output ∧ output.current = none := by
  unfold ofFolder at made
  cases built : tree.makeFolders root with
  | mk outcome last =>
    rw [built] at made
    cases outcome with
    | error refusal => cases made
    | ok done =>
      cases made
      refine ⟨⟨rfl, FileTree.reaches_of_makeFolders built, fun name known => ?_⟩, rfl⟩
      rw [empty name] at known
      cases known

theorem last_tooLong (root : String) (partition : Nat) (entry : Entry) :
    (tooLong root partition entry).toList.getLast? = some ')' := by
  rw [tooLong, getLast?_append_text _ (by decide)]
  decide

end FolderOutput

namespace Device

open FolderOutput Output

variable {config : Config} {session : Session} {drive : Drive} {source : Source}

/-- A run that blames an empty folder has started files there up to one with too long a name. -/
theorem long_of_stopped [Digests] {root : String} {folder : Location} {output : FolderOutput}
    (short : root.utf8ByteSize + 1 + HostPath.maxNameBytes ≤ HostPath.maxPathBytes)
    (stores : Stores root folder [] output) (between : output.current = none) {reason : String}
    {after : Run FolderOutput}
    (stopped : recover config session drive (.ofParts source output) =
      (.error (.output reason), after)) :
    ∃ accepted partition entry told mid,
      after.calls = accepted ++ [.start partition entry] ∧ Accepts output accepted told mid ∧
      IsLong partition entry ∧ reason = tooLong root partition entry := by
  obtain ⟨stops, planned, refuses⟩ := refuses_of_recover stopped
  obtain ⟨here, -, planned⟩ := stops_of_route planned
  obtain ⟨file, -, -, blamed⟩ := stores.refuses_files short between
    (nodup_stored (numbered_stops planned).ascending) (fun _ _ => List.not_mem_nil) refuses
  -- What the run says of the file ends in a bracket, and what it says of other faults does not.
  have last : reason.toList.getLast? = some ')' := by
    cases blamed
    exact last_tooLong ..
  obtain ⟨calls, noted, heard⟩ := (heeds_recover config session drive _).heard stopped
  cases heard with
  | accepted accepts blameless => cases blameless _ rfl
  | @refused accepted event told mid _ _ accepts fails =>
    have unopened : Failure.output reason ≠ noOpenFile := by
      rintro same
      cases same
      exact absurd last (by decide)
    cases fails with
    | append failed => exact absurd (append_fails failed).2 unopened
    | close failed => exact absurd (close_fails failed).2 unopened
    | @start _ partition entry _ failed =>
      obtain ⟨⟨taken, stores⟩, -⟩ := stores.accepts short accepts
      rcases start_fails failed with ⟨file, -, open_⟩ | ⟨between, -⟩
      · cases open_
        rw [getLast?_append_text _ (by decide)] at last
        exact absurd last (by decide)
      rcases stores.start_error short between failed with ⟨long, same⟩ | ⟨-, same⟩
      · cases same
        exact ⟨accepted, partition, entry, told, mid, noted, accepts, long, rfl⟩
      · cases same
        rw [getLast?_append_text _ (by decide)] at last
        exact absurd last (by decide)

/-- A run into a fresh folder fails with the folder's fault exactly when it has started a file
whose name is too long for the host, and it is that file which it names. -/
theorem output_failure_iff_long [Digests] {root : String} {tree later : FileTree}
    {output : FolderOutput} (made : ofFolder root tree = (.ok output, later))
    (empty : ∀ name, later.isTaken ((HostPath.ofText root).target later.home ++ [name]) = false)
    (short : root.utf8ByteSize + 1 + HostPath.maxNameBytes ≤ HostPath.maxPathBytes)
    {result : Except Failure Report} {after : Run FolderOutput}
    (done : recover config session drive (.ofParts source output) = (result, after))
    (reason : String) :
    result = .error (.output reason) ↔
      ∃ partition entry, .start partition entry ∈ after.journal ∧ IsLong partition entry ∧
        reason = tooLong root partition entry := by
  obtain ⟨stores, between⟩ := stores_of_ofFolder made empty
  have called (partition : Nat) (entry : Entry) :
      .start partition entry ∈ after.journal ↔ .start partition entry ∈ after.calls := by
    simp [Run.calls, Event.isCall]
  constructor
  · rintro rfl
    obtain ⟨accepted, partition, entry, -, -, calls, -, long, told⟩ :=
      long_of_stopped short stores between done
    refine ⟨partition, entry, (called partition entry).mpr ?_, long, told⟩
    rw [calls]
    exact List.mem_append_right _ List.mem_cons_self
  · rintro ⟨partition, entry, started, long, rfl⟩
    rw [called] at started
    obtain ⟨calls, noted, heard⟩ := (heeds_recover config session drive _).heard done
    cases heard with
    | accepted accepts _ =>
      rw [noted] at started
      exact absurd long ((stores.accepts short accepts).2 partition entry started)
    -- The run has failed, but at the first long name: it has to be the same one.
    | refused _ fails =>
      obtain ⟨reason, rfl⟩ := LawfulOutput.blames fails
      obtain ⟨accepted, other, another, told, mid, calls, accepts, -, rfl⟩ :=
        long_of_stopped short stores between done
      rw [calls] at started
      rcases List.mem_append.mp started with before | last
      · exact absurd long ((stores.accepts short accepts).2 partition entry before)
      · cases List.mem_singleton.mp last
        rfl

/-- A run that can visit every volume is stopped by a file with too long a name. -/
theorem stopped_of_long [Digests] {root : String} {folder : Location} {output : FolderOutput}
    (short : root.utf8ByteSize + 1 + HostPath.maxNameBytes ≤ HostPath.maxPathBytes)
    (stores : Stores root folder [] output) {stops : Stops}
    (planned : route config source drive.category = .ok stops)
    (visited : ∀ failure, ¬ stops.Blocked failure) {partition : Nat} {entry : Entry}
    (started : .start partition entry ∈ stops.calls) (long : IsLong partition entry) :
    ∃ reason after, recover config session drive (.ofParts source output) =
      (.error (.output reason), after) := by
  have travels := travels_recover config session drive (.ofParts source output)
  cases done : recover config session drive (.ofParts source output) with
  | mk result after =>
    cases result with
    | ok report =>
      obtain ⟨others, same, tour, -⟩ := travels.ok done
      cases planned.symm.trans same
      obtain ⟨told, accepts⟩ := tour.accepts
      exact absurd long ((stores.accepts short accepts).2 partition entry started)
    | error failure =>
      rcases travels.stopped done with unplanned | ⟨others, same, blocked | refuses⟩
      · cases planned.symm.trans unplanned
      · cases planned.symm.trans same
        exact absurd blocked (visited failure)
      · obtain ⟨reason, rfl⟩ := refuses.blames
        exact ⟨reason, after, rfl⟩

/-- A drive with a file that has too long a name is not recovered to its end. -/
theorem stopped_of_plan [Digests] {root : String} {folder : Location} {output : FolderOutput}
    {g : Geometry} {found : Survey} {plan : Plan}
    (short : root.utf8ByteSize + 1 + HostPath.maxNameBytes ≤ HostPath.maxPathBytes)
    (stores : Stores root folder [] output) (single : drive.category = .logical)
    (fresh : source.reopen = .ok source) (recognized : source.geometry 0 = .ok g)
    (surveyed : Pass.survey config g source = .ok found)
    (planned : plan ∈ Pass.plans config g found)
    (taken : Pass.isSkipped source config g plan = false) (long : IsLong 0 plan.entry) :
    ∃ reason after, recover config session drive (.ofParts source output) =
      (.error (.output reason), after) := by
  let visit : Visit := .passing config g
    { PartitionReport.fresh 0 source.startLba .unknown with
      declared := .fat32
      sectorCount := g.totalSectors } source
  have visited : Visit.ofLogical config source = .ok visit := by
    unfold Visit.ofLogical
    rw [recognized, fresh]
    rfl
  have route : route config source drive.category = .ok [.ok visit] := by
    rw [Device.route, Source.opened_of_fresh fresh, single]
    exact congrArg (Except.ok [·]) visited
  refine stopped_of_long short stores route (fun _ => ?_) ?_ long
  · rw [Stops.blocked_cons_ok]
    exact Stops.not_blocked_nil
  · rw [Stops.calls_cons_ok]
    refine List.mem_append_left _ (List.mem_flatMap.mpr
      ⟨Pass.deliveryOf source g 0 plan, ?_, List.mem_append_left _ List.mem_cons_self⟩)
    simp only [visit, Visit.passing, Pass.deliveries, surveyed]
    refine List.mem_map_of_mem (List.mem_filter.mpr ⟨planned, ?_⟩)
    rw [taken]
    rfl

/-- A name of 90 letters. -/
def wordyName : List Char := List.replicate 90 '一'

def wordySlot : ShortSlot := Small.shortSlot 0x42 0x20 3 4

/-- The slots of a deleted file with that name, and of another one behind it. -/
def wordySlots : List Bytes :=
  (NameFragment.split wordySlot.checksum wordyName).map (fun fragment =>
    Slot.erase fragment.encode) ++ [Slot.erase wordySlot.encode, Small.slot 0xE5 0x20 4 4]

def wordy : Source :=
  Small.source [0, 0, Small.chainEnd] [wordySlots.flatten, [1, 2, 3, 4], [5, 6, 7, 8]]

def emptyOut : FolderOutput := ⟨"out", ⟨[], [["out"]], []⟩, none, []⟩

theorem ofFolder_emptyOut : ofFolder "out" FileTree.empty = (.ok emptyOut, emptyOut.tree) := rfl

theorem isTaken_emptyOut (name : String) :
    emptyOut.tree.isTaken ((HostPath.ofText "out").target emptyOut.tree.home ++ [name]) =
      false := by
  have place : (HostPath.ofText "out").target emptyOut.tree.home = ["out"] := by decide +kernel
  rw [place]
  simp [emptyOut, FileTree.isTaken, FileTree.isFolder, FileTree.isFile, FileTree.file?]

theorem short_emptyOut :
    "out".utf8ByteSize + 1 + HostPath.maxNameBytes ≤ HostPath.maxPathBytes := by
  decide +kernel

theorem survey_wordy : ∃ found, Pass.survey {} (Small.geometry 3) wordy = .ok found ∧
    found.scan.entries.length < UInt32.size ∧
    ∃ plan ∈ Pass.plans {} (Small.geometry 3) found,
      Pass.isSkipped wordy {} (Small.geometry 3) plan = false ∧
        plan.entry.longName = some (String.ofList wordyName) := by
  apply exists_ok
  unfold Pass.survey Pass.isSkipped Pass.isRecovered Pass.pieces Pass.pieceOf Pass.contentsOf
    Pass.chainOf
  simp only [wordy, Small.source, Probe.answer_ofImage]
  decide +kernel

theorem geometry_wordy : wordy.geometry 0 = .ok (Small.geometry 3) := by
  have known : wordy.sectorSize ≠ 0 := by decide
  obtain ⟨data, answered, kind, accepted⟩ :
      ∃ data, wordy.read 0 512 = .ok data ∧ (BootSector.decode data).filesystem = .fat32 ∧
        (BootSector.decode data).geometry = .ok (Small.geometry 3) := by
    rw [wordy, Small.source, Source.read_ofImage]
    exact exists_ok (by decide +kernel)
  rw [Source.geometry_of_read known answered, if_pos kind, accepted]

theorem stopped_wordy [Digests] (session : Session) : ∃ reason after,
    recover {} session (Drive.image "card" .logical) (.ofParts wordy emptyOut) =
      (.error (.output reason), after) := by
  obtain ⟨found, surveyed, -, plan, planned, taken, name⟩ := survey_wordy
  have long : IsLong 0 plan.entry := by
    have shown : plan.entry.displayName = String.ofList wordyName := by
      rw [Entry.displayName, name, Option.getD_some]
    refine isLong_of_letters ?_
    rw [shown, String.toList_ofList]
    decide +kernel
  obtain ⟨stores, -⟩ := stores_of_ofFolder ofFolder_emptyOut isTaken_emptyOut
  exact stopped_of_plan short_emptyOut stores rfl rfl geometry_wordy surveyed planned taken long

theorem output_failure_iff_long_wordy : ∃ partition entry after,
    recover {} ⟨⟨0⟩, Timestamp.ofUnix 0, Timestamp.ofUnix 1⟩ (Drive.image "card" .logical)
        (.ofParts wordy emptyOut) = (.error (.output (tooLong "out" partition entry)), after) ∧
      .start partition entry ∈ after.journal ∧ IsLong partition entry := by
  obtain ⟨reason, after, stopped⟩ :=
    stopped_wordy ⟨⟨0⟩, Timestamp.ofUnix 0, Timestamp.ofUnix 1⟩
  obtain ⟨partition, entry, started, long, rfl⟩ :=
    (output_failure_iff_long ofFolder_emptyOut isTaken_emptyOut short_emptyOut stopped
      reason).mp rfl
  exact ⟨partition, entry, after, stopped, started, long⟩

/-- The name of one deleted file keeps all others from being recovered into a fresh folder. -/
theorem output_failure_wordy :
    ofFolder "out" FileTree.empty = (.ok emptyOut, emptyOut.tree) ∧
    (∀ name, emptyOut.tree.isTaken
      ((HostPath.ofText "out").target emptyOut.tree.home ++ [name]) = false) ∧
    (∃ found, Pass.survey {} (Small.geometry 3) wordy = .ok found ∧
      found.scan.entries.length < UInt32.size) ∧
    ∃ reason after,
      recover {} ⟨⟨0⟩, Timestamp.ofUnix 0, Timestamp.ofUnix 1⟩ (Drive.image "card" .logical)
        (.ofParts wordy emptyOut) = (.error (.output reason), after) := by
  obtain ⟨found, surveyed, few, -⟩ := survey_wordy
  exact ⟨ofFolder_emptyOut, isTaken_emptyOut, ⟨found, surveyed, few⟩, stopped_wordy _⟩

end Device

end Undelete
