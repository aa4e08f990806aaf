import Undelete.Proofs.Directory.Damaged
import Undelete.Proofs.Recovery.Deliveries
import Undelete.Recovery.Device

/-!
The volumes of a drive. What comes of each of them is settled by the medium alone: it cannot be
visited at all, or a visit hands some files to the output and reports on them. A tour goes from one
volume to the next as long as the output accepts the files.
-/

namespace Undelete

section

variable {ε α β : Type} {work : Except ε α} {value : β} {failure : ε}

theorem bind_eq_ok_iff {onward : α → Except ε β} :
    work >>= onward = .ok value ↔ ∃ first, work = .ok first ∧ onward first = .ok value := by
  cases work <;> simp [bind, Except.bind]

theorem bind_eq_error_iff {onward : α → Except ε β} :
    work >>= onward = .error failure ↔
      work = .error failure ∨ ∃ first, work = .ok first ∧ onward first = .error failure := by
  cases work <;> simp [bind, Except.bind]

theorem map_eq_ok_iff {f : α → β} :
    work.map f = .ok value ↔ ∃ first, work = .ok first ∧ f first = value := by
  cases work <;> simp [Except.map]

theorem map_eq_error_iff {f : α → β} : work.map f = .error failure ↔ work = .error failure := by
  cases work <;> simp [Except.map]

end

namespace Source

/-- Whether two sources read the same medium, from whatever sector on. -/
def SameMedium (source other : Source) : Prop :=
  source.medium = other.medium ∧ source.sectorSize = other.sectorSize

theorem SameMedium.refl (source : Source) : source.SameMedium source := ⟨rfl, rfl⟩

theorem SameMedium.trans {first second third : Source} (early : first.SameMedium second)
    (late : second.SameMedium third) : first.SameMedium third :=
  ⟨early.1.trans late.1, early.2.trans late.2⟩

/-- The source as a run opens it. -/
def opened (source : Source) : Except Failure Source :=
  if source.isOpen then .ok source else source.reopen

/-- The volume that starts at some sector of the medium. -/
def volumeAt (source : Source) (lba : Nat) : Except Failure Source := (source.setStart lba).reopen

variable {source other volume : Source} {failure : Failure}

theorem volumeAt_congr (same : source.SameMedium other) (lba : Nat) :
    source.volumeAt lba = other.volumeAt lba := by
  obtain ⟨medium, size, start, contents⟩ := source
  obtain ⟨_, _, start', contents'⟩ := other
  obtain ⟨rfl, rfl⟩ := same
  rfl

theorem reopen_close (source : Source) : source.close.reopen = source.reopen := rfl

theorem sameMedium_of_reopen (again : source.reopen = .ok volume) : volume.SameMedium source := by
  obtain ⟨medium, size, start, contents⟩ := source
  unfold reopen at again
  split at again
  · cases again
    exact .refl _
  · cases again
  · split at again
    · cases again
    · cases again
      exact .refl _

theorem isOpen_of_reopen (again : source.reopen = .ok volume) : volume.isOpen = true := by
  obtain ⟨medium, size, start, contents⟩ := source
  unfold reopen at again
  split at again
  · cases again
    rfl
  · cases again
  · split at again
    · cases again
    · cases again
      rfl

theorem opened_of_fresh (fresh : source.reopen = .ok source) : source.opened = .ok source :=
  if_pos (isOpen_of_reopen fresh)

/-- A source that cannot be opened is at fault itself. -/
theorem unreadable_of_reopen (failed : source.reopen = .error failure) :
    ∃ reason, failure = .unreadableDevice reason := by
  unfold reopen at failed
  split at failed
  · cases failed
  · cases failed
    exact ⟨_, rfl⟩
  · split at failed
    · cases failed
      exact ⟨_, rfl⟩
    · cases failed

theorem unreadable_of_read {sector count : Nat} (failed : source.read sector count = .error failure) :
    failure = .unreadableSector sector := by
  unfold read at failed
  split at failed
  · cases failed
    rfl
  · split at failed
    · cases failed
    · cases failed
      rfl

end Source

theorem Geometry.unreadable_of_chainFrom {g : Geometry} {source : Source} {limit : Nat}
    {seen : Std.TreeSet Nat} {trail : List Nat} {current : Nat} {failure : Failure}
    (failed : (g.chainFrom limit seen trail current).answer source g = .error failure) :
    ∃ sector, failure = .unreadableSector sector := by
  induction limit generalizing seen trail current with
  | zero => cases failed
  | succ limit ih =>
    rw [chainFrom] at failed
    split at failed
    · rw [Probe.answer_bind, Probe.answer_entryOf] at failed
      cases entry : source.fatEntry g current with
      | error reason =>
        rw [entry] at failed
        cases failed
        exact ⟨_, Source.unreadable_of_read (map_eq_error_iff.mp entry)⟩
      | ok value =>
        rw [entry] at failed
        cases value with
        | next next => exact ih failed
        | _ => cases failed
    · cases failed

/-- Only the FAT of the root directory can keep a volume from being surveyed. -/
theorem Pass.unreadable_of_survey {config : Config} {g : Geometry} {source : Source}
    {failure : Failure} (failed : survey config g source = .error failure) :
    ∃ sector, failure = .unreadableSector sector := by
  unfold survey at failed
  rcases bind_eq_error_iff.mp failed with scanned | ⟨scan, -, failed⟩
  · exact Geometry.unreadable_of_chainFrom (Scan.failure_iff.mp scanned).2
  rcases bind_eq_error_iff.mp failed with walked | ⟨root, -, failed⟩
  · exact Geometry.unreadable_of_chainFrom walked
  · cases failed

/-- What comes of a volume: the files that are handed to the output, and what is reported when the
output has told their places. -/
structure Visit where
  files : List Delivery
  report : List (Option String) → PartitionReport

namespace Visit

/-- A volume that is passed by. -/
def skipped (listed : PartitionReport) (reason : String) : Visit where
  files := []
  report _ := { listed with outcome := .skipped reason }

/-- A pass over a volume. -/
def passing [Digests] (config : Config) (g : Geometry) (listed : PartitionReport)
    (volume : Source) :
    Visit where
  files := Pass.deliveries config g listed.index volume
  report told :=
    match Pass.survey config g volume with
    | .ok found =>
      { listed with
        geometry := some g
        outcome := .recovered
        directories := found.scan.directories
        entries := found.scan.entries.length
        statuses := Pass.statusesAt volume config g (Pass.plans config g found) told }
    | .error failure => { listed with geometry := some g, outcome := .skipped failure.message }

/-- The visit to a volume, unless its boot sector cannot be read. -/
def ofVolume [Digests] (config : Config) (listed : PartitionReport) (volume : Source) :
    Except Failure Visit :=
  match volume.geometry 0 with
  | .ok g => .ok (passing config g listed volume)
  | .error failure =>
    if failure.isPartitionLocal then .ok (skipped listed failure.message) else .error failure

/-- The visit to a partition of a disk. -/
def ofPartition [Digests] (config : Config) (source : Source) (index : Nat)
    (partition : Partition) :
    Except Failure Visit :=
  let listed := { PartitionReport.fresh index partition.startLba partition.declared with
    sectorCount := partition.sectorCount
    name := partition.name }
  if partition.declared ≠ .fat32 then
    .ok (skipped listed ("declared " ++ partition.declared.text ++ " partition"))
  else do
    let volume ← source.volumeAt partition.startLba
    ofVolume config listed volume

/-- The visit to the only volume of a logical drive, which is opened anew after its boot sector has
been read. -/
def ofLogical [Digests] (config : Config) (source : Source) : Except Failure Visit :=
  let listed := PartitionReport.fresh 0 source.startLba .unknown
  match source.geometry 0 with
  | .ok g => do
    let volume ← source.reopen
    .ok (passing config g { listed with declared := .fat32, sectorCount := g.totalSectors } volume)
  | .error failure =>
    if failure.isPartitionLocal then .ok (skipped listed failure.message) else .error failure

/-- The calls that hand over the files. -/
def calls (visit : Visit) : List Event := visit.files.flatMap Delivery.calls

theorem calls_passing [Digests] (config : Config) (g : Geometry) (listed : PartitionReport)
    (volume : Source) :
    (passing config g listed volume).calls =
      Pass.outputCalls config g listed.index volume :=
  (Pass.outputCalls_eq ..).symm

theorem ofPartition_congr [Digests] {source other : Source} (same : source.SameMedium other)
    (config : Config) (index : Nat) (partition : Partition) :
    ofPartition config source index partition = ofPartition config other index partition := by
  rw [ofPartition, ofPartition, Source.volumeAt_congr same]

end Visit

/-- The stops of a tour: what comes of each volume, or why it cannot be visited. -/
abbrev Stops := List (Except Failure Visit)

namespace Stops

/-- The files of all volumes that can be visited. -/
def files (stops : Stops) : List Delivery :=
  stops.flatMap fun stop =>
    match stop with
    | .ok visit => visit.files
    | .error _ => []

def calls (stops : Stops) : List Event := stops.files.flatMap Delivery.calls

/-- Whether the first volume that cannot be visited fails in some way. -/
def Blocked (stops : Stops) (failure : Failure) : Prop :=
  ∃ visits : List Visit, ∃ rest, stops = visits.map .ok ++ .error failure :: rest

theorem calls_cons_ok (visit : Visit) (rest : Stops) :
    calls (.ok visit :: rest) = visit.calls ++ calls rest := by
  rw [calls, files, List.flatMap_cons, List.flatMap_append]
  rfl

variable {failure : Failure} {stops : Stops}

theorem not_blocked_nil : ¬ Blocked [] failure := by
  rintro ⟨visits, rest, split⟩
  cases visits <;> cases split

theorem blocked_cons_ok {visit : Visit} :
    Blocked (.ok visit :: stops) failure ↔ stops.Blocked failure := by
  constructor
  · rintro ⟨visits, rest, split⟩
    cases visits with
    | nil => cases split
    | cons first visits => exact ⟨visits, rest, (List.cons.inj split).2⟩
  · rintro ⟨visits, rest, rfl⟩
    exact ⟨visit :: visits, rest, rfl⟩

theorem blocked_cons_error {reason : Failure} :
    Blocked (.error reason :: stops) failure ↔ reason = failure := by
  constructor
  · rintro ⟨visits, rest, split⟩
    cases visits with
    | nil =>
      cases split
      rfl
    | cons first visits => cases split
  · rintro rfl
    exact ⟨[], stops, rfl⟩

/-- Only one failure can be the first. -/
theorem Blocked.unique {other : Failure} (one : stops.Blocked failure)
    (another : stops.Blocked other) : failure = other := by
  induction stops with
  | nil => exact absurd one not_blocked_nil
  | cons stop rest ih =>
    cases stop with
    | ok visit => exact ih (blocked_cons_ok.mp one) (blocked_cons_ok.mp another)
    | error reason =>
      exact (blocked_cons_error.mp one).symm.trans (blocked_cons_error.mp another)

end Stops

section

variable {ω : Type} [Output ω]

open Output

/-- Whether a tour leads over all its stops, with an output that accepts the files. -/
inductive Tour : (output : ω) → Stops → List PartitionReport → (last : ω) → Prop
  | done (output : ω) : Tour output [] [] output
  | visit {output mid last : ω} {visit : Visit} {told : List (Option String)} {rest : Stops}
      {reports : List PartitionReport} (accepts : Accepts output visit.calls told mid)
      (onward : Tour mid rest reports last) :
      Tour output (.ok visit :: rest) (visit.report told :: reports) last

/-- Whether a tour ends early: at the first volume that cannot be visited, or because the output
refuses a file. -/
def Stops.Ends (stops : Stops) (output : ω) (failure : Failure) : Prop :=
  stops.Blocked failure ∨ Refuses output stops.calls failure

theorem Tour.accepts {output last : ω} {stops : Stops} {reports : List PartitionReport}
    (tour : Tour output stops reports last) : ∃ told, Accepts output stops.calls told last := by
  induction tour with
  | done output => exact ⟨[], .done output⟩
  | visit accepts _ ih =>
    obtain ⟨told, later⟩ := ih
    rw [Stops.calls_cons_ok]
    exact ⟨_, accepts.trans later⟩

theorem Tour.not_blocked {output last : ω} {stops : Stops} {reports : List PartitionReport}
    {failure : Failure} (tour : Tour output stops reports last) : ¬ stops.Blocked failure := by
  induction tour with
  | done => exact Stops.not_blocked_nil
  | visit _ _ ih => rwa [Stops.blocked_cons_ok]

/-- A tour that leads over all its stops makes a visit at each of them. -/
theorem Tour.visited {output last : ω} {stops : Stops} {reports : List PartitionReport}
    (tour : Tour output stops reports last) :
    List.Forall₂ (fun stop report => ∃ visit told, stop = .ok visit ∧ report = visit.report told)
      stops reports := by
  induction tour with
  | done => exact .nil
  | visit _ _ ih => exact .cons ⟨_, _, rfl, rfl⟩ ih

/-- A report comes from the visit at the same place. -/
theorem Tour.visited_at {output last : ω} {stops : Stops} {reports : List PartitionReport}
    (tour : Tour output stops reports last) {place : Nat} {part : PartitionReport}
    (reported : reports[place]? = some part) :
    ∃ visit told before later, stops[place]? = some (.ok visit) ∧
      Accepts (before : ω) visit.calls told later ∧ part = visit.report told := by
  induction tour generalizing place with
  | done => cases reported
  | visit accepts _ ih =>
    cases place with
    | zero =>
      cases reported
      exact ⟨_, _, _, _, rfl, accepts, rfl⟩
    | succ place => exact ih reported

end

namespace Device

/-- The partitions that the table of a disk lists. -/
def listing [Digests] (source : Source) : Except Failure (List Partition) := do
  let detection ← Detection.ofSource source
  (detection.partitions source).map Prod.fst

/-- The stops on the partitions of a disk. -/
def stopsOf [Digests] (config : Config) (source : Source) (partitions : List Partition) : Stops :=
  partitions.zipIdx.map fun (partition, index) => Visit.ofPartition config source index partition

/-- The stops of a run whose source is open. -/
def stops [Digests] (config : Config) (source : Source) : Category → Except Failure Stops
  | .logical => .ok [Visit.ofLogical config source]
  | .physical => (listing source).map (stopsOf config source)

/-- The stops of a run. -/
def route [Digests] (config : Config) (source : Source) (category : Category) :
    Except Failure Stops := do
  let here ← source.opened
  stops config here category

theorem stops_of_route [Digests] {config : Config} {source : Source} {category : Category}
    {planned : Stops} (known : route config source category = .ok planned) :
    ∃ here, source.opened = .ok here ∧ stops config here category = .ok planned :=
  bind_eq_ok_iff.mp known

/-- Whether a run on an open source comes upon a volume with some geometry. -/
inductive Volumes [Digests] (source : Source) : Category → Geometry → Source → Prop
  | logical {g : Geometry} {volume : Source} (recognized : source.geometry 0 = .ok g)
      (again : source.reopen = .ok volume) : Volumes source .logical g volume
  | physical {partitions : List Partition} {partition : Partition} {g : Geometry} {volume : Source}
      (listed : listing source = .ok partitions) (member : partition ∈ partitions)
      (promised : partition.declared = .fat32)
      (placed : source.volumeAt partition.startLba = .ok volume)
      (recognized : volume.geometry 0 = .ok g) : Volumes source .physical g volume

/-- Whether no volume that a run on an open source comes upon holds so many entries that file
numbers wrap. -/
def FewEntries [Digests] (config : Config) (source : Source) (category : Category) : Prop :=
  ∀ g volume found, Volumes source category g volume → Pass.survey config g volume = .ok found →
    found.scan.entries.length < UInt32.size

end Device

/-- Whether a report has its index, but nothing of what a pass finds. -/
structure PartitionReport.Blank (report : PartitionReport) (index : Nat) : Prop where
  index : report.index = index
  geometry : report.geometry = none
  directories : report.directories = 0
  entries : report.entries = 0
  statuses : report.statuses = []

/-- The visits that a run on an open source may make at one of its stops. -/
inductive Visit.Of [Digests] (config : Config) (source : Source) (category : Category)
    (index : Nat) :
    Visit → Prop
  | skipped {listed : PartitionReport} (blank : listed.Blank index) (reason : String) :
      Of config source category index (.skipped listed reason)
  | passing {listed : PartitionReport} {g : Geometry} {volume : Source}
      (blank : listed.Blank index) (known : Device.Volumes source category g volume) :
      Of config source category index (.passing config g listed volume)

namespace Visit

variable [Digests] {config : Config} {source : Source} {category : Category} {index : Nat}
  {visit : Visit}

theorem of_ofPartition {partitions : List Partition} {partition : Partition}
    (listed : Device.listing source = .ok partitions) (member : partition ∈ partitions)
    (planned : ofPartition config source index partition = .ok visit) :
    visit.Of config source .physical index := by
  have blank : PartitionReport.Blank { PartitionReport.fresh index partition.startLba
      partition.declared with
    sectorCount := partition.sectorCount
    name := partition.name } index := ⟨rfl, rfl, rfl, rfl, rfl⟩
  unfold ofPartition at planned
  dsimp only at planned
  split at planned
  next =>
    cases planned
    exact .skipped blank _
  next promised =>
    obtain ⟨volume, placed, planned⟩ := bind_eq_ok_iff.mp planned
    unfold ofVolume at planned
    split at planned
    next g recognized =>
      cases planned
      exact .passing blank (.physical listed member (not_not.mp promised) placed recognized)
    next =>
      split at planned
      · cases planned
        exact .skipped blank _
      · cases planned

theorem of_ofLogical (planned : ofLogical config source = .ok visit) :
    visit.Of config source .logical 0 := by
  unfold ofLogical at planned
  dsimp only at planned
  split at planned
  next g recognized =>
    obtain ⟨volume, again, planned⟩ := bind_eq_ok_iff.mp planned
    cases planned
    exact .passing (by exact ⟨rfl, rfl, rfl, rfl, rfl⟩) (.logical recognized again)
  next =>
    split at planned
    · cases planned
      exact .skipped (by exact ⟨rfl, rfl, rfl, rfl, rfl⟩) _
    · cases planned

namespace Of

variable (of : visit.Of config source category index)
include of

theorem index_report (told : List (Option String)) : (visit.report told).index = index := by
  cases of with
  | skipped blank reason => exact blank.index
  | passing blank known =>
    dsimp only [Visit.passing]
    split
    · exact blank.index
    · exact blank.index

theorem partition_eq {delivery : Delivery} (member : delivery ∈ visit.files) :
    delivery.partition = index := by
  cases of with
  | skipped blank reason => cases member
  | passing blank known => exact (Pass.partition_of_mem_deliveries member).trans blank.index

/-- Nothing is handed to the output for a volume that is skipped, and nothing is told of it. -/
theorem nothing_of_skipped {told : List (Option String)} {reason : String}
    (outcome : (visit.report told).outcome = .skipped reason) :
    visit.files = [] ∧ (visit.report told).directories = 0 ∧ (visit.report told).entries = 0 ∧
      (visit.report told).statuses = [] := by
  cases of with
  | skipped blank reason => exact ⟨rfl, blank.directories, blank.entries, blank.statuses⟩
  | @passing listed g volume blank known =>
    dsimp only [Visit.passing, Pass.deliveries] at outcome ⊢
    cases surveyed : Pass.survey config g volume with
    | ok found =>
      rw [surveyed] at outcome
      cases outcome
    | error failure => exact ⟨rfl, blank.directories, blank.entries, blank.statuses⟩

theorem ascending : visit.files.Pairwise fun earlier later =>
    earlier.entry.ordinal < later.entry.ordinal := by
  cases of with
  | skipped blank reason => exact .nil
  | @passing listed g volume blank known =>
    dsimp only [Visit.passing, Pass.deliveries]
    split
    next found surveyed =>
      rw [List.pairwise_map]
      exact (Pass.plans_ascending surveyed).filter _
    next => exact .nil

/-- While file numbers do not wrap, files are numbered by their ordinals. -/
theorem fileId_eq (few : Device.FewEntries config source category) {delivery : Delivery}
    (member : delivery ∈ visit.files) : delivery.entry.fileId = delivery.entry.ordinal := by
  cases of with
  | skipped blank reason => cases member
  | @passing listed g volume blank known =>
    dsimp only [Visit.passing, Pass.deliveries] at member
    split at member
    next found surveyed =>
      obtain ⟨plan, planned, rfl⟩ := List.mem_map.mp member
      obtain ⟨entry, scanned, -, rfl⟩ :=
        (Pass.mem_plans surveyed).mp (List.mem_of_mem_filter planned)
      exact ((Pass.survey_tidy surveyed).numbered.fileId_eq (few g volume found known surveyed)
        scanned).1
    next => cases member

end Of

end Visit

namespace Stops

/-- Whether all visits among some stops, numbered from `first` on, have a property. -/
def Numbered (Holds : Nat → Visit → Prop) (first : Nat) (stops : Stops) : Prop :=
  ∀ (place : Nat) (visit : Visit), stops[place]? = some (.ok visit) → Holds (first + place) visit

variable {Holds : Nat → Visit → Prop} {first : Nat} {stop : Except Failure Visit} {stops : Stops}

theorem Numbered.tail (numbered : Numbered Holds first (stop :: stops)) :
    Numbered Holds (first + 1) stops := by
  intro place visit known
  have holds := numbered (place + 1) visit known
  rwa [Nat.add_comm place 1, ← Nat.add_assoc] at holds

theorem Numbered.head {visit : Visit} (numbered : Numbered Holds first (.ok visit :: stops)) :
    Holds first visit := numbered 0 visit rfl

theorem files_cons_ok (visit : Visit) (stops : Stops) :
    files (.ok visit :: stops) = visit.files ++ files stops := rfl

variable {config : Config} {source : Source} {category : Category}

theorem Numbered.first_le [Digests]
    (numbered : Numbered (Visit.Of config source category) first stops)
    {delivery : Delivery} (member : delivery ∈ stops.files) : first ≤ delivery.partition := by
  induction stops generalizing first with
  | nil => cases member
  | cons stop rest ih =>
    cases stop with
    | error failure => exact Nat.le_of_succ_le (ih numbered.tail member)
    | ok visit =>
      rw [files_cons_ok] at member
      rcases List.mem_append.mp member with own | later
      · exact Nat.le_of_eq (numbered.head.partition_eq own).symm
      · exact Nat.le_of_succ_le (ih numbered.tail later)

/-- The files of a partition are those of the visit to it. -/
theorem Numbered.filter_files [Digests]
    (numbered : Numbered (Visit.Of config source category) first stops)
    {place : Nat} {visit : Visit} (known : stops[place]? = some (.ok visit)) :
    stops.files.filter (fun delivery => delivery.partition = first + place) = visit.files := by
  induction stops generalizing first place with
  | nil => cases known
  | cons stop rest ih =>
    cases place with
    | zero =>
      cases known
      have own : visit.files.filter (fun delivery => delivery.partition = first) = visit.files :=
        List.filter_eq_self.mpr fun delivery member =>
          decide_eq_true (numbered.head.partition_eq member)
      have others : (files rest).filter (fun delivery => delivery.partition = first) = [] := by
        refine List.filter_eq_nil_iff.mpr fun delivery member same => ?_
        have later := numbered.tail.first_le member
        have same := of_decide_eq_true same
        omega
      rw [files_cons_ok, List.filter_append, Nat.add_zero, own, others, List.append_nil]
    | succ place =>
      have onward := ih numbered.tail known
      rw [Nat.add_assoc, Nat.add_comm 1 place] at onward
      cases stop with
      | error failure => exact onward
      | ok head =>
        have others : head.files.filter (fun delivery =>
            delivery.partition = first + (place + 1)) = [] := by
          refine List.filter_eq_nil_iff.mpr fun delivery member same => ?_
          have own := numbered.head.partition_eq member
          have same := of_decide_eq_true same
          omega
        rw [files_cons_ok, List.filter_append, others, onward, List.nil_append]

/-- The files come partition by partition, and in each of them in the order of their ordinals. -/
theorem Numbered.ascending [Digests]
    (numbered : Numbered (Visit.Of config source category) first stops) :
    stops.files.Pairwise fun earlier later => earlier.partition < later.partition ∨
      earlier.partition = later.partition ∧ earlier.entry.ordinal < later.entry.ordinal := by
  induction stops generalizing first with
  | nil => exact .nil
  | cons stop rest ih =>
    have onward := ih numbered.tail
    cases stop with
    | error failure => exact onward
    | ok visit =>
      rw [files_cons_ok]
      refine List.pairwise_append.mpr ⟨?_, onward, ?_⟩
      · refine numbered.head.ascending.imp_of_mem fun member member' less => .inr ⟨?_, less⟩
        rw [numbered.head.partition_eq member, numbered.head.partition_eq member']
      · intro own member later member'
        rw [numbered.head.partition_eq member]
        exact .inl (numbered.tail.first_le member')

theorem Numbered.exists_visit (numbered : Numbered Holds first stops) {delivery : Delivery}
    (member : delivery ∈ stops.files) :
    ∃ place visit, delivery ∈ visit.files ∧ Holds (first + place) visit := by
  obtain ⟨stop, known, member⟩ := List.mem_flatMap.mp member
  obtain ⟨place, here⟩ := List.mem_iff_getElem?.mp known
  cases stop with
  | error failure => cases member
  | ok visit => exact ⟨place, visit, member, numbered place visit here⟩

/-- While file numbers do not wrap, no two files have the same key. -/
theorem Numbered.distinct [Digests]
    (numbered : Numbered (Visit.Of config source category) first stops)
    (few : Device.FewEntries config source category) : (stops.files.map Delivery.key).Nodup := by
  have number {delivery : Delivery} (member : delivery ∈ stops.files) :
      delivery.entry.fileId = delivery.entry.ordinal := by
    obtain ⟨place, visit, own, of⟩ := numbered.exists_visit member
    exact of.fileId_eq few own
  refine List.pairwise_map.mpr (numbered.ascending.imp_of_mem ?_)
  intro earlier later member member' order same
  obtain ⟨partition, fileId⟩ := Prod.mk.inj same
  rw [number member, number member'] at fileId
  omega

end Stops

namespace Device

theorem numbered_stops [Digests] {config : Config} {source : Source} {category : Category}
    {stops : Stops} (planned : Device.stops config source category = .ok stops) :
    stops.Numbered (Visit.Of config source category) 0 := by
  intro place visit known
  rw [Nat.zero_add]
  cases category with
  | logical =>
    cases planned
    cases place with
    | zero => exact Visit.of_ofLogical (Option.some.inj known)
    | succ place => cases known
  | physical =>
    obtain ⟨partitions, listed, rfl⟩ := map_eq_ok_iff.mp planned
    simp only [stopsOf, List.getElem?_map, Option.map_eq_some_iff, List.getElem?_zipIdx,
      Nat.zero_add, Prod.exists, Prod.mk.injEq] at known
    obtain ⟨partition, _, ⟨_, here, rfl, rfl⟩, planned⟩ := known
    exact Visit.of_ofPartition listed (List.mem_of_getElem? here) planned

end Device

end Undelete
