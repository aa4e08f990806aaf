import Undelete.Proofs.Recovery.Stored

/-!
What can keep a run over a disk image from its report. The obstacles are those of the partition
table, in the order in which it is read, and after them the first boot sector of a volume that
cannot be read. Whatever else is damaged skips a partition at most.
-/

namespace Undelete

section

variable {ε α β : Type} {work : α → Except ε β} {items : List α} {failure : ε}

/-- Work on a list fails as the first item fails for which it does. -/
theorem mapM_eq_error_iff :
    items.mapM work = .error failure ↔ ∃ earlier item later, items = earlier ++ item :: later ∧
      (∀ other ∈ earlier, ∃ value, work other = .ok value) ∧ work item = .error failure := by
  induction items with
  | nil => simp [pure, Except.pure]
  | cons head rest ih =>
    rw [List.mapM_cons]
    constructor
    · intro failed
      cases first : work head with
      | error reason =>
        rw [first] at failed
        cases failed
        exact ⟨[], head, rest, rfl, by simp, first⟩
      | ok value =>
        rw [first] at failed
        cases onward : rest.mapM work with
        | ok values =>
          rw [onward] at failed
          cases failed
        | error reason =>
          rw [onward] at failed
          cases failed
          obtain ⟨earlier, item, later, rfl, fine, bad⟩ := ih.mp onward
          refine ⟨head :: earlier, item, later, rfl, ?_, bad⟩
          intro other member
          rcases List.mem_cons.mp member with rfl | member
          · exact ⟨value, first⟩
          · exact fine other member
    · rintro ⟨earlier, item, later, split, fine, bad⟩
      cases earlier with
      | nil =>
        cases split
        rw [bad]
        rfl
      | cons first earlier =>
        obtain ⟨rfl, rfl⟩ := List.cons.inj split
        obtain ⟨value, passed⟩ := fine _ List.mem_cons_self
        have onward := ih.mpr ⟨earlier, item, later, rfl,
          fun other member => fine other (List.mem_cons_of_mem _ member), bad⟩
        rw [passed, onward]
        rfl

/-- Over the numbers below a bound, that item is the least. -/
theorem mapM_range_eq_error_iff {work : Nat → Except ε β} {bound : Nat} :
    (List.range bound).mapM work = .error failure ↔ ∃ place < bound,
      (∀ index < place, ∃ value, work index = .ok value) ∧ work place = .error failure := by
  rw [mapM_eq_error_iff]
  constructor
  · rintro ⟨earlier, place, later, split, fine, bad⟩
    have length : earlier.length < bound := by
      have same := congrArg List.length split
      simp only [List.length_range, List.length_append, List.length_cons] at same
      omega
    have here : place = earlier.length := by
      have same := congrArg (·[earlier.length]?) split
      simp only [List.getElem?_range length, List.getElem?_append_right (Nat.le_refl _),
        Nat.sub_self, List.getElem?_cons_zero, Option.some.injEq] at same
      exact same.symm
    subst here
    refine ⟨_, length, fun index less => fine index ?_, bad⟩
    have same := congrArg (·[index]?) split
    simp only [List.getElem?_range (Nat.lt_trans less length),
      List.getElem?_append_left less] at same
    exact List.mem_of_getElem? same.symm
  · rintro ⟨place, inside, fine, bad⟩
    obtain ⟨more, rfl⟩ := Nat.exists_eq_add_of_lt inside
    refine ⟨List.range place, place, (List.range more).map (place + 1 + ·), ?_, ?_, bad⟩
    · rw [Nat.add_right_comm, List.range_add, List.range_succ, List.append_assoc]
      rfl
    · exact fun index member => fine index (List.mem_range.mp member)

end

theorem Source.volumeAt_of_fresh {source : Source} (fresh : source.reopen = .ok source)
    (lba : Nat) : source.volumeAt lba = .ok (source.setStart lba) := by
  obtain ⟨medium, size, start, contents⟩ := source
  have moved : (setStart ⟨medium, size, start, contents⟩ lba).reopen =
      (reopen ⟨medium, size, start, contents⟩).map (·.setStart lba) := by
    unfold reopen
    cases medium with
    | memory image => rfl
    | file path category stored =>
      cases stored with
      | error reason => rfl
      | ok image =>
        dsimp only [setStart]
        split <;> rfl
  rw [volumeAt, moved, fresh]
  rfl

theorem Source.bytesPerSector_eq {source : Source} (known : source.sectorSize ≠ 0) :
    source.bytesPerSector = .ok source.sectorSize := if_pos known

namespace GptHeader

/-- The sectors that the array of entries occupies. -/
def arraySectors (header : GptHeader) (sectorSize : Nat) : Nat :=
  Number.ceilDiv header.entryCount (sectorSize / header.entrySize)

theorem partitions_eq_error_iff [Digests] {header : GptHeader} {source : Source} {sectorSize : Nat}
    {failure : Failure} :
    header.partitions source sectorSize = .error failure ↔
      header.checkShape sectorSize = .error failure ∨
        header.checkShape sectorSize = .ok () ∧ ∃ place < header.arraySectors sectorSize,
          (∀ index < place, ∃ data,
            source.read (header.entriesLba + index) sectorSize = .ok data) ∧
          source.read (header.entriesLba + place) sectorSize = .error failure := by
  unfold partitions records
  cases shape : header.checkShape sectorSize with
  | error reason => simp [bind, Except.bind]
  | ok value =>
    have first := @mapM_range_eq_error_iff Failure Bytes failure
      (fun index => source.read (header.entriesLba + index) sectorSize)
      (header.arraySectors sectorSize)
    rw [← first, arraySectors]
    cases answered : (List.range (Number.ceilDiv header.entryCount
        (sectorSize / header.entrySize))).mapM
        fun index => source.read (header.entriesLba + index) sectorSize with
    | error reason => simp [answered, bind, Except.bind]
    | ok sectors => simp [answered, bind, Except.bind, pure, Except.pure]

end GptHeader

namespace Detection

/-- Detection fails only when sector 0 cannot be read. -/
theorem ofSource_eq [Digests] {source : Source} (known : source.sectorSize ≠ 0) :
    ofSource source = (source.read 0 (max source.sectorSize Mbr.size)).map fun data =>
      ofTables (Mbr.decode data)
        ((source.read 1 (max source.sectorSize Mbr.size)).toOption.map GptHeader.decode) := by
  unfold ofSource
  rw [Source.bytesPerSector_eq known]
  simp only [bind, Except.bind]
  cases first : source.read 0 (max source.sectorSize Mbr.size) with
  | error failure => rfl
  | ok data =>
    have long : ¬ data.length < Mbr.size := by
      rw [Source.length_of_read first]
      exact Nat.not_lt.mpr (Nat.le_max_right _ _)
    simp only [Mbr.parse, if_neg long]
    cases second : source.read 1 (max source.sectorSize Mbr.size) with
    | error failure => rfl
    | ok data' =>
      have long' : ¬ data'.length < GptHeader.minSize := by
        have large : GptHeader.minSize ≤ Mbr.size := by decide
        rw [Source.length_of_read second]
        omega
      simp only [GptHeader.parse, if_neg long']
      rfl

theorem exists_header {mbr : Mbr} {gpt : Option GptHeader} (scheme : schemeOf mbr gpt = .gpt) :
    ∃ header, gpt = some header := by
  cases gpt with
  | some header => exact ⟨header, rfl⟩
  | none =>
    unfold schemeOf at scheme
    split at scheme
    next valid => cases valid
    next => split at scheme <;> cases scheme

theorem partitions_eq_error_iff [Digests] {source : Source} (known : source.sectorSize ≠ 0)
    (mbr : Mbr) (gpt : Option GptHeader) {failure : Failure} :
    (ofTables mbr gpt).partitions source = .error failure ↔
      schemeOf mbr gpt = .unknown ∧ failure = .noPartitionTable ∨
        schemeOf mbr gpt = .gpt ∧ ∃ header, gpt = some header ∧
          header.partitions source source.sectorSize = .error failure := by
  unfold partitions ofTables
  cases scheme : schemeOf mbr gpt with
  | mbr => simp [pure, Except.pure]
  | unknown => simp [eq_comm]
  | gpt =>
    obtain ⟨header, rfl⟩ := exists_header scheme
    simp only [Source.bytesPerSector_eq known, bind, Except.bind]
    cases listed : header.partitions source source.sectorSize with
    | error reason => simp [listed]
    | ok pair => simp [listed, pure, Except.pure]

end Detection

namespace Device

/-- What can be wrong with the partition table of a disk. -/
inductive TableObstacle [Digests] (source : Source) : Failure → Prop
  | unreadable {failure : Failure}
      (failed : source.read 0 (max source.sectorSize Mbr.size) = .error failure) :
      TableObstacle source failure
  | unknownScheme {detection : Detection} (detected : Detection.ofSource source = .ok detection)
      (scheme : detection.scheme = .unknown) : TableObstacle source .noPartitionTable
  | arrayRejected {detection : Detection} {header : GptHeader} {failure : Failure}
      (detected : Detection.ofSource source = .ok detection) (scheme : detection.scheme = .gpt)
      (found : detection.gpt = some header)
      (rejected : header.checkShape source.sectorSize = .error failure) :
      TableObstacle source failure
  | arrayUnreadable {detection : Detection} {header : GptHeader} {place : Nat} {failure : Failure}
      (detected : Detection.ofSource source = .ok detection) (scheme : detection.scheme = .gpt)
      (found : detection.gpt = some header)
      (accepted : header.checkShape source.sectorSize = .ok ())
      (inside : place < header.arraySectors source.sectorSize)
      (earlier : ∀ index < place, ∃ data,
        source.read (header.entriesLba + index) source.sectorSize = .ok data)
      (failed : source.read (header.entriesLba + place) source.sectorSize = .error failure) :
      TableObstacle source failure

/-- The boot sector of a partition. -/
def bootSector (source : Source) (partition : Partition) : Except Failure Bytes :=
  (source.setStart partition.startLba).read 0 (max source.sectorSize BootSector.size)

/-- Whether the first boot sector that a run needs and cannot read fails in some way. -/
def BootObstacle (source : Source) (partitions : List Partition) (failure : Failure) : Prop :=
  ∃ earlier partition later, partitions = earlier ++ partition :: later ∧
    (∀ other ∈ earlier, other.declared = .fat32 → ∃ data, bootSector source other = .ok data) ∧
    partition.declared = .fat32 ∧ bootSector source partition = .error failure

/-- What can keep a run over a disk from its report. -/
inductive Obstacle [Digests] (source : Source) : Failure → Prop
  | table {failure : Failure} (obstacle : TableObstacle source failure) : Obstacle source failure
  | bootSector {partitions : List Partition} {failure : Failure}
      (listed : listing source = .ok partitions)
      (obstacle : BootObstacle source partitions failure) : Obstacle source failure

variable [Digests] {source : Source} {failure : Failure}

theorem listing_of_detected {detection : Detection}
    (detected : Detection.ofSource source = .ok detection) :
    listing source = (detection.partitions source).map Prod.fst := by
  rw [listing, detected]
  rfl

/-- No partitions are listed exactly when something is wrong with the table. -/
theorem listing_eq_error_iff (known : source.sectorSize ≠ 0) :
    listing source = .error failure ↔ TableObstacle source failure := by
  have tables := Detection.ofSource_eq known
  cases first : source.read 0 (max source.sectorSize Mbr.size) with
  | error reason =>
    rw [first] at tables
    constructor
    · intro failed
      rw [listing, tables] at failed
      cases failed
      exact .unreadable first
    · intro obstacle
      rw [listing, tables]
      cases obstacle with
      | unreadable failed =>
        cases first.symm.trans failed
        rfl
      | unknownScheme detected => cases tables.symm.trans detected
      | arrayRejected detected => cases tables.symm.trans detected
      | arrayUnreadable detected => cases tables.symm.trans detected
  | ok data =>
    rw [first] at tables
    have same : listing source = .error failure ↔ _ :=
      (Iff.of_eq (congrArg (· = Except.error failure) (listing_of_detected tables))).trans
        (map_eq_error_iff.trans (Detection.partitions_eq_error_iff known _ _))
    rw [same]
    constructor
    · rintro (⟨scheme, rfl⟩ | ⟨scheme, header, found, failed⟩)
      · exact .unknownScheme tables scheme
      · rcases GptHeader.partitions_eq_error_iff.mp failed with
          rejected | ⟨accepted, place, inside, earlier, failed⟩
        · exact .arrayRejected tables scheme found rejected
        · exact .arrayUnreadable tables scheme found accepted inside earlier failed
    · intro obstacle
      cases obstacle with
      | unreadable failed => cases first.symm.trans failed
      | unknownScheme detected scheme =>
        cases tables.symm.trans detected
        exact .inl ⟨scheme, rfl⟩
      | arrayRejected detected scheme found rejected =>
        cases tables.symm.trans detected
        exact .inr ⟨scheme, _, found, GptHeader.partitions_eq_error_iff.mpr (.inl rejected)⟩
      | arrayUnreadable detected scheme found accepted inside earlier failed =>
        cases tables.symm.trans detected
        exact .inr ⟨scheme, _, found, GptHeader.partitions_eq_error_iff.mpr
          (.inr ⟨accepted, _, inside, earlier, failed⟩)⟩

end Device

/-- Of a boot sector that can be read, nothing but the volume itself can be at fault. -/
theorem BootSector.local_of_geometry {boot : BootSector} {failure : Failure}
    (failed : boot.geometry = .error failure) : failure.isPartitionLocal = true := by
  unfold geometry at failed
  split at failed
  · cases failed
    rfl
  split at failed
  · cases failed
    rfl
  split at failed
  · cases failed
    rfl
  split at failed
  · cases failed
    rfl
  split at failed
  · cases failed
  · cases failed
    rfl

namespace Source

variable {source : Source}

theorem geometry_of_read {data : Bytes} (known : source.sectorSize ≠ 0)
    (answered : source.read 0 (max source.sectorSize BootSector.size) = .ok data) :
    source.geometry 0 =
      if (BootSector.decode data).filesystem = .fat32 then (BootSector.decode data).geometry
      else .error (.unsupportedFilesystem (BootSector.decode data).filesystem.text) := by
  have long : ¬ data.length < BootSector.size := by
    rw [length_of_read answered]
    exact Nat.not_lt.mpr (Nat.le_max_right _ _)
  unfold geometry BootSector.ofSource
  rw [bytesPerSector_eq known]
  simp only [bind, Except.bind, answered, BootSector.parse, if_neg long]

theorem geometry_of_unread {failure : Failure} (known : source.sectorSize ≠ 0)
    (failed : source.read 0 (max source.sectorSize BootSector.size) = .error failure) :
    source.geometry 0 = .error failure := by
  unfold geometry BootSector.ofSource
  rw [bytesPerSector_eq known]
  simp only [bind, Except.bind, failed]

end Source

namespace Visit

variable [Digests] {config : Config} {source : Source} {failure : Failure}

/-- A volume cannot be visited exactly when its boot sector cannot be read. -/
theorem ofVolume_eq_error_iff (known : source.sectorSize ≠ 0) (listed : PartitionReport) :
    ofVolume config listed source = .error failure ↔
      source.read 0 (max source.sectorSize BootSector.size) = .error failure := by
  unfold ofVolume
  cases answered : source.read 0 (max source.sectorSize BootSector.size) with
  | error reason =>
    have elsewhere : reason.isPartitionLocal = false := by
      rw [Source.unreadable_of_read answered]
      rfl
    rw [Source.geometry_of_unread known answered]
    simp [elsewhere]
  | ok data =>
    rw [Source.geometry_of_read known answered]
    split
    next => simp
    next reason failed =>
      have locally : reason.isPartitionLocal = true := by
        split at failed
        · exact BootSector.local_of_geometry failed
        · cases failed
          rfl
      simp [locally]

theorem ofPartition_eq_error_iff (fresh : source.reopen = .ok source)
    (known : source.sectorSize ≠ 0) (index : Nat) (partition : Partition) :
    ofPartition config source index partition = .error failure ↔
      partition.declared = .fat32 ∧ Device.bootSector source partition = .error failure := by
  unfold ofPartition
  rw [Source.volumeAt_of_fresh fresh]
  dsimp only
  split
  next elsewhere => simp [elsewhere]
  next promised =>
    change ofVolume config _ (source.setStart partition.startLba) = .error failure ↔ _
    have known' : (source.setStart partition.startLba).sectorSize ≠ 0 := known
    rw [ofVolume_eq_error_iff known', Device.bootSector]
    simp [not_not.mp promised, Source.setStart]

end Visit

namespace Device

variable {config : Config} {source : Source} {failure : Failure}

theorem bootObstacle_cons_iff {partition : Partition} {rest : List Partition} :
    BootObstacle source (partition :: rest) failure ↔
      partition.declared = .fat32 ∧ bootSector source partition = .error failure ∨
        (partition.declared = .fat32 → ∃ data, bootSector source partition = .ok data) ∧
          BootObstacle source rest failure := by
  constructor
  · rintro ⟨earlier, other, later, split, readable, blocked⟩
    cases earlier with
    | nil =>
      cases split
      exact .inl blocked
    | cons first earlier =>
      cases split
      exact .inr ⟨readable _ List.mem_cons_self, earlier, other, later, rfl,
        fun other member => readable other (List.mem_cons_of_mem _ member), blocked⟩
  · rintro (blocked | ⟨first, earlier, other, later, rfl, readable, blocked⟩)
    · exact ⟨[], partition, rest, rfl, by simp, blocked⟩
    · refine ⟨partition :: earlier, other, later, rfl, ?_, blocked⟩
      intro other member
      rcases List.mem_cons.mp member with rfl | member
      · exact first
      · exact readable other member

/-- A tour over the partitions of a disk is blocked by the first boot sector that is needed and
cannot be read. -/
theorem blocked_stopsOf_iff [Digests] (fresh : source.reopen = .ok source)
    (known : source.sectorSize ≠ 0) (partitions : List Partition) :
    (stopsOf config source partitions).Blocked failure ↔
      BootObstacle source partitions failure := by
  suffices general : ∀ first, Stops.Blocked ((partitions.zipIdx first).map fun entry =>
      Visit.ofPartition config source entry.2 entry.1) failure ↔
        BootObstacle source partitions failure from general 0
  induction partitions with
  | nil =>
    intro first
    simp [BootObstacle, Stops.not_blocked_nil]
  | cons partition rest ih =>
    intro first
    have unvisited (reason : Failure) :
        Visit.ofPartition config source first partition = .error reason ↔
          partition.declared = .fat32 ∧ bootSector source partition = .error reason :=
      Visit.ofPartition_eq_error_iff fresh known first partition
    rw [List.zipIdx_cons, List.map_cons, bootObstacle_cons_iff]
    dsimp only
    cases planned : Visit.ofPartition config source first partition with
    | error reason =>
      obtain ⟨promised, failed⟩ := (unvisited reason).mp planned
      rw [Stops.blocked_cons_error]
      simp [promised, failed]
    | ok visit =>
      rw [Stops.blocked_cons_ok, ih]
      have readable : partition.declared = .fat32 →
          ∃ data, bootSector source partition = .ok data := by
        intro promised
        cases answered : bootSector source partition with
        | ok data => exact ⟨data, rfl⟩
        | error reason => cases planned.symm.trans ((unvisited reason).mpr ⟨promised, answered⟩)
      constructor
      · exact fun onward => .inr ⟨readable, onward⟩
      · rintro (⟨promised, failed⟩ | ⟨-, onward⟩)
        · obtain ⟨data, answered⟩ := readable promised
          cases answered.symm.trans failed
        · exact onward

/-- Whether a report is one of a partition, and tells whether its volume could be surveyed. -/
structure Reports (config : Config) (source : Source) (partition : Partition) (index : Nat)
    (report : PartitionReport) : Prop where
  index : report.index = index
  startLba : report.startLba = partition.startLba
  sectorCount : report.sectorCount = partition.sectorCount
  declared : report.declared = partition.declared
  name : report.name = partition.name
  outcome : report.outcome = .recovered ∨ ∃ reason, report.outcome = .skipped reason
  recovered_iff : report.outcome = .recovered ↔ partition.declared = .fat32 ∧
    ∃ g found, (source.setStart partition.startLba).geometry 0 = .ok g ∧
      Pass.survey config g (source.setStart partition.startLba) = .ok found

theorem reports_of_ofPartition [Digests] (fresh : source.reopen = .ok source) {index : Nat}
    {partition : Partition} {visit : Visit}
    (planned : Visit.ofPartition config source index partition = .ok visit)
    (told : List (Option String)) : Reports config source partition index (visit.report told) := by
  unfold Visit.ofPartition at planned
  rw [Source.volumeAt_of_fresh fresh] at planned
  dsimp only at planned
  split at planned
  next elsewhere =>
    cases planned
    refine ⟨rfl, rfl, rfl, rfl, rfl, .inr ⟨_, rfl⟩, ?_⟩
    simp [Visit.skipped, elsewhere]
  next promised =>
    rw [not_not] at promised
    change Visit.ofVolume config _ (source.setStart partition.startLba) = .ok visit at planned
    unfold Visit.ofVolume at planned
    split at planned
    next g recognized =>
      cases planned
      cases surveyed : Pass.survey config g (source.setStart partition.startLba) with
      | ok found =>
        simp only [Visit.passing, surveyed]
        exact ⟨rfl, rfl, rfl, rfl, rfl, .inl rfl, by simp [promised, recognized, surveyed]⟩
      | error reason =>
        simp only [Visit.passing, surveyed]
        exact ⟨rfl, rfl, rfl, rfl, rfl, .inr ⟨_, rfl⟩, by simp [recognized, surveyed]⟩
    next reason unrecognized =>
      split at planned
      · cases planned
        exact ⟨rfl, rfl, rfl, rfl, rfl, .inr ⟨_, rfl⟩, by simp [Visit.skipped, unrecognized]⟩
      · cases planned

theorem reports_of_tour [Digests] {ω : Type} [Output ω] (fresh : source.reopen = .ok source)
    {partitions : List Partition} {reports : List PartitionReport} {output last : ω}
    (tour : Tour output (stopsOf config source partitions) reports last) :
    List.Forall₂ (fun entry report => Reports config source entry.1 entry.2 report)
      partitions.zipIdx reports := by
  have matched := tour.visited
  rw [stopsOf, List.forall₂_map_left_iff] at matched
  refine matched.imp ?_
  rintro ⟨partition, index⟩ report ⟨visit, told, planned, rfl⟩
  exact reports_of_ofPartition fresh planned told

theorem route_physical [Digests] (config : Config) (fresh : source.reopen = .ok source) :
    route config source .physical = (listing source).map (stopsOf config source) := by
  rw [route, Source.opened_of_fresh fresh]
  rfl

theorem obstacle_iff [Digests] (fresh : source.reopen = .ok source)
    (known : source.sectorSize ≠ 0) :
    Obstacle source failure ↔ route config source .physical = .error failure ∨
      ∃ stops, route config source .physical = .ok stops ∧ stops.Blocked failure := by
  rw [route_physical config fresh, map_eq_error_iff, listing_eq_error_iff known]
  constructor
  · intro obstacle
    cases obstacle with
    | table obstacle => exact .inl obstacle
    | bootSector listed obstacle =>
      rw [listed]
      exact .inr ⟨_, rfl, (blocked_stopsOf_iff fresh known _).mpr obstacle⟩
  · rintro (obstacle | ⟨stops, planned, blocked⟩)
    · exact .table obstacle
    · obtain ⟨partitions, listed, rfl⟩ := map_eq_ok_iff.mp planned
      exact .bootSector listed ((blocked_stopsOf_iff fresh known _).mp blocked)

/-- A run over a disk without obstacles comes to its end. -/
theorem recover_clear [Digests] (session : Session) {drive : Drive}
    (disk : drive.category = .physical) (fresh : source.reopen = .ok source)
    (known : source.sectorSize ≠ 0) (few : FewEntries config source .physical)
    (journal : List Event) (clear : ∀ failure, ¬ Obstacle source failure) :
    ∃ report after partitions,
      recover config session drive ⟨source, MemoryOutput.empty, journal⟩ = (.ok report, after) ∧
        listing source = .ok partitions ∧
        List.Forall₂ (fun entry report => Reports config source entry.1 entry.2 report)
          partitions.zipIdx report.partitions := by
  have planned := route_physical config fresh
  rw [← disk] at few planned
  cases listed : listing source with
  | error failure => exact absurd (.table ((listing_eq_error_iff known).mp listed)) (clear failure)
  | ok partitions =>
    rw [listed] at planned
    have unblocked (failure : Failure) : ¬ (stopsOf config source partitions).Blocked failure :=
      fun blocked => clear failure
        (.bootSector listed ((blocked_stopsOf_iff fresh known _).mp blocked))
    obtain ⟨report, after, ok, tour⟩ :=
      recover_memory session (Source.opened_of_fresh fresh) planned unblocked few journal
    exact ⟨report, after, partitions, ok, rfl, reports_of_tour fresh tour⟩

/-- A run over a disk is kept from its report by the first obstacle, and by nothing else. -/
theorem recover_obstacles [Digests] {session : Session} {drive : Drive}
    (disk : drive.category = .physical) (fresh : source.reopen = .ok source)
    (known : source.sectorSize ≠ 0) (few : FewEntries config source .physical)
    (journal : List Event) :
    (∀ failure, (recover config session drive ⟨source, MemoryOutput.empty, journal⟩).1 =
        .error failure ↔ Obstacle source failure) ∧
      ((∀ failure, ¬ Obstacle source failure) → ∃ report after partitions,
        recover config session drive ⟨source, MemoryOutput.empty, journal⟩ = (.ok report, after) ∧
          listing source = .ok partitions ∧
          List.Forall₂ (fun entry report => Reports config source entry.1 entry.2 report)
            partitions.zipIdx report.partitions) := by
  refine ⟨fun failure => ?_, recover_clear session disk fresh known few journal⟩
  rw [← disk] at few
  rw [stopped_memory_iff (Source.opened_of_fresh fresh) few, disk, ← obstacle_iff fresh known]

/-- Volumes that all have one layout, with room for few entries, hold few entries. -/
theorem fewEntries_of_layout [Digests] {g : Geometry} {partitions : List Partition}
    (fresh : source.reopen = .ok source) (listed : listing source = .ok partitions)
    (alike : ∀ partition ∈ partitions, partition.declared = .fat32 → ∀ other,
      (source.setStart partition.startLba).geometry 0 = .ok other → other = g)
    (regular : g.Regular) (small : g.clusterCount * g.slotsPerCluster < UInt32.size) :
    FewEntries config source .physical := by
  intro other volume found known surveyed
  cases known with
  | physical listed' member promised placed recognized =>
    cases listed.symm.trans listed'
    cases (Source.volumeAt_of_fresh fresh _).symm.trans placed
    cases alike _ member promised other recognized
    have scanned := (Pass.survey_eq surveyed).1
    exact Nat.lt_of_le_of_lt (Scan.sane_of_ofRoot regular scanned).entries_le small

/-- A small volume with a deleted file. -/
def deletedFile (size : Nat) (data : Bytes) : Bytes :=
  Small.image [0, 0, Small.chainEnd, 0] [Small.slot 0xE5 0x20 3 size, data]

/-- A disk with two small volumes, a partition of another type, and a volume of which nothing but
the boot sector is left. -/
def mixed : Source :=
  Small.disk [(0x0C, 1, 4), (0x07, 5, 4), (0x0B, 5, 4), (0x1C, 9, 4)]
    (deletedFile 3 [1, 2, 3] ++ deletedFile 2 [4, 5] ++ Small.boot 2)

theorem listing_mixed : ∃ partitions, listing mixed = .ok partitions ∧
    partitions.map (fun partition => (partition.declared, partition.startLba)) =
      [(.fat32, 1), (.ntfs, 5), (.fat32, 5), (.fat32, 9)] := by
  apply exists_ok
  simp only [listing, Detection.ofSource, mixed, Small.disk, Source.read_ofImage]
  decide +kernel

theorem startLba_mixed {partitions : List Partition} (listed : listing mixed = .ok partitions)
    {partition : Partition} (member : partition ∈ partitions) : partition.startLba ∈ [1, 5, 9] := by
  obtain ⟨partitions', listed', places⟩ := listing_mixed
  cases listed.symm.trans listed'
  have place := List.mem_map_of_mem
    (f := fun partition : Partition => (partition.declared, partition.startLba)) member
  rw [places] at place
  simp only [List.mem_cons, Prod.mk.injEq, List.not_mem_nil, or_false] at place ⊢
  omega

theorem bootSector_mixed :
    ∀ lba ∈ [1, 5, 9], ∃ data, (mixed.setStart lba).read 0 512 = .ok data ∧
      (BootSector.decode data).filesystem = .fat32 ∧
        (BootSector.decode data).geometry = .ok (Small.geometry 2) := by
  simp only [mixed, Small.disk, Source.read_setStart]
  intro lba member
  apply exists_ok
  revert lba
  decide +kernel

theorem geometry_mixed {lba : Nat} (member : lba ∈ [1, 5, 9]) :
    (mixed.setStart lba).geometry 0 = .ok (Small.geometry 2) := by
  obtain ⟨data, answered, kind, accepted⟩ := bootSector_mixed lba member
  have known : mixed.sectorSize ≠ 0 := by decide
  have known' : (mixed.setStart lba).sectorSize ≠ 0 := known
  rw [Source.geometry_of_read known' answered, if_pos kind, accepted]

theorem fewEntries_mixed (config : Config) : FewEntries config mixed .physical := by
  obtain ⟨partitions, listed, -⟩ := listing_mixed
  have accepted : (BootSector.decode (Small.boot 2)).geometry = .ok (Small.geometry 2) := by
    decide +kernel
  refine fewEntries_of_layout rfl listed ?_ (BootSector.regular_of_geometry accepted) (by decide)
  intro partition member promised other recognized
  cases (geometry_mixed (startLba_mixed listed member)).symm.trans recognized
  rfl

theorem clear_mixed (failure : Failure) : ¬ Obstacle mixed failure := by
  have known : mixed.sectorSize ≠ 0 := by decide
  obtain ⟨partitions, listed, -⟩ := listing_mixed
  intro obstacle
  cases obstacle with
  | table obstacle => cases listed.symm.trans ((listing_eq_error_iff known).mpr obstacle)
  | bootSector listed' obstacle =>
    cases listed.symm.trans listed'
    obtain ⟨earlier, partition, later, rfl, -, promised, failed⟩ := obstacle
    obtain ⟨data, answered, -⟩ := bootSector_mixed partition.startLba
      (startLba_mixed listed (List.mem_append_right _ List.mem_cons_self))
    cases answered.symm.trans failed

/-- A disk with a small volume and a partition behind the end. -/
def truncated : Source := Small.disk [(0x0C, 1, 4), (0x0B, 5, 4)] (deletedFile 3 [1, 2, 3])

theorem listing_truncated : ∃ inside behind, listing truncated = .ok [inside, behind] ∧
    inside.declared = .fat32 ∧ inside.startLba = 1 ∧
      behind.declared = .fat32 ∧ behind.startLba = 5 := by
  obtain ⟨partitions, listed, places⟩ : ∃ partitions, listing truncated = .ok partitions ∧
      partitions.map (fun partition => (partition.declared, partition.startLba)) =
        [(.fat32, 1), (.fat32, 5)] := by
    apply exists_ok
    simp only [listing, Detection.ofSource, truncated, Small.disk, Source.read_ofImage]
    decide +kernel
  obtain ⟨inside, rest, rfl, first, places⟩ := List.map_eq_cons_iff.mp places
  obtain ⟨behind, rest, rfl, second, places⟩ := List.map_eq_cons_iff.mp places
  cases List.map_eq_nil_iff.mp places
  exact ⟨inside, behind, listed, congrArg Prod.fst first, congrArg Prod.snd first,
    congrArg Prod.fst second, congrArg Prod.snd second⟩

theorem bootSector_truncated :
    (∃ data, (truncated.setStart 1).read 0 512 = .ok data ∧
      (BootSector.decode data).filesystem = .fat32 ∧
        (BootSector.decode data).geometry = .ok (Small.geometry 2)) ∧
      (truncated.setStart 5).read 0 512 = .error (.unreadableSector 0) := by
  simp only [truncated, Small.disk, Source.read_setStart]
  exact ⟨exists_ok (by decide +kernel), by decide +kernel⟩

theorem fewEntries_truncated (config : Config) : FewEntries config truncated .physical := by
  obtain ⟨inside, behind, listed, -, first, -, second⟩ := listing_truncated
  obtain ⟨⟨data, answered, kind, accepted⟩, failed⟩ := bootSector_truncated
  have known : truncated.sectorSize ≠ 0 := by decide
  refine fewEntries_of_layout rfl listed ?_ (BootSector.regular_of_geometry accepted) (by decide)
  intro partition member promised other recognized
  have known' : (truncated.setStart partition.startLba).sectorSize ≠ 0 := known
  rcases List.mem_cons.mp member with rfl | member
  · rw [← first] at answered
    rw [Source.geometry_of_read known' answered, if_pos kind, accepted] at recognized
    exact (Except.ok.inj recognized).symm
  · cases List.mem_singleton.mp member
    rw [← second] at failed
    cases (Source.geometry_of_unread known' failed).symm.trans recognized

theorem bootObstacle_truncated : ∃ partitions, listing truncated = .ok partitions ∧
    BootObstacle truncated partitions (.unreadableSector 0) := by
  obtain ⟨inside, behind, listed, -, first, promised, second⟩ := listing_truncated
  obtain ⟨⟨data, answered, -⟩, failed⟩ := bootSector_truncated
  rw [← first] at answered
  rw [← second] at failed
  refine ⟨_, listed, [inside], behind, [], rfl, ?_, promised, failed⟩
  intro other member needed
  cases List.mem_singleton.mp member
  exact ⟨data, answered⟩

/-- Skipped volumes do not keep a run from its report, and a boot sector that cannot be read does,
whatever comes before it. -/
theorem recover_obstacles_mixed :
    (∃ report after partitions,
      recover {} ⟨⟨0⟩, Timestamp.ofUnix 0, Timestamp.ofUnix 1⟩ (Drive.image "disk" .physical)
          ⟨mixed, MemoryOutput.empty, []⟩ = (.ok report, after) ∧
        listing mixed = .ok partitions ∧
        partitions.map (fun partition => (partition.declared, partition.startLba)) =
          [(.fat32, 1), (.ntfs, 5), (.fat32, 5), (.fat32, 9)] ∧
        List.Forall₂ (fun entry report => Reports {} mixed entry.1 entry.2 report)
          partitions.zipIdx report.partitions) ∧
      (recover {} ⟨⟨0⟩, Timestamp.ofUnix 0, Timestamp.ofUnix 1⟩ (Drive.image "disk" .physical)
        ⟨truncated, MemoryOutput.empty, []⟩).1 = .error (.unreadableSector 0) := by
  have disk : (Drive.image "disk" .physical).category = .physical := rfl
  constructor
  · obtain ⟨partitions, listed, places⟩ := listing_mixed
    obtain ⟨report, after, partitions', ok, listed', reports⟩ :=
      (recover_obstacles disk rfl (by decide) (fewEntries_mixed _) []).2 clear_mixed
    cases listed.symm.trans listed'
    exact ⟨report, after, partitions, ok, listed, places, reports⟩
  · obtain ⟨partitions, listed, blocked⟩ := bootObstacle_truncated
    exact ((recover_obstacles disk rfl (by decide) (fewEntries_truncated _) []).1 _).mpr
      (.bootSector listed blocked)

end Device

end Undelete
