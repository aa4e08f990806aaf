import Undelete.Proofs.Recovery.Obstacles

/-!
The partitions of a disk are recovered apart from each other. What a run over a disk tells and
stores of a partition is what a run over its volume alone tells and stores.
-/

namespace Undelete

/-- Whether two reports tell the same of their volumes. -/
structure PartitionReport.SameFindings (report other : PartitionReport) : Prop where
  outcome : report.outcome = other.outcome
  geometry : report.geometry = other.geometry
  directories : report.directories = other.directories
  entries : report.entries = other.entries
  statuses : report.statuses = other.statuses

/-- The same file in another partition. -/
def Delivery.under (partition : Nat) (delivery : Delivery) : Delivery := { delivery with partition }

theorem Pass.deliveries_under (config : Config) (g : Geometry) (partition other : Nat)
    (source : Source) :
    deliveries config g other source =
      (deliveries config g partition source).map (Delivery.under other) := by
  unfold deliveries
  split
  · rw [List.map_map]
    rfl
  · rfl

namespace Visit

variable [Digests] {config : Config} {volume : Source} {listed : PartitionReport} {index : Nat}
  {visit : Visit}

theorem exists_ofVolume {source : Source} {partition : Partition}
    (fresh : source.reopen = .ok source) (promised : partition.declared = .fat32)
    (planned : ofPartition config source index partition = .ok visit) :
    ∃ listed : PartitionReport, listed.Blank index ∧
      ofVolume config listed (source.setStart partition.startLba) = .ok visit := by
  unfold ofPartition at planned
  rw [Source.volumeAt_of_fresh fresh] at planned
  dsimp only at planned
  rw [if_neg (not_not.mpr promised)] at planned
  refine ⟨_, ?_, planned⟩
  exact ⟨rfl, rfl, rfl, rfl, rfl⟩

/-- A volume is visited in the same way when it is the only one. -/
theorem ofLogical_of_ofVolume (fresh : volume.reopen = .ok volume) (blank : listed.Blank index)
    (planned : ofVolume config listed volume = .ok visit) :
    ∃ single, ofLogical config volume = .ok single ∧
      single.files = visit.files.map (Delivery.under 0) ∧
      ∀ told, (visit.report told).SameFindings (single.report told) := by
  unfold ofVolume at planned
  unfold ofLogical
  cases recognized : volume.geometry 0 with
  | ok g =>
    rw [recognized] at planned
    cases planned
    rw [fresh]
    refine ⟨_, rfl, Pass.deliveries_under .., fun told => ?_⟩
    dsimp only [passing]
    cases Pass.survey config g volume with
    | ok found => exact ⟨rfl, rfl, rfl, rfl, rfl⟩
    | error failure => exact ⟨rfl, rfl, blank.directories, blank.entries, blank.statuses⟩
  | error failure =>
    rw [recognized] at planned
    dsimp only at planned ⊢
    split at planned
    next locally =>
      cases planned
      rw [if_pos locally]
      exact ⟨_, rfl, rfl, fun told =>
        ⟨rfl, blank.geometry, blank.directories, blank.entries, blank.statuses⟩⟩
    next => cases planned

end Visit

namespace Delivery

variable {files : List Delivery} {index : Nat}

theorem distinct_under (other : Nat) (own : ∀ file ∈ files, file.partition = index)
    (distinct : (files.map key).Nodup) : ((files.map (under other)).map key).Nodup := by
  rw [List.map_map]
  refine List.pairwise_map.mpr ((List.pairwise_map.mp distinct).imp_of_mem ?_)
  intro earlier later member member' different same
  refine different (Prod.ext ?_ (Prod.mk.inj same).2)
  exact (own earlier member).trans (own later member').symm

end Delivery

namespace MemoryOutput

open Output

/-- What is stored of a partition is stored in the same way of its files alone. -/
theorem get?_under {stops : Stops} {files : List Delivery} {index other : Nat}
    {told told' : List (Option String)} {last last' : MemoryOutput}
    (accepts : Accepts empty stops.calls told last)
    (own : stops.files.filter (fun delivery => delivery.partition = index) = files)
    (alone : Accepts empty ((files.map (Delivery.under other)).flatMap Delivery.calls) told' last')
    (fileId : Nat) : last.get? index fileId = last'.get? other fileId := by
  have all : (files.map (Delivery.under other)).filter
      (fun delivery => delivery.partition = other) = files.map (Delivery.under other) := by
    refine List.filter_eq_self.mpr fun delivery member => ?_
    obtain ⟨file, -, rfl⟩ := List.mem_map.mp member
    exact decide_eq_true rfl
  rw [get?_of_accepts accepts, get?_of_accepts alone, own, all, ← List.map_reverse, List.find?_map,
    Option.map_map]
  rfl

end MemoryOutput

namespace Device

variable {config : Config} {drive : Drive} {source volume : Source}

open Output

/-- Every FAT32 partition of a disk is told and stored as if its volume had been the only one. -/
theorem recover_apart [Digests] {session : Session} {journal : List Event} {report : Report}
    {after : Run MemoryOutput} (disk : drive.category = .physical)
    (fresh : source.reopen = .ok source)
    (ok : recover config session drive ⟨source, MemoryOutput.empty, journal⟩ =
      (.ok report, after)) :
    ∃ partitions, listing source = .ok partitions ∧
      report.partitions.length = partitions.length ∧
      ∀ (index : Nat) (partition : Partition), partitions[index]? = some partition →
        partition.declared = .fat32 →
        ∃ part, report.partitions[index]? = some part ∧ part.index = index ∧
          ∀ (session' : Session) (drive' : Drive) (journal' : List Event),
            drive'.category = .logical →
            ∃ report' after' part', recover config session' drive'
                ⟨source.setStart partition.startLba, MemoryOutput.empty, journal'⟩ =
                  (.ok report', after') ∧
              report'.partitions = [part'] ∧ part.SameFindings part' ∧
              ∀ fileId, after.output.get? index fileId = after'.output.get? 0 fileId := by
  obtain ⟨stops, planned, tour, -⟩ := (travels_recover config session drive
    ⟨source, MemoryOutput.empty, journal⟩).ok ok
  obtain ⟨here, opened, numbered⟩ := stops_of_route planned
  replace numbered := numbered_stops numbered
  rw [disk] at planned
  have route := (route_physical config fresh).symm.trans planned
  obtain ⟨partitions, listed, rfl⟩ := map_eq_ok_iff.mp route
  have length : report.partitions.length = partitions.length := by
    rw [← tour.visited.length_eq, stopsOf, List.length_map, List.length_zipIdx]
  refine ⟨partitions, listed, length, ?_⟩
  intro index partition known promised
  have inside : index < report.partitions.length := by
    rw [length]
    exact (List.getElem?_eq_some_iff.mp known).1
  have reported := List.getElem?_eq_getElem inside
  obtain ⟨visit, told, before, later, here, accepts, part⟩ := tour.visited_at reported
  have of := numbered index visit here
  have own := numbered.filter_files here
  rw [Nat.zero_add] at of own
  refine ⟨_, reported, ?_, ?_⟩
  · rw [part]
    exact of.index_report told
  intro session' drive' journal' single
  simp only [stopsOf, List.getElem?_map, List.getElem?_zipIdx, known, Option.map_some,
    Nat.zero_add, Option.some.injEq] at here
  obtain ⟨listedAs, blank, planned⟩ := Visit.exists_ofVolume fresh promised here
  have fresh' : (source.setStart partition.startLba).reopen =
      .ok (source.setStart partition.startLba) := Source.volumeAt_of_fresh fresh _
  obtain ⟨alone, planned, files, same⟩ := Visit.ofLogical_of_ofVolume fresh' blank planned
  obtain ⟨places, -⟩ := MemoryOutput.files_of_accepts accepts
  have distinct := Delivery.distinct_under 0 (fun file member => of.partition_eq member)
    (MemoryOutput.distinct_of_accepts accepts).1
  rw [← files] at distinct
  obtain ⟨report', after', told', ok', reported', accepts'⟩ :=
    recover_single session' single fresh' planned distinct journal'
  -- Memory tells no places, so that both reports are told the same.
  obtain ⟨places', -⟩ := MemoryOutput.files_of_accepts accepts'
  have told_eq : told' = told := by
    rw [places, places', files, List.map_map]
    rfl
  refine ⟨report', after', _, ok', reported', ?_, fun fileId => ?_⟩
  · rw [part, told_eq]
    exact same told
  · obtain ⟨all, accepted⟩ := tour.accepts
    rw [Visit.calls, files] at accepts'
    exact MemoryOutput.get?_under accepted own accepts' fileId

theorem recover_apart_mixed :
    ∃ report after, recover {} ⟨⟨0⟩, Timestamp.ofUnix 0, Timestamp.ofUnix 1⟩
        (Drive.image "disk" .physical) ⟨mixed, MemoryOutput.empty, []⟩ = (.ok report, after) ∧
      report.partitions.length = 4 ∧
      ∀ place ∈ [(0, 1), (2, 5), (3, 9)], ∃ part report' after' part',
        report.partitions[place.1]? = some part ∧
        recover {} ⟨⟨0⟩, Timestamp.ofUnix 0, Timestamp.ofUnix 1⟩ (Drive.image "volume" .logical)
          ⟨mixed.setStart place.2, MemoryOutput.empty, []⟩ = (.ok report', after') ∧
        report'.partitions = [part'] ∧ part.SameFindings part' ∧
        ∀ fileId, after.output.get? place.1 fileId = after'.output.get? 0 fileId := by
  have disk : (Drive.image "disk" .physical).category = .physical := rfl
  obtain ⟨report, after, -, ok, -⟩ :=
    recover_clear ⟨⟨0⟩, Timestamp.ofUnix 0, Timestamp.ofUnix 1⟩ disk rfl (by decide)
      (fewEntries_mixed {}) [] clear_mixed
  obtain ⟨partitions, listed, length, apart⟩ := recover_apart disk rfl ok
  obtain ⟨partitions', listed', places⟩ := listing_mixed
  cases listed.symm.trans listed'
  have count := congrArg List.length places
  rw [List.length_map] at count
  have there : ∀ place ∈ [(0, 1), (2, 5), (3, 9)],
      (partitions.map fun partition => (partition.declared, partition.startLba))[place.1]? =
        some (.fat32, place.2) := by
    rw [places]
    decide
  refine ⟨report, after, ok, length.trans count, ?_⟩
  rintro ⟨index, lba⟩ member
  obtain ⟨partition, known, same⟩ :=
    Option.map_eq_some_iff.mp (List.getElem?_map.symm.trans (there _ member))
  obtain ⟨promised, rfl⟩ := Prod.mk.inj same
  obtain ⟨part, reported, -, alone⟩ := apart index partition known promised
  obtain ⟨report', after', part', ok', reported', findings, stored⟩ :=
    alone ⟨⟨0⟩, Timestamp.ofUnix 0, Timestamp.ofUnix 1⟩ (Drive.image "volume" .logical) [] rfl
  exact ⟨part, report', after', part', reported, ok', reported', findings, stored⟩

end Device

end Undelete
