import Undelete.Proofs.Recovery.Memory
import Undelete.Proofs.Volume.Small

/-!
Passes with filters. What a filter leaves out is still scanned, walked and claimed, so that a
filtered pass recovers its candidates just as a pass over all candidates does.
-/

namespace Undelete

namespace Config

/-- The same settings without filters. -/
def unfiltered (config : Config) : Config :=
  { config with targetCluster := none, targetSize := none }

theorem selects_unfiltered (config : Config) : config.unfiltered.selects = Entry.isCandidate := by
  funext entry
  exact Bool.and_true _

/-- Whether a status is of an entry that passes the filters. -/
def keeps (config : Config) (status : Status) : Bool :=
  config.targetCluster.all (status.startCluster = ·) &&
    config.targetSize.all (status.declaredSize = ·)

end Config

/-- What tells an entry and its place in the order of discovery. -/
def Entry.origin (entry : Entry) : Nat × Nat × Nat :=
  (entry.ordinal, entry.startCluster, entry.size)

/-- What a status tells of its entry. -/
def Status.origin (status : Status) : Nat × Nat × Nat :=
  (status.ordinal, status.startCluster, status.declaredSize)

theorem Config.keeps_of_origin (config : Config) {status : Status} {entry : Entry}
    (same : status.origin = entry.origin) : config.keeps status = config.matchesFilters entry := by
  simp only [Status.origin, Entry.origin, Prod.mk.injEq] at same
  obtain ⟨-, start, size⟩ := same
  rw [keeps, matchesFilters, start, size]

/-- A status without the place of its file. -/
def Status.unplaced (status : Status) : Status := { status with outputPath := none }

namespace Pass

variable {source : Source} {config : Config} {g : Geometry} {found : Survey}

/-- The plan for an entry. -/
def planFor (config : Config) (g : Geometry) (source : Source) (found : Survey) (entry : Entry) :
    Plan :=
  planOf config g (ledgerOf g found.root found.chains) entry (chainOf config g source entry)

/-- The entries that a pass without filters recovers. -/
def candidatesOf (found : Survey) : List Entry := found.scan.entries.filter Entry.isCandidate

theorem plans_unfiltered (surveyed : survey config g source = .ok found) :
    plans config.unfiltered g found = (candidatesOf found).map (planFor config g source found) := by
  have all : survey config.unfiltered g source = .ok found := surveyed
  rw [plans_eq all, Config.selects_unfiltered]
  rfl

/-- Filters do not change the plans that they leave. -/
theorem plans_filtered (surveyed : survey config g source = .ok found) :
    plans config g found =
      ((candidatesOf found).filter config.matchesFilters).map
        (planFor config g source found) := by
  rw [plans_eq surveyed, candidatesOf, List.filter_filter]
  congr 2
  funext entry
  exact Bool.and_comm _ _

theorem origin_statusAt [Digests] (place : Option String) (entry : Entry) :
    (statusAt source config g place (planFor config g source found entry)).origin =
      entry.origin := by
  have delivered : Delivers (verdict source config g (planFor config g source found entry))
      (statusAt source config g place (planFor config g source found entry)) := by
    unfold statusAt
    split
    · exact ⟨_, _, rfl⟩
    · exact ⟨_, _, rfl⟩
  rw [delivered.eq_update]
  rfl

/-- Leaving out statuses is leaving out their entries. -/
theorem filter_keeps (config : Config) {report : Entry → Status} (entries : List Entry)
    (told : ∀ entry, (report entry).origin = entry.origin) :
    (entries.map report).filter config.keeps =
      (entries.filter config.matchesFilters).map report := by
  rw [List.filter_map]
  congr 2
  funext entry
  exact config.keeps_of_origin (told entry)

/-- There is one status for every plan, and it tells of the plan's entry. -/
theorem origins_of_statusesAt [Digests] (surveyed : survey config g source = .ok found)
    (told : List (Option String)) :
    (statusesAt source config.unfiltered g (plans config.unfiltered g found) told).map
        Status.origin = (candidatesOf found).map Entry.origin := by
  have all : survey config.unfiltered g source = .ok found := surveyed
  have same : ∀ place, ∀ plan ∈ plans config.unfiltered g found,
      (statusAt source config.unfiltered g place plan).origin = plan.entry.origin := by
    intro place plan planned
    obtain ⟨entry, -, -, rfl⟩ := (mem_plans all).mp planned
    exact origin_statusAt place entry
  rw [map_statusesAt _ same, plans_unfiltered surveyed, List.map_map]
  rfl

theorem unplaced_statusAt [Digests] (place : Option String) (plan : Plan) :
    (statusAt source config g place plan).unplaced =
      (statusAt source config g none plan).unplaced := by
  unfold statusAt
  split <;> rfl

theorem unplaced_statusesAt [Digests] (plans : List Plan) (told : List (Option String)) :
    (statusesAt source config g plans told).map Status.unplaced =
      plans.map fun plan => (statusAt source config g none plan).unplaced :=
  map_statusesAt plans (fun place plan _ => unplaced_statusAt place plan) told

/-- But for the places of files, the statuses of a filtered pass are those that the filters keep of
all statuses. -/
theorem unplaced_filtered [Digests] (surveyed : survey config g source = .ok found)
    (told told' : List (Option String)) :
    (statusesAt source config g (plans config g found) told').map Status.unplaced =
      ((statusesAt source config.unfiltered g (plans config.unfiltered g found) told).filter
        config.keeps).map Status.unplaced := by
  let report (entry : Entry) : Status :=
    (statusAt source config g none (planFor config g source found entry)).unplaced
  have narrow : (statusesAt source config g (plans config g found) told').map Status.unplaced =
      ((candidatesOf found).filter config.matchesFilters).map report := by
    rw [unplaced_statusesAt, plans_filtered surveyed, List.map_map]
    rfl
  have wide : (statusesAt source config.unfiltered g (plans config.unfiltered g found) told).map
      Status.unplaced = (candidatesOf found).map report := by
    rw [unplaced_statusesAt, plans_unfiltered surveyed, List.map_map]
    rfl
  have same : config.keeps ∘ Status.unplaced = config.keeps := rfl
  have told : ∀ entry, (report entry).origin = entry.origin := origin_statusAt none
  rw [narrow, ← filter_keeps config _ told, ← wide, List.filter_map, same]

/-- Where outputs tell places that depend on the files alone, the statuses agree in all. -/
theorem statuses_filtered [Digests] (surveyed : survey config g source = .ok found)
    (place : Entry → Option String) :
    ((plans config g found).map fun plan => statusAt source config g (place plan.entry) plan) =
      ((plans config.unfiltered g found).map fun plan =>
        statusAt source config.unfiltered g (place plan.entry) plan).filter config.keeps := by
  let report (entry : Entry) : Status :=
    statusAt source config g (place entry) (planFor config g source found entry)
  have told : ∀ entry, (report entry).origin = entry.origin := fun _ => origin_statusAt _ _
  rw [plans_filtered surveyed, plans_unfiltered surveyed, List.map_map, List.map_map]
  exact (filter_keeps config _ told).symm

/-- A pass without filters tells of every deleted file once, in ascending order. A filtered pass
tells the same of those that pass its filters, and makes the same calls for them on its output. -/
theorem run_filtered [Digests] {ω ω' : Type} [Output ω] [Output ω'] (config : Config)
    {before : Run ω} {before' : Run ω'} (same : before'.source = before.source) {partition : Nat}
    {told told' : List (Option String)} {last : ω} {last' : ω'}
    (accepts : Output.Accepts before.output
      (outputCalls config.unfiltered g partition before.source) told last)
    (accepts' : Output.Accepts before'.output
      (outputCalls config g partition before'.source) told' last') :
    (∃ failure, survey config g before.source = .error failure ∧
      (run config.unfiltered partition g before).1 = .error failure ∧
      (run config partition g before').1 = .error failure) ∨
    ∃ found result after result' after', survey config g before.source = .ok found ∧
      run config.unfiltered partition g before = (.ok result, after) ∧
      run config partition g before' = (.ok result', after') ∧
      result.statuses.map Status.origin = (candidatesOf found).map Entry.origin ∧
      ((candidatesOf found).map Entry.ordinal).Pairwise (· < ·) ∧
      result'.statuses.map Status.unplaced =
        (result.statuses.filter config.keeps).map Status.unplaced ∧
      after.calls = before.calls ++ (candidatesOf found).flatMap (fun entry =>
        fileCalls before.source config g partition (planFor config g before.source found entry)) ∧
      after'.calls = before'.calls ++
        ((candidatesOf found).filter config.matchesFilters).flatMap (fun entry =>
          fileCalls before.source config g partition
            (planFor config g before.source found entry)) ∧
      ∀ (Between : ω → Prop) (Between' : ω' → Prop) (place : Entry → Option String),
        Output.Places Between partition place → Between before.output →
        Output.Places Between' partition place → Between' before'.output →
        result'.statuses = result.statuses.filter config.keeps := by
  cases surveyed : survey config g before.source with
  | error failure =>
    have wide : survey config.unfiltered g before.source = .error failure := surveyed
    have narrow : survey config g before'.source = .error failure := same ▸ surveyed
    obtain ⟨after, stopped, -⟩ := run_unsurveyed partition wide
    obtain ⟨after', stopped', -⟩ := run_unsurveyed partition narrow
    exact .inl ⟨failure, rfl, congrArg Prod.fst stopped, congrArg Prod.fst stopped'⟩
  | ok found =>
    have wide : survey config.unfiltered g before.source = .ok found := surveyed
    have narrow : survey config g before'.source = .ok found := same ▸ surveyed
    obtain ⟨after, ok, -⟩ := run_accepted wide accepts
    obtain ⟨after', ok', -⟩ := run_accepted narrow accepts'
    obtain ⟨_, again, -, -, -, calls⟩ := run_delivers ok
    cases wide.symm.trans again
    obtain ⟨_, again, -, -, -, calls'⟩ := run_delivers ok'
    cases narrow.symm.trans again
    refine .inr ⟨found, _, after, _, after', rfl, ok, ok', ?_, ?_, ?_, ?_, ?_, ?_⟩
    · exact origins_of_statusesAt surveyed told
    · exact List.pairwise_map.mpr ((survey_tidy surveyed).numbered.ascending.filter _)
    · rw [same]
      exact unplaced_filtered surveyed told told'
    · rw [calls, plans_unfiltered surveyed, List.flatMap_map]
      rfl
    · rw [calls', same, plans_filtered surveyed, List.flatMap_map]
    · intro Between Between' place places between places' between'
      rw [outputCalls, wide] at accepts
      rw [outputCalls, narrow] at accepts'
      rw [places.told_eq between accepts, places'.told_eq between' accepts', statusesAt_places,
        statusesAt_places, same]
      exact statuses_filtered surveyed place

/-- A deleted file in the clusters 3 and 4, and one found later that has taken cluster 4. -/
def superseded : Source :=
  Small.source [0, 0, Small.chainEnd]
    [Small.slot 0xE5 0x20 3 600 ++ Small.slot 0xE5 0x20 4 100, [1], [2]]

theorem survey_superseded :
    ∃ found, survey {} (Small.geometry 3) superseded = .ok found ∧
      found.scan.entries.length < UInt32.size ∧ (candidatesOf found).length = 2 ∧
      ((candidatesOf found).filter
        (Config.matchesFilters { targetCluster := some 3 })).length = 1 := by
  apply exists_ok
  simp only [survey, chainOf, superseded, Small.source, Probe.answer_ofImage]
  decide +kernel

theorem run_filtered_superseded :
    ∃ result after result' after',
      run {} 0 (Small.geometry 3) ⟨superseded, MemoryOutput.empty, []⟩ = (.ok result, after) ∧
      run { targetCluster := some 3 } 0 (Small.geometry 3)
        ⟨superseded, MemoryOutput.empty, []⟩ = (.ok result', after') ∧
      result.statuses.length = 2 ∧ result'.statuses.length = 1 ∧
      result'.statuses =
        result.statuses.filter (Config.keeps { targetCluster := some 3 }) := by
  let config : Config := { targetCluster := some 3 }
  let before : Run MemoryOutput := ⟨superseded, MemoryOutput.empty, []⟩
  obtain ⟨found, surveyed, few, all, kept⟩ := survey_superseded
  have surveyed' : survey config (Small.geometry 3) superseded = .ok found := surveyed
  have unfiltered : survey config.unfiltered (Small.geometry 3) superseded = .ok found := surveyed
  obtain ⟨_, _, wide, -⟩ := run_memory unfiltered few 0 []
  obtain ⟨_, _, narrow, -⟩ := run_memory surveyed' few 0 []
  obtain ⟨told, accepts⟩ := accepts_of_run wide
  obtain ⟨told', accepts'⟩ := accepts_of_run narrow
  have same : before.source = before.source := rfl
  have filtered := run_filtered config same accepts accepts'
  rcases filtered with ⟨failure, unsurveyed, -⟩ |
    ⟨_, result, after, result', after', again, ok, ok', told, -, -, -, -, places⟩
  · cases surveyed'.symm.trans unsurveyed
  cases surveyed'.symm.trans again
  have equal := places _ _ _ (MemoryOutput.places 0) trivial (MemoryOutput.places 0) trivial
  obtain ⟨_, again', -, -, delivered, -⟩ := run_delivers ok'
  cases surveyed'.symm.trans again'
  refine ⟨result, after, result', after', ok, ok', ?_, ?_, equal⟩
  · have length := congrArg List.length told
    rw [List.length_map, List.length_map] at length
    exact length.trans all
  · rw [← delivered.length_eq, plans_filtered surveyed', List.length_map]
    exact kept

end Pass

end Undelete
