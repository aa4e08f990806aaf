import Undelete.Proofs.Recovery.Covered
import Undelete.Proofs.Recovery.Memory
import Undelete.Proofs.Volume.Small

/-!
Passes that only analyze. Such a pass takes every clean cluster to be readable. Where this is so,
its statuses are those of a pass that writes, but for the places and digests of files, and it never
calls on its output.
-/

namespace Undelete

namespace Config

def analyzing (config : Config) : Config := { config with analyzeOnly := true }

def writing (config : Config) : Config := { config with analyzeOnly := false }

end Config

/-- A status without the place and the digest of its file. -/
def Status.unfiled (status : Status) : Status := { status with outputPath := none, sha256 := none }

/-- A result without the places and digests of its files. -/
def PassResult.unfiled (result : PassResult) : PassResult :=
  { result with statuses := result.statuses.map Status.unfiled }

namespace Pass

variable {source : Source} {config : Config} {g : Geometry} {size : Nat}

/-- Whether every cluster of a candidate's chain that its size covers can be read. -/
def CanRead (source : Source) (g : Geometry) (plan : Plan) : Prop :=
  ∀ index cluster, plan.chain.clusters[index]? = some cluster →
    index * g.clusterSize < plan.entry.size →
    ∃ data, source.read (g.clusterSector cluster) g.clusterSize = .ok data

theorem exists_index_of_mem_portions {clusters : List Nat} {offset : Nat} {portion : Nat × Nat}
    (member : portion ∈ portions g size clusters offset) :
    ∃ index, clusters[index]? = some portion.1 ∧ offset + index * g.clusterSize < size := by
  induction clusters generalizing offset with
  | nil => cases member
  | cons cluster rest ih =>
    rw [portions] at member
    split at member
    · cases member
    · rcases List.mem_cons.mp member with rfl | later
      · exact ⟨0, rfl, by omega⟩
      · obtain ⟨index, here, covered⟩ := ih later
        refine ⟨index + 1, here, ?_⟩
        rw [Nat.succ_mul]
        omega

/-- Two hauls that differ at most in their data. -/
structure Alike (one other : Haul) : Prop where
  status : one.status = other.status
  clusters : one.clusters = other.clusters
  bytes : one.bytes = other.bytes

/-- Of a cluster that can be read, analyzing counts what writing takes. -/
theorem Alike.gatherOne {one other : Haul} (alike : Alike one other) {portion : Nat × Nat}
    (readable : Readable source g portion.1) :
    Alike (gatherOne source g true one portion) (gatherOne source g false other portion) := by
  obtain ⟨data, read⟩ := readable
  unfold Pass.gatherOne
  rw [alike.status, read]
  split
  · exact alike
  · exact ⟨rfl, congrArg (· + 1) alike.clusters, congrArg (· + portion.2) alike.bytes⟩

theorem Alike.foldl {one other : Haul} (alike : Alike one other) {shares : List (Nat × Nat)}
    (readable : ∀ portion ∈ shares, Readable source g portion.1) :
    Alike (shares.foldl (Pass.gatherOne source g true) one)
      (shares.foldl (Pass.gatherOne source g false) other) := by
  induction shares generalizing one other with
  | nil => exact alike
  | cons portion rest ih =>
    obtain ⟨first, later⟩ := List.forall_mem_cons.mp readable
    exact ih (alike.gatherOne first) later

theorem verdict_analyzing (sound : g.Sound) {plan : Plan}
    (valid : ∀ cluster ∈ plan.chain.clusters, g.Valid cluster) (canRead : CanRead source g plan) :
    verdict source config.analyzing g plan = verdict source config.writing g plan := by
  have readable : ∀ portion ∈ portions g plan.entry.size plan.chain.clusters 0,
      Readable source g portion.1 := by
    intro portion member
    obtain ⟨index, here, covered⟩ := exists_index_of_mem_portions member
    rw [Nat.zero_add] at covered
    rw [Readable, contentsOf_eq sound (valid _ (mem_of_mem_portions member).1)]
    exact canRead index portion.1 here covered
  have alike : Alike (haulOf source config.analyzing g plan)
      (haulOf source config.writing g plan) :=
    Alike.foldl ⟨rfl, rfl, rfl⟩ readable
  have content : hasContent plan (haulOf source config.analyzing g plan) =
      hasContent plan (haulOf source config.writing g plan) := by
    rw [hasContent, hasContent]
    exact congrArg (fun bytes => decide (0 < bytes) || _) alike.bytes
  rw [verdict, verdict, content]
  congr 1
  · exact alike.status
  · exact alike.clusters
  · exact alike.bytes

theorem unfiled_statusAt [Digests] (place : Option String) (plan : Plan) :
    (statusAt source config g place plan).unfiled = (verdict source config g plan).unfiled := by
  unfold statusAt
  split <;> rfl

theorem outputCalls_analyzing (g : Geometry) (analyzing : config.analyzeOnly = true) (partition : Nat)
    (source : Source) : outputCalls config g partition source = [] := by
  rw [outputCalls]
  split
  next found _ =>
    rw [List.flatMap_eq_nil_iff]
    intro plan _
    rw [fileCalls, analyzing]
    rfl
  · rfl

/-- A pass that only analyzes leaves the output alone, whatever comes of it. -/
theorem run_analyzing [Digests] {ω : Type} [Output ω] (analyzing : config.analyzeOnly = true)
    (partition : Nat) (before : Run ω) :
    (Pass.run config partition g before).2.output = before.output ∧
      (Pass.run config partition g before).2.calls = before.calls := by
  cases surveyed : survey config g before.source with
  | error failure =>
    obtain ⟨after, stopped, quiet⟩ := run_unsurveyed partition surveyed
    rw [stopped]
    exact ⟨quiet.output, quiet.calls⟩
  | ok found =>
    have silent := outputCalls_analyzing g analyzing partition before.source
    have accepts := Output.Accepts.done before.output
    rw [← silent] at accepts
    obtain ⟨after, ok, output⟩ := run_accepted surveyed accepts
    obtain ⟨found', surveyed', -, -, -, calls⟩ := run_delivers ok
    rw [outputCalls, surveyed'] at silent
    dsimp only at silent
    rw [silent, List.append_nil] at calls
    rw [ok]
    exact ⟨output, calls⟩

theorem unfiled_statusesAt [Digests] (sound : g.Sound) {found : Survey}
    (surveyed : survey config g source = .ok found)
    (readable : ∀ plan ∈ plans config g found, CanRead source g plan)
    (told told' : List (Option String)) :
    (statusesAt source config.analyzing g (plans config g found) told).map Status.unfiled =
      (statusesAt source config.writing g (plans config g found) told').map Status.unfiled := by
  rw [map_statusesAt _ (fun place plan _ => unfiled_statusAt place plan),
    map_statusesAt _ (fun place plan _ => unfiled_statusAt place plan)]
  refine List.map_congr_left fun plan planned => ?_
  obtain ⟨entry, -, -, rfl⟩ := (mem_plans surveyed).mp planned
  rw [verdict_analyzing sound (valid_chainOf entry) (readable _ planned)]

/-- Where all clusters that count can be read, and the output of the pass that writes accepts its
calls, both passes stop with one failure or tell the same of all candidates in the same order. The
pass that only analyzes never calls on its output. -/
theorem run_forecasts [Digests] {ω ω' : Type} [Output ω] [Output ω'] {boot : BootSector}
    (accepted : boot.geometry = .ok g) {before : Run ω} {before' : Run ω'}
    (same : before'.source = before.source)
    (readable : ∀ found, survey config g before.source = .ok found →
      ∀ plan ∈ plans config g found, CanRead before.source g plan)
    {partition : Nat} {told : List (Option String)} {last : ω'}
    (accepts : Output.Accepts before'.output
      (outputCalls config.writing g partition before'.source) told last) :
    let analysis := Pass.run config.analyzing partition g before
    let recovery := Pass.run config.writing partition g before'
    (analysis.2.output = before.output ∧ analysis.2.calls = before.calls) ∧
      ((∃ failure, survey config g before.source = .error failure ∧
          analysis.1 = .error failure ∧ recovery.1 = .error failure) ∨
        ∃ found result result', survey config g before.source = .ok found ∧
          analysis.1 = .ok result ∧ recovery.1 = .ok result' ∧ result.unfiled = result'.unfiled) := by
  intro analysis recovery
  refine ⟨run_analyzing rfl partition before, ?_⟩
  cases surveyed : survey config g before.source with
  | error failure =>
    have analyzed : survey config.analyzing g before.source = .error failure := surveyed
    have written : survey config.writing g before'.source = .error failure := same ▸ surveyed
    obtain ⟨after, stopped, -⟩ := run_unsurveyed partition analyzed
    obtain ⟨after', stopped', -⟩ := run_unsurveyed partition written
    exact .inl ⟨failure, rfl, congrArg Prod.fst stopped, congrArg Prod.fst stopped'⟩
  | ok found =>
    have analyzed : survey config.analyzing g before.source = .ok found := surveyed
    have written : survey config.writing g before'.source = .ok found := same ▸ surveyed
    have silent : Output.Accepts before.output
        (outputCalls config.analyzing g partition before.source) [] before.output := by
      rw [outputCalls_analyzing g rfl]
      exact .done _
    obtain ⟨after, ok, -⟩ := run_accepted analyzed silent
    obtain ⟨after', ok', -⟩ := run_accepted written accepts
    refine .inr ⟨found, _, _, rfl, congrArg Prod.fst ok, congrArg Prod.fst ok', ?_⟩
    rw [same]
    exact congrArg (PassResult.mk g found.scan.directories found.scan.entries.length)
      (unfiled_statusesAt (BootSector.sound_of_geometry accepted) surveyed
        (readable found surveyed) [] told)

/-- A live file in cluster 4, and deleted files in the clusters 3 and 4 and in cluster 5. -/
def halved : Source :=
  Small.source [0, 0, Small.chainEnd, 0, Small.chainEnd]
    [Small.slot 0xE5 0x20 3 600 ++ Small.slot 0x41 0x20 4 100 ++ Small.slot 0xE5 0x20 5 200,
      [1], [2], [3]]

theorem survey_halved :
    ∃ found, survey {} (Small.geometry 4) halved = .ok found ∧
      found.scan.entries.length < UInt32.size ∧ (plans {} (Small.geometry 4) found).length = 2 ∧
      ∀ plan ∈ plans {} (Small.geometry 4) found, ∀ cluster ∈ plan.chain.clusters,
        (halved.read ((Small.geometry 4).clusterSector cluster) 512).toOption.isSome = true := by
  apply exists_ok
  simp only [survey, chainOf, halved, Small.source, Probe.answer_ofImage, Source.read_ofImage]
  decide +kernel

theorem run_forecasts_halved :
    ∃ result result' after',
      (run (Config.analyzing {}) 0 (Small.geometry 4) ⟨halved, Discard.mk, []⟩).1 = .ok result ∧
      run (Config.writing {}) 0 (Small.geometry 4) ⟨halved, MemoryOutput.empty, []⟩ =
        (.ok result', after') ∧
      result'.statuses.length = 2 ∧ result.unfiled = result'.unfiled := by
  obtain ⟨found, surveyed, few, count, reads⟩ := survey_halved
  have accepted : (BootSector.decode (Small.boot 4)).geometry = .ok (Small.geometry 4) := by
    decide +kernel
  have readable : ∀ found', survey {} (Small.geometry 4) halved = .ok found' →
      ∀ plan ∈ plans {} (Small.geometry 4) found', CanRead halved (Small.geometry 4) plan := by
    intro found' surveyed' plan planned index cluster here _
    cases surveyed.symm.trans surveyed'
    have read := reads plan planned cluster (List.mem_of_getElem? here)
    cases answered : halved.read ((Small.geometry 4).clusterSector cluster) 512 with
    | error failure =>
      rw [answered] at read
      cases read
    | ok data => exact ⟨data, answered⟩
  have written : survey (Config.writing {}) (Small.geometry 4) halved = .ok found := surveyed
  obtain ⟨result', after', ok, -⟩ := run_memory written few 0 []
  obtain ⟨told, accepts⟩ := accepts_of_run ok
  obtain ⟨found', surveyed', -, -, delivered, -⟩ := run_delivers ok
  cases surveyed.symm.trans surveyed'
  let before : Run Discard := ⟨halved, Discard.mk, []⟩
  let before' : Run MemoryOutput := ⟨halved, MemoryOutput.empty, []⟩
  have same : before'.source = before.source := rfl
  have forecast := run_forecasts accepted same readable accepts
  rcases forecast.2 with ⟨failure, unsurveyed, -⟩ | ⟨_, result, other, -, analyzed, recovered, same⟩
  · cases surveyed.symm.trans unsurveyed
  · rw [ok] at recovered
    cases recovered
    exact ⟨result, result', after', analyzed, ok, delivered.length_eq.symm.trans count, same⟩

end Pass

end Undelete
