import Undelete.Proofs.Directory.Footprint
import Undelete.Proofs.Recovery.Journal
import Undelete.Proofs.Volume.Regions
import Undelete.Proofs.Volume.Small

/-!
Where a pass reads. Cluster numbers come from the FAT, from guesses, and from the entries of live
and deleted directories, and none of them is followed before it is known to be valid. A pass
therefore reads single sectors of the first FAT copy and whole clusters of the data region, also
one that fails.
-/

namespace Undelete

namespace Probe

variable {α β : Type} {source : Source} {g : Geometry}

/-- Whether all that a probe asks for lies inside the volume. -/
def Stays (source : Source) (g : Geometry) (work : Probe α) : Prop :=
  ∀ request ∈ work.requests source g, request.Inside g

theorem stays_pure (value : α) : (pure value : Probe α).Stays source g := fun _ none => nomatch none

theorem stays_entryOf {cluster : Nat} (valid : g.Valid cluster) :
    (entryOf cluster).Stays source g :=
  List.forall_mem_singleton.mpr valid

theorem Stays.bind {work : Probe α} {onward : α → Probe β} (first : work.Stays source g)
    (later : (onward (work.answer source g)).Stays source g) :
    (work >>= onward).Stays source g := by
  rw [Stays, requests_bind]
  exact List.forall_mem_append.mpr ⟨first, later⟩

theorem Stays.mapM {work : α → Probe β} {items : List α}
    (each : ∀ item, (work item).Stays source g) : (items.mapM work).Stays source g := by
  have loop (done : List β) : (List.mapM.loop work items done).Stays source g := by
    induction items generalizing done with
    | nil => exact stays_pure _
    | cons item rest ih => exact (each item).bind (ih _)
  exact loop []

end Probe

theorem Scan.stays_ofRoot {source : Source} {g : Geometry} (maxDepth limit start : Nat) :
    (ofRoot g maxDepth limit start).Stays source g :=
  (course_descend (maxDepth + 1) empty (start, false)).inside

namespace Walker

variable {source : Source} {g : Geometry} {walker : Walker} {fileId expected : Nat}

/-- A walk looks at a cluster's entry once it is known to be valid, wherever its number came
from. -/
theorem stays_follow (spare : Nat) (seen : Std.TreeSet Nat) (trail : List Nat)
    (inferred current : Nat) (valid : g.Valid current) :
    (walker.follow g fileId expected spare seen trail inferred current).Stays source g := by
  induction spare using Nat.strongRecOn generalizing seen trail inferred current with
  | ind spare ih =>
    rw [follow]
    split
    · exact Probe.stays_pure _
    refine (Probe.stays_entryOf valid).bind ?_
    split
    · exact Probe.stays_pure _
    · exact Probe.stays_pure _
    · dsimp only
      split
      · exact Probe.stays_pure _
      next inside =>
        split
        · exact Probe.stays_pure _
        next spare =>
          exact ih spare (Nat.lt_succ_self spare) _ _ _ _ (Decidable.not_not.mp inside)

theorem stays_walkFrom (start limit : Nat) :
    (walker.walkFrom g fileId start expected limit).Stays source g := by
  rw [walkFrom]
  split
  next valid => exact stays_follow _ _ _ _ _ valid
  · exact Probe.stays_pure _

theorem stays_walk (entry : Entry) : (walker.walk g entry).Stays source g := by
  rw [walk]
  split
  · exact stays_walkFrom _ _
  · exact stays_walkFrom _ _

end Walker

namespace Pass

variable {source : Source} {g : Geometry}

theorem stays_walkAll (config : Config) (entries : List Entry) :
    (walkAll config g entries).Stays source g := by
  have root : (g.liveChain g.rootCluster config.maxDirectoryClusters).Stays source g := by
    obtain ⟨asked, same, -, fresh⟩ := g.requests_chainFrom source config.maxDirectoryClusters ∅ []
      g.rootCluster
    intro request member
    rw [Geometry.liveChain, same] at member
    obtain ⟨cluster, known, rfl⟩ := List.mem_map.mp member
    exact (fresh cluster known).1
  rw [walkAll]
  refine root.bind ?_
  split
  · exact Probe.stays_pure _
  · refine Probe.Stays.bind (.mapM fun entry => ?_) (Probe.stays_pure _)
    exact (Walker.stays_walk entry).bind (Probe.stays_pure _)

theorem stays_readCluster (cluster : Nat) : (readCluster g cluster).Stays source g := by
  rw [readCluster]
  split
  next inside => exact List.forall_mem_singleton.mpr ⟨cluster, inside.1, rfl, rfl⟩
  · exact Probe.stays_pure _

end Pass

/-- Whether a read is one sector of the first FAT copy or a whole cluster of the data region, in
sectors of `size` bytes. -/
def Geometry.Confines (g : Geometry) (size sector count : Nat) : Prop :=
  count = size ∧ g.fatStart ≤ sector ∧ sector < g.fatStart + g.fatSize ∨
    ∃ cluster, g.Valid cluster ∧ sector = g.clusterSector cluster ∧
      count = g.sectorsPerCluster * size ∧ g.dataStart ≤ sector ∧
      sector + g.sectorsPerCluster ≤ g.totalSectors

/-- What is requested inside a regular volume is read inside of it. -/
theorem Geometry.Regular.confines {g : Geometry} (regular : g.Regular) {request : Request}
    (inside : request.Inside g) :
    g.Confines g.bytesPerSector (request.place g).1 (request.place g).2 := by
  cases request with
  | entry cluster => exact .inl ⟨rfl, regular.fat_inside cluster inside⟩
  | contents sector count =>
    obtain ⟨cluster, valid, rfl, rfl⟩ := inside
    exact .inr ⟨cluster, valid, rfl, Nat.mul_comm _ _, regular.data_inside cluster valid⟩

namespace Run

variable {ω : Type} {g : Geometry} {first second third : Run ω}

/-- What was read in between lies inside the volume. -/
structure Confined (g : Geometry) (before after : Run ω) : Prop where
  source : after.source = before.source
  issued : ∃ issued, after.journal = issued ++ before.journal ∧
    ∀ sector count, .read sector count ∈ issued → g.Confines g.bytesPerSector sector count

theorem Confined.refl (run : Run ω) : Confined g run run := ⟨rfl, [], rfl, by simp⟩

theorem Confined.trans (early : Confined g first second) (late : Confined g second third) :
    Confined g first third := by
  obtain ⟨issued, journal, inside⟩ := early.issued
  obtain ⟨issued', journal', inside'⟩ := late.issued
  refine ⟨late.source.trans early.source, issued' ++ issued, ?_, fun sector count member => ?_⟩
  · rw [journal', journal, List.append_assoc]
  · rcases List.mem_append.mp member with late | early
    · exact inside' sector count late
    · exact inside sector count early

end Run

namespace Engine

variable {ω α β : Type} {g : Geometry} {run : Run ω}

theorem confined_bind {work : Engine ω α} {onward : α → Engine ω β}
    (first : run.Confined g (work run).2)
    (rest : ∀ value mid, work run = (.ok value, mid) → mid.Confined g (onward value mid).2) :
    run.Confined g ((work >>= onward) run).2 := by
  cases done : work run with
  | mk outcome mid =>
    rw [done] at first
    cases outcome with
    | error failure =>
      rw [bind_error done]
      exact first
    | ok value =>
      rw [bind_ok done]
      exact first.trans (rest value mid done)

theorem confined_foldlM {step : β → α → Engine ω β}
    (each : ∀ value item (run : Run ω), run.Confined g (step value item run).2) (items : List α)
    (value : β) (run : Run ω) : run.Confined g (items.foldlM step value run).2 := by
  induction items generalizing value run with
  | nil => exact .refl run
  | cons item rest ih =>
    rw [List.foldlM_cons]
    exact confined_bind (each value item run) fun next mid _ => ih next mid

theorem confined_announce (phase : Phase) (found count : Nat) (operation : String) :
    run.Confined g ((announce phase found count operation : Engine ω Unit) run).2 :=
  ⟨rfl, [.progress ⟨phase, found, count, operation⟩], rfl, by simp⟩

theorem confined_onOutput {event : Event} {act : Act ω α} (isCall : event.isCall = true) :
    run.Confined g (onOutput event act run).2 := by
  refine ⟨rfl, [event], rfl, fun sector count member => ?_⟩
  rw [← List.mem_singleton.mp member] at isCall
  cases isCall

/-- A probe that stays inside a regular volume reads inside of it. -/
theorem confined_probe (regular : g.Regular) {table : FatTable} {work : Probe α}
    (faithful : table.Faithful run.source) (same : table.geometry = g)
    (stays : work.Stays run.source g) : run.Confined g (probe table work run).2 := by
  subst same
  obtain ⟨reads, logged, served⟩ := Probe.run_served work [] faithful
  refine ⟨rfl, _, rfl, fun sector count member => ?_⟩
  rw [logged, List.append_nil] at member
  obtain ⟨place, read, same⟩ := List.mem_map.mp member
  cases same
  obtain ⟨request, asked, place⟩ := served.exists_of_mem (List.mem_reverse.mp read)
  have inside := regular.confines (stays request asked)
  rwa [place] at inside

end Engine

theorem Engine.confined_require {ω α : Type} {g : Geometry} {run : Run ω}
    (result : Except Failure α) :
    run.Confined g ((Engine.require result : Engine ω α) run).2 :=
  .refl run

namespace Pass

variable {ω : Type} [Output ω] {config : Config} {g : Geometry} {partition : Nat}

theorem confined_ensureStarted (entry : Entry) (haul : Haul) (run : Run ω) :
    run.Confined g (ensureStarted partition entry haul run).2 := by
  unfold ensureStarted
  split
  · exact .refl run
  · exact Engine.confined_onOutput rfl

theorem confined_takePortion (regular : g.Regular) (entry : Entry) (haul : Haul)
    (portion : Nat × Nat) (run : Run ω) :
    run.Confined g (takePortion config g partition entry haul portion run).2 := by
  obtain ⟨cluster, share⟩ := portion
  unfold takePortion
  dsimp only
  split
  · exact .refl run
  split
  · exact .refl run
  refine Engine.confined_bind (Engine.confined_probe regular
    (FatTable.faithful_empty run.source g) rfl (stays_readCluster cluster)) fun value mid _ => ?_
  obtain ⟨_ | data, table⟩ := value
  · exact .refl mid
  · refine Engine.confined_bind (confined_ensureStarted entry haul mid) fun _ started _ => ?_
    exact Engine.confined_bind (Engine.confined_onOutput rfl) fun _ filled _ => .refl filled

theorem confined_recover [Digests] (regular : g.Regular) (plan : Plan) (run : Run ω) :
    run.Confined g (recover config g partition plan run).2 := by
  refine Engine.confined_bind (Engine.confined_foldlM
    (confined_takePortion regular plan.entry) _ _ run) fun haul mid _ => ?_
  by_cases skipped : (config.analyzeOnly || !hasContent plan haul) = true
  · rw [if_pos skipped]
    exact .refl mid
  · rw [if_neg skipped]
    refine Engine.confined_bind (confined_ensureStarted plan.entry haul mid) fun _ started _ => ?_
    exact Engine.confined_bind (Engine.confined_onOutput rfl) fun _ closed _ => .refl closed

theorem confined_recoverAll [Digests] (regular : g.Regular) (found count : Nat)
    (candidates : List Plan) (run : Run ω) :
    run.Confined g (recoverAll config g partition found count candidates run).2 := by
  induction candidates generalizing run count with
  | nil => exact .refl run
  | cons plan rest ih =>
    refine Engine.confined_bind (Engine.confined_announce ..) fun _ told _ => ?_
    refine Engine.confined_bind (confined_recover regular plan told) fun status mid _ => ?_
    exact Engine.confined_bind (ih (count + 1) mid) fun _ last _ => .refl last

theorem confined_run [Digests] (regular : g.Regular) (before : Run ω) :
    before.Confined g (Pass.run config partition g before).2 := by
  rw [Pass.run]
  refine Engine.confined_bind (Engine.confined_announce ..) fun _ told _ => ?_
  have empty := FatTable.faithful_empty told.source g
  refine Engine.confined_bind
    (Engine.confined_probe regular empty rfl (Scan.stays_ofRoot _ _ _)) fun value scanned ok => ?_
  obtain ⟨table, mid, answered, quiet, faithful, same⟩ := Engine.probe_apply g
    (Scan.ofRoot g config.maxDirectoryDepth config.maxDirectoryClusters g.rootCluster) empty rfl
  cases answered.symm.trans ok
  refine Engine.confined_bind (Engine.confined_require _) fun scan later ok => ?_
  obtain ⟨-, rfl⟩ := Prod.mk.inj ok
  refine Engine.confined_bind (Engine.confined_announce ..) fun _ walking ok => ?_
  cases ok
  refine Engine.confined_bind
    (Engine.confined_probe regular (by rwa [← quiet.source] at faithful) same (stays_walkAll _ _))
    fun value walked _ => ?_
  refine Engine.confined_bind (Engine.confined_require _) fun found later _ => ?_
  refine Engine.confined_bind (Engine.confined_announce ..) fun _ analyzed _ => ?_
  refine Engine.confined_bind (confined_recoverAll regular ..) fun _ last _ => .refl last

/-- On a volume whose boot sector was accepted, and whose sectors are those of the device, a pass
reads single sectors of the first FAT copy and whole clusters of the data region. -/
theorem run_confined [Digests] {boot : BootSector} (accepted : boot.geometry = .ok g)
    {before : Run ω} (aligned : before.source.sectorSize = g.bytesPerSector) (config : Config)
    (partition : Nat) :
    ∃ issued, (Pass.run config partition g before).2.journal = issued ++ before.journal ∧
      ∀ sector count, .read sector count ∈ issued →
        g.Confines before.source.sectorSize sector count := by
  rw [aligned]
  exact (confined_run (BootSector.regular_of_geometry accepted) before).issued

/-- Links, guesses and entries that lead out of a volume of three clusters. -/
def stray : Source :=
  Small.source [0, 0, Small.chainEnd, 100, 0]
    [Small.slot 0x41 0x10 9 0 ++ Small.slot 0xE5 0x10 77 0 ++ Small.slot 0x42 0x20 3 2000 ++
      Small.slot 0xE5 0x20 4 2000 ++ Small.slot 0xE5 0x20 60000 2000, [], []]

theorem run_confined_stray :
    ∃ boot, BootSector.parse (Small.boot 3) = .ok boot ∧ boot.geometry = .ok (Small.geometry 3) ∧
      stray.sectorSize = (Small.geometry 3).bytesPerSector ∧
      ∃ issued, (Pass.run {} 0 (Small.geometry 3) (.ofParts stray Discard.mk)).2.journal =
          issued ++ [] ∧
        ∀ sector count, .read sector count ∈ issued →
          (Small.geometry 3).Confines 512 sector count := by
  obtain ⟨boot, parsed, accepted⟩ : ∃ boot, BootSector.parse (Small.boot 3) = .ok boot ∧
      boot.geometry = .ok (Small.geometry 3) :=
    exists_ok (by decide +kernel)
  have aligned : (Run.ofParts stray Discard.mk).source.sectorSize =
      (Small.geometry 3).bytesPerSector := rfl
  exact ⟨boot, parsed, accepted, aligned, run_confined accepted aligned {} 0⟩

end Pass

end Undelete
