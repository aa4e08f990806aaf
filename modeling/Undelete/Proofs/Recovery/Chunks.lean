import Undelete.Proofs.Recovery.Covered
import Undelete.Proofs.Recovery.Stored

/-!
What is written for a candidate, place by place. A place of the chain is reached if the size goes
on where the cluster there begins. Of the clusters at such places those that were problematic
before are left out unread, and those that cannot be read become problematic. Each of the others
gives one chunk, the last one cut off at the size.
-/

namespace Undelete

namespace Source

/-- The contents of a cluster, if the volume has that cluster and it can be read. -/
def cluster? (source : Source) (g : Geometry) (cluster : Nat) : Option Bytes :=
  if g.Valid cluster then (source.read (g.clusterSector cluster) g.clusterSize).toOption else none

theorem length_of_cluster? {source : Source} {g : Geometry} {cluster : Nat} {data : Bytes}
    (there : source.cluster? g cluster = some data) : data.length = g.clusterSize := by
  unfold cluster? at there
  split at there
  · cases answered : source.read (g.clusterSector cluster) g.clusterSize with
    | error failure => simp [answered, Except.toOption] at there
    | ok contents =>
      simp only [answered, Except.toOption, Option.some.injEq] at there
      exact there ▸ length_of_read answered
  · cases there

end Source

namespace Pass

/-- The clusters that so many bytes reach, each with its place in the chain. -/
def reached (g : Geometry) (size : Nat) (clusters : List Nat) : List (Nat × Nat) :=
  clusters.zipIdx.filter fun (_, place) => place * g.clusterSize < size

/-- What is written of the cluster at a place that is reached. -/
def chunkAt (source : Source) (g : Geometry) (plan : Plan) (spot : Nat × Nat) : Option Bytes :=
  if spot.1 ∈ plan.status.problematic then none
  else (source.cluster? g spot.1).map fun data =>
    data.take (min (plan.entry.size - spot.2 * g.clusterSize) g.clusterSize)

def chunks (source : Source) (g : Geometry) (plan : Plan) : List Bytes :=
  (reached g plan.entry.size plan.chain.clusters).filterMap (chunkAt source g plan)

/-- The clusters that are found unreadable on the way, each where it first comes up. -/
def unread (source : Source) (g : Geometry) (plan : Plan) : List Nat :=
  (((reached g plan.entry.size plan.chain.clusters).map Prod.fst).filter fun cluster =>
    cluster ∉ plan.status.problematic ∧ source.cluster? g cluster = none).eraseDups

/-- The calls that store a candidate. A file without a chunk is stored only if it has to be empty
and has a cluster. -/
def storing (source : Source) (g : Geometry) (partition : Nat) (plan : Plan) : List Event :=
  if chunks source g plan = [] ∧ ¬ (plan.entry.size = 0 ∧ plan.chain.clusters ≠ []) then []
  else Output.fileCalls partition plan.entry (chunks source g plan)

section

variable {source : Source} {g : Geometry} {config : Config} {size : Nat}

/-- The portions lie at the places that are reached. -/
theorem portions_eq (positive : 0 < g.clusterSize) (clusters : List Nat) (first : Nat) :
    portions g size clusters (first * g.clusterSize) =
      ((clusters.zipIdx first).filter fun (_, place) => place * g.clusterSize < size).map
        fun (cluster, place) => (cluster, min (size - place * g.clusterSize) g.clusterSize) := by
  induction clusters generalizing first with
  | nil => rfl
  | cons cluster rest ih =>
    rw [portions_cons positive, List.zipIdx_cons]
    split
    next past =>
      have none : (((cluster, first) :: rest.zipIdx (first + 1)).filter
          fun (_, place) => place * g.clusterSize < size) = [] := by
        rw [List.filter_eq_nil_iff]
        rintro ⟨other, place⟩ member
        have later : first ≤ place := by
          rcases List.mem_cons.mp member with same | member
          · exact Nat.le_of_eq (Prod.mk.inj same).2.symm
          · exact Nat.le_of_succ_le (List.le_snd_of_mem_zipIdx member)
        have := Nat.mul_le_mul_right g.clusterSize later
        simp only [decide_eq_true_eq]
        omega
      rw [none, List.map_nil]
    next more =>
      rw [List.filter_cons_of_pos (by simpa using more), List.map_cons, ← ih, Nat.succ_mul]

theorem portions_eq_reached (positive : 0 < g.clusterSize) (clusters : List Nat) :
    portions g size clusters 0 = (reached g size clusters).map fun (cluster, place) =>
      (cluster, min (size - place * g.clusterSize) g.clusterSize) := by
  rw [reached, ← portions_eq positive, Nat.zero_mul]

theorem toOption_contentsOf (sound : g.Sound) (cluster : Nat) :
    (contentsOf source g cluster).toOption = source.cluster? g cluster := by
  unfold Source.cluster?
  split
  next valid => rw [contentsOf_eq sound valid]
  next invalid =>
    have outside : ¬ (g.Valid cluster ∧ g.clusterSector cluster + g.sectorsPerCluster ≤
        g.totalSectors) := fun inside => invalid inside.1
    simp only [contentsOf, readCluster, if_neg outside, Probe.answer_pure]
    rfl

theorem readable_iff (sound : g.Sound) (cluster : Nat) :
    Readable source g cluster ↔ source.cluster? g cluster ≠ none := by
  rw [← toOption_contentsOf sound, Readable]
  cases contentsOf source g cluster <;> simp [Except.toOption]

theorem map_snd_pieces (sound : g.Sound) (plan : Plan) :
    (pieces source g plan).map Prod.snd = chunks source g plan := by
  rw [pieces, portions_eq_reached sound.clusterSize_pos, List.map_filterMap,
    List.filterMap_map, chunks]
  refine List.filterMap_congr ?_
  rintro ⟨cluster, place⟩ -
  simp only [Function.comp, pieceOf, chunkAt, Status.isProblematic_iff, ← toOption_contentsOf sound]
  split
  · rfl
  · cases contentsOf source g cluster <;> rfl

/-- Of the clusters that cannot be read, the new ones are noted one after the other. -/
theorem problematic_foldl_gatherOne (sound : g.Sound) (shares : List (Nat × Nat)) (haul : Haul) :
    (shares.foldl (gatherOne source g false) haul).status.problematic =
      haul.status.problematic ++ ((shares.map Prod.fst).filter fun cluster =>
        cluster ∉ haul.status.problematic ∧ source.cluster? g cluster = none).eraseDups := by
  induction shares generalizing haul with
  | nil => simp
  | cons portion rest ih =>
    obtain ⟨cluster, share⟩ := portion
    rw [List.foldl_cons, ih, List.map_cons]
    by_cases unclean : cluster ∈ haul.status.problematic
    · simp [gatherOne, unclean]
    cases answered : contentsOf source g cluster with
    | ok data =>
      have there := (readable_iff sound cluster).mp ⟨data, answered⟩
      simp [gatherOne, unclean, answered, there]
    | error failure =>
      have gone : source.cluster? g cluster = none := by
        rw [← toOption_contentsOf sound, answered]
        rfl
      have marked : (gatherOne source g false haul (cluster, share)).status.problematic =
          haul.status.problematic ++ [cluster] := by
        simp [gatherOne, unclean, answered, Status.markProblematic]
      rw [marked, List.filter_cons_of_pos (by simp [unclean, gone]), List.eraseDups_cons,
        List.filter_filter, List.append_assoc, List.singleton_append]
      congr 3
      refine List.filter_congr fun other _ => ?_
      by_cases same : other = cluster <;> simp [same]

theorem problematic_haulOf (sound : g.Sound) (writing : config.analyzeOnly = false) (plan : Plan) :
    (haulOf source config g plan).status.problematic =
      plan.status.problematic ++ unread source g plan := by
  rw [haulOf, writing, problematic_foldl_gatherOne sound,
    portions_eq_reached sound.clusterSize_pos, List.map_map]
  rfl

/-- A place that is reached wants at least one byte. -/
theorem ne_nil_of_mem_chunks (sound : g.Sound) {plan : Plan} {data : Bytes}
    (member : data ∈ chunks source g plan) : data ≠ [] := by
  obtain ⟨⟨cluster, place⟩, visited, found⟩ := List.mem_filterMap.mp member
  have reaches : place * g.clusterSize < plan.entry.size := by
    simpa using (List.mem_filter.mp visited).2
  have positive := sound.clusterSize_pos
  simp only [chunkAt] at found
  split at found
  · cases found
  · obtain ⟨contents, there, rfl⟩ := Option.map_eq_some_iff.mp found
    have length := Source.length_of_cluster? there
    rw [← List.length_pos_iff, List.length_take]
    omega

theorem length_flatten_pos (sound : g.Sound) (plan : Plan) :
    0 < (chunks source g plan).flatten.length ↔ chunks source g plan ≠ [] := by
  rw [List.length_pos_iff, ne_eq, ne_eq, List.flatten_eq_nil_iff, not_iff_not]
  constructor
  · intro bare
    rw [List.eq_nil_iff_forall_not_mem]
    exact fun data member => ne_nil_of_mem_chunks sound member (bare data member)
  · intro none
    simp [none]

theorem fileCalls_eq_storing (sound : g.Sound) (writing : config.analyzeOnly = false)
    (partition : Nat) (plan : Plan) :
    fileCalls source config g partition plan = storing source g partition plan := by
  have written : isRecovered source g plan = true ↔
      ¬ (chunks source g plan = [] ∧ ¬ (plan.entry.size = 0 ∧ plan.chain.clusters ≠ [])) := by
    rw [isRecovered, List.flatMap_def, map_snd_pieces sound, Bool.or_eq_true,
      decide_eq_true_iff, length_flatten_pos sound, not_and_or, not_not]
    simp
  rw [fileCalls_eq, isSkipped, writing, Bool.false_or, map_snd_pieces sound, storing]
  cases recovered : isRecovered source g plan with
  | true =>
    rw [if_neg (written.mp recovered)]
    rfl
  | false =>
    have nothing := not_not.mp (mt written.mpr (by simp [recovered]))
    rw [if_pos nothing]
    rfl

/-- With an output that accepts the calls that store a candidate, just these calls are made. The
status counts the chunks and their bytes, and of problematic clusters it adds those that were found
unreadable. -/
theorem recover_chunks [Digests] {ω : Type} [Output ω] {boot : BootSector} {partition : Nat}
    {plan : Plan} {run : Run ω} {told : List (Option String)} {last : ω}
    (accepted : boot.geometry = .ok g) (writing : config.analyzeOnly = false)
    (accepts : Output.Accepts run.output (storing run.source g partition plan) told last) :
    ∃ status after, recover config g partition plan run = (.ok status, after) ∧
      after.output = last ∧ after.calls = run.calls ++ storing run.source g partition plan ∧
      status.recoveredClusters = (chunks run.source g plan).length ∧
      status.recoveredBytes = (chunks run.source g plan).flatten.length ∧
      status.problematic = plan.status.problematic ++ unread run.source g plan := by
  have sound := BootSector.sound_of_geometry accepted
  rw [← fileCalls_eq_storing sound writing] at accepts
  obtain ⟨status, after, recovered, output, called, place, -, rfl⟩ :=
    (performs_recover config g partition plan run).of_accepts accepts
  obtain ⟨path, digest, same⟩ := delivers_statusAt run.source config g place plan
  obtain ⟨clusters, bytes, -⟩ := haulOf_pieces run.source g writing plan
  rw [← map_snd_pieces sound, ← List.flatMap_def, List.length_map]
  rw [fileCalls_eq_storing sound writing] at called
  refine ⟨_, after, recovered, output, called.calls, ?_, ?_, ?_⟩
  · rw [same]
    exact clusters
  · rw [same]
    exact bytes
  · rw [same]
    exact problematic_haulOf sound writing plan

end

/-- A file of four clusters and a fifth that its size does not reach. The second was taken by
another file, and the third lies behind the end of the volume. -/
def patchy : Plan :=
  let entry : Entry :=
    { fileId := 1, ordinal := 1, shortName := [0xE5], extension := [], longName := none
      recoveredInitial := none, attributes := 0x20, startCluster := 3, size := 3 * 512 + 100
      deleted := true, parentCluster := 2, slotCluster := 2, slotIndex := 0, modified := none }
  let chain : Chain := ⟨1, [3, 4, 9, 5, 6], [], 0, false, .endOfChain⟩
  let damage : Damage := ⟨0.0, false, 0, 0, 0, []⟩
  let overwrite : Overwrite := ⟨true, [4], [(4, [2])], 0.25⟩
  ⟨entry, chain, Status.ofAnalysis entry chain damage overwrite 4⟩

def patchySource : Source :=
  Small.source [0, 0, Small.chainEnd, 4, 5, 6, Small.chainEnd] [[], [0x61], [0x62], [0x63], [0x64]]

theorem chunks_patchy :
    chunks patchySource (Small.geometry 5) patchy =
        [Small.sector [0x61], (Small.sector [0x63]).take 100] ∧
      unread patchySource (Small.geometry 5) patchy = [9] := by
  unfold chunks chunkAt unread
  simp only [Source.cluster?, patchySource, Small.source, Source.read_ofImage]
  decide +kernel

theorem recover_chunks_patchy :
    ∃ boot last status after, BootSector.geometry boot = .ok (Small.geometry 5) ∧
      Output.Accepts MemoryOutput.empty (storing patchySource (Small.geometry 5) 0 patchy) [none]
        last ∧
      recover {} (Small.geometry 5) 0 patchy ⟨patchySource, MemoryOutput.empty, []⟩ =
        (.ok status, after) ∧
      after.calls = Output.fileCalls 0 patchy.entry
        [Small.sector [0x61], (Small.sector [0x63]).take 100] ∧
      status.recoveredClusters = 2 ∧ status.recoveredBytes = 512 + 100 ∧
      status.problematic = [4, 9] := by
  obtain ⟨written, unread⟩ := chunks_patchy
  have calls : storing patchySource (Small.geometry 5) 0 patchy = Output.fileCalls 0 patchy.entry
      [Small.sector [0x61], (Small.sector [0x63]).take 100] := by
    rw [storing, written, if_neg (by simp)]
  have accepted : (BootSector.decode (Small.boot 5)).geometry = .ok (Small.geometry 5) := by
    decide +kernel
  have writing : Config.analyzeOnly {} = false := rfl
  let file : Delivery :=
    ⟨0, patchy.entry, [Small.sector [0x61], (Small.sector [0x63]).take 100]⟩
  let run : Run MemoryOutput := ⟨patchySource, MemoryOutput.empty, []⟩
  have free : file.key ∉ run.output.files.map MemoryFile.key := by simp [run, MemoryOutput.empty]
  have accepts : Output.Accepts run.output (storing run.source (Small.geometry 5) 0 patchy) [none]
      ⟨[file.stored], none⟩ := by
    rw [calls]
    exact MemoryOutput.accepts_file free
  obtain ⟨status, after, recovered, -, called, clusters, bytes, problematic⟩ :=
    recover_chunks accepted writing accepts
  refine ⟨_, _, status, after, accepted, accepts, recovered, ?_, ?_, ?_, ?_⟩
  · rw [called, calls]
    rfl
  · rw [clusters, written]
    rfl
  · rw [bytes, written]
    decide +kernel
  · rw [problematic, unread]
    rfl

end Pass

end Undelete
