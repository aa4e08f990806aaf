import Undelete.Proofs.Recovery.Memory
import Undelete.Proofs.Volume.Small

/-!
No cluster is recovered twice, and none that is known to be in use is recovered at all. A cluster
on two candidates' chains is problematic for the one found earlier, whose output therefore does
without it, and so is every cluster of the root directory or of a live entry.
-/

namespace Undelete

namespace Pass

variable {config : Config} {g : Geometry} {source : Source} {found : Survey}

theorem of_mem_pieces {plan : Plan} {piece : Nat × Bytes} (member : piece ∈ pieces source g plan) :
    piece.1 ∈ plan.chain.clusters ∧ piece.1 ∉ plan.status.problematic ∧
      ∃ data, contentsOf source g piece.1 = .ok data ∧ piece.2 <+: data := by
  obtain ⟨portion, covered, found⟩ := List.mem_filterMap.mp member
  unfold pieceOf at found
  split at found
  · cases found
  next clean =>
    rw [Status.isProblematic_iff] at clean
    split at found
    next data answered =>
      cases found
      exact ⟨(mem_of_mem_portions covered).1, clean, data, answered, List.take_prefix _ _⟩
    · cases found

theorem pieces_sublist (plan : Plan) :
    ((pieces source g plan).map Prod.fst).Sublist plan.chain.clusters := by
  have kept (shares : List (Nat × Nat)) :
      ((shares.filterMap (pieceOf source g plan.status)).map Prod.fst).Sublist
        (shares.map Prod.fst) := by
    induction shares with
    | nil => exact .slnil
    | cons portion rest ih =>
      rw [List.filterMap_cons, List.map_cons]
      split
      · exact ih.cons _
      next piece taken =>
        have same : piece.1 = portion.1 := by
          unfold pieceOf at taken
          split at taken
          · cases taken
          · split at taken
            · cases taken
              rfl
            · cases taken
        rw [List.map_cons, same]
        exact ih.cons_cons _
  exact (kept _).trans (portions_sublist _ _)

/-- No piece comes from a cluster that somebody took from the candidate. -/
theorem not_taken_of_mem_pieces (surveyed : survey config g source = .ok found)
    (few : found.scan.entries.length < UInt32.size) {plan : Plan} (planned : plan ∈ plans config g found)
    {piece : Nat × Bytes} (member : piece ∈ pieces source g plan) :
    ¬ TakenFrom config g source found plan.entry.ordinal piece.1 := by
  obtain ⟨entry, known, -, rfl⟩ := (mem_plans surveyed).mp planned
  obtain ⟨place, clean, -⟩ := of_mem_pieces member
  exact fun taken => clean (problematic_of_taken surveyed few known place taken)

theorem nodup_clusters_of_plans (surveyed : survey config g source = .ok found)
    (few : found.scan.entries.length < UInt32.size) :
    ((plans config g found).flatMap fun plan => (pieces source g plan).map Prod.fst).Nodup := by
  rw [List.nodup_flatMap]
  constructor
  · intro plan planned
    obtain ⟨entry, -, -, rfl⟩ := (mem_plans surveyed).mp planned
    exact (pieces_sublist _).nodup (nodup_chainOf entry)
  · refine (plans_ascending surveyed).imp_of_mem ?_
    intro earlier later planned planned' less cluster member member'
    obtain ⟨piece, taken, rfl⟩ := List.mem_map.mp member
    obtain ⟨piece', taken', same⟩ := List.mem_map.mp member'
    obtain ⟨other, known, -, rfl⟩ := (mem_plans surveyed).mp planned'
    refine not_taken_of_mem_pieces surveyed few planned taken (.inr ⟨other, known, ?_, ?_, ?_⟩)
    · exact (Nat.ne_of_lt less).symm
    · exact .inr less
    · rw [← same]
      exact (of_mem_pieces taken').1

/-- The calls of a pass on its output store pieces of clusters. No two pieces are of one cluster,
and none is of a cluster of the root directory or of a live entry. -/
theorem run_exclusive [Digests] {ω : Type} [Output ω] {partition : Nat} {before after : Run ω}
    {result : PassResult} (ok : run config partition g before = (.ok result, after))
    (few : result.entries < UInt32.size) :
    ∃ found, survey config g before.source = .ok found ∧
      after.calls = before.calls ++
        (plans config g found).flatMap (fileCalls before.source config g partition) ∧
      ((plans config g found).flatMap fun plan =>
        (pieces before.source g plan).map Prod.fst).Nodup ∧
      ∀ plan ∈ plans config g found, ∀ piece ∈ pieces before.source g plan,
        (∃ data, contentsOf before.source g piece.1 = .ok data ∧ piece.2 <+: data) ∧
        piece.1 ∉ found.root ∧
        ∀ live ∈ found.scan.entries, live.deleted = false →
          piece.1 ∉ (chainOf config g before.source live).clusters := by
  obtain ⟨found, surveyed, count, -, called⟩ := run_ok ok
  rw [count] at few
  refine ⟨found, surveyed, called, nodup_clusters_of_plans surveyed few, ?_⟩
  intro plan planned piece member
  have free := not_taken_of_mem_pieces surveyed few planned member
  refine ⟨(of_mem_pieces member).2.2, fun root => free (.inl root), ?_⟩
  intro live known alive place
  obtain ⟨entry, known', selected, rfl⟩ := (mem_plans surveyed).mp planned
  exact free (takenFrom_of_live surveyed known' selected known alive place)

/-- A live file in cluster 3 and two deleted files, of which the second starts in the second
cluster of the first. -/
def overlapping : Source :=
  Small.source [0, 0, Small.chainEnd, Small.chainEnd]
    [Small.slot 0x41 0x20 3 100 ++ Small.slot 0xE5 0x20 4 600 ++ Small.slot 0xE5 0x20 5 100,
      [1], [2], [3], [], []]

theorem run_exclusive_overlapping :
    ∃ result after, run {} 0 (Small.geometry 6) ⟨overlapping, MemoryOutput.empty, []⟩ =
        (.ok result, after) ∧ result.entries = 3 ∧
      ∃ found, survey {} (Small.geometry 6) overlapping = .ok found ∧
        after.calls = (plans {} (Small.geometry 6) found).flatMap
          (fileCalls overlapping {} (Small.geometry 6) 0) ∧
        ((plans {} (Small.geometry 6) found).flatMap fun plan =>
          (pieces overlapping (Small.geometry 6) plan).map Prod.fst).Nodup := by
  obtain ⟨found, surveyed, count⟩ : ∃ found, survey {} (Small.geometry 6) overlapping =
      .ok found ∧ found.scan.entries.length = 3 := by
    apply exists_ok
    simp only [survey, chainOf, overlapping, Small.source, Probe.answer_ofImage]
    decide +kernel
  obtain ⟨result, after, ok, -⟩ := run_memory surveyed (by rw [count]; decide) 0 []
  have entries : result.entries = 3 := by
    obtain ⟨found', surveyed', count', -⟩ := run_ok ok
    rw [surveyed] at surveyed'
    cases surveyed'
    exact count'.trans count
  obtain ⟨found', surveyed', called, distinct, -⟩ := run_exclusive ok (by rw [entries]; decide)
  exact ⟨result, after, ok, entries, found', surveyed', called, distinct⟩

end Pass

end Undelete
