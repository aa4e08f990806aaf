import Mathlib.Data.List.Nodup
import Undelete.Proofs.Chain.Ledger

/-!
The overwrite of one chain. A chain claims each of its clusters once, and of distinct claimants
the ledger keeps every claim on a cluster, in the order in which they were made. The overwrite
then lists the lost clusters in the order of the chain, and counts those among its first ones.
-/

namespace Undelete

theorem eraseDups_of_nodup {items : List Nat} (nodup : items.Nodup) : items.eraseDups = items := by
  induction items with
  | nil => rfl
  | cons head rest ih =>
    obtain ⟨fresh, nodup⟩ := List.nodup_cons.mp nodup
    have others : rest.filter (fun other => !other == head) = rest := by
      rw [List.filter_eq_self]
      intro other member
      have different : other ≠ head := fun same => fresh (same ▸ member)
      simpa using different
    rw [List.eraseDups_cons, others, ih nodup]

namespace Claim

variable {fileId ordinal size : Nat} {deleted : Bool} {clusters : List Nat}

/-- Claims of distinct claimants are all kept. -/
theorem foldl_addFirst_of_distinct {kept records : List Claim}
    (distinct : (kept ++ records).Pairwise fun first second => first.fileId ≠ second.fileId) :
    records.foldl addFirst kept = kept ++ records := by
  induction records generalizing kept with
  | nil => exact (List.append_nil kept).symm
  | cons record rest ih =>
    have new : ¬ kept.any (·.fileId = record.fileId) = true := by
      intro known
      obtain ⟨held, old, same⟩ := List.any_eq_true.mp known
      exact (List.pairwise_append.mp distinct).2.2 held old record List.mem_cons_self
        (of_decide_eq_true same)
    have regrouped : kept ++ record :: rest = kept ++ [record] ++ rest := by
      rw [List.append_assoc]
      rfl
    rw [regrouped] at distinct ⊢
    rw [List.foldl_cons, addFirst, if_neg new]
    exact ih distinct

/-- Along a chain without repetitions there is one claim on each cluster. -/
theorem filter_along (fileId ordinal : Nat) (deleted : Bool) (size : Nat)
    (nodup : clusters.Nodup) (cluster : Nat) :
    ∃ offset, (along fileId ordinal deleted size clusters).filter (·.cluster = cluster) =
      if cluster ∈ clusters then [⟨cluster, fileId, ordinal, deleted, offset⟩] else [] := by
  suffices placed : ∀ start, ∃ offset, ((clusters.zipIdx start).map fun pair =>
      (⟨pair.1, fileId, ordinal, deleted, pair.2 * size⟩ : Claim)).filter (·.cluster = cluster) =
        if cluster ∈ clusters then [⟨cluster, fileId, ordinal, deleted, offset⟩] else [] from
    placed 0
  induction clusters with
  | nil => exact fun _ => ⟨0, rfl⟩
  | cons head rest ih =>
    intro start
    obtain ⟨fresh, nodup⟩ := List.nodup_cons.mp nodup
    obtain ⟨offset, later⟩ := ih nodup (start + 1)
    rw [List.zipIdx_cons, List.map_cons]
    by_cases here : head = cluster
    · subst here
      rw [if_neg fresh] at later
      refine ⟨start * size, ?_⟩
      rw [List.filter_cons_of_pos (by exact decide_eq_true rfl), later,
        if_pos List.mem_cons_self]
    · refine ⟨offset, ?_⟩
      rw [List.filter_cons_of_neg (by simpa using here), later]
      simp [Ne.symm here]

/-- Who takes a cluster along a chain, if its claimant takes any. -/
theorem takers_along (nodup : clusters.Nodup) (cluster owner place : Nat) :
    (((along fileId ordinal deleted size clusters).filter (·.cluster = cluster)).filter
        (·.supersedes owner place)).map Claim.fileId =
      if fileId ≠ owner ∧ (deleted = false ∨ place < ordinal) ∧ cluster ∈ clusters
      then [fileId] else [] := by
  obtain ⟨offset, claims⟩ := filter_along fileId ordinal deleted size nodup cluster
  rw [claims]
  by_cases here : cluster ∈ clusters
  · by_cases before : fileId ≠ owner ∧ (deleted = false ∨ place < ordinal)
    · simp [here, before, supersedes]
    · have keeps : ¬ (fileId ≠ owner ∧ (deleted = false ∨ place < ordinal) ∧ True) := by
        simpa using before
      simp only [here, if_true, if_neg keeps, List.map_eq_nil_iff, List.filter_eq_nil_iff,
        List.mem_singleton, forall_eq]
      simpa [supersedes] using before
  · simp [here]

end Claim

namespace Ledger

variable {ledger : Ledger} {chain : Chain} {fileId ordinal expected : Nat} {clusters : List Nat}

theorem lost_of_nodup (nodup : clusters.Nodup) :
    ledger.lost fileId ordinal clusters =
      clusters.filter fun cluster => ledger.takersOf fileId ordinal cluster ≠ [] :=
  eraseDups_of_nodup (nodup.filter _)

theorem mem_takers {pair : Nat × List Nat}
    (member : pair ∈ (ledger.overwrite chain ordinal expected).takers) :
    pair.2 = ledger.takersOf chain.fileId ordinal pair.1 := by
  obtain ⟨cluster, -, rfl⟩ := List.mem_map.mp member
  rfl

/-- The keys are the lost clusters in ascending order. -/
theorem keys_overwrite (ledger : Ledger) (chain : Chain) (ordinal expected : Nat) :
    (ledger.overwrite chain ordinal expected).takers.map Prod.fst =
      (ledger.overwrite chain ordinal expected).clusters.mergeSort := by
  simp only [overwrite, List.map_map]
  exact List.map_id _

theorem ascending_keys (nodup : chain.clusters.Nodup) :
    ((ledger.overwrite chain ordinal expected).takers.map Prod.fst).Pairwise (· < ·) := by
  rw [keys_overwrite]
  have sorted : (ledger.overwrite chain ordinal expected).clusters.mergeSort.Pairwise
      fun first second => decide (first ≤ second) = true := by
    apply List.pairwise_mergeSort
    · intro first second third early late
      simp only [decide_eq_true_eq] at early late ⊢
      exact Nat.le_trans early late
    · intro first second
      simpa using Nat.le_total first second
  have distinct : (ledger.overwrite chain ordinal expected).clusters.mergeSort.Nodup := by
    refine (List.mergeSort_perm _ _).nodup_iff.mpr ?_
    change (ledger.lost chain.fileId ordinal chain.clusters).Nodup
    rw [lost_of_nodup nodup]
    exact nodup.filter _
  refine (sorted.and distinct).imp ?_
  intro first second both
  exact Nat.lt_of_le_of_ne (of_decide_eq_true both.1) both.2

/-- The clusters that count are the lost ones among the first places. -/
theorem lostCount_eq (nodup : chain.clusters.Nodup) (places : Nat) :
    ledger.lostCount chain ordinal places = (chain.clusters.take places).countP
      (· ∈ (ledger.overwrite chain ordinal expected).clusters) := by
  rw [lostCount, lost_of_nodup (nodup.sublist (List.take_sublist _ _)),
    ← List.countP_eq_length_filter]
  apply List.countP_congr
  intro cluster member
  have place : cluster ∈ chain.clusters := List.mem_of_mem_take member
  have lost : cluster ∈ (ledger.overwrite chain ordinal expected).clusters ↔
      cluster ∈ chain.clusters ∧ ledger.takersOf chain.fileId ordinal cluster ≠ [] := mem_lost
  simp [lost, place]

end Ledger

end Undelete
