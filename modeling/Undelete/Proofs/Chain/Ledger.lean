import Undelete.Chain.Overwrite

/-!
What the ledger tells about a cluster. It keeps the first claim of every claimant, and since a
claimant says the same about itself in all its claims, a cluster counts as overwritten exactly
when some claim on it supersedes.
-/

namespace Undelete

namespace Claim

/-- The claims on one cluster after one more on it. -/
def addFirst (kept : List Claim) (record : Claim) : List Claim :=
  if kept.any (·.fileId = record.fileId) then kept else kept ++ [record]

variable {fileId ordinal size : Nat} {deleted : Bool} {clusters : List Nat}

theorem of_mem_along {record : Claim}
    (member : record ∈ along fileId ordinal deleted size clusters) :
    record.cluster ∈ clusters ∧ record.fileId = fileId ∧ record.ordinal = ordinal ∧
      record.deleted = deleted := by
  obtain ⟨⟨cluster, index⟩, place, rfl⟩ := List.mem_map.mp member
  exact ⟨(List.mem_zipIdx' place).2 ▸ List.getElem_mem _, rfl, rfl, rfl⟩

theorem exists_mem_along {cluster : Nat} (member : cluster ∈ clusters) :
    ∃ record ∈ along fileId ordinal deleted size clusters, record.cluster = cluster := by
  obtain ⟨index, inside, rfl⟩ := List.mem_iff_getElem.mp member
  refine ⟨⟨clusters[index], fileId, ordinal, deleted, index * size⟩, ?_, rfl⟩
  refine List.mem_map.mpr ⟨(clusters[index], index), ?_, rfl⟩
  simp [List.mem_zipIdx_iff_getElem?]

/-- Claims of one claimant agree on its place in the scan and on whether it is deleted. -/
def Consistent (records : List Claim) : Prop :=
  ∀ first ∈ records, ∀ second ∈ records, first.fileId = second.fileId →
    first.ordinal = second.ordinal ∧ first.deleted = second.deleted

theorem mem_of_mem_foldl_addFirst {kept records : List Claim} {record : Claim}
    (member : record ∈ records.foldl addFirst kept) : record ∈ kept ∨ record ∈ records := by
  induction records generalizing kept with
  | nil => exact .inl member
  | cons head rest ih =>
    rcases ih member with held | later
    · unfold addFirst at held
      split at held
      · exact .inl held
      · rcases List.mem_append.mp held with held | new
        · exact .inl held
        · exact .inr (List.mem_cons.mpr (.inl (List.mem_singleton.mp new)))
    · exact .inr (List.mem_cons_of_mem _ later)

theorem mem_foldl_addFirst_of_mem {kept : List Claim} (records : List Claim) {record : Claim}
    (member : record ∈ kept) : record ∈ records.foldl addFirst kept := by
  induction records generalizing kept with
  | nil => exact member
  | cons head rest ih =>
    apply ih
    unfold addFirst
    split
    · exact member
    · exact List.mem_append_left _ member

/-- Every claimant keeps a claim. -/
theorem exists_mem_foldl_addFirst {records : List Claim} (kept : List Claim) {record : Claim}
    (member : record ∈ records) :
    ∃ held ∈ records.foldl addFirst kept, held.fileId = record.fileId := by
  induction records generalizing kept with
  | nil => cases member
  | cons head rest ih =>
    rcases List.mem_cons.mp member with rfl | later
    · by_cases known : kept.any (·.fileId = record.fileId)
      · obtain ⟨held, old, same⟩ := List.any_eq_true.mp known
        exact ⟨held, mem_foldl_addFirst_of_mem _ old, of_decide_eq_true same⟩
      · have new : record ∈ addFirst kept record := by
          rw [addFirst, if_neg known]
          exact List.mem_append_right _ (List.mem_singleton_self record)
        exact ⟨record, mem_foldl_addFirst_of_mem rest new, rfl⟩
    · exact ih _ later

end Claim

namespace Ledger

theorem claimsFor_empty (cluster : Nat) : empty.claimsFor cluster = [] :=
  Std.TreeMap.getD_emptyc

theorem claimsFor_claim (ledger : Ledger) (record : Claim) (cluster : Nat) :
    (ledger.claim record).claimsFor cluster =
      if record.cluster = cluster then Claim.addFirst (ledger.claimsFor cluster) record
      else ledger.claimsFor cluster := by
  by_cases here : record.cluster = cluster
  · subst here
    simp only [claim, Claim.addFirst, if_true]
    split
    · rfl
    · simp [claimsFor]
  · simp only [claim, if_neg here]
    split
    · rfl
    · simp [claimsFor, Std.TreeMap.getD_insert, here]

theorem claimsFor_claimAll (ledger : Ledger) (records : List Claim) (cluster : Nat) :
    (ledger.claimAll records).claimsFor cluster =
      (records.filter (·.cluster = cluster)).foldl Claim.addFirst (ledger.claimsFor cluster) := by
  induction records generalizing ledger with
  | nil => rfl
  | cons head rest ih =>
    have step : ledger.claimAll (head :: rest) = (ledger.claim head).claimAll rest := rfl
    rw [step, ih, claimsFor_claim]
    by_cases here : head.cluster = cluster
    · simp [here]
    · simp [here]

theorem claimAll_append (ledger : Ledger) (first second : List Claim) :
    (ledger.claimAll first).claimAll second = ledger.claimAll (first ++ second) :=
  (List.foldl_append ..).symm

theorem of_mem_claimsFor {records : List Claim} {cluster : Nat} {held : Claim}
    (kept : held ∈ (empty.claimAll records).claimsFor cluster) :
    held ∈ records ∧ held.cluster = cluster := by
  rw [claimsFor_claimAll, claimsFor_empty] at kept
  rcases Claim.mem_of_mem_foldl_addFirst kept with old | new
  · cases old
  · obtain ⟨member, here⟩ := List.mem_filter.mp new
    exact ⟨member, of_decide_eq_true here⟩

/-- A claimant stands on a cluster's list exactly when it has claimed the cluster. -/
theorem exists_mem_claimsFor_iff {records : List Claim} {cluster fileId : Nat} :
    (∃ held ∈ (empty.claimAll records).claimsFor cluster, held.fileId = fileId) ↔
      ∃ record ∈ records, record.cluster = cluster ∧ record.fileId = fileId := by
  constructor
  · rintro ⟨held, kept, same⟩
    obtain ⟨member, here⟩ := of_mem_claimsFor kept
    exact ⟨held, member, here, same⟩
  · rintro ⟨record, member, here, rfl⟩
    rw [claimsFor_claimAll, claimsFor_empty]
    exact Claim.exists_mem_foldl_addFirst []
      (List.mem_filter (p := (·.cluster = cluster)).mpr ⟨member, decide_eq_true here⟩)

/-- A file's cluster was taken by those who made a claim on it that supersedes. -/
theorem mem_takersOf {records : List Claim} (consistent : Claim.Consistent records)
    {fileId ordinal cluster taker : Nat} :
    taker ∈ (empty.claimAll records).takersOf fileId ordinal cluster ↔
      ∃ record ∈ records, record.cluster = cluster ∧ record.fileId = taker ∧
        record.supersedes fileId ordinal = true := by
  simp only [takersOf, List.mem_map, List.mem_filter]
  constructor
  · rintro ⟨held, ⟨kept, supersedes⟩, same⟩
    obtain ⟨member, here⟩ := of_mem_claimsFor kept
    exact ⟨held, member, here, same, supersedes⟩
  · rintro ⟨record, member, here, same, supersedes⟩
    obtain ⟨held, kept, whose⟩ := exists_mem_claimsFor_iff.mpr ⟨record, member, here, rfl⟩
    -- The claim on the list may be another one, but it tells the same about the claimant.
    obtain ⟨ordinals, deleted⟩ :=
      consistent held (of_mem_claimsFor kept).1 record member whose
    refine ⟨held, ⟨kept, ?_⟩, whose.trans same⟩
    simpa only [Claim.supersedes, whose, ordinals, deleted] using supersedes

/-- Somebody took a cluster exactly when some claim on it supersedes. -/
theorem takersOf_ne_nil_iff {records : List Claim} (consistent : Claim.Consistent records)
    (fileId ordinal cluster : Nat) :
    (empty.claimAll records).takersOf fileId ordinal cluster ≠ [] ↔
      ∃ record ∈ records, record.cluster = cluster ∧ record.supersedes fileId ordinal = true := by
  constructor
  · intro taken
    obtain ⟨taker, member⟩ := List.exists_mem_of_ne_nil _ taken
    obtain ⟨record, known, here, -, supersedes⟩ := (mem_takersOf consistent).mp member
    exact ⟨record, known, here, supersedes⟩
  · rintro ⟨record, member, here, supersedes⟩
    exact List.ne_nil_of_mem ((mem_takersOf consistent).mpr ⟨record, member, here, rfl, supersedes⟩)

theorem mem_lost {ledger : Ledger} {fileId ordinal cluster : Nat} {clusters : List Nat} :
    cluster ∈ ledger.lost fileId ordinal clusters ↔
      cluster ∈ clusters ∧ ledger.takersOf fileId ordinal cluster ≠ [] := by
  simp [lost]

theorem isOverwritten_iff {ledger : Ledger} {chain : Chain} {ordinal expected cluster : Nat} :
    (ledger.overwrite chain ordinal expected).isOverwritten cluster = true ↔
      cluster ∈ chain.clusters ∧ ledger.takersOf chain.fileId ordinal cluster ≠ [] := by
  rw [← mem_lost]
  simp [Overwrite.isOverwritten, overwrite]

end Ledger

end Undelete
