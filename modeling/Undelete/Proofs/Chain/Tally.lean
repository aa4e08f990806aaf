import Mathlib.Data.Finset.Card
import Mathlib.Data.List.Nodup
import Mathlib.Data.List.Sort
import Undelete.Proofs.Chain.Ledger

/-!
The ledger as a set of claims. On each cluster it keeps the first claim of every claimant, and its
counts are those of the claimants and of the clusters that somebody claims. In what order the
claims are made decides only in what order the claimants of a cluster are listed.
-/

namespace Undelete

namespace Claim

/-- The claims on a cluster that no claim of the same claimant precedes, in their order. -/
def firsts (records : List Claim) (cluster : Nat) : List Claim :=
  (records.zipIdx.filter fun (record, place) => record.cluster = cluster ∧
    ∀ earlier ∈ records.take place,
      earlier.cluster = cluster → earlier.fileId ≠ record.fileId).map Prod.fst

/-- Who claims what, in whatever order. -/
def pairs (records : List Claim) : Finset (Nat × Nat) :=
  (records.map fun record => (record.cluster, record.fileId)).toFinset

def claimants (records : List Claim) (cluster : Nat) : Finset Nat :=
  ((records.filter (·.cluster = cluster)).map Claim.fileId).toFinset

variable {records shuffled : List Claim} {record : Claim} {cluster fileId : Nat}

theorem mem_claimants :
    fileId ∈ claimants records cluster ↔
      ∃ record ∈ records, record.cluster = cluster ∧ record.fileId = fileId := by
  simp [claimants, and_assoc]

theorem mem_pairs :
    (cluster, fileId) ∈ pairs records ↔
      ∃ record ∈ records, record.cluster = cluster ∧ record.fileId = fileId := by
  simp [pairs]

theorem pairs_concat (records : List Claim) (record : Claim) :
    pairs (records ++ [record]) = insert (record.cluster, record.fileId) (pairs records) := by
  ext pair
  simp [pairs]

/-- One more claim is a first one if its claimant has not claimed the cluster before. -/
theorem firsts_concat (records : List Claim) (record : Claim) (cluster : Nat) :
    firsts (records ++ [record]) cluster =
      if record.cluster = cluster ∧ record.fileId ∉ claimants records cluster
      then firsts records cluster ++ [record] else firsts records cluster := by
  have before : ((records.zipIdx).filter fun (other, place) => other.cluster = cluster ∧
      ∀ earlier ∈ (records ++ [record]).take place,
        earlier.cluster = cluster → earlier.fileId ≠ other.fileId) =
      records.zipIdx.filter fun (other, place) => other.cluster = cluster ∧
        ∀ earlier ∈ records.take place,
          earlier.cluster = cluster → earlier.fileId ≠ other.fileId := by
    apply List.filter_congr
    rintro ⟨other, place⟩ member
    have inside : place < 0 + records.length := List.snd_lt_add_of_mem_zipIdx member
    have short : place ≤ records.length := by omega
    simp only [List.take_append_of_le_length short]
  have new : (∀ earlier ∈ records, earlier.cluster = cluster →
      earlier.fileId ≠ record.fileId) ↔ record.fileId ∉ claimants records cluster := by
    simp [mem_claimants]
  rw [firsts, List.zipIdx_append, List.filter_append, before, List.map_append, ← firsts]
  by_cases here : record.cluster = cluster ∧ record.fileId ∉ claimants records cluster
  · simp [here, new]
  · simp [here, new]

/-- No claimant is listed twice. -/
theorem nodup_foldl_addFirst {kept : List Claim} (distinct : (kept.map Claim.fileId).Nodup)
    (records : List Claim) : ((records.foldl addFirst kept).map Claim.fileId).Nodup := by
  induction records generalizing kept with
  | nil => exact distinct
  | cons record rest ih =>
    apply ih
    unfold addFirst
    split
    · exact distinct
    next new =>
      have absent : record.fileId ∉ kept.map Claim.fileId := by
        intro member
        obtain ⟨held, old, same⟩ := List.mem_map.mp member
        exact new (List.any_eq_true.mpr ⟨held, old, decide_eq_true same⟩)
      rw [List.map_append, List.map_singleton]
      rw [List.nodup_append_comm]
      exact List.nodup_cons.mpr ⟨absent, distinct⟩

end Claim

namespace Ledger

variable {ledger : Ledger} {records shuffled : List Claim} {cluster : Nat}

/-- What a ledger holds after the given claims. -/
structure Keeps (ledger : Ledger) (records : List Claim) : Prop where
  listed : ∀ cluster, ledger.claimsFor cluster = Claim.firsts records cluster
  filled : ∀ (cluster : Nat) (kept : List Claim), ledger.claims[cluster]? = some kept → kept ≠ []
  total : ledger.totalClaims = (Claim.pairs records).card

theorem keeps_empty : empty.Keeps [] where
  listed := claimsFor_empty
  filled := by
    intro cluster kept stored
    simp [empty] at stored
  total := rfl

/-- One more claim is kept if its claimant is new to the cluster, and then it is counted. -/
theorem Keeps.claim (keeps : ledger.Keeps records) (record : Claim)
    (known : (∃ held ∈ ledger.claimsFor record.cluster, held.fileId = record.fileId) ↔
      record.fileId ∈ Claim.claimants records record.cluster) :
    (ledger.claim record).Keeps (records ++ [record]) := by
  have standing : (ledger.claimsFor record.cluster).any (·.fileId = record.fileId) = true ↔
      record.fileId ∈ Claim.claimants records record.cluster := by
    simpa using known
  constructor
  · intro cluster
    rw [claimsFor_claim, Claim.firsts_concat, keeps.listed]
    by_cases here : record.cluster = cluster
    · subst here
      rw [keeps.listed] at standing
      simp only [true_and, if_true, Claim.addFirst, standing]
      by_cases old : record.fileId ∈ Claim.claimants records record.cluster <;> simp [old]
    · simp [here]
  · intro cluster kept stored
    unfold Ledger.claim at stored
    dsimp only at stored
    split at stored
    · exact keeps.filled cluster kept stored
    next new =>
      rw [Std.TreeMap.getElem?_insert] at stored
      split at stored
      · cases stored
        simp
      · exact keeps.filled cluster kept stored
  · have pair : (record.cluster, record.fileId) ∈ Claim.pairs records ↔
        record.fileId ∈ Claim.claimants records record.cluster :=
      Claim.mem_pairs.trans Claim.mem_claimants.symm
    rw [Claim.pairs_concat]
    unfold Ledger.claim
    dsimp only
    split
    next old => rw [Finset.insert_eq_of_mem (pair.mpr (standing.mp old)), keeps.total]
    next new =>
      rw [Finset.card_insert_of_notMem fun old => new (standing.mpr (pair.mp old)), keeps.total]

/-- A ledger holds what has been claimed since it was new. -/
theorem keeps_claimAll (records : List Claim) : (empty.claimAll records).Keeps records := by
  induction records using List.reverseRecOn with
  | nil => exact keeps_empty
  | append_singleton records record ih =>
    have step : empty.claimAll (records ++ [record]) = (empty.claimAll records).claim record :=
      List.foldl_concat ..
    rw [step]
    exact ih.claim record (exists_mem_claimsFor_iff.trans Claim.mem_claimants.symm)

theorem nodup_fileIds (records : List Claim) (cluster : Nat) :
    (((empty.claimAll records).claimsFor cluster).map Claim.fileId).Nodup := by
  rw [claimsFor_claimAll, claimsFor_empty]
  have none : (([] : List Claim).map Claim.fileId).Nodup := List.nodup_nil
  exact Claim.nodup_foldl_addFirst none _

/-- A cluster's list is as long as there are claimants. -/
theorem length_claimsFor (records : List Claim) (cluster : Nat) :
    ((empty.claimAll records).claimsFor cluster).length =
      (Claim.claimants records cluster).card := by
  have members : (((empty.claimAll records).claimsFor cluster).map Claim.fileId).toFinset =
      Claim.claimants records cluster := by
    ext fileId
    rw [List.mem_toFinset, List.mem_map, exists_mem_claimsFor_iff, Claim.mem_claimants]
  rw [← members, List.toFinset_card_of_nodup (nodup_fileIds records cluster), List.length_map]

theorem mem_claims_iff {records : List Claim} {cluster : Nat} :
    cluster ∈ (empty.claimAll records).claims ↔ cluster ∈ records.map Claim.cluster := by
  have keeps := keeps_claimAll records
  have listed : cluster ∈ (empty.claimAll records).claims ↔
      (empty.claimAll records).claimsFor cluster ≠ [] := by
    rw [Std.TreeMap.mem_iff_isSome_getElem?, claimsFor, Std.TreeMap.getD_eq_getD_getElem?]
    cases stored : (empty.claimAll records).claims[cluster]? with
    | none => simp
    | some kept => simpa using keeps.filled cluster kept stored
  rw [listed, ← List.length_pos_iff, length_claimsFor, Finset.card_pos, List.mem_map]
  constructor
  · rintro ⟨fileId, member⟩
    obtain ⟨record, known, here, -⟩ := Claim.mem_claimants.mp member
    exact ⟨record, known, here⟩
  · rintro ⟨record, known, here⟩
    exact ⟨record.fileId, Claim.mem_claimants.mpr ⟨record, known, here, rfl⟩⟩

theorem clusterCount_eq (records : List Claim) :
    (empty.claimAll records).clusterCount = (records.map Claim.cluster).toFinset.card := by
  have members : (empty.claimAll records).claims.keys.toFinset =
      (records.map Claim.cluster).toFinset := by
    ext cluster
    rw [List.mem_toFinset, List.mem_toFinset, Std.TreeMap.mem_keys, mem_claims_iff]
  rw [← members, List.toFinset_card_of_nodup Std.TreeMap.nodup_keys, Std.TreeMap.length_keys,
    clusterCount]

theorem ascending_contended (ledger : Ledger) : ledger.contended.Pairwise (· < ·) := by
  rw [contended, List.pairwise_map]
  apply List.Pairwise.filter
  exact Std.TreeMap.ordered_keys_toList.imp fun less => Nat.compare_eq_lt.mp less

theorem mem_contended_iff {records : List Claim} {cluster : Nat} :
    cluster ∈ (empty.claimAll records).contended ↔ 2 ≤ (Claim.claimants records cluster).card := by
  rw [← length_claimsFor, claimsFor, Std.TreeMap.getD_eq_getD_getElem?]
  simp only [contended, List.mem_map, List.mem_filter, Prod.exists,
    Std.TreeMap.mem_toList_iff_getElem?_eq_some]
  cases stored : (empty.claimAll records).claims[cluster]? with
  | none => simp [stored]
  | some kept => simp [stored, Nat.lt_iff_add_one_le]

/-- What a ledger tells about the claims that were made on it. -/
structure Tells (ledger : Ledger) (records : List Claim) : Prop extends Keeps ledger records where
  clusters : ledger.clusterCount = (records.map Claim.cluster).toFinset.card
  ascending : ledger.contended.Pairwise (· < ·)
  contended : ∀ cluster, cluster ∈ ledger.contended ↔ 2 ≤ (Claim.claimants records cluster).card

theorem tells_claimAll (records : List Claim) : (empty.claimAll records).Tells records where
  toKeeps := keeps_claimAll records
  clusters := clusterCount_eq records
  ascending := ascending_contended _
  contended := fun _ => mem_contended_iff

/-- Ledgers that can be told apart only by the order of the claims on a cluster. -/
structure Agrees (ledger other : Ledger) : Prop where
  total : ledger.totalClaims = other.totalClaims
  clusters : ledger.clusterCount = other.clusterCount
  contended : ledger.contended = other.contended
  lost : ∀ chain ordinal expected,
    (ledger.overwrite chain ordinal expected).clusters =
      (other.overwrite chain ordinal expected).clusters
  takers : ∀ chain ordinal expected, List.Forall₂ (fun own theirs => own.1 = theirs.1 ∧
      own.2.Perm theirs.2) (ledger.overwrite chain ordinal expected).takers
    (other.overwrite chain ordinal expected).takers

variable {fileId ordinal : Nat}

/-- Each taker of a cluster is named once. -/
theorem nodup_takersOf (records : List Claim) (fileId ordinal cluster : Nat) :
    ((empty.claimAll records).takersOf fileId ordinal cluster).Nodup :=
  (nodup_fileIds records cluster).sublist (List.filter_sublist.map _)

theorem takersOf_perm (same : records.Perm shuffled) (consistent : Claim.Consistent records)
    (fileId ordinal cluster : Nat) :
    ((empty.claimAll shuffled).takersOf fileId ordinal cluster).Perm
      ((empty.claimAll records).takersOf fileId ordinal cluster) := by
  have consistent' : Claim.Consistent shuffled := by
    intro first member second member'
    exact consistent first (same.mem_iff.mpr member) second (same.mem_iff.mpr member')
  apply (List.perm_ext_iff_of_nodup (nodup_takersOf ..) (nodup_takersOf ..)).mpr
  intro taker
  rw [mem_takersOf consistent', mem_takersOf consistent]
  simp only [same.mem_iff]

theorem lost_congr {other : Ledger} (takers : ∀ cluster,
      (ledger.takersOf fileId ordinal cluster).Perm (other.takersOf fileId ordinal cluster))
    (clusters : List Nat) :
    ledger.lost fileId ordinal clusters = other.lost fileId ordinal clusters := by
  have taken (cluster : Nat) : ledger.takersOf fileId ordinal cluster = [] ↔
      other.takersOf fileId ordinal cluster = [] := by
    rw [← List.length_eq_zero_iff, (takers cluster).length_eq, List.length_eq_zero_iff]
  simp only [lost, ne_eq, taken]

theorem agrees_of_perm (same : records.Perm shuffled) (consistent : Claim.Consistent records) :
    (empty.claimAll shuffled).Agrees (empty.claimAll records) := by
  have told := tells_claimAll records
  have told' := tells_claimAll shuffled
  have claimants (cluster : Nat) :
      Claim.claimants shuffled cluster = Claim.claimants records cluster := by
    ext fileId
    simp only [Claim.mem_claimants, same.mem_iff]
  have lost (chain : Chain) (ordinal : Nat) :=
    lost_congr (takersOf_perm same consistent chain.fileId ordinal) chain.clusters
  constructor
  · have pairs : Claim.pairs shuffled = Claim.pairs records :=
      List.toFinset_eq_of_perm _ _ (same.symm.map _)
    rw [told.total, told'.total, pairs]
  · rw [told.clusters, told'.clusters, List.toFinset_eq_of_perm _ _ (same.symm.map Claim.cluster)]
  · apply told'.ascending.sortedLT.eq_of_mem_iff told.ascending.sortedLT
    intro cluster
    rw [told'.contended, told.contended, claimants]
  · intro chain ordinal expected
    exact lost chain ordinal
  · intro chain ordinal expected
    simp only [overwrite, lost, List.forall₂_map_left_iff, List.forall₂_map_right_iff]
    apply List.forall₂_same.mpr
    intro cluster _
    exact ⟨rfl, takersOf_perm same consistent chain.fileId ordinal cluster⟩

/-- Whatever is claimed on a new ledger, it tells each claimant of a cluster once, in the order of
the first claims, and counts right. If every claimant says the same about itself in all its claims,
their order changes no count and no verdict about a chain. -/
theorem claimAll_insensitive (records : List Claim) :
    (empty.claimAll records).Tells records ∧
      ∀ shuffled, records.Perm shuffled → Claim.Consistent records →
        (empty.claimAll shuffled).Agrees (empty.claimAll records) :=
  ⟨tells_claimAll records, fun _ same consistent => agrees_of_perm same consistent⟩

/-- Three files and the root directory claim clusters, one of them a cluster twice. -/
def crossed : List Claim :=
  [⟨2, 0, 0, false, 0⟩, ⟨10, 3, 3, true, 0⟩, ⟨11, 3, 3, true, 512⟩, ⟨10, 1, 1, true, 0⟩,
    ⟨11, 2, 2, false, 0⟩, ⟨10, 3, 3, true, 1024⟩]

theorem claimAll_insensitive_crossed :
    Claim.Consistent crossed ∧ crossed.Perm crossed.reverse ∧
      (empty.claimAll crossed).totalClaims = 5 ∧
      (empty.claimAll crossed.reverse).claimsFor 10 ≠ (empty.claimAll crossed).claimsFor 10 ∧
      (empty.claimAll crossed).Tells crossed ∧
      (empty.claimAll crossed.reverse).Agrees (empty.claimAll crossed) := by
  have consistent : Claim.Consistent crossed := by
    unfold Claim.Consistent
    decide
  have same : crossed.Perm crossed.reverse := crossed.reverse_perm.symm
  obtain ⟨tells, insensitive⟩ := claimAll_insensitive crossed
  exact ⟨consistent, same, by decide, by decide, tells,
    insensitive crossed.reverse same consistent⟩

end Ledger

end Undelete
