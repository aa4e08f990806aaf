import Mathlib.Algebra.Ring.Nat
import Undelete.Proofs.Recovery.Gather
import Undelete.Proofs.Volume.Layout

/-!
What a size covers of a chain: its first clusters, as many as the size needs, with shares that add
up to the size if the chain has so many. No more bytes than these are gathered, and all of them
when every covered cluster is clean and can be read. One that cannot be read is problematic
afterwards.
-/

namespace Undelete

namespace Pass

variable {source : Source} {g : Geometry} {size : Nat}

/-- The contents of a valid cluster are what its sectors hold. -/
theorem contentsOf_eq (sound : g.Sound) {cluster : Nat} (valid : g.Valid cluster) :
    contentsOf source g cluster = source.read (g.clusterSector cluster) g.clusterSize := by
  rw [contentsOf, readCluster]
  simp only [if_pos (And.intro valid (sound.inside cluster valid)), Probe.answer_bytesAt]

theorem map_fst_portions (positive : 0 < g.clusterSize) (clusters : List Nat) (offset : Nat) :
    (portions g size clusters offset).map Prod.fst =
      clusters.take (Number.ceilDiv (size - offset) g.clusterSize) := by
  induction clusters generalizing offset with
  | nil => rw [portions, List.take_nil, List.map_nil]
  | cons cluster rest ih =>
    rw [portions_cons positive]
    split
    next past =>
      have none : Number.ceilDiv (size - offset) g.clusterSize ≤ 0 :=
        (Number.ceilDiv_le_iff positive).mpr (by omega)
      rw [Nat.le_zero.mp none, List.take_zero, List.map_nil]
    next more =>
      have filled : 1 ≤ size - offset := by omega
      rw [List.map_cons, ih, Number.ceilDiv_eq_succ filled positive, List.take_succ_cons,
        Nat.sub_add_eq]

theorem sum_portions (clusters : List Nat) (offset : Nat) :
    ((portions g size clusters offset).map Prod.snd).sum =
      min (size - offset) (clusters.length * g.clusterSize) := by
  induction clusters generalizing offset with
  | nil => simp [portions]
  | cons cluster rest ih =>
    rw [portions]
    split
    next past =>
      rcases Nat.min_eq_zero_iff.mp past with through | flat
      · simp [through]
      · simp [flat]
    · rw [List.map_cons, List.sum_cons, ih, List.length_cons, Nat.succ_mul]
      omega

/-- A piece is no longer than its share. -/
theorem length_pieces_le (status : Status) (shares : List (Nat × Nat)) :
    ((shares.filterMap (pieceOf source g status)).flatMap Prod.snd).length ≤
      (shares.map Prod.snd).sum := by
  induction shares with
  | nil => simp
  | cons portion rest ih =>
    rw [List.filterMap_cons, List.map_cons, List.sum_cons]
    split
    · omega
    next piece taken =>
      have short : piece.2.length ≤ portion.2 := by
        unfold pieceOf at taken
        split at taken
        · cases taken
        · split at taken
          · cases taken
            exact List.length_take_le _ _
          · cases taken
      rw [List.flatMap_cons, List.length_append]
      omega

/-- Of clean clusters that can be read there are the whole shares. -/
theorem length_pieces_eq {status : Status} {shares : List (Nat × Nat)}
    (clean : status.problematic = [])
    (readable : ∀ portion ∈ shares, Readable source g portion.1 ∧ portion.2 ≤ g.clusterSize) :
    ((shares.filterMap (pieceOf source g status)).flatMap Prod.snd).length =
      (shares.map Prod.snd).sum := by
  induction shares with
  | nil => rfl
  | cons portion rest ih =>
    obtain ⟨⟨data, answered⟩, share⟩ := readable portion List.mem_cons_self
    have later := ih fun portion member => readable portion (List.mem_cons_of_mem _ member)
    have piece : pieceOf source g status portion = some (portion.1, data.take portion.2) := by
      simp [pieceOf, clean, answered]
    have length := length_contents answered
    rw [List.filterMap_cons, piece, List.flatMap_cons, List.length_append, later, List.map_cons,
      List.sum_cons, List.length_take]
    omega

/-- Nothing is gathered that the size does not cover. -/
theorem bytes_le (source : Source) (g : Geometry) (plan : Plan) :
    ((pieces source g plan).flatMap Prod.snd).length ≤
      min plan.entry.size (plan.chain.clusters.length * g.clusterSize) := by
  have bound : ((pieces source g plan).flatMap Prod.snd).length ≤ _ :=
    length_pieces_le plan.status (portions g plan.entry.size plan.chain.clusters 0)
  rwa [sum_portions, Nat.sub_zero] at bound

/-- A covered cluster that cannot be read has been noted in the end. -/
theorem noted_of_unreadable (haul : Haul) {shares : List (Nat × Nat)} {portion : Nat × Nat}
    (covered : portion ∈ shares) (unreadable : ¬ Readable source g portion.1) :
    portion.1 ∈ (shares.foldl (gatherOne source g false) haul).status.problematic := by
  induction shares generalizing haul with
  | nil => cases covered
  | cons first rest ih =>
    rw [List.foldl_cons]
    rcases List.mem_cons.mp covered with rfl | later
    · have noted : portion.1 ∈ (gatherOne source g false haul portion).status.problematic := by
        unfold gatherOne
        split
        next unclean => exact Status.isProblematic_iff.mp unclean
        rw [if_neg Bool.false_ne_true]
        split
        · exact Status.mem_markProblematic.mpr (.inr rfl)
        next data answered => exact absurd ⟨data, answered⟩ unreadable
      let next := gatherOne source g false haul portion
      have settled : Settled source g (rest.map Prod.fst) next.status
          (rest.foldl (gatherOne source g false) next).status :=
        (Settled.refl _).foldl fun _ => List.mem_map_of_mem
      exact settled.kept _ noted
    · exact ih _ later

end Pass

end Undelete
