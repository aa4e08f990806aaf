import Undelete.Chain.Score
import Undelete.Proofs.Chain.Walk

/-!
When a chain shows no damage. Suspect are the destinations of jumps and the clusters that came up
again, and all of these belong to the chain, so that a chain is free of suspects exactly when it
goes forward in small steps and does not come back.
-/

namespace Undelete

namespace Walker

variable {walker : Walker} {g : Geometry} {source : Source} {fileId start expected limit : Nat}

theorem Walked.repeated_subset {fat : Nat → Except Failure FatEntry} {chain : Chain}
    (walked : walker.Walked g fat start expected limit chain) :
    chain.repeated ⊆ chain.clusters := by
  obtain ⟨last, -, ended⟩ := walked.ended
  unfold Ended at ended
  split at ended
  · simp [ended.1]
  · simp [ended.1]
  · obtain ⟨-, ended⟩ := ended
    split at ended
    · simp [ended.1]
    · split at ended
      · simp [ended.1]
      · simp [ended.1, ended.2.1]

/-- A cluster that comes up again has been taken before. -/
theorem repeated_subset_walkFrom (walker : Walker) (g : Geometry) (source : Source)
    (fileId start expected limit : Nat) :
    ((walker.walkFrom g fileId start expected limit).answer source g).repeated ⊆
      ((walker.walkFrom g fileId start expected limit).answer source g).clusters := by
  by_cases valid : g.Valid start
  · exact (walkFrom_walked walker g source fileId expected limit valid).repeated_subset
  · rw [walkFrom_of_invalid walker source fileId expected limit valid]
    exact List.Subset.refl _

end Walker

namespace Chain

variable {chain : Chain} {threshold : Nat}

/-- Every link leads to a greater number, by no more than the threshold. -/
def Forward (threshold : Nat) (chain : Chain) : Prop :=
  ∀ link ∈ chain.links, link.1 < link.2 ∧ link.2 - link.1 ≤ threshold

theorem ne_of_mem_links (nodup : chain.clusters.Nodup) {link : Nat × Nat}
    (member : link ∈ chain.links) : link.1 ≠ link.2 := by
  obtain ⟨index, inside, rfl⟩ := List.mem_iff_getElem.mp member
  simp only [links, List.getElem_zip, List.getElem_tail]
  intro same
  have equal := (nodup.getElem_inj_iff).mp same
  omega

theorem destination_mem {link : Nat × Nat} (member : link ∈ chain.links) :
    link.2 ∈ chain.clusters := by
  have onward : link.2 ∈ chain.clusters.tail := (List.of_mem_zip member).2
  exact List.mem_of_mem_tail onward

theorem mem_suspects {cluster : Nat} :
    cluster ∈ (chain.damage threshold).suspects ↔
      (∃ link ∈ chain.links, (link.2 < link.1 ∨
        threshold < max (link.1 - link.2) (link.2 - link.1)) ∧ link.2 = cluster) ∨
      cluster ∈ chain.repeated := by
  simp [damage, isBackJump, isLargeGap, and_assoc]

/-- No cluster of a chain is suspect exactly if nothing came up again and every link goes
forward by a small step. -/
theorem spotless_iff (nodup : chain.clusters.Nodup)
    (repeated : chain.repeated ⊆ chain.clusters) :
    (∀ cluster ∈ chain.clusters, cluster ∉ (chain.damage threshold).suspects) ↔
      chain.repeated = [] ∧ chain.Forward threshold := by
  simp only [mem_suspects, not_or, not_exists, not_and]
  constructor
  · intro spotless
    constructor
    · refine List.eq_nil_iff_forall_not_mem.mpr ?_
      intro cluster again
      exact (spotless cluster (repeated again)).2 again
    · intro link member
      have calm : ¬ (link.2 < link.1 ∨ threshold < max (link.1 - link.2) (link.2 - link.1)) :=
        fun jump => (spotless link.2 (destination_mem member)).1 link member jump rfl
      have different := ne_of_mem_links nodup member
      omega
  · rintro ⟨once, forward⟩ cluster -
    refine ⟨?_, by simp [once]⟩
    intro link member jump
    have step := forward link member
    omega

end Chain

end Undelete
