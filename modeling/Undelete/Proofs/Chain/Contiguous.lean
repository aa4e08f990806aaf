import Undelete.Chain.Score
import Undelete.Proofs.Chain.Walk

/-!
Files in one piece. When the FAT entries of a deleted file's clusters have been cleared, the walk
goes from each cluster to the next number until the file has as many clusters as its size needs,
and the chain shows no damage whatever the gap threshold is.
-/

namespace Undelete

namespace Walker

variable {walker : Walker} {g : Geometry} {source : Source} {fileId start count : Nat}

theorem fresh_of_same {seen : Std.TreeSet Nat} {taken : Nat}
    (same : ∀ cluster, cluster ∈ seen ↔ cluster ∈ List.range' start taken) :
    start + taken ∉ seen := by
  rw [same, List.mem_range'_1]
  omega

theorem reverse_cons_range' (start taken : Nat) :
    ((start + taken) :: (List.range' start taken).reverse).reverse =
      List.range' start (taken + 1) := by
  rw [List.reverse_cons, List.reverse_reverse, List.range'_concat, Nat.one_mul]

theorem follow_last (contiguous : walker.contiguous = true) (spare : Nat)
    (seen : Std.TreeSet Nat) (taken : Nat)
    (free : source.fatEntry g (start + taken) = .ok .free)
    (same : ∀ cluster, cluster ∈ seen ↔ cluster ∈ List.range' start taken) :
    (walker.follow g fileId (taken + 1) spare seen (List.range' start taken).reverse taken
        (start + taken)).answer source g =
      ⟨fileId, List.range' start (taken + 1), [], taken, false, .endOfChain⟩ := by
  rw [follow_answer, if_neg (fresh_of_same same)]
  simp only [free, link, contiguous, List.length_reverse, List.length_range', not_true, if_false,
    Nat.le_refl, if_true, reverse_cons_range']

/-- The walk through cleared entries, from a place with fewer clusters before it than the file
has. The induction is on the clusters that may still follow. -/
theorem follow_contiguous (contiguous : walker.contiguous = true)
    (valid : ∀ index < count, g.Valid (start + index))
    (free : ∀ index < count, source.fatEntry g (start + index) = .ok .free)
    (spare : Nat) (seen : Std.TreeSet Nat) (taken : Nat) (more : taken < count)
    (room : count ≤ taken + spare + 1)
    (same : ∀ cluster, cluster ∈ seen ↔ cluster ∈ List.range' start taken) :
    (walker.follow g fileId count spare seen (List.range' start taken).reverse taken
        (start + taken)).answer source g =
      ⟨fileId, List.range' start count, [], count - 1, false, .endOfChain⟩ := by
  induction spare generalizing seen taken with
  | zero =>
    obtain rfl : count = taken + 1 := by omega
    exact follow_last contiguous 0 seen taken (free taken more) same
  | succ spare ih =>
    by_cases last : count = taken + 1
    · subst last
      exact follow_last contiguous (spare + 1) seen taken (free taken more) same
    have onward : taken + 1 < count := by omega
    rw [follow_answer, if_neg (fresh_of_same same)]
    simp only [free taken more, link, contiguous, List.length_reverse, List.length_range',
      not_true, if_false, Nat.not_le.mpr onward, if_true]
    have next := valid (taken + 1) onward
    rw [← Nat.add_assoc] at next
    simp only [next, not_true, if_false]
    -- What has been taken is a range again, and the number after a range is fresh.
    have still : ∀ cluster, cluster ∈ seen.insert (start + taken) ↔
        cluster ∈ List.range' start (taken + 1) := by
      intro cluster
      rw [Std.TreeSet.mem_insert, Std.LawfulEqCmp.compare_eq_iff_eq, same,
        List.mem_range'_1, List.mem_range'_1]
      omega
    have later := ih (seen.insert (start + taken)) (taken + 1) onward (by omega) still
    rw [← reverse_cons_range', List.reverse_reverse] at later
    exact later

theorem walkFrom_contiguous (contiguous : walker.contiguous = true) (filled : 1 ≤ count)
    (valid : ∀ index < count, g.Valid (start + index))
    (free : ∀ index < count, source.fatEntry g (start + index) = .ok .free) {limit : Nat}
    (room : count ≤ limit) :
    (walker.walkFrom g fileId start count limit).answer source g =
      ⟨fileId, List.range' start count, [], count - 1, false, .endOfChain⟩ := by
  have begins : g.Valid start := valid 0 filled
  rw [walkFrom, if_pos begins]
  exact follow_contiguous contiguous valid free (limit - 1) ∅ 0 filled (by omega) (by simp)

end Walker

namespace Chain

/-- A chain of consecutive clusters that does not come back has no suspects. -/
theorem suspects_of_consecutive {chain : Chain} {threshold : Nat} (positive : 1 ≤ threshold)
    (once : chain.repeated = []) (consecutive : ∀ link ∈ chain.links, link.2 = link.1 + 1) :
    (chain.damage threshold).suspects = [] := by
  have calm : chain.links.filter (fun link => isBackJump link || isLargeGap threshold link) =
      [] := by
    rw [List.filter_eq_nil_iff]
    intro link member
    have next := consecutive link member
    simp only [isBackJump, isLargeGap, Bool.or_eq_true, decide_eq_true_eq, not_or]
    omega
  simp [damage, calm, once]

theorem links_range' {chain : Chain} {start count : Nat}
    (clusters : chain.clusters = List.range' start count) :
    ∀ link ∈ chain.links, link.2 = link.1 + 1 := by
  intro link member
  unfold links at member
  rw [clusters] at member
  obtain ⟨index, inside, rfl⟩ := List.mem_iff_getElem.mp member
  simp only [List.getElem_zip, List.getElem_tail, List.getElem_range']
  omega

end Chain

end Undelete
