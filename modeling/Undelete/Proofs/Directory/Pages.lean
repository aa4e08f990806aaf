import Mathlib.Data.List.Nodup
import Undelete.Proofs.Directory.Descent

/-!
What is read of a directory. The clusters of a live directory are distinct and valid. Of these a
scan reads what can be read up to the end of the directory, and stops at a cluster that it has
read before. The entries come from the short slots of what is read, in their order.
-/

namespace Undelete

namespace Geometry

variable {g : Geometry} {source : Source}

/-- A chain that is followed from `current` goes on behind its trail with distinct clusters, the
first of which is `current`. -/
theorem chainFrom_spec (limit : Nat) (seen : Std.TreeSet Nat) (trail : List Nat) (current : Nat)
    (same : ∀ cluster, cluster ∈ seen ↔ cluster ∈ trail) (nodup : trail.Nodup)
    {clusters : List Nat}
    (answered : (g.chainFrom limit seen trail current).answer source g = .ok clusters) :
    ∃ rest, clusters = trail.reverse ++ rest ∧ clusters.Nodup ∧
      ∀ head ∈ rest.head?, head = current ∧ g.Valid current := by
  induction limit generalizing seen trail current with
  | zero =>
    cases answered
    exact ⟨[], by simp, List.nodup_reverse.mpr nodup, by simp⟩
  | succ limit ih =>
    rw [chainFrom] at answered
    split at answered
    next onward =>
      obtain ⟨valid, fresh⟩ := onward
      have longer : (current :: trail).Nodup :=
        List.nodup_cons.mpr ⟨fun old => fresh ((same current).mpr old), nodup⟩
      have still : ∀ cluster, cluster ∈ seen.insert current ↔ cluster ∈ current :: trail := by
        intro cluster
        rw [Std.TreeSet.mem_insert, Std.LawfulEqCmp.compare_eq_iff_eq, List.mem_cons, same]
        exact or_congr_left eq_comm
      rw [Probe.answer_bind, Probe.answer_entryOf] at answered
      split at answered
      · cases answered
      next next _ =>
        obtain ⟨rest, split, distinct, -⟩ := ih _ _ next still longer answered
        refine ⟨current :: rest, ?_, distinct, ?_⟩
        · rw [split, List.reverse_cons, List.append_assoc]
          rfl
        · simp [valid]
      · cases answered
        exact ⟨[current], List.reverse_cons, List.nodup_reverse.mpr longer, by simp [valid]⟩
    · cases answered
      exact ⟨[], by simp, List.nodup_reverse.mpr nodup, by simp⟩

theorem nodup_liveChain {start limit : Nat} {clusters : List Nat}
    (answered : (g.liveChain start limit).answer source g = .ok clusters) : clusters.Nodup := by
  obtain ⟨-, -, nodup, -⟩ := chainFrom_spec limit ∅ [] start (by simp) List.nodup_nil answered
  exact nodup

theorem head_liveChain {start limit : Nat} {clusters : List Nat}
    (answered : (g.liveChain start limit).answer source g = .ok clusters) {head : Nat}
    (first : clusters.head? = some head) : head = start ∧ g.Valid start := by
  obtain ⟨rest, rfl, -, heads⟩ := chainFrom_spec limit ∅ [] start (by simp) List.nodup_nil answered
  exact heads head first

end Geometry

namespace Directory

variable {source : Source} {g : Geometry}

/-- The slots of a directory cluster. -/
def slotsOf (source : Source) (g : Geometry) (cluster : Nat) : Except Failure (List Bytes) :=
  (source.read (g.clusterSector cluster) g.clusterSize).map (Bytes.chunks slotSize)

/-- The pages of a directory, up to its end or to a cluster that cannot be read. -/
def pagesOf (source : Source) (g : Geometry) : List Nat → List (Nat × List Bytes)
  | [] => []
  | cluster :: rest =>
    match slotsOf source g cluster with
    | .error _ => []
    | .ok slots =>
      if slots.any (·.byteAt 0 = endMark) then [(cluster, slots)]
      else (cluster, slots) :: pagesOf source g rest

/-- What a scan that has visited some clusters reads of a directory, and what it has visited
then. -/
def pagesAfter (source : Source) (g : Geometry) (clusters : List Nat)
    (visited : Std.TreeSet Nat) : List (Nat × List Bytes) × Std.TreeSet Nat :=
  (pages g clusters visited []).answer source g

theorem answer_pages (clusters : List Nat) (visited : Std.TreeSet Nat)
    (read : List (Nat × List Bytes)) :
    (pages g clusters visited read).answer source g =
      (read.reverse ++ (pagesAfter source g clusters visited).1,
        (pagesAfter source g clusters visited).2) := by
  unfold pagesAfter
  induction clusters generalizing visited read with
  | nil => simp [pages]
  | cons cluster rest ih =>
    simp only [pages]
    split
    · simp
    simp only [Probe.answer_bind, Probe.answer_bytesAt]
    split
    · simp
    · split
      · simp
      · rw [ih, ih _ [_]]
        simp

theorem pagesAfter_cons (cluster : Nat) (rest : List Nat) (visited : Std.TreeSet Nat) :
    pagesAfter source g (cluster :: rest) visited =
      if cluster ∈ visited then ([], visited)
      else match slotsOf source g cluster with
        | .error _ => ([], visited.insert cluster)
        | .ok slots =>
          if slots.any (·.byteAt 0 = endMark) then ([(cluster, slots)], visited.insert cluster)
          else
            ((cluster, slots) :: (pagesAfter source g rest (visited.insert cluster)).1,
              (pagesAfter source g rest (visited.insert cluster)).2) := by
  rw [pagesAfter, pages]
  split
  · rfl
  rw [Probe.answer_bind, Probe.answer_bytesAt, slotsOf]
  cases source.read (g.clusterSector cluster) g.clusterSize with
  | error failure => rfl
  | ok data =>
    simp only [Except.map]
    split
    · rfl
    · rw [answer_pages]
      rfl

theorem clusters_pagesOf_isPrefix (clusters : List Nat) :
    (pagesOf source g clusters).map Prod.fst <+: clusters := by
  induction clusters with
  | nil => exact List.nil_prefix
  | cons cluster rest ih =>
    rw [pagesOf]
    split
    · exact List.nil_prefix
    · split
      · exact ⟨rest, rfl⟩
      · exact (List.prefix_cons_inj cluster).mpr ih

theorem contents_pagesOf {clusters : List Nat} {page : Nat × List Bytes}
    (member : page ∈ pagesOf source g clusters) : slotsOf source g page.1 = .ok page.2 := by
  induction clusters with
  | nil => cases member
  | cons cluster rest ih =>
    rw [pagesOf] at member
    split at member
    · cases member
    next slots answered =>
      split at member
      · rw [List.mem_singleton.mp member]
        exact answered
      · rcases List.mem_cons.mp member with rfl | later
        · exact answered
        · exact ih later

theorem takeWhile_congr {α : Type} {first second : α → Bool} {items : List α}
    (same : ∀ item ∈ items, first item = second item) :
    items.takeWhile first = items.takeWhile second := by
  induction items with
  | nil => rfl
  | cons item rest ih =>
    rw [List.takeWhile_cons, List.takeWhile_cons, same item List.mem_cons_self,
      ih fun later member => same later (List.mem_cons_of_mem _ member)]

/-- With distinct clusters, a scan reads the pages before the first one that it has visited. -/
theorem pagesAfter_eq_takeWhile {clusters : List Nat} (nodup : clusters.Nodup)
    (visited : Std.TreeSet Nat) :
    (pagesAfter source g clusters visited).1 =
      (pagesOf source g clusters).takeWhile fun page => page.1 ∉ visited := by
  induction clusters generalizing visited with
  | nil => rfl
  | cons cluster rest ih =>
    obtain ⟨fresh, nodup⟩ := List.nodup_cons.mp nodup
    rw [pagesAfter_cons, pagesOf]
    by_cases known : cluster ∈ visited
    · rw [if_pos known]
      split
      · rfl
      · split <;> simp [known]
    rw [if_neg known]
    split
    · rfl
    split
    · simp [known]
    -- The cluster visited now does not come again, so that the rest is read as without it.
    · have later : ∀ page ∈ pagesOf source g rest,
          decide (page.1 ∉ visited.insert cluster) = decide (page.1 ∉ visited) := by
        intro page member
        have place : page.1 ∈ rest :=
          (clusters_pagesOf_isPrefix rest).subset (List.mem_map_of_mem member)
        have other : cluster ≠ page.1 := by
          rintro rfl
          exact fresh place
        simp [Std.TreeSet.mem_insert, other]
      rw [List.takeWhile_cons_of_pos (by simpa using known), ← takeWhile_congr later]
      exact congrArg _ (ih nodup _)

theorem clusters_pagesAfter_isPrefix {clusters : List Nat} (nodup : clusters.Nodup)
    (visited : Std.TreeSet Nat) :
    (pagesAfter source g clusters visited).1.map Prod.fst <+: clusters := by
  rw [pagesAfter_eq_takeWhile nodup]
  exact ((List.takeWhile_prefix _).map Prod.fst).trans (clusters_pagesOf_isPrefix clusters)

/-- What a scan reads of a directory and what it has visited then, after the clusters that it
had visited. -/
structure Paged (source : Source) (g : Geometry) (visited : Std.TreeSet Nat)
    (read : List (Nat × List Bytes)) (later : Std.TreeSet Nat) : Prop where
  nodup : (read.map Prod.fst).Nodup
  fresh : ∀ cluster ∈ read.map Prod.fst, cluster ∉ visited
  contents : ∀ page ∈ read, slotsOf source g page.1 = .ok page.2
  kept : ∀ cluster, cluster ∈ visited ∨ cluster ∈ read.map Prod.fst → cluster ∈ later
  origin : ∀ cluster ∈ later, cluster ∈ visited ∨ cluster ∈ read.map Prod.fst ∨
    ∃ failure, slotsOf source g cluster = .error failure

variable {visited later : Std.TreeSet Nat} {read : List (Nat × List Bytes)} {cluster : Nat}

theorem mem_insert {other : Nat} :
    other ∈ visited.insert cluster ↔ other = cluster ∨ other ∈ visited := by
  rw [Std.TreeSet.mem_insert, Std.LawfulEqCmp.compare_eq_iff_eq]
  exact or_congr_left eq_comm

theorem Paged.nothing (visited : Std.TreeSet Nat) : Paged source g visited [] visited :=
  ⟨List.nodup_nil, by simp, by simp, by simp, fun _ old => .inl old⟩

theorem Paged.unreadable {failure : Failure} (failed : slotsOf source g cluster = .error failure) :
    Paged source g visited [] (visited.insert cluster) where
  nodup := List.nodup_nil
  fresh := by simp
  contents := by simp
  kept other known := mem_insert.mpr (.inr (by simpa using known))
  origin other member := by
    rcases mem_insert.mp member with rfl | old
    · exact .inr (.inr ⟨failure, failed⟩)
    · exact .inl old

/-- One more page in front of what is read after it. -/
theorem Paged.cons {slots : List Bytes} (new : cluster ∉ visited)
    (answered : slotsOf source g cluster = .ok slots)
    (paged : Paged source g (visited.insert cluster) read later) :
    Paged source g visited ((cluster, slots) :: read) later where
  nodup := by
    refine List.nodup_cons.mpr ⟨?_, paged.nodup⟩
    intro again
    exact paged.fresh cluster again (mem_insert.mpr (.inl rfl))
  fresh := by
    intro other member
    rcases List.mem_cons.mp member with rfl | onward
    · exact new
    · exact fun old => paged.fresh other onward (mem_insert.mpr (.inr old))
  contents := by
    intro page member
    rcases List.mem_cons.mp member with rfl | onward
    · exact answered
    · exact paged.contents page onward
  kept := by
    intro other known
    apply paged.kept
    rcases known with old | member
    · exact .inl (mem_insert.mpr (.inr old))
    · rcases List.mem_cons.mp member with rfl | onward
      · exact .inl (mem_insert.mpr (.inl rfl))
      · exact .inr onward
  origin := by
    intro other member
    rcases paged.origin other member with old | onward | unreadable
    · rcases mem_insert.mp old with rfl | older
      · exact .inr (.inl List.mem_cons_self)
      · exact .inl older
    · exact .inr (.inl (List.mem_cons_of_mem _ onward))
    · exact .inr (.inr unreadable)

theorem paged_pagesAfter (clusters : List Nat) (visited : Std.TreeSet Nat) :
    Paged source g visited (pagesAfter source g clusters visited).1
      (pagesAfter source g clusters visited).2 := by
  induction clusters generalizing visited with
  | nil => exact .nothing visited
  | cons cluster rest ih =>
    rw [pagesAfter_cons]
    split
    · exact .nothing visited
    next new =>
      split
      next failure failed => exact .unreadable failed
      next slots answered =>
        split
        · exact .cons new answered (.nothing _)
        · exact .cons new answered (ih _)

end Directory

end Undelete
