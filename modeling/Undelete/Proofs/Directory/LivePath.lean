import Undelete.Proofs.Directory.Listings

/-!
Paths through live directory entries. A path is known by the numbers of the slots that it goes
through, newest first, and it crosses the clusters of each directory up to the one with its slot.
What a scan reads of a live directory is a first part of what can be read of it, and has its live
slots up to there.
-/

namespace Undelete

namespace Directory

/-- The clusters of a chain up to one of them. -/
def lead (clusters : List Nat) (cluster : Nat) : List Nat :=
  clusters.takeWhile (· ≠ cluster) ++ [cluster]

theorem lead_of_isPrefix {front clusters : List Nat} {cluster : Nat} (before : front <+: clusters)
    (member : cluster ∈ front) : lead clusters cluster = lead front cluster := by
  obtain ⟨rest, rfl⟩ := before
  induction front with
  | nil => cases member
  | cons first front ih =>
    by_cases here : first = cluster
    · simp [lead, here]
    · have later := ih ((List.mem_cons.mp member).resolve_left (Ne.symm here))
      have before := List.append_cancel_right later
      rw [lead, lead, List.append_cancel_right_eq, List.cons_append,
        List.takeWhile_cons_of_pos (by simpa using here),
        List.takeWhile_cons_of_pos (by simpa using here), before]

theorem mem_of_mem_lead {clusters : List Nat} {cluster other : Nat} (member : cluster ∈ clusters)
    (led : other ∈ lead clusters cluster) : other ∈ clusters := by
  rcases List.mem_append.mp led with before | last
  · exact (List.takeWhile_prefix _).subset before
  · rwa [List.mem_singleton.mp last]

theorem head_mem_lead {clusters : List Nat} {head : Nat} (cluster : Nat)
    (first : clusters.head? = some head) (member : cluster ∈ clusters) :
    head ∈ lead clusters cluster := by
  cases clusters with
  | nil => cases member
  | cons start rest =>
    cases first
    by_cases here : head = cluster
    · simp [lead, here]
    · simp [lead, here]

theorem mem_takeWhile_of_lead {pages : List (Nat × List Bytes)} (keep : Nat → Bool) {cluster : Nat}
    (member : cluster ∈ pages.map Prod.fst)
    (kept : ∀ other ∈ lead (pages.map Prod.fst) cluster, keep other = true) :
    cluster ∈ (pages.takeWhile fun page => keep page.1).map Prod.fst := by
  induction pages with
  | nil => cases member
  | cons page rest ih =>
    by_cases here : page.1 = cluster
    · have first : keep page.1 = true := by
        apply kept
        simp [lead, here]
      rw [List.takeWhile_cons_of_pos (by exact first), List.map_cons, here]
      exact List.mem_cons_self
    · have first : keep page.1 = true := by
        apply kept
        simp [lead, here]
      rw [List.takeWhile_cons_of_pos (by exact first), List.map_cons]
      refine List.mem_cons_of_mem _ (ih ?_ ?_)
      · exact (List.mem_cons.mp member).resolve_left (Ne.symm here)
      · intro other led
        apply kept
        rw [List.map_cons]
        simp only [lead] at led ⊢
        rw [List.takeWhile_cons_of_pos (by simpa using here)]
        exact List.mem_cons_of_mem _ led

section

variable (source : Source) (g : Geometry) (limit : Nat)

/-- The clusters of a live directory, if its chain can be followed. -/
def liveClusters (directory : Nat) : List Nat :=
  match (g.liveChain directory limit).answer source g with
  | .ok clusters => clusters
  | .error _ => []

/-- What can be read of a live directory. -/
def livePages (directory : Nat) : List (Nat × List Bytes) :=
  pagesOf source g (liveClusters source g limit directory)

/-- The live slots of a live directory before its end. -/
def liveSlots (directory : Nat) : List (PlacedSlot × ShortSlot) :=
  (shortSlots (placed (livePages source g limit directory))).filter fun (_, slot) =>
    !slot.isDeleted

/-- A path through live directory entries to the directory that the last one names, with the
clusters that it crosses. -/
inductive LivePath (root : Nat) : (path : List Nat) → (directory : Nat) → (crossed : List Nat) →
    Prop
  | root : LivePath root [] root []
  | step {path : List Nat} {directory : Nat} {crossed : List Nat} {placed : PlacedSlot}
      {slot : ShortSlot} : LivePath root path directory crossed →
      (placed, slot) ∈ liveSlots source g limit directory → slot.isDirectory = true →
      LivePath root (placed.index :: path) slot.firstCluster
        (crossed ++ lead (liveClusters source g limit directory) placed.cluster)

end

variable {source : Source} {g : Geometry} {limit root : Nat}

theorem nodup_liveClusters (directory : Nat) : (liveClusters source g limit directory).Nodup := by
  unfold liveClusters
  split
  next clusters answered => exact Geometry.nodup_liveChain answered
  · exact List.nodup_nil

theorem ascending_shortSlots (pages : List (Nat × List Bytes)) :
    (shortSlots (placed pages)).Pairwise fun earlier later =>
      earlier.1.index < later.1.index := by
  have ascending := ascending_placedFrom 0 pages
  rw [← placed_eq] at ascending
  have short := ascending.sublist (map_fst_shortSlots _)
  rwa [List.pairwise_map] at short

/-- A directory has one live slot with a given number. -/
theorem eq_of_index {directory : Nat} {pair pair' : PlacedSlot × ShortSlot}
    (member : pair ∈ liveSlots source g limit directory)
    (member' : pair' ∈ liveSlots source g limit directory) (same : pair.1.index = pair'.1.index) :
    pair = pair' := by
  -- Numbers ascend along the slots, so no two slots have the same.
  have distinct : ((liveSlots source g limit directory).map fun pair => pair.1.index).Nodup :=
    List.pairwise_map.mpr (((ascending_shortSlots _).filter _).imp Nat.ne_of_lt)
  exact List.inj_on_of_nodup_map distinct member member' same

theorem cluster_of_mem_liveSlots {directory : Nat} {pair : PlacedSlot × ShortSlot}
    (member : pair ∈ liveSlots source g limit directory) :
    pair.1.cluster ∈ (livePages source g limit directory).map Prod.fst := by
  have place := mem_of_mem_shortSlots (List.mem_filter.mp member).1
  rw [placed_eq] at place
  exact cluster_of_mem_placedFrom place

theorem isDeleted_of_mem_liveSlots {directory : Nat} {pair : PlacedSlot × ShortSlot}
    (member : pair ∈ liveSlots source g limit directory) : pair.2.isDeleted = false := by
  have alive := (List.mem_filter.mp member).2
  exact Bool.not_eq_true' _ ▸ alive

theorem LivePath.unique {path : List Nat} {directory directory' : Nat} {crossed crossed' : List Nat}
    (first : LivePath source g limit root path directory crossed)
    (second : LivePath source g limit root path directory' crossed') :
    directory = directory' ∧ crossed = crossed' := by
  induction first generalizing directory' crossed' with
  | root =>
    cases second
    exact ⟨rfl, rfl⟩
  | step earlier member isDirectory ih =>
    generalize numbered : (_ :: _ : List Nat) = path at second
    cases second with
    | root => cases numbered
    | step earlier' member' isDirectory' =>
      obtain ⟨index, rfl⟩ := List.cons.inj numbered
      obtain ⟨rfl, rfl⟩ := ih earlier'
      cases eq_of_index member member' index
      exact ⟨rfl, rfl⟩

theorem pagesAfter_liveClusters (directory : Nat) (visited : Std.TreeSet Nat) :
    (pagesAfter source g (liveClusters source g limit directory) visited).1 =
      (livePages source g limit directory).takeWhile fun page => page.1 ∉ visited :=
  pagesAfter_eq_takeWhile (nodup_liveClusters directory) visited

theorem pagesAfter_isPrefix (directory : Nat) (visited : Std.TreeSet Nat) :
    (pagesAfter source g (liveClusters source g limit directory) visited).1 <+:
      livePages source g limit directory := by
  rw [pagesAfter_liveClusters]
  exact List.takeWhile_prefix _

/-- The short slots of a directory's first pages are those of all of its pages that stand in
them. -/
theorem mem_shortSlots_of_isPrefix {front pages : List (Nat × List Bytes)}
    (before : front <+: pages) (nodup : (pages.map Prod.fst).Nodup)
    {pair : PlacedSlot × ShortSlot} :
    pair ∈ shortSlots (placed front) ↔
      pair ∈ shortSlots (placed pages) ∧ pair.1.cluster ∈ front.map Prod.fst := by
  obtain ⟨later, rfl⟩ := before
  obtain ⟨next, split⟩ := placedFrom_append 0 front later
  obtain ⟨rest, short, behind⟩ := shortSlots_append (placedFrom 0 front) (placedFrom next later)
  rw [placed_eq, placed_eq, split, short]
  constructor
  · intro member
    exact ⟨List.mem_append_left _ member, cluster_of_mem_placedFrom (mem_of_mem_shortSlots member)⟩
  · rintro ⟨member, here⟩
    refine (List.mem_append.mp member).resolve_right ?_
    intro outside
    rw [List.map_append] at nodup
    exact List.disjoint_of_nodup_append nodup here
      (cluster_of_mem_placedFrom (behind pair outside))

theorem clusters_livePages_isPrefix (directory : Nat) :
    (livePages source g limit directory).map Prod.fst <+: liveClusters source g limit directory :=
  clusters_pagesOf_isPrefix _

theorem nodup_livePages (directory : Nat) :
    ((livePages source g limit directory).map Prod.fst).Nodup :=
  (clusters_livePages_isPrefix directory).sublist.nodup (nodup_liveClusters directory)

/-- What a scan reads of a live directory holds its live slots up to there. -/
theorem mem_read_iff {directory : Nat} {visited : Std.TreeSet Nat} {pair : PlacedSlot × ShortSlot}
    (alive : pair.2.isDeleted = false) :
    pair ∈ shortSlots (placed
        (pagesAfter source g (liveClusters source g limit directory) visited).1) ↔
      pair ∈ liveSlots source g limit directory ∧ pair.1.cluster ∈
        (pagesAfter source g (liveClusters source g limit directory) visited).1.map Prod.fst := by
  rw [mem_shortSlots_of_isPrefix (pagesAfter_isPrefix directory visited)
    (nodup_livePages directory), liveSlots, List.mem_filter]
  simp [alive]

end Directory

end Undelete
