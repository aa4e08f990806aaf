import Mathlib.Data.Nat.Dist
import Mathlib.Data.Set.Card
import Undelete.Proofs.Chain.Damage

/-!
What the damage of a chain counts. A chain goes on from each place but the last, and each count of
its damage is the number of places at which it goes on in a certain way. The suspects are the
destinations of its jumps, in the order in which they are first jumped to, and behind them the
clusters that came up again.
-/

namespace Undelete

section

variable {α : Type} {items : List α} {first second : α}

/-- Whether an item comes up in a list before another one has. -/
def Precedes (items : List α) (first second : α) : Prop :=
  ∃ front back, items = front ++ first :: back ∧ second ∉ front ++ [first]

theorem Precedes.ne (precedes : Precedes items first second) : first ≠ second := by
  obtain ⟨front, back, -, absent⟩ := precedes
  intro same
  apply absent
  simp [same]

theorem Precedes.append (precedes : Precedes items first second) (more : List α) :
    Precedes (items ++ more) first second := by
  obtain ⟨front, back, rfl, absent⟩ := precedes
  exact ⟨front, back ++ more, by simp, absent⟩

theorem precedes_of_notMem (member : first ∈ items) (absent : second ∉ items) :
    Precedes items first second := by
  obtain ⟨front, back, rfl⟩ := List.append_of_mem member
  refine ⟨front, back, rfl, ?_⟩
  intro early
  apply absent
  simp only [List.mem_append, List.mem_cons] at early ⊢
  tauto

/-- What a list loses does not matter for items that it keeps. -/
theorem Precedes.of_filter {keep : α → Bool} (precedes : Precedes (items.filter keep) first second)
    (kept : keep second = true) : Precedes items first second := by
  obtain ⟨front, back, split, absent⟩ := precedes
  obtain ⟨left, right, rfl, rfl, onward⟩ := List.filter_eq_append_iff.mp split
  obtain ⟨dropped, rest, rfl, none, -, rfl⟩ := List.filter_eq_cons_iff.mp onward
  refine ⟨left ++ dropped, rest, by simp, ?_⟩
  intro early
  apply absent
  simp only [List.mem_append, List.mem_filter, List.mem_singleton] at early ⊢
  rcases early with (old | lost) | same
  · exact .inl ⟨old, kept⟩
  · exact absurd kept (none second lost)
  · exact .inr same

variable [BEq α] [LawfulBEq α]

/-- Repetitions are dropped, so that items stand in the order in which they first came up. -/
theorem pairwise_eraseDups (items : List α) : items.eraseDups.Pairwise (Precedes items) := by
  induction items using List.reverseRecOn with
  | nil => exact .nil
  | append_singleton items item ih =>
    rw [List.eraseDups_append]
    have earlier := ih.imp fun precedes => Precedes.append precedes [item]
    by_cases old : item ∈ items
    · have none : [item].removeAll items = [] := by simp [List.removeAll, old]
      simpa [none] using earlier
    · have new : [item].removeAll items = [item] := by simp [List.removeAll, old]
      have single : [item].eraseDups = [item] := by simp [List.eraseDups_cons]
      rw [new, single]
      refine List.pairwise_append.mpr ⟨earlier, List.pairwise_singleton _ _, ?_⟩
      intro other known last member
      obtain rfl := List.mem_singleton.mp member
      exact (precedes_of_notMem (List.mem_eraseDups.mp known) old).append [last]

theorem nodup_eraseDups (items : List α) : items.eraseDups.Nodup :=
  (pairwise_eraseDups items).imp Precedes.ne

omit [BEq α] [LawfulBEq α] in
/-- The number of items with a property is that of the places where they stand. -/
theorem countP_eq_ncard (holds : α → Bool) (items : List α) :
    items.countP holds =
      {place : Nat | ∃ item, items[place]? = some item ∧ holds item = true}.ncard := by
  induction items using List.reverseRecOn with
  | nil => simp
  | append_singleton items item ih =>
    let before := {place : Nat | ∃ item, items[place]? = some item ∧ holds item = true}
    have inside {place : Nat} (member : place ∈ before) : place < items.length := by
      obtain ⟨other, found, -⟩ := member
      exact (List.getElem?_eq_some_iff.mp found).1
    have finite : before.Finite := (Set.finite_lt_nat items.length).subset fun _ => inside
    have new : items.length ∉ before := fun member => Nat.lt_irrefl _ (inside member)
    have split (place : Nat) : (∃ other, (items ++ [item])[place]? = some other ∧
        holds other = true) ↔ place ∈ before ∨ place = items.length ∧ holds item = true := by
      rcases Nat.lt_trichotomy place items.length with early | rfl | late
      · rw [List.getElem?_append_left early]
        have other : place ≠ items.length := Nat.ne_of_lt early
        simp [before, other]
      · simp [new]
      · have past : place ∉ before := fun member => Nat.lt_asymm late (inside member)
        have none : (items ++ [item])[place]? = none := by simp; omega
        simp [none, past, Nat.ne_of_gt late]
    simp only [split, List.countP_append, ih, List.countP_singleton]
    by_cases holding : holds item = true
    · have places : {place | place ∈ before ∨ place = items.length ∧ holds item = true} =
          insert items.length before := by
        ext place
        simp [holding, or_comm]
      rw [places, Set.ncard_insert_of_notMem new finite, if_pos holding]
    · simp [holding, before]

end

namespace Chain

variable {chain : Chain} {threshold : Nat}

/-- The places from which a chain goes on in a certain way. -/
def places (chain : Chain) (way : Nat → Nat → Prop) : Set Nat :=
  {place | ∃ current next, chain.clusters[place]? = some current ∧
    chain.clusters[place + 1]? = some next ∧ way current next}

/-- Backwards, or over more than the threshold. -/
def Jump (threshold current next : Nat) : Prop :=
  next < current ∨ threshold < Nat.dist current next

/-- The places from which a chain jumps to a cluster. -/
def jumpsTo (threshold : Nat) (chain : Chain) (cluster : Nat) : Set Nat :=
  chain.places fun current next => Jump threshold current next ∧ next = cluster

theorem getElem?_links {place : Nat} {link : Nat × Nat} :
    chain.links[place]? = some link ↔
      chain.clusters[place]? = some link.1 ∧ chain.clusters[place + 1]? = some link.2 := by
  rw [links, List.getElem?_zip_eq_some, List.getElem?_tail]

theorem mem_places {way : Nat → Nat → Prop} {place : Nat} :
    place ∈ chain.places way ↔ ∃ link, chain.links[place]? = some link ∧ way link.1 link.2 := by
  simp only [places, Set.mem_ofPred_eq, Prod.exists, getElem?_links, and_assoc]

theorem countP_links (way : Nat → Nat → Prop) (holds : Nat × Nat → Bool)
    (same : ∀ link ∈ chain.links, holds link = true ↔ way link.1 link.2) :
    chain.links.countP holds = (chain.places way).ncard := by
  rw [countP_eq_ncard]
  congr 1
  ext place
  rw [mem_places]
  refine exists_congr fun link => and_congr_right fun found => ?_
  exact same link (List.mem_of_getElem? found)

theorem isLargeGap_iff {link : Nat × Nat} :
    isLargeGap threshold link = true ↔ threshold < Nat.dist link.1 link.2 := by
  unfold isLargeGap Nat.dist
  rw [decide_eq_true_iff]
  omega

theorem isJump_iff {link : Nat × Nat} :
    (isBackJump link || isLargeGap threshold link) = true ↔ Jump threshold link.1 link.2 := by
  rw [Bool.or_eq_true, isLargeGap_iff, isBackJump, decide_eq_true_iff, Jump]

/-- Between clusters from 2 on the next number never wraps. -/
theorem isBreak_iff {link : Nat × Nat} (first : link.1 < UInt32.size)
    (second : 2 ≤ link.2 ∧ link.2 < UInt32.size) :
    isBreak link = true ↔ link.2 ≠ link.1 + 1 := by
  rw [isBreak, decide_eq_true_iff]
  by_cases top : link.1 + 1 = UInt32.size
  · rw [top, Nat.mod_self]
    omega
  · rw [Nat.mod_eq_of_lt (by omega)]

theorem mem_clusters_of_link {link : Nat × Nat} (member : link ∈ chain.links) :
    link.1 ∈ chain.clusters ∧ link.2 ∈ chain.clusters :=
  ⟨(List.of_mem_zip member).1, destination_mem member⟩

/-- The destinations of a chain's jumps, one for each jump. -/
def destinations (threshold : Nat) (chain : Chain) : List Nat :=
  (chain.links.filter fun link => isBackJump link || isLargeGap threshold link).map Prod.snd

theorem mem_destinations {cluster : Nat} :
    cluster ∈ chain.destinations threshold ↔ (chain.jumpsTo threshold cluster).Nonempty := by
  simp only [destinations, List.mem_map, List.mem_filter, isJump_iff, Set.Nonempty, jumpsTo,
    mem_places]
  constructor
  · rintro ⟨link, ⟨member, jump⟩, rfl⟩
    obtain ⟨place, found⟩ := List.mem_iff_getElem?.mp member
    exact ⟨place, link, found, jump, rfl⟩
  · rintro ⟨place, link, found, jump, rfl⟩
    exact ⟨link, ⟨List.mem_of_getElem? found, jump⟩, rfl⟩

/-- Of two destinations the one that comes up before the other is jumped to before it. -/
theorem exists_jump_of_precedes {first second : Nat}
    (precedes : Precedes (chain.destinations threshold) first second) :
    ∃ place ∈ chain.jumpsTo threshold first,
      ∀ other ∈ chain.jumpsTo threshold second, place < other := by
  obtain ⟨front, back, split, absent⟩ := precedes
  obtain ⟨early, late, jumps, rfl, onward⟩ := List.map_eq_append_iff.mp split
  obtain ⟨link, rest, rfl, rfl, -⟩ := List.map_eq_cons_iff.mp onward
  obtain ⟨left, right, links, rfl, next⟩ := List.filter_eq_append_iff.mp jumps
  obtain ⟨calm, right', rfl, none, jump, -⟩ := List.filter_eq_cons_iff.mp next
  have found : chain.links[(left ++ calm).length]? = some link := by
    rw [links, ← List.append_assoc]
    simp
  refine ⟨(left ++ calm).length, mem_places.mpr ⟨link, found, isJump_iff.mp jump, rfl⟩, ?_⟩
  intro other leads
  obtain ⟨link', found', jump', rfl⟩ := mem_places.mp leads
  by_contra early
  -- Up to here no jump leads to the second destination.
  apply absent
  rcases Nat.lt_or_eq_of_le (Nat.not_lt.mp early) with before | here
  · rw [links, ← List.append_assoc, List.getElem?_append_left before] at found'
    rcases List.mem_append.mp (List.mem_of_getElem? found') with old | passed
    · refine List.mem_append_left _ (List.mem_map_of_mem ?_)
      exact List.mem_filter.mpr ⟨old, isJump_iff.mpr jump'⟩
    · exact absurd (isJump_iff.mpr jump') (none link' passed)
  · rw [here, found] at found'
    cases found'
    simp

/-- A list of numbers is a run if each is the one before it and one more. -/
theorem consecutive_iff (items : List Nat) :
    (∀ link ∈ items.zip items.tail, link.2 = link.1 + 1) ↔
      ∃ start, items = List.range' start items.length := by
  induction items with
  | nil => simp
  | cons head rest ih =>
    cases rest with
    | nil => simp
    | cons next rest =>
      rw [List.tail_cons, List.zip_cons_cons, List.forall_mem_cons]
      rw [List.tail_cons] at ih
      rw [ih]
      constructor
      · rintro ⟨step, start, run⟩
        rw [List.length_cons, List.range'_succ, List.cons.injEq] at run
        refine ⟨head, ?_⟩
        rw [List.length_cons, List.length_cons, List.range'_succ, List.range'_succ]
        obtain ⟨rfl, run⟩ := run
        obtain rfl : next = head + 1 := step
        rw [← run]
      · rintro ⟨start, run⟩
        rw [List.length_cons, List.range'_succ, List.cons.injEq] at run
        obtain ⟨rfl, run⟩ := run
        refine ⟨?_, head + 1, run⟩
        rw [List.length_cons, List.range'_succ, List.cons.injEq] at run
        exact run.1

/-- What a damage says about its chain, with gaps above `threshold` counted as large. -/
structure Scored (threshold : Nat) (chain : Chain) (damage : Damage) : Prop where
  backJumps : damage.backJumps = (chain.places fun current next => next < current).ncard
  largeGaps : damage.largeGaps =
    (chain.places fun current next => threshold < Nat.dist current next).ncard
  repeated : damage.repeated = chain.repeated.length
  distinct : damage.suspects.Nodup
  /-- The destinations of jumps in the order of the first jumps to them, then the other clusters
  that came up again, in the order in which they did. -/
  suspects : ∃ jumped again, damage.suspects = jumped ++ again ∧
    (∀ cluster, cluster ∈ jumped ↔ (chain.jumpsTo threshold cluster).Nonempty) ∧
    (jumped.Pairwise fun first second => ∃ place ∈ chain.jumpsTo threshold first,
      ∀ other ∈ chain.jumpsTo threshold second, place < other) ∧
    (∀ cluster, cluster ∈ again ↔ cluster ∈ chain.repeated ∧ cluster ∉ jumped) ∧
    again.Pairwise (Precedes chain.repeated)
  /-- How many links do not lead to the next number. -/
  breaks : chain.breaks = (chain.places fun current next => next ≠ current + 1).ncard
  fragmentation : damage.fragmentation = if chain.clusters.length ≤ 1 then 0.0
    else Number.ratio chain.breaks (chain.clusters.length - 1)
  jump_breaks : (chain.places fun current next => Jump threshold current next) ⊆
    chain.places fun current next => next ≠ current + 1
  backJumps_le : damage.backJumps ≤ chain.breaks
  largeGaps_le : damage.largeGaps ≤ chain.breaks
  unbroken_iff : chain.breaks = 0 ↔
    ∃ start, chain.clusters = List.range' start chain.clusters.length
  sound_iff : damage.isCorrupted = false ↔
    chain.termination = .endOfChain ∧ chain.repeated = [] ∧
      ∀ place current next, chain.clusters[place]? = some current →
        chain.clusters[place + 1]? = some next → current ≤ next ∧ next ≤ current + threshold

theorem breaks_eq (inside : ∀ cluster ∈ chain.clusters, 2 ≤ cluster ∧ cluster < UInt32.size) :
    chain.breaks = chain.links.countP fun link => link.2 ≠ link.1 + 1 := by
  apply List.countP_congr
  intro link member
  obtain ⟨first, second⟩ := mem_clusters_of_link member
  rw [isBreak_iff (inside _ first).2 (inside _ second), decide_eq_true_iff]

theorem length_links (chain : Chain) : chain.links.length = chain.clusters.length - 1 := by
  rw [links, List.length_zip, List.length_tail]
  omega

/-- No place is left where a chain goes back or too far on. -/
theorem jumpless_iff :
    (∀ link ∈ chain.links, ¬ Jump threshold link.1 link.2) ↔
      ∀ place current next, chain.clusters[place]? = some current →
        chain.clusters[place + 1]? = some next →
          current ≤ next ∧ next ≤ current + threshold := by
  have calm (current next : Nat) : ¬ Jump threshold current next ↔
      current ≤ next ∧ next ≤ current + threshold := by
    unfold Jump Nat.dist
    omega
  simp only [calm]
  constructor
  · intro each place current next here there
    exact each (current, next) (List.mem_of_getElem? (getElem?_links.mpr ⟨here, there⟩))
  · intro each link member
    obtain ⟨place, found⟩ := List.mem_iff_getElem?.mp member
    obtain ⟨here, there⟩ := getElem?_links.mp found
    exact each place link.1 link.2 here there

theorem isCorrupted_eq_false_iff :
    (chain.damage threshold).isCorrupted = false ↔
      chain.termination = .endOfChain ∧ chain.repeated = [] ∧
        ∀ link ∈ chain.links, ¬ Jump threshold link.1 link.2 := by
  have none : 0 < chain.links.countP isBackJump + chain.links.countP (isLargeGap threshold)
      + chain.repeated.length ↔
      ¬ (chain.repeated = [] ∧ ∀ link ∈ chain.links, ¬ Jump threshold link.1 link.2) := by
    rw [← List.length_eq_zero_iff]
    have calm : (∀ link ∈ chain.links, ¬ Jump threshold link.1 link.2) ↔
        chain.links.countP isBackJump = 0 ∧ chain.links.countP (isLargeGap threshold) = 0 := by
      simp only [List.countP_eq_zero, ← forall₂_and, ← not_or, ← isJump_iff, Bool.or_eq_true]
    rw [calm]
    omega
  simp only [damage, Bool.or_eq_false_iff, decide_eq_false_iff_not, none, not_not, ne_eq]

/-- The suspects are the destinations of jumps and then the other clusters that came up again. -/
theorem exists_suspects (threshold : Nat) (chain : Chain) :
    ∃ jumped again, (chain.damage threshold).suspects = jumped ++ again ∧
      (∀ cluster, cluster ∈ jumped ↔ (chain.jumpsTo threshold cluster).Nonempty) ∧
      (jumped.Pairwise fun first second => ∃ place ∈ chain.jumpsTo threshold first,
        ∀ other ∈ chain.jumpsTo threshold second, place < other) ∧
      (∀ cluster, cluster ∈ again ↔ cluster ∈ chain.repeated ∧ cluster ∉ jumped) ∧
      again.Pairwise (Precedes chain.repeated) := by
  let jumped := (chain.destinations threshold).eraseDups
  let others := chain.repeated.filter fun cluster =>
    !(chain.destinations threshold).elem cluster
  have other {cluster : Nat} : cluster ∈ others ↔
      cluster ∈ chain.repeated ∧ cluster ∉ chain.destinations threshold := by
    simp [others]
  refine ⟨jumped, others.eraseDups, List.eraseDups_append, ?_, ?_, ?_, ?_⟩
  · intro cluster
    exact List.mem_eraseDups.trans mem_destinations
  · exact (pairwise_eraseDups _).imp exists_jump_of_precedes
  · intro cluster
    rw [List.mem_eraseDups, other, List.mem_eraseDups]
  · refine (pairwise_eraseDups others).imp_of_mem ?_
    intro first second _ member precedes
    have kept := other.mp (List.mem_eraseDups.mp member)
    exact precedes.of_filter (by simpa using kept.2)

/-- A step to the next number is no jump. -/
theorem Jump.ne_succ {current next : Nat} (jump : Jump threshold current next)
    (positive : 1 ≤ threshold) : next ≠ current + 1 := by
  unfold Jump Nat.dist at jump
  omega

theorem fragmentation_damage (threshold : Nat) (chain : Chain) :
    (chain.damage threshold).fragmentation = if chain.clusters.length ≤ 1 then 0.0
      else Number.ratio chain.breaks (chain.clusters.length - 1) := by
  have empty : chain.links = [] ↔ chain.clusters.length ≤ 1 := by
    rw [← List.length_eq_zero_iff, length_links]
    omega
  simp only [damage, empty, length_links]

theorem scored_damage (positive : 1 ≤ threshold)
    (inside : ∀ cluster ∈ chain.clusters, 2 ≤ cluster ∧ cluster < UInt32.size) :
    chain.Scored threshold (chain.damage threshold) where
  backJumps := countP_links _ _ fun _ _ => decide_eq_true_iff
  largeGaps := countP_links _ _ fun _ _ => isLargeGap_iff
  repeated := rfl
  distinct := nodup_eraseDups _
  suspects := exists_suspects threshold chain
  breaks := by
    rw [breaks_eq inside]
    exact countP_links _ _ fun _ _ => decide_eq_true_iff
  fragmentation := fragmentation_damage threshold chain
  jump_breaks := by
    intro place member
    obtain ⟨link, found, jump⟩ := mem_places.mp member
    exact mem_places.mpr ⟨link, found, jump.ne_succ positive⟩
  backJumps_le := by
    rw [breaks_eq inside]
    apply List.countP_mono_left
    intro link _ back
    have jump : Jump threshold link.1 link.2 := .inl (of_decide_eq_true back)
    exact decide_eq_true (jump.ne_succ positive)
  largeGaps_le := by
    rw [breaks_eq inside]
    apply List.countP_mono_left
    intro link _ large
    have jump : Jump threshold link.1 link.2 := .inr (isLargeGap_iff.mp large)
    exact decide_eq_true (jump.ne_succ positive)
  unbroken_iff := by
    rw [breaks_eq inside, List.countP_eq_zero, ← consecutive_iff]
    simp [links]
  sound_iff := by
    rw [isCorrupted_eq_false_iff, jumpless_iff]

/-- For a chain of clusters from 2 on, and a threshold of at least one, the damage counts and lists
what it is said to. -/
theorem damage_scored (threshold : Nat) (chain : Chain)
    (inside : ∀ cluster ∈ chain.clusters, 2 ≤ cluster ∧ cluster < UInt32.size) :
    chain.Scored (max threshold 1) (chain.damage (max threshold 1)) :=
  scored_damage (Nat.le_max_right threshold 1) inside

/-- A chain with a link of each kind: to the next number, on by less than the threshold, too far
on, back, too far back, and back once more to a cluster that was jumped to before. -/
def winding : Chain :=
  ⟨1, [20, 21, 25, 60, 59, 7, 60, 59], [25, 7, 25], 0, false, .looped⟩

theorem damage_scored_winding :
    (∀ cluster ∈ winding.clusters, 2 ≤ cluster ∧ cluster < UInt32.size) ∧
      (winding.damage 10).suspects = [60, 59, 7, 25] ∧ winding.breaks = 6 ∧
      winding.Scored 10 (winding.damage 10) := by
  have inside : ∀ cluster ∈ winding.clusters, 2 ≤ cluster ∧ cluster < UInt32.size := by decide
  exact ⟨inside, by decide, by decide, damage_scored 10 winding inside⟩

end Chain

end Undelete
