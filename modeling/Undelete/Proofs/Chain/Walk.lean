import Mathlib.Data.List.Nodup
import Undelete.Chain.Walk
import Undelete.Proofs.Volume.Cache

/-!
What the walk along a file's clusters returns. Whatever the FAT holds, the clusters are valid and
distinct, each follows from the one before it, and the last one tells why the walk ended there.
Along the FAT's own links a walk misses nothing that lies within its cap.
-/

namespace Undelete

/-- Clusters, newest first, of which each follows from the one before it. -/
def Walker.Linked (walker : Walker) (fat : Nat → Except Failure FatEntry) (expected : Nat) :
    List Nat → Prop
  | newer :: older :: rest =>
    (∃ guessed, walker.link expected (rest.length + 1) older (fat older) = .go newer guessed) ∧
      Linked walker fat expected (older :: rest)
  | _ => True

/-- What a chain says about the end of its walk, in agreement with its last cluster. A successor
outside the volume counts before the cap, and the cap before a successor that came up already. -/
def Walker.Ended (walker : Walker) (g : Geometry) (fat : Nat → Except Failure FatEntry)
    (expected limit : Nat) (chain : Chain) (last : Nat) : Prop :=
  match walker.link expected chain.clusters.length last (fat last) with
  | .unreadable =>
    chain.repeated = [] ∧ chain.readFailed = true ∧ chain.termination = .truncated
  | .stop termination =>
    chain.repeated = [] ∧ chain.readFailed = false ∧ chain.termination = termination
  | .go next _ =>
    chain.readFailed = false ∧
      if ¬ g.Valid next then chain.repeated = [] ∧ chain.termination = .outOfRange
      else if chain.clusters.length = limit then
        chain.repeated = [] ∧ chain.termination = .truncated
      else next ∈ chain.clusters ∧ chain.repeated = [next] ∧ chain.termination = .looped

/-- The chain of a walk from `start` that takes at most `limit` clusters. -/
structure Walker.Walked (walker : Walker) (g : Geometry) (fat : Nat → Except Failure FatEntry)
    (start expected limit : Nat) (chain : Chain) : Prop where
  first : chain.clusters.head? = some start
  valid : ∀ cluster ∈ chain.clusters, g.Valid cluster
  nodup : chain.clusters.Nodup
  length_le : chain.clusters.length ≤ limit
  linked : walker.Linked fat expected chain.clusters.reverse
  ended : ∃ last, chain.clusters.getLast? = some last ∧
    walker.Ended g fat expected limit chain last

namespace Walker

variable {walker : Walker} {g : Geometry} {source : Source}
  {fat : Nat → Except Failure FatEntry} {fileId start expected limit : Nat}

theorem Linked.tail {newest : Nat} {older : List Nat}
    (linked : walker.Linked fat expected (newest :: older)) :
    walker.Linked fat expected older := by
  cases older with
  | nil => trivial
  | cons _ _ => exact linked.2

theorem Linked.between {newer older : Nat} (before : List Nat) {rest : List Nat}
    (linked : walker.Linked fat expected (before ++ newer :: older :: rest)) :
    ∃ guessed, walker.link expected (rest.length + 1) older (fat older) = .go newer guessed := by
  induction before with
  | nil => exact linked.1
  | cons _ before ih => exact ih linked.tail

/-- One step of the walk, with the FAT entry read from the source. -/
theorem follow_answer (spare : Nat) (seen : Std.TreeSet Nat) (trail : List Nat)
    (inferred current : Nat) :
    (walker.follow g fileId expected spare seen trail inferred current).answer source g =
      if current ∈ seen then ⟨fileId, trail.reverse, [current], inferred, false, .looped⟩
      else
        let clusters := (current :: trail).reverse
        match walker.link expected (trail.length + 1) current (source.fatEntry g current) with
        | .unreadable => ⟨fileId, clusters, [], inferred, true, .truncated⟩
        | .stop termination => ⟨fileId, clusters, [], inferred, false, termination⟩
        | .go next guessed =>
          let inferred := if guessed then inferred + 1 else inferred
          if ¬ g.Valid next then ⟨fileId, clusters, [], inferred, false, .outOfRange⟩
          else match spare with
            | 0 => ⟨fileId, clusters, [], inferred, false, .truncated⟩
            | spare + 1 =>
              (walker.follow g fileId expected spare (seen.insert current) (current :: trail)
                inferred next).answer source g := by
  rw [follow.eq_def]
  by_cases known : current ∈ seen
  · simp only [if_pos known, Probe.answer_pure]
  · simp only [if_neg known, Probe.answer_bind, Probe.answer_entryOf, List.length_cons]
    cases walker.link expected (trail.length + 1) current (source.fatEntry g current) with
    | unreadable => rfl
    | stop termination => rfl
    | go next guessed =>
      by_cases valid : g.Valid next
      · cases spare <;> simp [valid]
      · simp [valid]

/-- The state of a walk that has taken `trail`, newest first, and comes to `current`. -/
structure Underway (walker : Walker) (g : Geometry) (fat : Nat → Except Failure FatEntry)
    (start expected : Nat) (seen : Std.TreeSet Nat) (trail : List Nat) (current : Nat) : Prop where
  same : ∀ cluster, cluster ∈ seen ↔ cluster ∈ trail
  nodup : trail.Nodup
  valid : ∀ cluster ∈ current :: trail, g.Valid cluster
  linked : walker.Linked fat expected (current :: trail)
  first : (current :: trail).getLast? = some start

theorem Underway.step {seen : Std.TreeSet Nat} {trail : List Nat} {current next : Nat}
    {guessed : Bool} (underway : Underway walker g fat start expected seen trail current)
    (fresh : current ∉ seen)
    (link : walker.link expected (trail.length + 1) current (fat current) = .go next guessed)
    (valid : g.Valid next) :
    Underway walker g fat start expected (seen.insert current) (current :: trail) next where
  same cluster := by
    simp only [Std.TreeSet.mem_insert, Std.LawfulEqCmp.compare_eq_iff_eq, List.mem_cons,
      underway.same]
    exact or_congr_left eq_comm
  nodup := List.nodup_cons.mpr ⟨fun old => fresh ((underway.same current).mpr old), underway.nodup⟩
  valid := by
    intro cluster member
    rcases List.mem_cons.mp member with rfl | old
    · exact valid
    · exact underway.valid cluster old
  linked := ⟨⟨guessed, link⟩, underway.linked⟩
  first := by
    rw [List.getLast?_cons_cons]
    exact underway.first

/-- A walk that comes back to a cluster it has taken keeps the chain as it was. -/
theorem Underway.looped {seen : Std.TreeSet Nat} {trail : List Nat} {current : Nat}
    (inferred : Nat) (underway : Underway walker g fat start expected seen trail current)
    (known : current ∈ seen) (room : trail.length < limit) :
    walker.Walked g fat start expected limit
      ⟨fileId, trail.reverse, [current], inferred, false, .looped⟩ := by
  have old : current ∈ trail := (underway.same current).mp known
  cases trail with
  | nil => cases old
  | cons last older =>
    obtain ⟨guessed, link⟩ := underway.linked.1
    refine ⟨?_, ?_, ?_, ?_, ?_, last, ?_, ?_⟩
    · rw [List.head?_reverse, ← underway.first, List.getLast?_cons_cons]
    · intro cluster member
      exact underway.valid cluster (List.mem_cons_of_mem _ (List.mem_reverse.mp member))
    · exact List.nodup_reverse.mpr underway.nodup
    · simp only [List.length_reverse]
      omega
    · rw [List.reverse_reverse]
      exact underway.linked.tail
    · simp
    · have valid := underway.valid current List.mem_cons_self
      have short : (last :: older).reverse.length ≠ limit := by
        rw [List.length_reverse]
        omega
      simp only [Ended, List.length_reverse, List.length_cons, link, valid, not_true, if_false]
      simp only [List.length_reverse, List.length_cons] at short
      rw [if_neg short]
      exact ⟨trivial, List.mem_reverse.mpr old, trivial, trivial⟩

/-- A walk that ends at a new cluster keeps that cluster. -/
theorem Underway.ended {seen : Std.TreeSet Nat} {trail : List Nat} {current : Nat}
    (underway : Underway walker g fat start expected seen trail current)
    (fresh : current ∉ seen) (room : trail.length < limit) {chain : Chain}
    (clusters : chain.clusters = (current :: trail).reverse)
    (ended : walker.Ended g fat expected limit chain current) :
    walker.Walked g fat start expected limit chain where
  first := by rw [clusters, List.head?_reverse, underway.first]
  valid cluster member := by
    rw [clusters, List.mem_reverse] at member
    exact underway.valid cluster member
  nodup := by
    rw [clusters, List.nodup_reverse, List.nodup_cons]
    exact ⟨fun old => fresh ((underway.same current).mpr old), underway.nodup⟩
  length_le := by
    rw [clusters, List.length_reverse, List.length_cons]
    omega
  linked := by rw [clusters, List.reverse_reverse]; exact underway.linked
  ended := ⟨current, by simp [clusters], ended⟩

/-- The walk goes on as `Walked` says from any state that it can be in. The induction is on the
clusters that may still follow. -/
theorem follow_walked (spare : Nat) (seen : Std.TreeSet Nat) (trail : List Nat)
    (inferred current : Nat)
    (underway : Underway walker g (source.fatEntry g) start expected seen trail current)
    (room : trail.length + spare + 1 = limit) :
    walker.Walked g (source.fatEntry g) start expected limit
      ((walker.follow g fileId expected spare seen trail inferred current).answer source g) := by
  induction spare using Nat.strongRecOn generalizing seen trail inferred current with
  | ind spare ih =>
    have short : trail.length < limit := by omega
    rw [follow_answer]
    by_cases known : current ∈ seen
    · rw [if_pos known]
      exact underway.looped inferred known short
    rw [if_neg known]
    cases link : walker.link expected (trail.length + 1) current (source.fatEntry g current) with
    | unreadable => exact underway.ended known short rfl (by simp [Ended, link])
    | stop termination => exact underway.ended known short rfl (by simp [Ended, link])
    | go next guessed =>
      by_cases valid : g.Valid next
      · simp only [valid, not_true, if_false]
        cases spare with
        | zero => exact underway.ended known short rfl (by simp [Ended, link, valid, ← room])
        | succ spare =>
          apply ih spare (Nat.lt_succ_self spare)
          · exact underway.step known link valid
          · simp only [List.length_cons]
            omega
      · simp only [valid, not_false_eq_true, if_true]
        exact underway.ended known short rfl (by simp [Ended, link, valid])

theorem walkFrom_walked (walker : Walker) (g : Geometry) (source : Source)
    (fileId expected limit : Nat) {start : Nat} (valid : g.Valid start) :
    walker.Walked g (source.fatEntry g) start expected (max limit 1)
      ((walker.walkFrom g fileId start expected limit).answer source g) := by
  rw [walkFrom, if_pos valid]
  apply follow_walked
  · exact ⟨by simp, List.nodup_nil, by simpa using valid, trivial, rfl⟩
  · simp only [List.length_nil]
    omega

theorem walkFrom_of_invalid (walker : Walker) {g : Geometry} (source : Source)
    (fileId expected limit : Nat) {start : Nat} (invalid : ¬ g.Valid start) :
    (walker.walkFrom g fileId start expected limit).answer source g =
      ⟨fileId, [], [], 0, false, .outOfRange⟩ := by
  rw [walkFrom, if_neg invalid]
  rfl

theorem nodup_walkFrom (walker : Walker) (g : Geometry) (source : Source)
    (fileId start expected limit : Nat) :
    ((walker.walkFrom g fileId start expected limit).answer source g).clusters.Nodup := by
  by_cases valid : g.Valid start
  · exact (walkFrom_walked walker g source fileId expected limit valid).nodup
  · rw [walkFrom_of_invalid walker source fileId expected limit valid]
    exact List.nodup_nil

theorem valid_walkFrom (walker : Walker) (g : Geometry) (source : Source)
    (fileId start expected limit : Nat) :
    ∀ cluster ∈ ((walker.walkFrom g fileId start expected limit).answer source g).clusters,
      g.Valid cluster := by
  by_cases valid : g.Valid start
  · exact (walkFrom_walked walker g source fileId expected limit valid).valid
  · rw [walkFrom_of_invalid walker source fileId expected limit valid]
    simp

theorem fileId_follow (spare : Nat) (seen : Std.TreeSet Nat) (trail : List Nat)
    (inferred current : Nat) :
    ((walker.follow g fileId expected spare seen trail inferred current).answer source g).fileId =
      fileId := by
  induction spare using Nat.strongRecOn generalizing seen trail inferred current with
  | ind spare ih =>
    rw [follow_answer]
    split
    · rfl
    · simp only
      split
      · rfl
      · rfl
      · split
        · rfl
        · split
          · rfl
          next spare => exact ih spare (Nat.lt_succ_self spare) ..

theorem fileId_walkFrom (walker : Walker) (g : Geometry) (source : Source)
    (fileId start expected limit : Nat) :
    ((walker.walkFrom g fileId start expected limit).answer source g).fileId = fileId := by
  unfold walkFrom
  split
  · exact fileId_follow ..
  · rfl

end Walker

/-- The clusters that the FAT's links lead to from `start` inside the volume, each with how many
links lead to it. -/
inductive Geometry.FatTrail (g : Geometry) (fat : Nat → Except Failure FatEntry) (start : Nat) :
    Nat → Nat → Prop
  | start : g.Valid start → FatTrail g fat start 0 start
  | link {links cluster next : Nat} : FatTrail g fat start links cluster →
    fat cluster = .ok (.next next) → g.Valid next → FatTrail g fat start (links + 1) next

theorem Geometry.FatTrail.valid_start {g : Geometry} {fat : Nat → Except Failure FatEntry}
    {start links cluster : Nat} (trail : g.FatTrail fat start links cluster) : g.Valid start := by
  induction trail with
  | start valid => exact valid
  | link _ _ _ ih => exact ih

namespace Walker

variable {walker : Walker} {g : Geometry} {fat : Nat → Except Failure FatEntry}
  {start expected limit : Nat} {chain : Chain}

/-- A link that starts inside a chain leads to a place not much farther along it, unless the cap
ended the walk just there. -/
theorem Walked.next_mem (walked : walker.Walked g fat start expected limit chain)
    {newer rest : List Nat} {cluster next : Nat}
    (split : chain.clusters.reverse = newer ++ cluster :: rest)
    (link : fat cluster = .ok (.next next)) (valid : g.Valid next)
    (within : rest.length + 1 < limit) :
    ∃ newer rest', chain.clusters.reverse = newer ++ next :: rest' ∧
      rest'.length ≤ rest.length + 1 := by
  obtain rfl | ⟨before, newest, rfl⟩ := List.eq_nil_or_concat' newer
  -- At the chain's last cluster the cap is not reached, so the walk ended because it came back.
  · obtain ⟨last, found, ended⟩ := walked.ended
    have length : chain.clusters.length = rest.length + 1 := by
      rw [← List.length_reverse, split]
      rfl
    have same : last = cluster := by
      rw [← List.head?_reverse, split] at found
      exact (Option.some.inj found).symm
    subst same
    have short : chain.clusters.length ≠ limit := by omega
    simp only [Ended, link, Walker.link, valid, not_true, if_false, if_neg short] at ended
    obtain ⟨newer, rest', again⟩ := List.append_of_mem (List.mem_reverse.mpr ended.2.1)
    refine ⟨newer, rest', again, ?_⟩
    have total := congrArg List.length again
    simp only [List.length_reverse, List.length_append, List.length_cons] at total
    omega
  -- Anywhere else the link leads to the next cluster of the chain.
  · have linked := walked.linked
    rw [split, List.append_assoc] at linked
    obtain ⟨guessed, onward⟩ := linked.between before
    simp only [link, Walker.link, Link.go.injEq] at onward
    refine ⟨before, cluster :: rest, ?_, Nat.le_refl _⟩
    rw [split, onward.1, List.append_assoc]
    rfl

/-- Every cluster that fewer than `limit` links of the FAT lead to is part of the chain. -/
theorem Walked.mem_of_fatTrail (walked : walker.Walked g fat start expected limit chain)
    {links cluster : Nat} (trail : g.FatTrail fat start links cluster) (within : links < limit) :
    cluster ∈ chain.clusters := by
  suffices placed : ∃ newer rest, chain.clusters.reverse = newer ++ cluster :: rest ∧
      rest.length ≤ links by
    obtain ⟨newer, rest, split, -⟩ := placed
    rw [← List.mem_reverse, split]
    simp
  induction trail with
  | start _ =>
    obtain ⟨older, split⟩ := List.head?_eq_some_iff.mp walked.first
    refine ⟨older.reverse, [], ?_, Nat.le_refl _⟩
    rw [split, List.reverse_cons]
  | @link links cluster next _ link valid ih =>
    obtain ⟨newer, rest, split, close⟩ := ih (by omega)
    obtain ⟨newer', rest', split', close'⟩ := walked.next_mem split link valid (by omega)
    exact ⟨newer', rest', split', by omega⟩

end Walker

end Undelete
