import Undelete.Proofs.Chain.Walk
import Undelete.Proofs.Volume.Addressing
import Undelete.Proofs.Volume.Requests

/-!
The bounded walk as a rule. From a valid start each cluster leads to the one that its FAT entry
names or, where the entry is free and the file needs more clusters, to the next number, and the
last cluster tells why the walk went no farther. There is exactly one such chain, and the walk
finds it with one look at the FAT entry of each of its clusters.
-/

namespace Undelete

namespace Walker

section

variable (walker : Walker) (g : Geometry) (fat : Nat → Except Failure FatEntry)
  (expected limit : Nat)

/-- Whether the successor of a cluster is guessed: the FAT has none, and the clusters taken so far,
this one included, are fewer than the file needs. -/
def Guesses (taken cluster : Nat) : Prop :=
  fat cluster = .ok .free ∧ walker.contiguous = true ∧ taken < expected

instance (taken cluster : Nat) : Decidable (walker.Guesses fat expected taken cluster) :=
  inferInstanceAs (Decidable (_ ∧ _ ∧ _))

/-- Whether a cluster, the last of those taken so far, leads to another. -/
def Leads (taken cluster next : Nat) : Prop :=
  fat cluster = .ok (.next next) ∨ walker.Guesses fat expected taken cluster ∧ next = cluster + 1

/-- Why a walk went no farther than the last of its clusters, with what it noted about that. -/
inductive Ends (clusters : List Nat) (last : Nat) :
    (repeated : List Nat) → (readFailed : Bool) → Termination → Prop
  | unreadable {failure : Failure} (read : fat last = .error failure) :
    Ends clusters last [] true .truncated
  | marked (read : fat last = .ok .endOfChain) : Ends clusters last [] false .endOfChain
  | covered (read : fat last = .ok .free) (contiguous : walker.contiguous = true)
    (enough : expected ≤ clusters.length) : Ends clusters last [] false .endOfChain
  | spoilt (read : fat last = .ok .bad ∨ fat last = .ok .reserved) :
    Ends clusters last [] false .invalid
  | cleared (read : fat last = .ok .free) (strict : walker.contiguous = false) :
    Ends clusters last [] false .invalid
  | outside {next : Nat} (leads : walker.Leads fat expected clusters.length last next)
    (invalid : ¬ g.Valid next) : Ends clusters last [] false .outOfRange
  | capped {next : Nat} (leads : walker.Leads fat expected clusters.length last next)
    (valid : g.Valid next) (full : clusters.length = max limit 1) :
    Ends clusters last [] false .truncated
  | looped {next : Nat} (leads : walker.Leads fat expected clusters.length last next)
    (valid : g.Valid next) (room : clusters.length < max limit 1) (taken : next ∈ clusters) :
    Ends clusters last [next] false .looped

/-- From how many of the clusters that follow so many others the successor is guessed. -/
def guesses (before : Nat) (clusters : List Nat) : Nat :=
  (clusters.zipIdx (before + 1)).countP fun (cluster, taken) =>
    walker.Guesses fat expected taken cluster

/-- The chain of a bounded walk from a valid start. -/
structure Bounded (fileId start : Nat) (chain : Chain) : Prop where
  owner : chain.fileId = fileId
  first : chain.clusters.head? = some start
  valid : ∀ cluster ∈ chain.clusters, g.Valid cluster
  nodup : chain.clusters.Nodup
  length_le : chain.clusters.length ≤ max limit 1 ∧ chain.clusters.length ≤ g.clusterCount
  leads : ∀ index (inside : index + 1 < chain.clusters.length),
    walker.Leads fat expected (index + 1) chain.clusters[index] chain.clusters[index + 1]
  /-- A guess from the last cluster counts, although the walk did not go there. -/
  inferred : chain.inferred = walker.guesses fat expected 0 chain.clusters
  ends : ∃ last, chain.clusters.getLast? = some last ∧ walker.Ends g fat expected limit
    chain.clusters last chain.repeated chain.readFailed chain.termination

/-- What a walk from any start has to find. -/
def IsWalk (fileId start : Nat) (chain : Chain) : Prop :=
  if g.Valid start then walker.Bounded g fat expected limit fileId start chain
  else chain = ⟨fileId, [], [], 0, false, .outOfRange⟩

end

variable {walker : Walker} {g : Geometry} {fat : Nat → Except Failure FatEntry}
  {expected limit taken cluster next other : Nat}

@[simp] theorem guesses_nil (before : Nat) : walker.guesses fat expected before [] = 0 := rfl

theorem guesses_cons (before : Nat) (clusters : List Nat) :
    walker.guesses fat expected before (cluster :: clusters) =
      walker.guesses fat expected before [cluster] +
        walker.guesses fat expected (before + 1) clusters := by
  simp only [guesses, List.zipIdx_cons, List.zipIdx_nil, List.countP_cons, List.countP_nil]
  omega

@[simp] theorem guesses_singleton (before : Nat) :
    walker.guesses fat expected before [cluster] =
      if walker.Guesses fat expected (before + 1) cluster then 1 else 0 := by
  simp [guesses, List.countP_cons]

theorem guesses_le (before : Nat) (clusters : List Nat) :
    walker.guesses fat expected before clusters ≤ clusters.length := by
  have fewer := List.countP_le_length (l := clusters.zipIdx (before + 1))
    (p := fun (cluster, taken) => walker.Guesses fat expected taken cluster)
  rwa [List.length_zipIdx] at fewer

/-- What an entry says about the walk, read off the entry itself. -/
theorem entry_cases (walker : Walker) (fat : Nat → Except Failure FatEntry)
    (expected taken cluster : Nat) :
    (∃ failure, fat cluster = .error failure) ∨ fat cluster = .ok .endOfChain ∨
      (fat cluster = .ok .bad ∨ fat cluster = .ok .reserved) ∨
      (fat cluster = .ok .free ∧ walker.contiguous = false) ∨
      (fat cluster = .ok .free ∧ walker.contiguous = true ∧ expected ≤ taken) ∨
      ∃ next, walker.Leads fat expected taken cluster next := by
  unfold Leads Guesses
  cases fat cluster with
  | error failure => exact .inl ⟨failure, rfl⟩
  | ok entry =>
    cases entry with
    | free =>
      by_cases enough : expected ≤ taken
      · cases walker.contiguous <;> simp [enough]
      · cases walker.contiguous <;> simp [Nat.lt_of_not_le enough]
    | next successor => simp
    | _ => simp

/-- A step of the walk goes where the cluster leads, and tells whether that was guessed. -/
theorem link_eq_go {guessed : Bool} :
    walker.link expected taken cluster (fat cluster) = .go next guessed ↔
      walker.Leads fat expected taken cluster next ∧
        (guessed = true ↔ walker.Guesses fat expected taken cluster) := by
  unfold Leads Guesses
  cases fat cluster with
  | error failure => simp [link]
  | ok entry =>
    cases entry with
    | free =>
      cases contiguous : walker.contiguous with
      | false => simp [link, contiguous]
      | true => by_cases enough : expected ≤ taken <;> grind [link]
    | next successor => grind [link]
    | _ => simp [link]

theorem link_of_leads (leads : walker.Leads fat expected taken cluster next) :
    walker.link expected taken cluster (fat cluster) =
      .go next (walker.Guesses fat expected taken cluster) :=
  link_eq_go.mpr ⟨leads, decide_eq_true_iff⟩

theorem Leads.unique (one : walker.Leads fat expected taken cluster next)
    (two : walker.Leads fat expected taken cluster other) : next = other := by
  have same := (link_of_leads one).symm.trans (link_of_leads two)
  exact (Link.go.inj same).1

section

variable {chain : Chain} {last : Nat}

theorem ended_of_ends (ends : walker.Ends g fat expected limit chain.clusters last chain.repeated
    chain.readFailed chain.termination) : walker.Ended g fat expected (max limit 1) chain last := by
  obtain ⟨fileId, clusters, repeated, inferred, readFailed, termination⟩ := chain
  dsimp only at ends
  cases ends with
  | unreadable read => simp [Ended, link, read]
  | marked read => simp [Ended, link, read]
  | covered read contiguous enough => simp [Ended, link, read, contiguous, enough]
  | spoilt read => rcases read with read | read <;> simp [Ended, link, read]
  | cleared read strict => simp [Ended, link, read, strict]
  | outside leads invalid =>
    simp [Ended, link_of_leads leads, invalid]
  | capped leads valid full =>
    simp only [Ended, link_of_leads leads, valid, not_true, if_false, if_pos full]
    exact ⟨trivial, trivial, trivial⟩
  | looped leads valid room taken =>
    simp [Ended, link_of_leads leads, valid, Nat.ne_of_lt room, taken]

theorem ends_of_ended (length_le : chain.clusters.length ≤ max limit 1)
    (ended : walker.Ended g fat expected (max limit 1) chain last) :
    walker.Ends g fat expected limit chain.clusters last chain.repeated chain.readFailed
      chain.termination := by
  obtain ⟨fileId, clusters, repeated, inferred, readFailed, termination⟩ := chain
  dsimp only at length_le ⊢
  unfold Ended at ended
  rcases entry_cases walker fat expected clusters.length last with
    ⟨failure, read⟩ | read | read | ⟨read, strict⟩ | ⟨read, contiguous, enough⟩ | ⟨next, leads⟩
  · simp only [link, read] at ended
    obtain ⟨rfl, rfl, rfl⟩ := ended
    exact .unreadable read
  · simp only [link, read] at ended
    obtain ⟨rfl, rfl, rfl⟩ := ended
    exact .marked read
  · have stops : walker.link expected clusters.length last (fat last) = .stop .invalid := by
      rcases read with read | read <;> simp [link, read]
    simp only [stops] at ended
    obtain ⟨rfl, rfl, rfl⟩ := ended
    exact .spoilt read
  · simp only [link, read, strict] at ended
    obtain ⟨rfl, rfl, rfl⟩ := ended
    exact .cleared read strict
  · simp only [link, read, contiguous, enough] at ended
    obtain ⟨rfl, rfl, rfl⟩ := ended
    exact .covered read contiguous enough
  · simp only [link_of_leads leads] at ended
    obtain ⟨rfl, ended⟩ := ended
    split at ended
    next invalid =>
      obtain ⟨rfl, rfl⟩ := ended
      exact .outside leads invalid
    next valid =>
      have valid := Decidable.not_not.mp valid
      split at ended
      next full =>
        obtain ⟨rfl, rfl⟩ := ended
        exact .capped leads valid full
      next short =>
        obtain ⟨taken, rfl, rfl⟩ := ended
        exact .looped leads valid (Nat.lt_of_le_of_ne length_le short) taken

/-- What a walk noted about its end is determined by its clusters. -/
theorem Ends.unique {clusters repeated repeated' : List Nat} {readFailed readFailed' : Bool}
    {termination termination' : Termination}
    (one : walker.Ends g fat expected limit clusters last repeated readFailed termination)
    (two : walker.Ends g fat expected limit clusters last repeated' readFailed' termination') :
    repeated = repeated' ∧ readFailed = readFailed' ∧ termination = termination' := by
  have first : walker.Ended g fat expected (max limit 1)
      ⟨0, clusters, repeated, 0, readFailed, termination⟩ last := ended_of_ends one
  have second : walker.Ended g fat expected (max limit 1)
      ⟨0, clusters, repeated', 0, readFailed', termination'⟩ last := ended_of_ends two
  unfold Ended at first second
  dsimp only at first second
  split at first
  next stops => grind
  next stops => grind
  next stops => grind

end

/-- A walk that ends at a cluster has no way on from there. -/
theorem Ends.stops {clusters repeated : List Nat} {last : Nat} {readFailed : Bool}
    {termination : Termination}
    (ends : walker.Ends g fat expected limit clusters last repeated readFailed termination)
    (leads : walker.Leads fat expected clusters.length last next) (valid : g.Valid next)
    (fresh : next ∉ clusters) : max limit 1 ≤ clusters.length := by
  cases ends with
  | unreadable read => simp [Leads, Guesses, read] at leads
  | marked read => simp [Leads, Guesses, read] at leads
  | covered read _ enough =>
    rcases leads with onward | ⟨⟨_, _, more⟩, _⟩
    · cases read.symm.trans onward
    · omega
  | spoilt read => rcases read with read | read <;> simp [Leads, Guesses, read] at leads
  | cleared read strict => simp [Leads, Guesses, read, strict] at leads
  | outside leads' invalid => exact absurd (leads.unique leads' ▸ valid) invalid
  | capped _ _ full => exact Nat.le_of_eq full.symm
  | looped leads' _ _ taken => exact absurd (leads.unique leads' ▸ taken) fresh

namespace Bounded

section

variable {fileId start : Nat} {one two chain : Chain}

theorem length_pos (bounded : walker.Bounded g fat expected limit fileId start chain) :
    0 < chain.clusters.length := by
  obtain ⟨rest, split⟩ := List.head?_eq_some_iff.mp bounded.first
  rw [split]
  exact Nat.zero_lt_succ _

/-- Two walks take the same clusters as far as both go. -/
theorem getElem_eq (first : walker.Bounded g fat expected limit fileId start one)
    (second : walker.Bounded g fat expected limit fileId start two) (index : Nat)
    (inside : index < one.clusters.length) (inside' : index < two.clusters.length) :
    one.clusters[index] = two.clusters[index] := by
  induction index with
  | zero =>
    have same := first.first.trans second.first.symm
    rwa [List.head?_eq_getElem?, List.head?_eq_getElem?, List.getElem?_eq_getElem inside,
      List.getElem?_eq_getElem inside', Option.some_inj] at same
  | succ index ih =>
    have leads := first.leads index inside
    rw [ih (Nat.lt_of_succ_lt inside) (Nat.lt_of_succ_lt inside')] at leads
    exact leads.unique (second.leads index inside')

/-- No walk stops where another goes on. -/
theorem length_le_length (first : walker.Bounded g fat expected limit fileId start one)
    (second : walker.Bounded g fat expected limit fileId start two) :
    two.clusters.length ≤ one.clusters.length := by
  apply Nat.le_of_not_lt
  intro shorter
  have positive := first.length_pos
  obtain ⟨last, found, ends⟩ := first.ends
  have before : one.clusters.length - 1 + 1 = one.clusters.length := Nat.sub_add_cancel positive
  have at_last : last = two.clusters[one.clusters.length - 1] := by
    rw [List.getLast?_eq_getElem?, List.getElem?_eq_getElem (by omega), Option.some_inj] at found
    rw [← found]
    exact getElem_eq first second _ (by omega) (by omega)
  have leads := second.leads (one.clusters.length - 1) (by omega)
  simp only [before, ← at_last] at leads
  have fresh : two.clusters[one.clusters.length] ∉ one.clusters := by
    intro member
    obtain ⟨index, inside, same⟩ := List.getElem_of_mem member
    rw [getElem_eq first second index inside (by omega)] at same
    have := (second.nodup.getElem_inj_iff).mp same
    omega
  have full := ends.stops leads (second.valid _ (List.getElem_mem _)) fresh
  have := second.length_le.1
  omega

theorem unique (first : walker.Bounded g fat expected limit fileId start one)
    (second : walker.Bounded g fat expected limit fileId start two) : one = two := by
  have clusters : one.clusters = two.clusters :=
    List.ext_getElem
      (Nat.le_antisymm (length_le_length second first) (length_le_length first second))
      (getElem_eq first second)
  have owner := first.owner.trans second.owner.symm
  have inferred := first.inferred
  rw [clusters, ← second.inferred] at inferred
  obtain ⟨last, found, ends⟩ := first.ends
  obtain ⟨last', found', ends'⟩ := second.ends
  rw [clusters] at found ends
  cases found.symm.trans found'
  obtain ⟨repeated, readFailed, termination⟩ := ends.unique ends'
  cases one
  cases two
  simp only [Chain.mk.injEq]
  exact ⟨owner, clusters, repeated, inferred, readFailed, termination⟩

end

end Bounded

section

variable {source : Source} {fileId start : Nat}

/-- One step of the walk asks for one entry. -/
theorem follow_requests (spare : Nat) (seen : Std.TreeSet Nat) (trail : List Nat)
    (inferred current : Nat) :
    (walker.follow g fileId expected spare seen trail inferred current).requests source g =
      if current ∈ seen then []
      else .entry current ::
        match walker.link expected (trail.length + 1) current (source.fatEntry g current) with
        | .go next guessed =>
          if ¬ g.Valid next then []
          else match spare with
            | 0 => []
            | spare + 1 =>
              (walker.follow g fileId expected spare (seen.insert current) (current :: trail)
                (if guessed then inferred + 1 else inferred) next).requests source g
        | _ => [] := by
  rw [follow.eq_def]
  by_cases known : current ∈ seen
  · simp only [if_pos known, Probe.requests_pure]
  · simp only [if_neg known, Probe.requests_bind, Probe.requests_entryOf, Probe.answer_entryOf,
      List.length_cons, List.singleton_append]
    cases walker.link expected (trail.length + 1) current (source.fatEntry g current) with
    | unreadable => rfl
    | stop termination => rfl
    | go next guessed =>
      by_cases valid : g.Valid next
      · cases spare <;> simp [valid]
      · simp [valid]

/-- What a walk adds to the clusters that it has taken, and what it asks for on the way. The
induction is on the clusters that may still follow. -/
theorem follow_adds (walker : Walker) (g : Geometry) (source : Source) (fileId expected spare : Nat)
    (seen : Std.TreeSet Nat) (trail : List Nat) (inferred current : Nat) :
    let work := walker.follow g fileId expected spare seen trail inferred current
    ∃ added, (work.answer source g).clusters = trail.reverse ++ added ∧
      (work.answer source g).inferred =
        inferred + walker.guesses (source.fatEntry g) expected trail.length added ∧
      work.requests source g = added.map .entry := by
  induction spare using Nat.strongRecOn generalizing seen trail inferred current with
  | ind spare ih =>
    intro work
    rw [follow_answer, follow_requests]
    by_cases known : current ∈ seen
    · exact ⟨[], by simp [known]⟩
    simp only [if_neg known]
    have stays : (current :: trail).reverse = trail.reverse ++ [current] := List.reverse_cons
    cases link : walker.link expected (trail.length + 1) current (source.fatEntry g current) with
    | unreadable | stop termination =>
      have certain : ¬ walker.Guesses (source.fatEntry g) expected (trail.length + 1) current := by
        intro guesses
        rw [link_of_leads (.inr ⟨guesses, rfl⟩)] at link
        cases link
      exact ⟨[current], stays, by simp [certain], rfl⟩
    | go next guessed =>
      have counts := (link_eq_go.mp link).2
      have inferred_eq : (if guessed then inferred + 1 else inferred) =
          inferred + walker.guesses (source.fatEntry g) expected trail.length [current] := by
        cases guessed <;> simp_all
      by_cases valid : g.Valid next
      · simp only [valid, not_true, if_false]
        cases spare with
        | zero => exact ⟨[current], stays, inferred_eq, rfl⟩
        | succ spare =>
          obtain ⟨added, clusters, inferred', requests⟩ := ih spare (Nat.lt_succ_self spare)
            (seen.insert current) (current :: trail)
            (if guessed then inferred + 1 else inferred) next
          refine ⟨current :: added, ?_, ?_, ?_⟩
          · rw [clusters, stays, List.append_assoc]
            rfl
          · rw [inferred', inferred_eq, Nat.add_assoc]
            exact congrArg (inferred + ·) (guesses_cons trail.length added).symm
          · exact congrArg (Request.entry current :: ·) requests
      · simp only [valid, not_false_eq_true, if_true]
        exact ⟨[current], stays, inferred_eq, rfl⟩

/-- Along linked clusters each leads to the next. -/
theorem Linked.leads {clusters : List Nat}
    (linked : walker.Linked fat expected clusters.reverse) (index : Nat)
    (inside : index + 1 < clusters.length) :
    walker.Leads fat expected (index + 1) clusters[index] clusters[index + 1] := by
  have split : clusters = clusters.take index ++ clusters[index] :: clusters[index + 1] ::
      clusters.drop (index + 2) := by
    rw [List.getElem_cons_drop, List.getElem_cons_drop, List.take_append_drop]
  rw [split] at linked
  simp only [List.reverse_append, List.reverse_cons, List.append_assoc, List.cons_append,
    List.nil_append] at linked
  obtain ⟨guessed, link⟩ := linked.between _
  rw [List.length_reverse, List.length_take, Nat.min_eq_left (by omega)] at link
  exact (link_eq_go.mp link).1

theorem walkFrom_bounded (walker : Walker) (g : Geometry) (source : Source)
    (fileId expected limit : Nat) {start : Nat} (valid : g.Valid start) :
    walker.Bounded g (source.fatEntry g) expected limit fileId start
      ((walker.walkFrom g fileId start expected limit).answer source g) := by
  have walked := walkFrom_walked walker g source fileId expected limit valid
  have owner := fileId_walkFrom walker g source fileId start expected limit
  obtain ⟨last, found, ended⟩ := walked.ended
  refine ⟨owner, walked.first, walked.valid, walked.nodup,
    ⟨walked.length_le, Geometry.length_le_clusterCount walked.nodup walked.valid⟩,
    walked.linked.leads, ?_, last, found, ends_of_ended walked.length_le ended⟩
  obtain ⟨added, clusters, inferred, -⟩ :=
    follow_adds walker g source fileId expected (limit - 1) ∅ [] 0 start
  rw [walkFrom, if_pos valid]
  simp only [clusters, inferred]
  simp

theorem walkFrom_requests (walker : Walker) (g : Geometry) (source : Source)
    (fileId start expected limit : Nat) :
    (walker.walkFrom g fileId start expected limit).requests source g =
      ((walker.walkFrom g fileId start expected limit).answer source g).clusters.map .entry := by
  unfold walkFrom
  split
  · obtain ⟨added, clusters, -, requests⟩ :=
      follow_adds walker g source fileId expected (limit - 1) ∅ [] 0 start
    rw [clusters, requests]
    rfl
  · rfl

/-- The walk finds the one chain that there is to find. -/
theorem isWalk_iff (walker : Walker) (g : Geometry) (source : Source)
    (fileId start expected limit : Nat) (chain : Chain) :
    walker.IsWalk g (source.fatEntry g) expected limit fileId start chain ↔
      chain = (walker.walkFrom g fileId start expected limit).answer source g := by
  unfold IsWalk
  split
  next valid =>
    have bounded := walkFrom_bounded walker g source fileId expected limit valid
    constructor
    · intro other
      exact other.unique bounded
    · rintro rfl
      exact bounded
  next invalid => rw [walkFrom_of_invalid walker source fileId expected limit invalid]

/-- On an accepted volume, whatever its FAT holds, the walk returns the chain that `IsWalk`
describes and looks at the entry of each of its clusters, in their order. Its numbers stay inside
their words. -/
theorem walkFrom_exact {data : Bytes} {boot : BootSector} {table : FatTable}
    (parsed : BootSector.parse data = .ok boot) (accepted : boot.geometry = .ok g)
    (faithful : table.Faithful source) (same : table.geometry = g) (walker : Walker)
    (fileId start expected limit : Nat) (log : List (Nat × Nat)) :
    let work := walker.walkFrom g fileId start expected limit
    let chain := (work.run source table log).1
    (∀ other, walker.IsWalk g (source.fatEntry g) expected limit fileId start other ↔
        other = chain) ∧
      work.requests source g = chain.clusters.map .entry ∧ chain.inferred < UInt32.size ∧
        ∀ cluster ∈ chain.clusters, cluster + 1 < UInt32.size := by
  intro work chain
  have answered : chain = work.answer source g := by
    have ran := (Probe.run_answer source work table log faithful).1
    rwa [same] at ran
  have found := isWalk_iff walker g source fileId start expected limit
  rw [← answered] at found
  obtain ⟨rfl, acceptable⟩ := BootSector.acceptable_of_geometry accepted
  obtain rfl := BootSector.eq_decode_of_parse parsed
  have word := BootSector.totalSectors_lt data
  have valid : ∀ cluster ∈ chain.clusters, (BootSector.decode data).layout.Valid cluster := by
    rw [answered]
    exact valid_walkFrom walker _ source fileId start expected limit
  have nodup : chain.clusters.Nodup := by
    rw [answered]
    exact nodup_walkFrom walker _ source fileId start expected limit
  refine ⟨found, ?_, ?_, ?_⟩
  · rw [answered]
    exact walkFrom_requests walker _ source fileId start expected limit
  · have few := Geometry.length_le_clusterCount nodup valid
    have guessed : chain.inferred ≤ chain.clusters.length := by
      have walk := (found chain).mpr rfl
      unfold IsWalk at walk
      split at walk
      · rw [walk.inferred]
        exact guesses_le 0 chain.clusters
      · rw [walk]
        exact Nat.le_refl _
    have room := (BootSector.maxCluster_lt acceptable word).2
    have count : (BootSector.decode data).layout.clusterCount =
        (BootSector.decode data).clusterCount := rfl
    omega
  · intro cluster member
    exact BootSector.next_lt acceptable word (valid cluster member)

end

/-- A volume with two free FAT entries on a way that comes back to where it began. -/
def winding : Source :=
  Small.source [0, 0, Small.chainEnd, 0, 6, 0, 0, 3] (List.replicate 6 [])

theorem walkFrom_exact_winding :
    ∃ data boot, BootSector.parse data = .ok boot ∧ boot.geometry = .ok (Small.geometry 6) ∧
      (FatTable.empty (Small.geometry 6)).Faithful winding ∧
      (FatTable.empty (Small.geometry 6)).geometry = Small.geometry 6 ∧
      let work := Walker.walkFrom {} (Small.geometry 6) 1 3 4 5
      let chain := (work.run winding (.empty (Small.geometry 6)) []).1
      chain = ⟨1, [3, 4, 6, 7], [3], 2, false, .looped⟩ ∧
      (∀ other, IsWalk {} (Small.geometry 6) (winding.fatEntry (Small.geometry 6)) 4 5 1 3 other ↔
        other = chain) ∧
      work.requests winding (Small.geometry 6) = chain.clusters.map .entry := by
  obtain ⟨boot, parsed, accepted⟩ : ∃ boot, BootSector.parse (Small.boot 6) = .ok boot ∧
      boot.geometry = .ok (Small.geometry 6) := by
    apply exists_ok
    decide +kernel
  have faithful := FatTable.faithful_empty winding (Small.geometry 6)
  obtain ⟨only, asked, -⟩ := walkFrom_exact parsed accepted faithful rfl {} 1 3 4 5 []
  refine ⟨Small.boot 6, boot, parsed, accepted, faithful, rfl, ?_, only, asked⟩
  rw [Probe.run_empty, winding, Small.source, Probe.answer_ofImage]
  decide +kernel

end Walker

end Undelete
