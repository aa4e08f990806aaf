import Undelete.Proofs.Volume.Cache
import Undelete.Recovery.Pass

/-!
What is gathered for a file. Its size covers clusters from the start of the chain on, the last
one perhaps in part. Of a covered cluster that is clean and can be read the file gets its share,
and the clusters that cannot be read are problematic afterwards, along with those that were.
-/

namespace Undelete

namespace Pass

/-- The contents of a cluster, if they can be had. -/
def contentsOf (source : Source) (g : Geometry) (cluster : Nat) : Except Failure Bytes :=
  (readCluster g cluster).answer source g

def Readable (source : Source) (g : Geometry) (cluster : Nat) : Prop :=
  ∃ data, contentsOf source g cluster = .ok data

/-- What a file gets of a cluster, unless the cluster is problematic or cannot be read. -/
def pieceOf (source : Source) (g : Geometry) (status : Status) (portion : Nat × Nat) :
    Option (Nat × Bytes) :=
  if status.isProblematic portion.1 then none
  else match contentsOf source g portion.1 with
    | .ok data => some (portion.1, data.take portion.2)
    | .error _ => none

/-- The pieces that a candidate is recovered from, each with the cluster that it is read from. -/
def pieces (source : Source) (g : Geometry) (plan : Plan) : List (Nat × Bytes) :=
  (portions g plan.entry.size plan.chain.clusters 0).filterMap (pieceOf source g plan.status)

/-- What a share of a cluster adds to a haul, with the answers of a source. -/
def gatherOne (source : Source) (g : Geometry) (analyzeOnly : Bool) (haul : Haul)
    (portion : Nat × Nat) : Haul :=
  if haul.status.isProblematic portion.1 then haul
  else if analyzeOnly then
    { haul with clusters := haul.clusters + 1, bytes := haul.bytes + portion.2 }
  else match contentsOf source g portion.1 with
    | .error _ => { haul with status := haul.status.markProblematic portion.1 }
    | .ok data =>
      { haul with
        clusters := haul.clusters + 1
        bytes := haul.bytes + portion.2
        begun := true
        pieces := data.take portion.2 :: haul.pieces }

/-- What is gathered for a candidate. -/
def haulOf (source : Source) (config : Config) (g : Geometry) (plan : Plan) : Haul :=
  (portions g plan.entry.size plan.chain.clusters 0).foldl
    (gatherOne source g config.analyzeOnly) (Haul.nothing plan.status)

variable {source : Source} {g : Geometry} {analyzeOnly : Bool} {size : Nat}

/-- Where clusters are not empty, a file ends where its size is reached. -/
theorem portions_cons (positive : 0 < g.clusterSize) (cluster : Nat) (rest : List Nat)
    (offset : Nat) :
    portions g size (cluster :: rest) offset =
      if size ≤ offset then []
      else
        (cluster, min (size - offset) g.clusterSize) ::
          portions g size rest (offset + g.clusterSize) := by
  have ends : min (size - offset) g.clusterSize = 0 ↔ size ≤ offset := by omega
  simp only [portions, ends]

theorem mem_of_mem_portions {clusters : List Nat} {offset : Nat} {portion : Nat × Nat}
    (member : portion ∈ portions g size clusters offset) :
    portion.1 ∈ clusters ∧ 0 < portion.2 ∧ portion.2 ≤ g.clusterSize := by
  induction clusters generalizing offset with
  | nil => cases member
  | cons cluster rest ih =>
    rw [portions] at member
    split at member
    · cases member
    next filled =>
      rcases List.mem_cons.mp member with rfl | later
      · exact ⟨List.mem_cons_self, Nat.pos_of_ne_zero filled, Nat.min_le_right _ _⟩
      · obtain ⟨known, share⟩ := ih later
        exact ⟨List.mem_cons_of_mem _ known, share⟩

theorem portions_sublist (clusters : List Nat) (offset : Nat) :
    ((portions g size clusters offset).map Prod.fst).Sublist clusters := by
  induction clusters generalizing offset with
  | nil => exact .slnil
  | cons cluster rest ih =>
    rw [portions]
    split
    · exact List.nil_sublist _
    · exact (ih _).cons_cons cluster

theorem length_contents {cluster : Nat} {data : Bytes}
    (answered : contentsOf source g cluster = .ok data) : data.length = g.clusterSize := by
  unfold contentsOf readCluster at answered
  simp only at answered
  split at answered
  · exact Source.length_of_read answered
  · cases answered

end Pass

namespace Status

@[simp] theorem isProblematic_iff {status : Status} {cluster : Nat} :
    status.isProblematic cluster = true ↔ cluster ∈ status.problematic := by
  simp [isProblematic]

theorem mem_markProblematic {status : Status} {cluster other : Nat} :
    other ∈ (status.markProblematic cluster).problematic ↔
      other ∈ status.problematic ∨ other = cluster := by
  unfold markProblematic
  split
  next known =>
    rw [isProblematic_iff] at known
    constructor
    · exact .inl
    · rintro (old | rfl)
      · exact old
      · exact known
  · simp

theorem markProblematic_eq (status : Status) (cluster : Nat) :
    status.markProblematic cluster =
      { status with problematic := (status.markProblematic cluster).problematic } := by
  unfold markProblematic
  split <;> rfl

theorem outcomeOf_eq_success_iff {status : Status} {bytes : Nat} {wrote : Bool} :
    status.outcomeOf bytes wrote = .success ↔
      wrote = true ∧ status.problematic = [] ∧ bytes = status.declaredSize := by
  unfold outcomeOf
  cases wrote with
  | false => simp
  | true => simp

theorem outcomeOf_eq_failed_iff {status : Status} {bytes : Nat} {wrote : Bool} :
    status.outcomeOf bytes wrote = .failed ↔ wrote = false := by
  unfold outcomeOf
  cases wrote with
  | false => simp
  | true =>
    simp only [Bool.not_true, Bool.false_eq_true, if_false]
    split <;> simp

end Status

namespace Pass

variable {source : Source} {g : Geometry} {analyzeOnly : Bool} {size : Nat}

/-- A status while the file along `chain` is being gathered. Of the status `before` it keeps
everything, and it may have noted clusters of the chain that cannot be read. -/
structure Settled (source : Source) (g : Geometry) (chain : List Nat) (before now : Status) :
    Prop where
  same : now = { before with problematic := now.problematic }
  kept : ∀ cluster ∈ before.problematic, cluster ∈ now.problematic
  noted : ∀ cluster ∈ now.problematic, cluster ∈ before.problematic ∨
    cluster ∈ chain ∧ ¬ Readable source g cluster

variable {chain : List Nat} {before : Status}

theorem Settled.refl (status : Status) : Settled source g chain status status :=
  ⟨rfl, fun _ old => old, fun _ old => .inl old⟩

theorem Settled.gatherOne {haul : Haul} {portion : Nat × Nat}
    (settled : Settled source g chain before haul.status) (member : portion.1 ∈ chain) :
    Settled source g chain before (gatherOne source g analyzeOnly haul portion).status := by
  unfold Pass.gatherOne
  split
  · exact settled
  split
  · exact settled
  split
  next unclean _ failure failed =>
    refine ⟨?_, ?_, ?_⟩
    · rw [Status.markProblematic_eq, settled.same]
    · intro cluster old
      exact Status.mem_markProblematic.mpr (.inl (settled.kept cluster old))
    · intro cluster found
      rcases Status.mem_markProblematic.mp found with old | rfl
      · exact settled.noted cluster old
      · refine .inr ⟨member, ?_⟩
        rintro ⟨data, answered⟩
        rw [failed] at answered
        cases answered
  · exact settled

theorem Settled.foldl {haul : Haul} (settled : Settled source g chain before haul.status)
    {shares : List (Nat × Nat)} (inside : ∀ portion ∈ shares, portion.1 ∈ chain) :
    Settled source g chain before
      (shares.foldl (Pass.gatherOne source g analyzeOnly) haul).status := by
  refine List.foldlRecOn _ _
    (motive := fun haul : Haul => Settled source g chain before haul.status) settled ?_
  intro haul settled portion member
  exact settled.gatherOne (inside portion member)

theorem settled_haulOf (source : Source) (config : Config) (g : Geometry) (plan : Plan) :
    Settled source g plan.chain.clusters plan.status (haulOf source config g plan).status := by
  have settled : Settled source g plan.chain.clusters plan.status
      (Haul.nothing plan.status).status := .refl _
  exact settled.foldl fun _ member => (mem_of_mem_portions member).1

/-- A share of a cluster adds its piece, if there is one. -/
theorem gatherOne_adds {haul : Haul} {portion : Nat × Nat}
    (settled : Settled source g chain before haul.status) (share : portion.2 ≤ g.clusterSize) :
    let later := gatherOne source g false haul portion
    let found := (pieceOf source g before portion).toList
    later.clusters = haul.clusters + found.length ∧
      later.bytes = haul.bytes + (found.flatMap Prod.snd).length ∧
      later.pieces = (found.map Prod.snd).reverse ++ haul.pieces := by
  unfold gatherOne pieceOf
  by_cases unclean : portion.1 ∈ before.problematic
  · have still := settled.kept _ unclean
    simp [unclean, still]
  cases answered : contentsOf source g portion.1 with
  | error failure =>
    simp only [Status.isProblematic_iff, unclean, if_false, Bool.false_eq_true]
    split <;> simp
  | ok data =>
    -- Only clusters that cannot be read have been noted since, and this one can.
    have clean : portion.1 ∉ haul.status.problematic := by
      intro noted
      rcases settled.noted _ noted with old | ⟨-, unreadable⟩
      · exact unclean old
      · exact unreadable ⟨data, answered⟩
    have length := length_contents answered
    have whole : (data.take portion.2).length = portion.2 := by
      rw [List.length_take]
      omega
    simp [unclean, clean, whole]

theorem foldl_gatherOne_adds (shares : List (Nat × Nat)) {haul : Haul}
    (settled : Settled source g chain before haul.status)
    (inside : ∀ portion ∈ shares, portion.1 ∈ chain ∧ portion.2 ≤ g.clusterSize) :
    let later := shares.foldl (gatherOne source g false) haul
    let found := shares.filterMap (pieceOf source g before)
    later.clusters = haul.clusters + found.length ∧
      later.bytes = haul.bytes + (found.flatMap Prod.snd).length ∧
      later.pieces = (found.map Prod.snd).reverse ++ haul.pieces := by
  induction shares generalizing haul with
  | nil => simp
  | cons portion rest ih =>
    obtain ⟨member, share⟩ := inside portion List.mem_cons_self
    obtain ⟨clusters, bytes, pieces⟩ := gatherOne_adds settled share
    obtain ⟨clusters', bytes', pieces'⟩ := ih (settled.gatherOne member)
      fun portion later => inside portion (List.mem_cons_of_mem _ later)
    have split : (portion :: rest).filterMap (pieceOf source g before) =
        (pieceOf source g before portion).toList ++
          rest.filterMap (pieceOf source g before) := by
      rw [List.filterMap_cons]
      cases pieceOf source g before portion <;> rfl
    simp only [List.foldl_cons, split, List.length_append, List.flatMap_append, List.map_append,
      List.reverse_append, List.append_assoc]
    refine ⟨?_, ?_, ?_⟩
    · rw [clusters', clusters, Nat.add_assoc]
    · rw [bytes', bytes, Nat.add_assoc]
    · rw [pieces', pieces]

/-- What is gathered for a candidate that is to be recovered. -/
theorem haulOf_pieces (source : Source) {config : Config} (g : Geometry)
    (writing : config.analyzeOnly = false) (plan : Plan) :
    let haul := haulOf source config g plan
    haul.clusters = (pieces source g plan).length ∧
      haul.bytes = ((pieces source g plan).flatMap Prod.snd).length ∧
      haul.pieces.reverse = (pieces source g plan).map Prod.snd := by
  have settled : Settled source g plan.chain.clusters plan.status
      (Haul.nothing plan.status).status := .refl _
  obtain ⟨clusters, bytes, gathered⟩ := foldl_gatherOne_adds
    (portions g plan.entry.size plan.chain.clusters 0) settled fun _ member =>
      ⟨(mem_of_mem_portions member).1, (mem_of_mem_portions member).2.2⟩
  unfold haulOf
  rw [writing]
  refine ⟨?_, ?_, ?_⟩
  · rw [clusters, Haul.nothing, Nat.zero_add, pieces]
  · rw [bytes, Haul.nothing, Nat.zero_add, pieces]
  · rw [gathered, Haul.nothing, List.append_nil, List.reverse_reverse, pieces]

/-- When the output has started a file: before the first piece that it was given. No piece is empty,
and none is given when only analyzing. -/
structure Begins (analyzeOnly : Bool) (haul : Haul) : Prop where
  pieces_iff : haul.begun = true ↔ haul.pieces ≠ []
  bytes_iff : analyzeOnly = false → (haul.begun = true ↔ 0 < haul.bytes)
  analyzing : analyzeOnly = true → haul.begun = false

theorem begins_nothing (analyzeOnly : Bool) (status : Status) :
    Begins analyzeOnly (Haul.nothing status) where
  pieces_iff := by simp [Haul.nothing]
  bytes_iff _ := by simp [Haul.nothing]
  analyzing _ := rfl

theorem Begins.gatherOne {haul : Haul} {portion : Nat × Nat} (begins : Begins analyzeOnly haul)
    (filled : 0 < portion.2) :
    Begins analyzeOnly (gatherOne source g analyzeOnly haul portion) := by
  unfold Pass.gatherOne
  split
  · exact begins
  split
  next analyzing =>
    refine ⟨begins.pieces_iff, fun writing => ?_, begins.analyzing⟩
    cases analyzing.symm.trans writing
  next writing =>
    split
    · exact ⟨begins.pieces_iff, begins.bytes_iff, begins.analyzing⟩
    · refine ⟨by simp, fun _ => ?_, fun analyzing => absurd analyzing writing⟩
      exact iff_of_true rfl (Nat.add_pos_right _ filled)

/-- A file has been started exactly if bytes were recovered, unless only analyzing. -/
theorem begins_haulOf (source : Source) (config : Config) (g : Geometry) (plan : Plan) :
    Begins config.analyzeOnly (haulOf source config g plan) := by
  refine List.foldlRecOn _ _ (motive := Begins config.analyzeOnly) (begins_nothing _ _) ?_
  intro haul begins portion member
  exact begins.gatherOne (mem_of_mem_portions member).2.1

end Pass

end Undelete
