import Undelete.Directory.Scan
import Undelete.Proofs.Volume.Cache

/-!
The scan of a tree with the answers of a source. What holds of a scan and is kept when one more
directory is listed holds when the whole tree has been scanned.
-/

namespace Undelete

theorem Probe.answer_foldlM {α β : Type} (source : Source) (g : Geometry)
    (step : α → β → Probe α) (items : List β) (start : α) :
    (items.foldlM step start).answer source g =
      items.foldl (fun state item => (step state item).answer source g) start := by
  induction items generalizing start with
  | nil => rfl
  | cons item rest ih =>
    rw [List.foldlM_cons, Probe.answer_bind, ih, List.foldl_cons]

namespace Scan

/-- The clusters of a directory that is to be listed. -/
def clustersOf (source : Source) (g : Geometry) (limit directory : Nat) (inDeleted : Bool) :
    Except Failure (List Nat) :=
  if inDeleted then .ok [directory] else (g.liveChain directory limit).answer source g

/-- A scan with one more directory listed. -/
def listed (source : Source) (g : Geometry) (directory : Nat) (inDeleted : Bool)
    (clusters : List Nat) (scan : Scan) : Scan × List (Nat × Bool) :=
  (list g directory inDeleted clusters scan).answer source g

/-- The scan after a subdirectory. One that cannot be followed leaves it as it was. -/
def descend (source : Source) (g : Geometry) (limit levels : Nat) (scan : Scan)
    (child : Nat × Bool) : Scan :=
  match (tree g limit levels child.1 child.2 scan).answer source g with
  | .ok later => later
  | .error _ => scan

/-- The scan after a directory and what is below it. -/
def explored (source : Source) (g : Geometry) (limit levels directory : Nat) (inDeleted : Bool)
    (scan : Scan) (clusters : List Nat) : Scan :=
  (listed source g directory inDeleted clusters scan).2.foldl (descend source g limit levels)
    (listed source g directory inDeleted clusters scan).1

variable {source : Source} {g : Geometry} {limit : Nat}

theorem answer_explored (levels directory : Nat) (inDeleted : Bool) (scan : Scan)
    (clusters : Except Failure (List Nat)) :
    (do
      match clusters with
      | .error failure => pure (.error failure)
      | .ok clusters =>
        let (scan, children) ← list g directory inDeleted clusters scan
        let scan ← children.foldlM (fun scan (child, deleted) => do
          match ← tree g limit levels child deleted scan with
          | .ok later => pure later
          | .error _ => pure scan) scan
        pure (.ok scan) : Probe (Except Failure Scan)).answer source g =
      clusters.map (explored source g limit levels directory inDeleted scan) := by
  cases clusters with
  | error failure => rfl
  | ok clusters =>
    simp only [Probe.answer_bind, Probe.answer_foldlM, Probe.answer_pure]
    refine congrArg (fun step => Except.ok (List.foldl step _ _)) ?_
    funext state child
    rw [descend]
    cases (tree g limit levels child.1 child.2 state).answer source g <;> rfl

theorem answer_tree (levels directory : Nat) (inDeleted : Bool) (scan : Scan) :
    (tree g limit (levels + 1) directory inDeleted scan).answer source g =
      if ¬ g.Valid directory ∨ directory ∈ scan.visited then .ok scan
      else (clustersOf source g limit directory inDeleted).map
        (explored source g limit levels directory inDeleted scan) := by
  rw [tree]
  split
  · rfl
  · cases inDeleted with
    | true => exact answer_explored levels directory true scan (.ok [directory])
    | false =>
      exact (Probe.answer_bind source g _ _).trans (answer_explored levels directory false scan _)

theorem foldl_keeps {β : Type} {Holds : Scan → Prop} {step : Scan → β → Scan}
    (keeps : ∀ scan item, Holds scan → Holds (step scan item)) (items : List β) {scan : Scan}
    (before : Holds scan) : Holds (items.foldl step scan) := by
  induction items generalizing scan with
  | nil => exact before
  | cons item rest ih => exact ih (keeps scan item before)

/-- What holds of a scan, along with what is known about the directories that it comes to with so
many levels left, whatever other trees it has scanned meanwhile. -/
structure Steady (source : Source) (g : Geometry) (limit : Nat) (Holds : Scan → Prop)
    (Known : Nat → Scan → Nat × Bool → Prop) : Prop where
  kept : ∀ {levels scan later directory inDeleted other}, Known levels scan other →
    (tree g limit levels directory inDeleted scan).answer source g = .ok later →
    Known levels later other
  listed : ∀ {levels scan directory inDeleted clusters},
    clustersOf source g limit directory inDeleted = .ok clusters → Holds scan →
    Known (levels + 1) scan (directory, inDeleted) →
    Holds (listed source g directory inDeleted clusters scan).1
  children : ∀ {levels scan directory inDeleted clusters},
    clustersOf source g limit directory inDeleted = .ok clusters →
    Known (levels + 1) scan (directory, inDeleted) →
    ∀ child ∈ (Scan.listed source g directory inDeleted clusters scan).2,
      Known levels (Scan.listed source g directory inDeleted clusters scan).1 child

section

variable {Holds : Scan → Prop} {Known : Nat → Scan → Nat × Bool → Prop}

theorem Steady.foldl_of (steady : Steady source g limit Holds Known) {levels : Nat}
    (trees : ∀ {scan later : Scan} {directory : Nat} {inDeleted : Bool}, Holds scan →
      Known levels scan (directory, inDeleted) →
      (tree g limit levels directory inDeleted scan).answer source g = .ok later → Holds later)
    (children : List (Nat × Bool)) {scan : Scan} (holds : Holds scan)
    (known : ∀ child ∈ children, Known levels scan child) :
    Holds (children.foldl (descend source g limit levels) scan) := by
  induction children generalizing scan with
  | nil => exact holds
  | cons child rest ih =>
    apply ih
    · unfold descend
      split
      next later answered => exact trees holds (known child List.mem_cons_self) answered
      · exact holds
    · intro other member
      have before := known other (List.mem_cons_of_mem _ member)
      unfold descend
      split
      next later answered => exact steady.kept before answered
      · exact before

theorem Steady.tree (steady : Steady source g limit Holds Known) {levels directory : Nat}
    {inDeleted : Bool} {scan later : Scan} (holds : Holds scan)
    (known : Known levels scan (directory, inDeleted))
    (answered : (tree g limit levels directory inDeleted scan).answer source g = .ok later) :
    Holds later := by
  induction levels generalizing directory inDeleted scan later with
  | zero =>
    cases answered
    exact holds
  | succ levels ih =>
    rw [answer_tree] at answered
    split at answered
    · cases answered
      exact holds
    cases chain : clustersOf source g limit directory inDeleted with
    | error failure =>
      rw [chain] at answered
      cases answered
    | ok clusters =>
      rw [chain] at answered
      cases answered
      -- The subdirectories have one level less, so `ih` is about their trees.
      exact steady.foldl_of ih _ (steady.listed chain holds known)
        (steady.children chain known)

theorem Steady.foldl (steady : Steady source g limit Holds Known) (levels : Nat)
    (children : List (Nat × Bool)) {scan : Scan} (holds : Holds scan)
    (known : ∀ child ∈ children, Known levels scan child) :
    Holds (children.foldl (descend source g limit levels) scan) :=
  steady.foldl_of steady.tree children holds known

end

/-- What each listing keeps is kept by the scan of a tree. -/
theorem tree_keeps {Holds : Scan → Prop}
    (keeps : ∀ directory inDeleted clusters scan, Holds scan →
      Holds (listed source g directory inDeleted clusters scan).1)
    (levels directory : Nat) (inDeleted : Bool) {scan later : Scan} (before : Holds scan)
    (answered : (tree g limit levels directory inDeleted scan).answer source g = .ok later) :
    Holds later := by
  have steady : Steady source g limit Holds fun _ _ _ => True :=
    ⟨fun _ _ => trivial, fun _ holds _ => keeps _ _ _ _ holds, fun _ _ _ _ => trivial⟩
  exact steady.tree before trivial answered

end Scan

end Undelete
