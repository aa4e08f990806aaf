import Mathlib.Data.List.Basic
import Undelete.Host.FileTree
import Undelete.Recovery.FolderOutput

/-!
Files that are created in a folder. A path that joins a folder and a name leads through the folder,
and the host refuses to create a file there when its name is too long or taken, and for no other
reason. A folder that has been made is led to.
-/

namespace Undelete

namespace Text

theorem split_ne_nil (separator : Char) (text : List Char) : split separator text ≠ [] := by
  cases text with
  | nil => exact List.cons_ne_nil _ _
  | cons c rest =>
    rw [split]
    split
    · exact List.cons_ne_nil _ _
    · split <;> exact List.cons_ne_nil _ _

/-- A text is cut at a separator, whatever stands before and behind it. -/
theorem split_append (separator : Char) (first second : List Char) :
    split separator (first ++ separator :: second) =
      split separator first ++ split separator second := by
  induction first with
  | nil => simp [split]
  | cons c rest ih =>
    rw [List.cons_append, split, split, ih]
    split
    · rfl
    · cases parts : split separator rest with
      | nil => exact absurd parts (split_ne_nil separator rest)
      | cons part others => rfl

end Text

namespace HostPath

/-- A name of a file in a folder. -/
structure Plain (name : String) : Prop where
  filled : name.toList ≠ []
  flat : '/' ∉ name.toList
  proper : isStep name = false

variable {root name : String}

theorem names_append (first : List Char) (plain : Plain name) :
    ((Text.split '/' (first ++ '/' :: name.toList)).filter (· ≠ [])).map String.ofList =
      ((Text.split '/' first).filter (· ≠ [])).map String.ofList ++ [name] := by
  rw [Text.split_append, Text.split_of_notMem plain.flat, List.filter_append, List.map_append]
  simp [plain.filled]

theorem head?_append_of_filled {first : List Char} (filled : first ≠ []) (second : List Char) :
    (first ++ second).head? = first.head? := by
  obtain ⟨c, rest, rfl⟩ := List.exists_cons_of_ne_nil filled
  rfl

theorem endsInSlash_append (plain : Plain name) (first : String) :
    endsInSlash (first ++ name) = false := by
  refine decide_eq_false fun ends => plain.flat ?_
  rw [String.toList_append, List.getLast?_append_of_ne_nil _ plain.filled] at ends
  exact List.mem_of_getLast? ends

/-- The path of a name in a folder has that name behind those of the folder. -/
theorem ofText_join (root : String) (plain : Plain name) :
    ofText (FileName.join root name) =
      { isAbsolute := (ofText root).isAbsolute
        names := (ofText root).names ++ [name]
        asksForFolder := false } := by
  unfold FileName.join
  split
  next inside =>
    have ends := endsInSlash_append plain root
    rcases (Bool.or_eq_true _ _).mp inside with empty | slash
    · have empty : root = "" := of_decide_eq_true empty
      subst empty
      have head : name.toList.head? ≠ some '/' :=
        fun starts => plain.flat (List.mem_of_mem_head? starts)
      rw [String.empty_append] at ends ⊢
      rw [ofText, ends, Text.split_of_notMem plain.flat]
      simp [plain.filled, head, ofText, Text.split]
    · obtain ⟨front, same⟩ := List.getLast?_eq_some_iff.mp (of_decide_eq_true slash)
      have names := names_append front plain
      have own : (Text.split '/' root.toList).filter (· ≠ []) =
          (Text.split '/' front).filter (· ≠ []) := by
        rw [same, Text.split_append]
        simp [Text.split]
      have filled : root.toList ≠ [] := by simp [same]
      rw [ofText, ofText, ends, String.toList_append, head?_append_of_filled filled, own]
      refine congrArg (HostPath.mk _ · _) ?_
      rw [same, List.append_assoc]
      exact names
  next outside =>
    have ends := endsInSlash_append plain (root ++ "/")
    have names := names_append root.toList plain
    have filled : root.toList ≠ [] := by
      intro empty
      have empty : root = "" := String.toList_inj.mp (empty.trans rfl)
      simp [empty] at outside
    have text : (root ++ "/" ++ name).toList = root.toList ++ '/' :: name.toList := by
      simp
    rw [ofText, ends, text, names, head?_append_of_filled filled]
    rfl

theorem size_join_le (root name : String) :
    (FileName.join root name).utf8ByteSize ≤ root.utf8ByteSize + 1 + name.utf8ByteSize := by
  unfold FileName.join
  split
  · rw [String.utf8ByteSize_append]
    omega
  · rw [String.utf8ByteSize_append, String.utf8ByteSize_append]
    exact Nat.le_refl _

theorem le_size_join (root name : String) :
    name.utf8ByteSize ≤ (FileName.join root name).utf8ByteSize := by
  unfold FileName.join
  split <;> simp [String.utf8ByteSize_append]

/-- A path with a last name leads to it through the folder above. -/
theorem names_of_last? {path : HostPath} (last : path.last? = some name) :
    path.names = path.way ++ [name] ∧ isStep name = false := by
  obtain ⟨ends, proper⟩ := Option.filter_eq_some_iff.mp last
  refine ⟨?_, by simpa using proper⟩
  rw [way, last, Option.isSome_some, if_pos rfl]
  exact (List.dropLast_append_getLast? name ends).symm

/-- The last name of a path that is not a step is the place in the folder above. -/
theorem last?_append (plain : Plain name) {path : HostPath} {names : List String}
    (same : path.names = names ++ [name]) : path.last? = some name := by
  rw [last?, same, List.getLast?_append]
  simp [plain.proper]

theorem way_append (plain : Plain name) {path : HostPath} {names : List String}
    (same : path.names = names ++ [name]) : path.way = names := by
  rw [way, last?_append plain same, same]
  exact List.dropLast_concat

end HostPath

namespace FileTree

open HostPath

variable {tree later : FileTree} {here folder location : Location} {name root : String}

theorem isFile_iff : tree.isFile location = true ↔ location ∈ tree.files.map HostFile.location := by
  rw [isFile, file?, List.find?_isSome, List.mem_map]
  exact exists_congr fun file => and_congr_right fun _ => decide_eq_true_iff

/-- The way through folders that a tree has is the same in a tree that has them too. -/
theorem walk_of_subset (more : ∀ location, tree.isFolder location = true →
    later.isFolder location = true) {names : List String}
    (walked : tree.walk here names = .ok folder) : later.walk here names = .ok folder := by
  induction names generalizing here with
  | nil => exact walked
  | cons name rest ih =>
    rw [walk, List.foldlM_cons] at walked ⊢
    cases entered : tree.enter here name with
    | error refusal =>
      rw [entered] at walked
      cases walked
    | ok there =>
      have again : later.enter here name = .ok there := by
        unfold enter at entered ⊢
        dsimp only at entered ⊢
        split at entered
        · cases entered
        next short =>
          rw [if_neg short]
          split at entered
          next known =>
            rw [if_pos (more _ known)]
            exact entered
          next =>
            split at entered <;> cases entered
      rw [entered] at walked
      rw [again]
      exact ih walked

theorem walk_append {names : List String} (walked : tree.walk here names = .ok folder) :
    tree.walk here (names ++ [name]) = tree.enter folder name := by
  rw [walk] at walked
  rw [walk, List.foldlM_append, walked]
  change (tree.enter folder name >>= fun there => pure there) = _
  cases tree.enter folder name <;> rfl

/-- The host creates a file in a folder unless its name is too long or taken. -/
theorem create_join (plain : Plain name)
    (reaches : tree.walk ((ofText root).origin tree.home) (ofText root).names = .ok folder)
    (short : root.utf8ByteSize + 1 + maxNameBytes ≤ maxPathBytes) :
    tree.create (FileName.join root name) =
      if maxNameBytes < name.utf8ByteSize then .error .nameTooLong
      else if tree.isTaken (folder ++ [name]) then .error .alreadyExists
      else .ok (folder ++ [name], { tree with files := ⟨folder ++ [name], []⟩ :: tree.files }) := by
  have size := size_join_le root name
  have filled : FileName.join root name ≠ "" := by
    intro empty
    have least := le_size_join root name
    rw [empty] at least
    have none : name = "" := String.utf8ByteSize_eq_zero_iff.mp (Nat.le_zero.mp least)
    exact plain.filled (none ▸ rfl)
  rw [create, HostPath.parse, if_neg filled]
  by_cases long : maxPathBytes < (FileName.join root name).utf8ByteSize
  · rw [if_pos long, if_pos (by omega)]
    rfl
  · have path := ofText_join root plain
    have names := congrArg HostPath.names path
    have origin : (ofText (FileName.join root name)).origin tree.home =
        (ofText root).origin tree.home := by
      rw [path]
      rfl
    have whole : (ofText (FileName.join root name)).asksForFolder = false := by
      rw [path]
    have resolved : tree.resolve (ofText (FileName.join root name)) = .ok (folder, some name) := by
      rw [resolve, way_append plain names, origin, reaches, last?_append plain names]
      rfl
    rw [if_neg long]
    change (tree.resolve _ >>= _) = _
    rw [resolved]
    change (if (ofText (FileName.join root name)).asksForFolder = true then _ else _) = _
    rw [whole, if_neg Bool.false_ne_true, place]
    split
    · rfl
    · rfl

/-- Where a way leads does not depend on the tree. -/
theorem foldl_follow_of_walk {names : List String} (walked : tree.walk here names = .ok folder) :
    names.foldl follow here = folder := by
  induction names generalizing here with
  | nil =>
    cases walked
    rfl
  | cons name rest ih =>
    rw [walk, List.foldlM_cons] at walked
    cases entered : tree.enter here name with
    | error refusal =>
      rw [entered] at walked
      cases walked
    | ok there =>
      have next : follow here name = there := by
        unfold enter at entered
        dsimp only at entered
        split at entered
        · cases entered
        split at entered
        · cases entered
          rfl
        split at entered <;> cases entered
      rw [entered] at walked
      rw [List.foldl_cons, next]
      exact ih walked

/-- Whether a path leads to its target. -/
def Reaches (tree : FileTree) (path : HostPath) : Prop :=
  tree.walk (path.origin tree.home) path.names = .ok (path.target tree.home)

theorem reaches_of_walk {path : HostPath}
    (walked : tree.walk (path.origin tree.home) path.names = .ok folder) : tree.Reaches path := by
  rw [Reaches, walked, target, foldl_follow_of_walk walked]

/-- A folder is made in one that is there, under a name that is not too long. -/
theorem makeFolder_spec {path : HostPath} (made : tree.makeFolder path = .ok later) :
    ∃ folder name, tree.walk (path.origin tree.home) path.way = .ok folder ∧
      path.last? = some name ∧ ¬ maxNameBytes < name.utf8ByteSize ∧
      later = { tree with folders := (folder ++ [name]) :: tree.folders } := by
  rw [makeFolder, resolve] at made
  cases walked : tree.walk (path.origin tree.home) path.way with
  | error refusal =>
    rw [walked] at made
    cases made
  | ok folder =>
    rw [walked] at made
    cases last : path.last? with
    | none =>
      rw [last] at made
      cases made
    | some name =>
      rw [last] at made
      change (place folder name >>= _) = _ at made
      rw [place] at made
      by_cases long : maxNameBytes < name.utf8ByteSize
      · rw [if_pos long] at made
        cases made
      rw [if_neg long] at made
      change (if tree.isTaken (folder ++ [name]) = true then _ else _) = _ at made
      split at made
      · cases made
      · cases made
        exact ⟨folder, name, rfl, rfl, long, rfl⟩

theorem reaches_of_makeFolder {path : HostPath} (made : tree.makeFolder path = .ok later) :
    later.Reaches path := by
  obtain ⟨folder, name, walked, last, short, rfl⟩ := makeFolder_spec made
  obtain ⟨names, step⟩ := names_of_last? last
  refine @reaches_of_walk _ (folder ++ [name]) _ ?_
  have more : ∀ location, tree.isFolder location = true →
      isFolder { tree with folders := (folder ++ [name]) :: tree.folders } location = true := by
    intro location known
    simp only [isFolder, Bool.or_eq_true, decide_eq_true_eq] at known ⊢
    refine known.imp_right fun there => ?_
    rw [List.contains_cons, there, Bool.or_true]
  rw [names, walk_append (walk_of_subset more walked), enter, follow_of_isStep_eq_false step,
    if_neg short, if_pos]
  simp [isFolder]

theorem reaches_of_ensureFolder {path : HostPath} (made : tree.ensureFolder path = .ok later) :
    later.Reaches path := by
  unfold ensureFolder at made
  split at made
  · split at made
    next leads =>
      cases made
      rw [leadsToFolder] at leads
      cases walked : tree.walk (path.origin tree.home) path.names with
      | error refusal =>
        rw [walked] at leads
        cases leads
      | ok folder => exact reaches_of_walk walked
    next => cases made
  · exact reaches_of_makeFolder made

theorem reaches_of_ensureFolders {path : HostPath} {above : List HostPath}
    (made : tree.ensureFolders (path :: above) = (.ok (), later)) : later.Reaches path := by
  rw [ensureFolders] at made
  split at made
  next ensured =>
    cases made
    exact reaches_of_ensureFolder ensured
  next =>
    split at made
    · cases made
    next mid _ =>
      split at made
      next ensured =>
        cases made
        exact reaches_of_ensureFolder ensured
      next => cases made
  next => cases made

/-- A folder that has been made is reached. -/
theorem reaches_of_makeFolders (made : tree.makeFolders root = (.ok (), later)) :
    later.Reaches (ofText root) := by
  unfold makeFolders at made
  split at made
  next empty =>
    cases made
    subst empty
    rfl
  next filled =>
    rw [HostPath.parse, if_neg filled] at made
    split at made
    next refused =>
      split at refused <;> cases made
    next path parsed =>
      split at parsed
      · cases parsed
      · cases parsed
        exact reaches_of_ensureFolders made

end FileTree

end Undelete
