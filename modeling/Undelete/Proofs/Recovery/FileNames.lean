import Mathlib.Data.List.DropRight
import Mathlib.Data.List.TakeWhile
import Undelete.Proofs.Host.Creation

/-!
The names under which recovered files are stored. Such a name is one name on every host, and it
tells the partition and the ordinal of its file, so that no two files share one.
-/

namespace Undelete

namespace Number

theorem isDigit_of_mem_padLeft {width value : Nat} {c : Char}
    (member : c ∈ padLeft '0' width (Nat.toDigits 10 value)) : c.isDigit = true := by
  rcases List.mem_append.mp member with zero | digit
  · rw [List.eq_of_mem_replicate zero]
    rfl
  · exact Nat.isDigit_of_mem_toDigits (by decide) (by decide) digit

/-- Zeros in front do not change what digits stand for. -/
theorem ofDigitChars_padLeft (width value : Nat) :
    Nat.ofDigitChars 10 (padLeft '0' width (Nat.toDigits 10 value)) 0 = value := by
  have zeros (count : Nat) : Nat.ofDigitChars 10 (List.replicate count '0') 0 = 0 := by
    induction count with
    | zero => rfl
    | succ count ih =>
      rw [List.replicate_succ, Nat.ofDigitChars_cons]
      exact ih
  rw [padLeft, Nat.ofDigitChars_append, zeros]
  exact Nat.ofDigitChars_toDigits (by decide) (by decide)

end Number

namespace Text

variable {p : Char → Bool} {text : List Char} {c : Char}

theorem strip_sublist (p : Char → Bool) (text : List Char) :
    (strip p text).Sublist text :=
  (List.rdropWhile_prefix p _).sublist.trans (List.dropWhile_sublist p)

theorem head?_strip (first : (strip p text).head? = some c) : p c = false := by
  have front : strip p text <+: text.dropWhile p := List.rdropWhile_prefix p _
  obtain ⟨rest, whole⟩ := front
  have head : (text.dropWhile p).head? = some c := by
    rw [← whole, List.head?_append, first]
    rfl
  have stops := List.head?_dropWhile_not p text
  rw [head] at stops
  exact stops

theorem getLast?_strip (last : (strip p text).getLast? = some c) : p c = false := by
  have stops := List.head?_dropWhile_not p (text.dropWhile p).reverse
  rw [strip, dropEndWhile, List.getLast?_reverse] at last
  rw [last] at stops
  exact stops

/-- Nothing is cut off a text with other characters at both ends. -/
theorem strip_eq_self (first : ∀ c ∈ text.head?, p c = false)
    (last : ∀ c ∈ text.getLast?, p c = false) : strip p text = text := by
  have front : text.dropWhile p = text := by
    apply List.dropWhile_eq_self_iff.mpr
    intro filled
    simpa using first text[0] (by rw [List.head?_eq_getElem?]; exact List.getElem?_eq_getElem filled)
  rw [strip, front]
  apply List.rdropWhile_eq_self_iff.mpr
  intro filled
  simpa using last (text.getLast filled) (List.getLast?_eq_some_getLast filled)

end Text

namespace FileName

/-- A name that a host takes for a name and nothing else: characters that mean something in a path
or control a terminal do not come up, and no space or dot stands at an end. -/
structure Safe (name : String) : Prop where
  filled : name ≠ ""
  harmless : ∀ c ∈ name.toList, c ∉ "/\\:*?\"<>|".toList ∧ Text.isControl c = false
  first : ∀ c ∈ name.toList.head?, c ≠ ' ' ∧ c ≠ '.'
  last : ∀ c ∈ name.toList.getLast?, c ≠ ' ' ∧ c ≠ '.'

theorem isUnsafe_eq_false_iff {c : Char} :
    isUnsafe c = false ↔ c ∉ "/\\:*?\"<>|".toList ∧ Text.isControl c = false := by
  simp only [isUnsafe, Bool.or_eq_false_iff, List.contains_eq_mem, decide_eq_false_iff_not]

theorem isEdge_eq_false_iff {c : Char} : isEdge c = false ↔ c ≠ ' ' ∧ c ≠ '.' := by
  simp [isEdge]

theorem isUnsafe_of_isDigit {c : Char} (digit : c.isDigit = true) : isUnsafe c = false := by
  apply isUnsafe_eq_false_iff.mpr
  constructor
  · have none : "/\\:*?\"<>|".toList.all (fun other => !other.isDigit) = true := by decide
    intro member
    have other := List.all_eq_true.mp none c member
    rw [digit] at other
    cases other
  · have bounds : 48 ≤ c.toNat ∧ c.toNat ≤ 57 := by
      simpa [Char.isDigit, UInt32.le_iff_toNat_le] using digit
    unfold Text.isControl
    simp only [Bool.or_eq_false_iff, Bool.and_eq_false_iff, decide_eq_false_iff_not]
    omega

section

variable {text : List Char}

/-- What is left of a name between its edges, or a name for one that is all edges. -/
theorem sanitizeChars_eq (text : List Char) :
    sanitizeChars text =
      if Text.strip isEdge (text.map fun c => if isUnsafe c then '_' else c) = []
      then "unnamed".toList
      else Text.strip isEdge (text.map fun c => if isUnsafe c then '_' else c) := by
  unfold sanitizeChars
  split
  next empty => rw [if_pos empty]
  next filled => rw [if_neg (by simpa using filled)]

theorem sanitizeChars_ne_nil (text : List Char) : sanitizeChars text ≠ [] := by
  rw [sanitizeChars_eq]
  split
  · decide
  next filled => exact filled

theorem isUnsafe_of_mem_sanitizeChars {c : Char} (member : c ∈ sanitizeChars text) :
    isUnsafe c = false := by
  rw [sanitizeChars_eq] at member
  split at member
  · have named : "unnamed".toList.all (fun c => !isUnsafe c) = true := by decide
    simpa using List.all_eq_true.mp named c member
  · have inner := (Text.strip_sublist isEdge _).subset member
    obtain ⟨other, -, rfl⟩ := List.mem_map.mp inner
    split
    · decide
    next harmless => simpa using harmless

theorem isEdge_of_head?_sanitizeChars {c : Char} (first : (sanitizeChars text).head? = some c) :
    isEdge c = false := by
  rw [sanitizeChars_eq] at first
  split at first
  · obtain rfl : 'u' = c := Option.some.inj first
    decide
  · exact Text.head?_strip first

theorem isEdge_of_getLast?_sanitizeChars {c : Char}
    (last : (sanitizeChars text).getLast? = some c) : isEdge c = false := by
  rw [sanitizeChars_eq] at last
  split at last
  · obtain rfl : 'd' = c := Option.some.inj last
    decide
  · exact Text.getLast?_strip last

end

theorem safe_sanitize (name : String) : Safe (sanitize name) where
  filled := by
    intro empty
    apply sanitizeChars_ne_nil name.toList
    rw [← String.toList_ofList (l := sanitizeChars name.toList)]
    exact congrArg String.toList empty
  harmless := by
    rw [sanitize, String.toList_ofList]
    exact fun c member => isUnsafe_eq_false_iff.mp (isUnsafe_of_mem_sanitizeChars member)
  first := by
    rw [sanitize, String.toList_ofList]
    exact fun c first => isEdge_eq_false_iff.mp (isEdge_of_head?_sanitizeChars first)
  last := by
    rw [sanitize, String.toList_ofList]
    exact fun c last => isEdge_eq_false_iff.mp (isEdge_of_getLast?_sanitizeChars last)

/-- A safe name has nothing to replace and nothing to cut off. -/
theorem Safe.sanitize_eq {name : String} (safe : Safe name) : sanitize name = name := by
  have kept : (name.toList.map fun c => if isUnsafe c then '_' else c) = name.toList := by
    rw [← List.map_id name.toList, List.map_map]
    apply List.map_congr_left
    intro c member
    have harmless := isUnsafe_eq_false_iff.mpr (safe.harmless c member)
    simp [harmless]
  have whole : Text.strip isEdge name.toList = name.toList := by
    apply Text.strip_eq_self
    · exact fun c first => isEdge_eq_false_iff.mpr (safe.first c first)
    · exact fun c last => isEdge_eq_false_iff.mpr (safe.last c last)
  have filled : name.toList ≠ [] := by simpa using safe.filled
  rw [sanitize, sanitizeChars_eq, kept, whole, if_neg filled, String.ofList_toList]

/-- A safe name is one name on the host. -/
theorem Safe.plain {name : String} (safe : Safe name) : HostPath.Plain name where
  filled := by simpa using safe.filled
  flat := fun member => (safe.harmless '/' member).1 (by decide)
  proper := by
    rw [HostPath.isStep, Bool.or_eq_false_iff]
    constructor
    · refine decide_eq_false fun same => ?_
      subst same
      exact (safe.first '.' rfl).2 rfl
    · refine decide_eq_false fun same => ?_
      subst same
      exact (safe.first '.' rfl).2 rfl

theorem toList_stored (partition : Nat) (entry : Entry) :
    (stored partition entry).toList =
      'p' :: (Nat.toDigits 10 partition ++
        '_' :: (Number.padLeft '0' 5 (Nat.toDigits 10 entry.ordinal) ++
          '_' :: sanitizeChars entry.displayName.toList)) := by
  simp [stored, Number.decimal, sanitize, Nat.toString_eq_repr, Nat.repr_eq_ofList_toDigits]

/-- With its partition and its ordinal in front a safe name is safe. -/
theorem safe_stored (partition : Nat) (entry : Entry) : Safe (stored partition entry) where
  filled := by
    intro empty
    have text := congrArg String.toList empty
    rw [toList_stored] at text
    cases text
  harmless := by
    intro c member
    apply isUnsafe_eq_false_iff.mp
    rw [toList_stored] at member
    rcases List.mem_cons.mp member with rfl | member
    · decide
    rcases List.mem_append.mp member with digit | member
    · exact isUnsafe_of_isDigit (Nat.isDigit_of_mem_toDigits (by decide) (by decide) digit)
    rcases List.mem_cons.mp member with rfl | member
    · decide
    rcases List.mem_append.mp member with digit | member
    · exact isUnsafe_of_isDigit (Number.isDigit_of_mem_padLeft digit)
    rcases List.mem_cons.mp member with rfl | member
    · decide
    · exact isUnsafe_of_mem_sanitizeChars member
  first := by
    intro c first
    rw [toList_stored] at first
    obtain rfl : 'p' = c := Option.some.inj first
    decide
  last := by
    intro c last
    apply isEdge_eq_false_iff.mp
    apply isEdge_of_getLast?_sanitizeChars
    have behind : ∃ front, (stored partition entry).toList =
        front ++ sanitizeChars entry.displayName.toList :=
      ⟨'p' :: (Nat.toDigits 10 partition ++
        '_' :: (Number.padLeft '0' 5 (Nat.toDigits 10 entry.ordinal) ++ ['_'])),
        by simp [toList_stored]⟩
    obtain ⟨front, text⟩ := behind
    rw [text, List.getLast?_append_of_ne_nil _ (sanitizeChars_ne_nil _)] at last
    exact last

theorem plain_stored (partition : Nat) (entry : Entry) : HostPath.Plain (stored partition entry) :=
  (safe_stored partition entry).plain

/-- What stands before the first separator, and what behind it, are read off a text. -/
theorem append_cons_inj {separator : Char} {first second behind rest : List Char}
    (outside : separator ∉ first) (outside' : separator ∉ second)
    (same : first ++ separator :: behind = second ++ separator :: rest) :
    first = second ∧ behind = rest := by
  induction first generalizing second with
  | nil =>
    cases second with
    | nil => exact ⟨rfl, (List.cons.inj same).2⟩
    | cons c others =>
      obtain ⟨rfl, -⟩ := List.cons.inj same
      exact absurd List.mem_cons_self outside'
  | cons c front ih =>
    cases second with
    | nil =>
      obtain ⟨rfl, -⟩ := List.cons.inj same
      exact absurd List.mem_cons_self outside
    | cons d others =>
      obtain ⟨rfl, tail⟩ := List.cons.inj same
      obtain ⟨rfl, last⟩ := ih (fun member => outside (List.mem_cons_of_mem _ member))
        (fun member => outside' (List.mem_cons_of_mem _ member)) tail
      exact ⟨rfl, last⟩

/-- A stored name tells the partition and the ordinal of its file. -/
theorem stored_inj {partition other : Nat} {entry another : Entry}
    (same : stored partition entry = stored other another) :
    partition = other ∧ entry.ordinal = another.ordinal := by
  have digits {text : List Char} (all : ∀ c ∈ text, c.isDigit = true) : '_' ∉ text :=
    fun member => absurd (all _ member) (by decide)
  have first (number : Nat) : '_' ∉ Nat.toDigits 10 number :=
    digits fun c member => Nat.isDigit_of_mem_toDigits (by decide) (by decide) member
  have second (number : Nat) : '_' ∉ Number.padLeft '0' 5 (Nat.toDigits 10 number) :=
    digits fun c member => Number.isDigit_of_mem_padLeft member
  have texts := congrArg String.toList same
  rw [toList_stored, toList_stored, List.cons_inj_right] at texts
  obtain ⟨front, back⟩ := append_cons_inj (first partition) (first other) texts
  obtain ⟨middle, -⟩ := append_cons_inj (second entry.ordinal) (second another.ordinal) back
  constructor
  · have value := congrArg (Nat.ofDigitChars 10 · 0) front
    simpa [Nat.ofDigitChars_toDigits] using value
  · have value := congrArg (Nat.ofDigitChars 10 · 0) middle
    simpa only [Number.ofDigitChars_padLeft] using value

end FileName

namespace FolderOutput

/-- A path that leads through a folder and on by one more name. -/
structure LeadsInto (root name path : String) : Prop where
  plain : HostPath.Plain name
  joined : path = FileName.join root name
  names : HostPath.ofText path =
    { isAbsolute := (HostPath.ofText root).isAbsolute
      names := (HostPath.ofText root).names ++ [name]
      asksForFolder := false }
  target : ∀ home, (HostPath.ofText path).target home =
    (HostPath.ofText root).target home ++ [name]

theorem leadsInto_pathOf (root : String) (partition : Nat) (entry : Entry) :
    LeadsInto root (FileName.stored partition entry) (pathOf root partition entry) := by
  have plain := FileName.plain_stored partition entry
  have names := HostPath.ofText_join root plain
  refine ⟨plain, rfl, names, ?_⟩
  intro home
  rw [pathOf, names, HostPath.target, List.foldl_concat]
  exact HostPath.follow_of_isStep_eq_false plain.proper _

/-- Sanitizing makes every name safe and leaves a safe one as it is. Every entry has its path in
the folder itself, under a safe name, and there its partition and its ordinal keep it apart from
every other entry, whatever the two are called. -/
theorem pathOf_separate :
    (∀ name, FileName.Safe (FileName.sanitize name) ∧
      FileName.sanitize (FileName.sanitize name) = FileName.sanitize name) ∧
    ∀ root partition entry,
      (∃ name, FileName.Safe name ∧ LeadsInto root name (pathOf root partition entry)) ∧
      ∀ other another, (partition, entry.ordinal) ≠ (other, another.ordinal) → ∀ home,
        (HostPath.ofText (pathOf root partition entry)).target home ≠
          (HostPath.ofText (pathOf root other another)).target home := by
  constructor
  · intro name
    have safe := FileName.safe_sanitize name
    exact ⟨safe, safe.sanitize_eq⟩
  · intro root partition entry
    have own := leadsInto_pathOf root partition entry
    refine ⟨⟨_, FileName.safe_stored partition entry, own⟩, ?_⟩
    intro other another different home same
    rw [own.target, (leadsInto_pathOf root other another).target] at same
    have stored := List.append_inj_right' same rfl
    obtain ⟨partitions, ordinals⟩ := FileName.stored_inj (List.cons.inj stored).1
    exact different (Prod.ext partitions ordinals)

/-- An entry of a certain name. -/
def called (ordinal : Nat) (name : String) : Entry :=
  { fileId := ordinal, ordinal, shortName := [0xE5], extension := [], longName := some name
    recoveredInitial := none, attributes := 0x20, startCluster := 3, size := 1
    deleted := true, parentCluster := 2, slotCluster := 2, slotIndex := 0, modified := none }

theorem pathOf_separate_digits :
    pathOf "out/.." 1 (called 100000 "/") = "out/../p1_100000__" ∧
      pathOf "out/.." 1 (called 10000 "0/") = "out/../p1_10000_0_" ∧
      (HostPath.ofText (pathOf "out/.." 1 (called 100000 "/"))).target [] ≠
        (HostPath.ofText (pathOf "out/.." 1 (called 10000 "0/"))).target [] := by
  have apart := (pathOf_separate.2 "out/.." 1 (called 100000 "/")).2
  refine ⟨by decide +kernel, by decide +kernel, ?_⟩
  exact apart 1 (called 10000 "0/") (by decide) []

end FolderOutput

end Undelete
