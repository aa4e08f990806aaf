import Undelete.Drive
import Undelete.Proofs.Recovery.FileNames
import Undelete.Proofs.Text.Words

/-!
The names that users give to drives. They have one grammar, and a name that fits it stands for one
drive, in whatever case it is written and whatever blanks stand around it.
-/

namespace Undelete.Drive

open Text

/-- What is left of an input without the blanks around it. -/
def wordOf (input : String) : List Char := strip isBlank input.toList

/-- Whether a word is the number of a disk. -/
def IsNumber (word : List Char) : Prop := word ≠ [] ∧ ∀ c ∈ word, c.isDigit = true

/-- Whether a word has the name of a physical drive in it and ends in a digit. -/
def IsDisk (word : List Char) : Prop :=
  (∃ part, part <:+: word ∧ part.map Char.toUpper = physicalWord) ∧
    ∃ c ∈ word.getLast?, c.isDigit = true

/-- Whether a word is a letter for a volume, with or without a colon. -/
def IsVolume (word : List Char) (letter : Char) : Prop :=
  letter.isAlpha = true ∧ (word = [letter] ∨ word = [letter, ':'])

/-- Whether an ending of a word is its longest one of digits. -/
def IsIndex (word index : List Char) : Prop :=
  ∃ front, word = front ++ index ∧ (∀ c ∈ index, c.isDigit = true) ∧
    ∀ c ∈ front.getLast?, c.isDigit = false

/-- The grammar of drive names. -/
inductive Names (word : List Char) : Drive → Prop
  | disk {index : List Char} (named : IsNumber word ∨ IsDisk word) (last : IsIndex word index) :
      Names word (physical index)
  | volume {letter : Char} (named : IsVolume word letter) : Names word (logical letter.toUpper)

variable {word word' index : List Char} {letter : Char} {drive : Drive}

theorem isIndex_iff : IsIndex word index ↔ index = takeEndWhile Char.isDigit word := by
  constructor
  · rintro ⟨front, rfl, digits, stops⟩
    exact (takeEndWhile_append stops digits).symm
  · rintro rfl
    obtain ⟨front, split, stops⟩ := exists_takeEndWhile Char.isDigit word
    exact ⟨front, split, fun c => of_mem_takeEndWhile, stops⟩

theorem exists_isIndex (word : List Char) : ∃ index, IsIndex word index := ⟨_, isIndex_iff.mpr rfl⟩

theorem IsNumber.isIndex (number : IsNumber word) : IsIndex word word :=
  ⟨[], rfl, number.2, fun _ last => nomatch last⟩

/-- Digits have no case, so that the index of a name can be read off it in upper case. -/
theorem takeEndWhile_toUpper (word : List Char) :
    takeEndWhile Char.isDigit (word.map Char.toUpper) = takeEndWhile Char.isDigit word := by
  rw [takeEndWhile_map isDigit_toUpper]
  exact map_toUpper_of_digits fun c => of_mem_takeEndWhile

theorem isNumber_iff : IsNumber word ↔ word ≠ [] ∧ word.all Char.isDigit = true := by
  rw [IsNumber, List.all_eq_true]

theorem isDisk_iff :
    IsDisk word ↔ occursIn physicalWord (word.map Char.toUpper) = true ∧
      takeEndWhile Char.isDigit (word.map Char.toUpper) ≠ [] := by
  have ends : (∃ c ∈ word.getLast?, c.isDigit = true) ↔ takeEndWhile Char.isDigit word ≠ [] := by
    rw [Ne, takeEndWhile_eq_nil_iff]
    simp
  have named : (∃ part, part <:+: word ∧ part.map Char.toUpper = physicalWord) ↔
      occursIn physicalWord (word.map Char.toUpper) = true := by
    rw [occursIn_iff, List.infix_map_iff]
    simp only [eq_comm]
  rw [IsDisk, ends, named, takeEndWhile_toUpper]

theorem ofLetter?_eq_some_iff :
    ofLetter? (word.map Char.toUpper) = some drive ↔
      ∃ letter, IsVolume word letter ∧ drive = logical letter.toUpper := by
  match word with
  | [] => simp [ofLetter?, IsVolume]
  | [first] =>
    simp only [ofLetter?, IsVolume, Char.isAlpha_toUpper_eq_isAlpha, List.map_cons, List.map_nil,
      Option.ite_none_right_eq_some, Option.some.injEq, List.cons.injEq, and_true]
    constructor
    · rintro ⟨alpha, rfl⟩
      exact ⟨first, ⟨alpha, .inl rfl⟩, rfl⟩
    · rintro ⟨_, ⟨alpha, rfl | ⟨-, ⟨⟩⟩⟩, rfl⟩
      exact ⟨alpha, rfl⟩
  | [first, second] =>
    have colon : second.toUpper = ':' ↔ second = ':' := toUpper_eq_iff rfl
    by_cases volume : second = ':'
    · subst volume
      constructor
      · intro named
        change (if first.toUpper.isAlpha = true then some (logical first.toUpper) else none) = _
          at named
        obtain ⟨alpha, spelled⟩ := Option.ite_none_right_eq_some.mp named
        exact ⟨first, ⟨(Char.isAlpha_toUpper_eq_isAlpha first).symm.trans alpha, .inr rfl⟩,
          (Option.some.inj spelled).symm⟩
      · rintro ⟨_, ⟨alpha, ⟨⟨⟩⟩ | ⟨⟨⟩⟩⟩, rfl⟩
        exact if_pos ((Char.isAlpha_toUpper_eq_isAlpha first).trans alpha)
    · simp [ofLetter?, IsVolume, volume, colon]
  | _ :: _ :: _ :: _ => simp [ofLetter?, IsVolume]

/-- The name of a volume does not end in a digit. -/
theorem IsVolume.not_disk (volume : IsVolume word letter) : ¬ (IsNumber word ∨ IsDisk word) := by
  obtain ⟨alpha, spelled⟩ := volume
  have ends : ∀ c ∈ word.getLast?, c.isDigit = false := by
    rcases spelled with rfl | rfl
    · rintro _ ⟨⟩
      exact isDigit_of_isAlpha alpha
    · rintro _ ⟨⟩
      rfl
  have last (c : Char) (here : c ∈ word.getLast?) : ¬ c.isDigit = true := by
    rw [ends c here]
    exact Bool.false_ne_true
  rintro (⟨filled, digits⟩ | ⟨-, c, here, digit⟩)
  · exact last _ (List.getLast?_eq_some_getLast filled) (digits _ (List.getLast_mem filled))
  · exact last c here digit

theorem ofWord?_eq_some_iff : ofWord? word = some drive ↔ Names word drive := by
  unfold ofWord?
  dsimp only
  constructor
  · intro named
    split at named
    next number =>
      cases named
      have number := isNumber_iff.mpr number
      exact .disk (.inl number) number.isIndex
    split at named
    next disk =>
      cases named
      exact .disk (.inr (isDisk_iff.mpr disk)) (isIndex_iff.mpr (takeEndWhile_toUpper word))
    · obtain ⟨letter, volume, rfl⟩ := ofLetter?_eq_some_iff.mp named
      exact .volume volume
  · intro names
    cases names with
    | disk named last =>
      cases isIndex_iff.mp last
      by_cases number : IsNumber word
      · rw [if_pos (isNumber_iff.mp number), ← isIndex_iff.mp number.isIndex]
      -- The index is read off the word in upper case, which has the same digits at its end.
      · rw [if_neg (mt isNumber_iff.mpr number), takeEndWhile_toUpper, if_pos]
        rw [← takeEndWhile_toUpper]
        exact isDisk_iff.mp (named.resolve_left number)
    | volume volume =>
      rw [if_neg (mt (.inl ∘ isNumber_iff.mpr) volume.not_disk),
        if_neg (mt (.inr ∘ isDisk_iff.mpr) volume.not_disk)]
      exact ofLetter?_eq_some_iff.mpr ⟨_, volume, rfl⟩

theorem classify_eq_ok_iff {input : String} :
    classify input = .ok drive ↔ Names (wordOf input) drive := by
  rw [← ofWord?_eq_some_iff, classify, wordOf]
  cases ofWord? (strip isBlank input.toList) <;> simp

theorem isNumber_congr (same : word.map Char.toUpper = word'.map Char.toUpper) :
    IsNumber word ↔ IsNumber word' := by
  have raised (word : List Char) : IsNumber (word.map Char.toUpper) ↔ IsNumber word := by
    simp [IsNumber, isDigit_toUpper]
  rw [← raised, same, raised]

/-- A word stands for the same drive in any case. -/
theorem ofWord?_congr (same : word.map Char.toUpper = word'.map Char.toUpper) :
    ofWord? word = ofWord? word' := by
  by_cases number : IsNumber word
  · have number' := (isNumber_congr same).mp number
    rw [← map_toUpper_of_digits number.2, same, map_toUpper_of_digits number'.2]
  · have number' := mt (isNumber_congr same).mpr number
    rw [ofWord?, ofWord?, same, if_neg (mt isNumber_iff.mpr number),
      if_neg (mt isNumber_iff.mpr number')]

/-- The word in an input is the same one whatever blanks stand around it, up to case. -/
theorem map_toUpper_wordOf {front body back : List Char} (before : ∀ c ∈ front, isBlank c = true)
    (behind : ∀ c ∈ back, isBlank c = true) :
    (wordOf (String.ofList (front ++ body ++ back))).map Char.toUpper =
      strip isBlank (body.map Char.toUpper) := by
  rw [wordOf, String.toList_ofList, strip_append body before behind, strip_map isBlank_toUpper]

theorem IsIndex.digits (last : IsIndex word index) : ∀ c ∈ index, c.isDigit = true := by
  obtain ⟨_, -, digits, -⟩ := last
  exact digits

/-- The name of a disk has an index in it. -/
theorem IsIndex.filled (last : IsIndex word index) (named : IsNumber word ∨ IsDisk word) :
    index ≠ [] := by
  rw [isIndex_iff.mp last]
  rcases named with number | disk
  · rw [← isIndex_iff.mp number.isIndex]
    exact number.1
  · rw [← takeEndWhile_toUpper]
    exact (isDisk_iff.mp disk).2

theorem isBlank_of_isDigit {c : Char} (digit : c.isDigit = true) : isBlank c = false := by
  rw [isDigit_iff] at digit
  simp [isBlank, blankRanges]
  omega

/-- The path of a disk is a name of the disk. -/
theorem names_path (filled : index ≠ []) (digits : ∀ c ∈ index, c.isDigit = true) :
    Names (wordOf (physical index).path) (physical index) := by
  obtain ⟨last, ends⟩ := Option.isSome_iff_exists.mp (List.getLast?_isSome.mpr filled)
  have path : (physical index).path.toList =
      deviceNamespace.toList ++ "PhysicalDrive".toList ++ index := by
    simp [physical, image, String.toList_append]
  have ended : (physical index).path.toList.getLast? = some last := by
    rw [path, List.getLast?_append, ends]
    rfl
  have digit : last.isDigit = true := digits last (List.mem_of_getLast? ends)
  have whole : wordOf (physical index).path = (physical index).path.toList := by
    apply strip_eq_self
    · rw [path]
      rintro _ ⟨⟩
      decide
    · rw [ended]
      rintro _ ⟨⟩
      exact isBlank_of_isDigit digit
  rw [whole]
  refine .disk (.inr ⟨?_, last, ended, digit⟩) ?_
  · exact ⟨"PhysicalDrive".toList, ⟨_, _, path.symm⟩, by decide⟩
  · refine ⟨_, path, digits, ?_⟩
    rintro _ ⟨⟩
    rfl

/-- A name is accepted if it fits the grammar, and it stands for the drive that the grammar gives
it. Neither its case nor the blanks around it matter, and the path of a disk stands for the disk. -/
theorem classify_exact :
    (∀ input : String,
      ((∃ drive, classify input = .ok drive) ↔
        IsNumber (wordOf input) ∨ IsDisk (wordOf input) ∨
          ∃ letter, IsVolume (wordOf input) letter) ∧
      (IsNumber (wordOf input) ∨ IsDisk (wordOf input) →
        ∃ index, IsIndex (wordOf input) index ∧ classify input =
          .ok ⟨"\\\\.\\PhysicalDrive" ++ String.ofList index, .physical, .unknown⟩) ∧
      ∀ letter, IsVolume (wordOf input) letter → classify input =
        .ok ⟨"\\\\.\\" ++ String.ofList [letter.toUpper, ':'], .logical, .unknown⟩) ∧
    (∀ (front body back front' body' back' : List Char) (drive : Drive),
      (∀ c ∈ front ++ back ++ front' ++ back', isBlank c = true) →
      body.map Char.toUpper = body'.map Char.toUpper →
      classify (String.ofList (front ++ body ++ back)) = .ok drive →
      classify (String.ofList (front' ++ body' ++ back')) = .ok drive) ∧
    ∀ (input : String) (drive : Drive), classify input = .ok drive → drive.category = .physical →
      classify drive.path = .ok drive := by
  refine ⟨fun input => ⟨⟨?_, ?_⟩, ?_, ?_⟩, ?_, ?_⟩
  · rintro ⟨drive, accepted⟩
    cases classify_eq_ok_iff.mp accepted with
    | disk named => exact named.imp_right .inl
    | volume named => exact .inr (.inr ⟨_, named⟩)
  · obtain ⟨index, last⟩ := exists_isIndex (wordOf input)
    rintro (number | disk | ⟨letter, volume⟩)
    · exact ⟨_, classify_eq_ok_iff.mpr (.disk (.inl number) last)⟩
    · exact ⟨_, classify_eq_ok_iff.mpr (.disk (.inr disk) last)⟩
    · exact ⟨_, classify_eq_ok_iff.mpr (.volume volume)⟩
  · intro named
    obtain ⟨index, last⟩ := exists_isIndex (wordOf input)
    exact ⟨index, last, classify_eq_ok_iff.mpr (.disk named last)⟩
  · exact fun letter named => classify_eq_ok_iff.mpr (.volume named)
  · intro front body back front' body' back' drive blank same accepted
    have words : (wordOf (String.ofList (front ++ body ++ back))).map Char.toUpper =
        (wordOf (String.ofList (front' ++ body' ++ back'))).map Char.toUpper := by
      simp only [List.forall_mem_append] at blank
      obtain ⟨⟨⟨before, behind⟩, before'⟩, behind'⟩ := blank
      rw [map_toUpper_wordOf before behind, same, map_toUpper_wordOf before' behind']
    rw [classify_eq_ok_iff, ← ofWord?_eq_some_iff] at accepted ⊢
    rw [← ofWord?_congr words, accepted]
  · intro input drive accepted disk
    cases classify_eq_ok_iff.mp accepted with
    | disk named last => exact classify_eq_ok_iff.mpr (names_path (last.filled named) last.digits)
    | volume named => cases disk

/-- A disk named in small letters among blanks, its path read back, and a volume. -/
theorem classify_exact_mixed :
    classify "\t\\\\.\\physicaldrive011\u3000" =
        .ok ⟨"\\\\.\\PhysicalDrive011", .physical, .unknown⟩ ∧
      classify "\\\\.\\PhysicalDrive007" = .ok ⟨"\\\\.\\PhysicalDrive007", .physical, .unknown⟩ ∧
      classify "e" = .ok ⟨"\\\\.\\E:", .logical, .unknown⟩ := by
  obtain ⟨grammar, unmoved, again⟩ := classify_exact
  refine ⟨?_, ?_, ?_⟩
  · have plain : classify "\\\\.\\PhysicalDrive011" = .ok (physical "011".toList) := by decide
    exact unmoved [] "\\\\.\\PhysicalDrive011".toList [] ['\t'] "\\\\.\\physicaldrive011".toList
      ['\u3000'] _ (List.all_eq_true.mp rfl) (by decide) plain
  · have number : classify "007" = .ok (physical "007".toList) := by decide
    exact again "007" _ number rfl
  · exact (grammar "e").2.2 'e' ⟨by decide, .inl (by decide)⟩

end Undelete.Drive
