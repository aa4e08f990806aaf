import Mathlib.Data.List.TakeWhile
import Undelete.Proofs.Directory.Folders

/-!
What a scan makes of the slots of one directory. It reads pages up to the end of the directory, and
the entries that it finds there are those of what the slots stand for, in their order.
-/

namespace Undelete

namespace Directory

variable {source : Source} {g : Geometry}

theorem beforeEnd_iff {placed : PlacedSlot} :
    beforeEnd placed = true ↔ Slot.decode placed.data ≠ .unused := by
  rw [beforeEnd, decide_eq_true_iff, not_iff_not]
  unfold Slot.decode
  split
  next unused => simp [unused]
  next used => split <;> simp [used]

theorem firstByte_of_decode {data : Bytes} {slot : ShortSlot}
    (decoded : Slot.decode data = .short slot) : slot.name.byteAt 0 = data.byteAt 0 := by
  unfold Slot.decode at decoded
  split at decoded
  · cases decoded
  · split at decoded
    · cases decoded
    · cases decoded
      cases data <;> rfl

/-- Slots from the end of a directory on change nothing. -/
theorem entries_takeWhile (directory ordinal : Nat) (inDeleted : Bool)
    (pending : List NameFragment) (slots : List PlacedSlot) :
    entries directory inDeleted ordinal pending (slots.takeWhile beforeEnd) =
      entries directory inDeleted ordinal pending slots := by
  induction slots generalizing ordinal pending with
  | nil => rfl
  | cons placed rest ih =>
    cases decoded : Slot.decode placed.data with
    | unused =>
      have ends : ¬ beforeEnd placed = true := fun before => beforeEnd_iff.mp before decoded
      rw [List.takeWhile_cons_of_neg ends]
      simp only [entries, decoded]
    | fragment fragment =>
      have before : beforeEnd placed = true := beforeEnd_iff.mpr (by simp [decoded])
      rw [List.takeWhile_cons_of_pos before]
      simp only [entries, decoded, ih]
    | short slot =>
      have before : beforeEnd placed = true := beforeEnd_iff.mpr (by simp [decoded])
      rw [List.takeWhile_cons_of_pos before]
      simp only [entries, decoded, ih]

theorem fragmentsAfter_append (before : List PlacedSlot) (placed : PlacedSlot) :
    fragmentsAfter (before ++ [placed]) =
      match Slot.decode placed.data with
      | .fragment fragment => keep (fragmentsAfter before) fragment
      | _ => [] := by
  rw [fragmentsAfter, List.foldl_append]
  rfl

/-- Before the end, the entries of a directory are those of what its slots stand for. -/
theorem entries_eq_number (folder : Folder) (ordinal : Nat) (before slots : List PlacedSlot)
    (all : ∀ placed ∈ slots, beforeEnd placed = true) :
    entries folder.start folder.inDeleted ordinal (fragmentsAfter before) slots =
      Finding.number ordinal ((slots.zip (slots.inits.map (before ++ ·))).filterMap
        (finding? folder)) := by
  induction slots generalizing ordinal before with
  | nil => rfl
  | cons placed rest ih =>
    have used := beforeEnd_iff.mp (all placed List.mem_cons_self)
    have onward (ordinal : Nat) := ih ordinal (before ++ [placed])
      fun later member => all later (List.mem_cons_of_mem _ member)
    -- For the slots that follow, the one at hand is among those before them.
    have shift : (placed :: rest).inits.map (before ++ ·) =
        before :: rest.inits.map ((before ++ [placed]) ++ ·) := by
      simp [Function.comp_def]
    rw [shift, List.zip_cons_cons]
    cases decoded : Slot.decode placed.data with
    | unused => exact absurd decoded used
    | fragment fragment =>
      have nothing : finding? folder (placed, before) = none := by simp only [finding?, decoded]
      rw [List.filterMap_cons_none nothing, ← onward, fragmentsAfter_append]
      simp only [entries, decoded]
    | short slot =>
      by_cases omitted : (slot.isVolumeLabel || slot.isDot) = true
      · have nothing : finding? folder (placed, before) = none := by
          simp only [finding?, decoded, if_pos omitted]
        rw [List.filterMap_cons_none nothing, ← onward, fragmentsAfter_append]
        simp only [entries, decoded, if_pos omitted]
      · have something : finding? folder (placed, before) =
            some ⟨folder, placed, slot, fragmentsAfter before⟩ := by
          simp only [finding?, decoded, if_neg omitted]
        rw [List.filterMap_cons_some something, Finding.number, List.zipIdx_cons, List.map_cons,
          ← Finding.number, ← onward, fragmentsAfter_append]
        simp only [entries, decoded, if_neg omitted]
        rfl

theorem data_placedPage (start cluster : Nat) (slots : List Bytes) :
    (placedPage start cluster slots).map PlacedSlot.data = slots := by
  rw [placedPage, List.map_map]
  exact List.zipIdx_map_fst start slots

theorem data_placedFrom (start : Nat) (read : List (Nat × List Bytes)) :
    (placedFrom start read).map PlacedSlot.data = read.flatMap Prod.snd := by
  induction read generalizing start with
  | nil => rfl
  | cons page rest ih => rw [placedFrom, List.map_append, data_placedPage, ih, List.flatMap_cons]

theorem takeWhile_append_of_stop {α : Type} {keep : α → Bool} {first : List α} (second : List α)
    (stop : ∃ item ∈ first, ¬ keep item = true) :
    (first ++ second).takeWhile keep = first.takeWhile keep := by
  rw [List.takeWhile_append, if_neg]
  intro whole
  obtain ⟨item, member, stops⟩ := stop
  have all := (List.takeWhile_prefix keep).eq_of_length whole
  exact stops (List.takeWhile_eq_self_iff.mp all item member)

theorem contents_volume {cluster : Nat} {slots : List Bytes}
    (answered : slotsOf source g cluster = .ok slots) :
    (source.volume g).contents cluster = slots := by
  have stored : (source.volume g).slots cluster = .ok slots := answered
  rw [Volume.contents, stored]

/-- The pages that a scan reads of a directory end at the page with its end, so that they have the
same slots before it. -/
theorem takeWhile_pagesOf {clusters : List Nat}
    (readable : ∀ cluster ∈ clusters, ∃ slots, slotsOf source g cluster = .ok slots)
    (start : Nat) :
    (placedFrom start (pagesOf source g clusters)).takeWhile beforeEnd =
      (placedFrom start (clusters.map fun cluster =>
        (cluster, (source.volume g).contents cluster))).takeWhile beforeEnd := by
  induction clusters generalizing start with
  | nil => rfl
  | cons cluster rest ih =>
    obtain ⟨slots, answered⟩ := readable cluster List.mem_cons_self
    have later := ih fun other member => readable other (List.mem_cons_of_mem _ member)
    have contents : (source.volume g).contents cluster = slots := contents_volume answered
    rw [pagesOf, answered, List.map_cons, contents, placedFrom]
    dsimp only
    split
    next ends =>
      -- Neither side goes beyond the page that holds the end.
      have stop : ∃ placed ∈ placedPage start cluster slots, ¬ beforeEnd placed = true := by
        obtain ⟨data, stored, mark⟩ := List.any_eq_true.mp ends
        rw [← data_placedPage start cluster slots] at stored
        obtain ⟨placed, member, rfl⟩ := List.mem_map.mp stored
        refine ⟨placed, member, ?_⟩
        simpa [beforeEnd] using mark
      rw [takeWhile_append_of_stop _ stop, placedFrom, takeWhile_append_of_stop _ stop]
    next onward =>
      rw [placedFrom, List.takeWhile_append, List.takeWhile_append, later]

/-- Only clusters of a directory are visited while it is read. -/
theorem mem_visited_pagesAfter {clusters : List Nat} {visited : Std.TreeSet Nat} {cluster : Nat}
    (member : cluster ∈ (pagesAfter source g clusters visited).2) :
    cluster ∈ visited ∨ cluster ∈ clusters := by
  induction clusters generalizing visited with
  | nil => exact .inl member
  | cons first rest ih =>
    have here (later : cluster ∈ visited.insert first) :
        cluster ∈ visited ∨ cluster ∈ first :: rest := by
      rcases mem_insert.mp later with rfl | old
      · exact .inr List.mem_cons_self
      · exact .inl old
    rw [pagesAfter_cons] at member
    split at member
    · exact .inl member
    split at member
    · exact here member
    split at member
    · exact here member
    · rcases ih member with later | onward
      · exact here later
      · exact .inr (List.mem_cons_of_mem _ onward)

end Directory

theorem Finding.number_cons (first : Nat) (finding : Finding) (rest : List Finding) :
    number first (finding :: rest) = finding.entry first :: number (first + 1) rest := by
  rw [number, List.zipIdx_cons, List.map_cons]
  rfl

theorem Finding.number_append (first : Nat) (found later : List Finding) :
    number first (found ++ later) = number first found ++ number (first + found.length) later := by
  rw [number, List.zipIdx_append, List.map_append]
  rfl

theorem Finding.length_number (first : Nat) (found : List Finding) :
    (number first found).length = found.length := by
  rw [number, List.length_map, List.length_zipIdx]

/-- The entries that a scan goes on to name the targets of the findings. -/
theorem Finding.subdirectories_number (first : Nat) (found : List Finding) :
    Scan.subdirectories (number first found) =
      ((found.filter (·.slot.isDirectory)).map target).map fun child =>
        (child.start, child.inDeleted) := by
  induction found generalizing first with
  | nil => rfl
  | cons finding rest ih =>
    have named : (finding.entry first).isDirectory = finding.slot.isDirectory := rfl
    rw [number_cons, Scan.subdirectories, List.filter_cons, List.filter_cons, named]
    split
    · rw [List.map_cons, List.map_cons, List.map_cons, ← ih (first + 1)]
      rfl
    · exact ih (first + 1)

theorem Finding.forall₂_number {Related : Finding → Entry → Prop} (first : Nat)
    {found : List Finding}
    (each : ∀ finding ∈ found, ∀ ordinal, Related finding (finding.entry ordinal)) :
    List.Forall₂ Related found (number first found) := by
  induction found generalizing first with
  | nil => exact .nil
  | cons finding rest ih =>
    rw [number_cons]
    exact .cons (each finding List.mem_cons_self first)
      (ih (first + 1) fun later member => each later (List.mem_cons_of_mem _ member))

/-- An entry counts as deleted when its slot is marked or that of a directory above it. -/
theorem Volume.deleted_entry_iff {volume : Volume} {folder : Folder} {finding : Finding}
    (member : finding ∈ volume.findings folder) (ordinal : Nat) :
    (finding.entry ordinal).deleted = true ↔
      finding.placed.data.byteAt 0 = deletedMark ∨
        ∃ ancestor ∈ finding.folder.ancestry, ancestor.name.byteAt 0 = deletedMark := by
  have first : finding.slot.name.byteAt 0 = finding.placed.data.byteAt 0 := by
    obtain ⟨⟨placed, before⟩, -, found⟩ := List.mem_filterMap.mp member
    cases decoded : Slot.decode placed.data with
    | unused => simp [Directory.finding?, decoded] at found
    | fragment fragment => simp [Directory.finding?, decoded] at found
    | short slot =>
      simp only [Directory.finding?, decoded] at found
      split at found
      · cases found
      · cases found
        exact Directory.firstByte_of_decode decoded
  simp [Finding.entry, Directory.entryOf, Folder.inDeleted, ShortSlot.isDeleted, first]

end Undelete
