import Undelete.Proofs.Directory.Deletion
import Undelete.Proofs.Directory.Strays

/-!
What becomes of a long name when other fragments stand in front of its own. They are kept until a
short slot takes them or there are too many for one name, so that a name is found behind none, or
behind as many as are dropped just when it begins.
-/

namespace Undelete

open Directory

namespace Directory

/-- Fragments of something else that have not been dropped when the next one comes. -/
def leftOf (strays : List NameFragment) : List NameFragment :=
  strays.drop (maxFragments * (strays.length / maxFragments))

/-- What is pending after strays and the fragments of a name. -/
def pile (strays fragments : List NameFragment) : List NameFragment :=
  if (leftOf strays).length + fragments.length ≤ maxFragments then leftOf strays ++ fragments
  else fragments.drop (maxFragments - (leftOf strays).length)

theorem length_leftOf (strays : List NameFragment) :
    (leftOf strays).length = strays.length % maxFragments := by
  rw [leftOf, List.length_drop, Nat.mod_def]

theorem length_leftOf_lt (strays : List NameFragment) :
    (leftOf strays).length < maxFragments := by
  rw [length_leftOf]
  exact Nat.mod_lt _ (Nat.succ_pos 19)

/-- Of fragments that follow one another the last ones are pending. -/
theorem foldl_keep {pending : List NameFragment} (few : pending.length ≤ maxFragments)
    (fragments : List NameFragment) :
    fragments.foldl keep pending = (pending ++ fragments).drop
      (maxFragments * ((pending.length + fragments.length - 1) / maxFragments)) := by
  have twenty : maxFragments = 20 := rfl
  induction fragments generalizing pending with
  | nil =>
    have none : (pending.length + 0 - 1) / maxFragments = 0 := Nat.div_eq_of_lt (by omega)
    rw [List.length_nil, none, Nat.mul_zero, List.drop_zero, List.append_nil, List.foldl_nil]
  | cons fragment rest ih =>
    rw [List.foldl_cons, keep]
    split
    next full =>
      have dropped :
          maxFragments * ((pending.length + (fragment :: rest).length - 1) / maxFragments) =
            pending.length +
              maxFragments * (([fragment].length + rest.length - 1) / maxFragments) := by
        rw [twenty] at few full ⊢
        rw [List.length_singleton, List.length_cons]
        omega
      have onward : ([fragment] : List NameFragment).length ≤ maxFragments :=
        Nat.le_of_ble_eq_true rfl
      rw [ih onward, dropped, List.drop_length_add_append, List.singleton_append]
    next room =>
      rw [ih (by rw [List.length_append, List.length_singleton]; omega), List.length_append,
        List.length_singleton, List.length_cons, List.append_assoc, Nat.add_assoc,
        Nat.add_comm 1, List.singleton_append]

/-- Strays and the fragments of a name leave their pile behind. -/
theorem foldl_keep_eq_pile {fragments : List NameFragment} (filled : fragments ≠ [])
    (few : fragments.length ≤ maxFragments) (strays : List NameFragment) :
    (strays ++ fragments).foldl keep [] = pile strays fragments := by
  have twenty : maxFragments = 20 := rfl
  have some : 0 < fragments.length := List.length_pos_iff.mpr filled
  have left := length_leftOf strays
  rw [foldl_keep (Nat.zero_le _), List.nil_append, List.length_nil, Nat.zero_add,
    List.length_append, pile]
  split
  next fits =>
    have same : (strays.length + fragments.length - 1) / maxFragments =
        strays.length / maxFragments := by
      rw [twenty] at fits left ⊢
      omega
    rw [same, List.drop_append_of_le_length (Nat.mul_div_le _ _)]
    rfl
  next torn =>
    have next : maxFragments * ((strays.length + fragments.length - 1) / maxFragments) =
        strays.length + (maxFragments - (leftOf strays).length) := by
      rw [twenty] at torn left few ⊢
      omega
    rw [next, List.drop_length_add_append]

variable {slot : ShortSlot} {fragments : List NameFragment}

/-- Clusters are read to the first that holds the end of the directory. -/
theorem pagesOf_of_slotsOf {source : Source} {g : Geometry} {pages : List (Nat × List Bytes)}
    (read : ∀ page ∈ pages, slotsOf source g page.1 = .ok page.2)
    (unended : ∀ page ∈ pages.dropLast, page.2.any (·.byteAt 0 = endMark) = false) :
    pagesOf source g (pages.map Prod.fst) = pages := by
  induction pages with
  | nil => rfl
  | cons page rest ih =>
    rw [List.map_cons, pagesOf, read page List.mem_cons_self]
    cases rest with
    | nil =>
      change (if _ then [page] else [page]) = [page]
      exact ite_self _
    | cons next rest =>
      have onward := ih (fun other member => read other (List.mem_cons_of_mem _ member))
        fun other member => unended other (List.mem_cons_of_mem _ member)
      have through := unended page List.mem_cons_self
      rw [onward]
      exact if_neg (by rw [through]; exact Bool.false_ne_true)

theorem fragmentsAfter_spells {front slots : List PlacedSlot} {fragments : List NameFragment}
    (spells : Spells slots fragments) :
    fragmentsAfter (front ++ slots) = fragments.foldl keep (fragmentsAfter front) := by
  induction slots generalizing front fragments with
  | nil =>
    have none : fragments = [] := List.length_eq_zero_iff.mp spells.length.symm
    rw [none, List.append_nil, List.foldl_nil]
  | cons placed slots ih =>
    obtain ⟨fragment, rest, rfl, decoded, later⟩ := spells.cons
    rw [List.append_cons, ih later, fragmentsAfter_append, decoded, List.foldl_cons]

/-- A live slot takes the fragments before it as its name if all have its checksum, and no name
otherwise. -/
theorem nameOf_of_live (alive : slot.isDeleted = false) (filled : fragments ≠ []) :
    nameOf slot fragments =
      (if ∀ fragment ∈ fragments, fragment.checksum = slot.checksum then
        NameFragment.assemble fragments else none, none) := by
  split
  next agree => exact nameOf_live alive filled agree
  next disagree =>
    unfold nameOf
    split
    next => rfl
    next last ends =>
      split
      next => rfl
      next whole =>
        have other : slot.checksum ≠ last.checksum := by
          intro same
          refine disagree fun fragment member => ?_
          rw [Bool.not_eq_true, List.any_eq_false] at whole
          simpa [same] using whole fragment member
        simp only [alive, Bool.false_eq_true, if_false, other]

/-- A pile has the checksum of its name exactly if the strays in it do. -/
theorem forall_pile_iff {strays : List NameFragment}
    (agree : ∀ fragment ∈ fragments, fragment.checksum = slot.checksum)
    (fits : (leftOf strays).length + fragments.length ≤ maxFragments) :
    (∀ fragment ∈ pile strays fragments, fragment.checksum = slot.checksum) ↔
      ∀ stray ∈ leftOf strays, stray.checksum = slot.checksum := by
  rw [pile, if_pos fits, List.forall_mem_append]
  exact and_iff_left agree

theorem pile_ne_nil (filled : fragments ≠ []) (strays : List NameFragment) :
    pile strays fragments ≠ [] := by
  rw [pile]
  split
  next => exact List.append_ne_nil_of_right_ne_nil _ filled
  next torn =>
    have some := List.length_pos_iff.mpr filled
    have left := length_leftOf_lt strays
    rw [ne_eq, List.drop_eq_nil_iff]
    omega

theorem pile_of_dvd {strays : List NameFragment} (few : fragments.length ≤ maxFragments)
    (dropped : maxFragments ∣ strays.length) : pile strays fragments = fragments := by
  have none : leftOf strays = [] := by
    rw [← List.length_eq_zero_iff, length_leftOf]
    exact Nat.mod_eq_zero_of_dvd dropped
  rw [pile, none, List.length_nil, Nat.zero_add, if_pos few, List.nil_append]

/-- Strays that leave the name behind them as it is: they are dropped when it begins, or it has room
behind them, they have its checksum, and their text is not read or is blank. -/
def Undisturbed (slot : ShortSlot) (strays : List NameFragment) (name : List Char) : Prop :=
  maxFragments ∣ strays.length ∨
    strays.length % maxFragments + NameFragment.needed name ≤ maxFragments ∧
      (∀ stray ∈ leftOf strays, stray.checksum = slot.checksum) ∧
      (¬ NameFragment.capacity ∣ (Text.Utf16.encode name).length ∨
        NameFragment.Blank (leftOf strays))

theorem assemble_pile_iff {strays : List NameFragment} {name : List Char}
    (storable : NameFragment.Storable name)
    (spelled : fragments = NameFragment.split slot.checksum name) :
    (if ∀ fragment ∈ pile strays fragments, fragment.checksum = slot.checksum then
        NameFragment.assemble (pile strays fragments) else none) =
      NameFragment.assemble fragments ↔ Undisturbed slot strays name := by
  have short := NameFragment.needed_le storable.short
  have size : fragments.length = NameFragment.needed name := by
    rw [spelled, NameFragment.length_split]
  have few : fragments.length ≤ maxFragments := size ▸ short
  have agree : ∀ fragment ∈ fragments, fragment.checksum = slot.checksum :=
    fun fragment member => (NameFragment.of_mem_split short (spelled ▸ member)).1
  have whole : NameFragment.assemble fragments = some (String.ofList name) := by
    rw [spelled, NameFragment.assemble_split _ storable]
  rw [Undisturbed, ← length_leftOf, ← size]
  by_cases dropped : maxFragments ∣ strays.length
  · rw [pile_of_dvd few dropped, if_pos agree]
    exact iff_of_true rfl (.inl dropped)
  by_cases fits : (leftOf strays).length + fragments.length ≤ maxFragments
  · rw [if_congr (forall_pile_iff agree fits) rfl rfl, whole]
    split
    next same =>
      rw [pile, if_pos fits, spelled, NameFragment.assemble_append_split_iff storable]
      simp only [dropped, false_or, ← spelled, fits, true_and]
      exact (and_iff_right same).symm
    next other =>
      exact iff_of_false nofun fun found => found.elim dropped fun part => other part.2.1
  · -- The first fragments of the name have been dropped with the strays.
    have some := Nat.sub_pos_of_lt (length_leftOf_lt strays)
    have torn : pile strays fragments = fragments.drop (maxFragments - (leftOf strays).length) :=
      if_neg fits
    have rest : ∀ fragment ∈ pile strays fragments, fragment.checksum = slot.checksum :=
      fun fragment member => agree fragment (List.mem_of_mem_drop (torn ▸ member))
    rw [if_pos rest, torn, whole, spelled]
    exact iff_of_false (NameFragment.assemble_drop_split_ne storable some)
      fun found => found.elim dropped fun part => fits (spelled ▸ part.1)

end Directory

/-- A live short slot among the slots of a directory, with the fragments of its name before it and
any other fragments before these. -/
structure Titled (slots earlier run named : List PlacedSlot) (short : PlacedSlot)
    (after : List PlacedSlot) (strays fragments : List NameFragment) (slot : ShortSlot) : Prop where
  slots : slots = earlier ++ (run ++ (named ++ short :: after))
  reached : ∀ placed ∈ earlier, beforeEnd placed = true
  ended : ∀ last ∈ earlier.getLast?, ∃ slot, Slot.decode last.data = .short slot
  strays : Spells run strays
  spells : Spells named fragments
  filled : fragments ≠ []
  few : fragments.length ≤ maxFragments
  decoded : Slot.decode short.data = .short slot
  plain : (slot.isVolumeLabel || slot.isDot) = false
  alive : slot.isDeleted = false
  agree : ∀ fragment ∈ fragments, fragment.checksum = slot.checksum

namespace Titled

variable {slots earlier run named after : List PlacedSlot} {short : PlacedSlot}
  {strays fragments : List NameFragment} {slot : ShortSlot}

theorem fragmentsAfter_eq
    (titled : Titled slots earlier run named short after strays fragments slot) :
    fragmentsAfter (earlier ++ (run ++ named)) = pile strays fragments := by
  rw [← List.append_assoc, fragmentsAfter_spells titled.spells,
    fragmentsAfter_spells titled.strays, fragmentsAfter_eq_nil titled.ended, ← List.foldl_append,
    foldl_keep_eq_pile titled.filled titled.few]

theorem beforeEnd_of_mem
    (titled : Titled slots earlier run named short after strays fragments slot)
    {placed : PlacedSlot} (member : placed ∈ earlier ++ (run ++ named)) :
    beforeEnd placed = true := by
  have used {slots : List PlacedSlot} {fragments : List NameFragment}
      (spells : Spells slots fragments) (here : placed ∈ slots) : beforeEnd placed = true := by
    obtain ⟨fragment, decoded⟩ := spells.of_mem here
    rw [beforeEnd_iff, decoded]
    nofun
  rcases List.mem_append.mp member with front | behind
  · exact titled.reached placed front
  · exact (List.mem_append.mp behind).elim (used titled.strays) (used titled.spells)

/-- The short slot gets its entry with what is pending before it. -/
theorem exists_entries (titled : Titled slots earlier run named short after strays fragments slot)
    (directory : Nat) (inDeleted : Bool) (ordinal : Nat) :
    ∃ front back, entries directory inDeleted ordinal [] slots =
      front ++ entryOf directory inDeleted (ordinal + front.length) short slot
        (pile strays fragments) :: back := by
  have front := @entries_append directory ordinal inDeleted _ (fun _ => titled.beforeEnd_of_mem) []
    (short :: after)
  rw [List.nil_append, titled.fragmentsAfter_eq, entries_short titled.decoded titled.plain,
    List.append_assoc, List.append_assoc, ← titled.slots] at front
  exact ⟨_, _, front⟩

theorem longName_entryOf
    (titled : Titled slots earlier run named short after strays fragments slot)
    (directory : Nat) (inDeleted : Bool) (ordinal : Nat) :
    (entryOf directory inDeleted ordinal short slot (pile strays fragments)).longName =
      if ∀ fragment ∈ pile strays fragments, fragment.checksum = slot.checksum then
        NameFragment.assemble (pile strays fragments) else none :=
  congrArg Prod.fst (nameOf_of_live titled.alive (pile_ne_nil titled.filled strays))

end Titled

namespace Scan

variable {source : Source} {g : Geometry} {maxDepth limit start : Nat} {scan : Scan}

/-- The long name of a live file is what is pending before its short slot, if that has its
checksum. This is its own name when there are no fragments before it, or as many as are dropped
together, and else only if these are harmless. -/
theorem longName_of_titled
    (scanned : ((ofRoot g maxDepth limit start).run source (.empty g) []).1 = .ok scan)
    {listing : Listing} (member : listing ∈ scan.listings)
    {earlier run named after : List PlacedSlot} {short : PlacedSlot}
    {strays fragments : List NameFragment} {slot : ShortSlot}
    (titled : Titled (placed (pagesOf source g listing.clusters)) earlier run named short after
      strays fragments slot) :
    ∃ entry,
      (scan.entries.filter fun other =>
        other.place g.slotsPerCluster = short.place g.slotsPerCluster) = [entry] ∧
      entry.slotCluster = short.cluster ∧ entry.slotIndex = short.index ∧
      entry.longName =
        (if ∀ fragment ∈ pile strays fragments, fragment.checksum = slot.checksum then
          NameFragment.assemble (pile strays fragments) else none) ∧
      (maxFragments ∣ strays.length → entry.longName = NameFragment.assemble fragments) ∧
      ∀ name, NameFragment.Storable name → fragments = NameFragment.split slot.checksum name →
        (entry.longName = NameFragment.assemble fragments ↔ Undisturbed slot strays name) := by
  rw [Probe.run_empty] at scanned
  have orderly := orderly_of_ofRoot scanned
  obtain ⟨earlierListings, laterListings, split⟩ := List.append_of_mem member
  obtain ⟨front, back, told⟩ := titled.exists_entries listing.directory listing.inDeleted
    (1 + (contents source g 1 earlierListings).length)
  have found : entryOf listing.directory listing.inDeleted
      (1 + (contents source g 1 earlierListings).length + front.length) short slot
      (pile strays fragments) ∈ scan.entries := by
    rw [entries_eq_contents scanned, split, contents_append, contents, told]
    exact List.mem_append_right _ (List.mem_append_left _
      (List.mem_append_right _ List.mem_cons_self))
  have longName := titled.longName_entryOf listing.directory listing.inDeleted
    (1 + (contents source g 1 earlierListings).length + front.length)
  refine ⟨_, orderly.filter_place found, rfl, rfl, longName, ?_, ?_⟩
  · intro dropped
    rw [longName, pile_of_dvd titled.few dropped, if_pos titled.agree]
  · intro name storable spelled
    rw [longName]
    exact assemble_pile_iff storable spelled

/-- A fragment of a name whose short slot is gone. -/
def stray : NameFragment := ⟨deletedMark, 0, List.replicate 26 0x20⟩

/-- The slots of a root directory: so many strays, and a file with a long name. -/
def litteredSlots (count : Nat) : List Bytes :=
  List.replicate count stray.encode ++ letterItem.slots ++
    List.replicate (29 - count) (List.replicate slotSize 0)

def littered (count : Nat) : Source :=
  Small.source [0, 0, 3, Small.chainEnd]
    [((litteredSlots count).take 16).flatten, ((litteredSlots count).drop 16).flatten]

/-- What is read of this directory, one cluster if its end is there and else both. -/
def litteredPages (count : Nat) : List (Nat × List Bytes) :=
  (2, (litteredSlots count).take 16) ::
    if count < 13 then [] else [(3, (litteredSlots count).drop 16)]

/-- The short slot of the file. -/
def litteredSlot (count : Nat) : PlacedSlot :=
  ⟨if count < 13 then 2 else 3, count + 2, letterItem.slot.encode⟩

theorem slotsOf_littered : ∀ count ∈ [1, 19, 20], ∀ page ∈ litteredPages count,
    Directory.slotsOf (littered count) (Small.geometry 2) page.1 = .ok page.2 := by
  unfold Directory.slotsOf
  simp only [littered, Small.source, Source.read_ofImage]
  decide +kernel

theorem pagesOf_littered (count : Nat) (either : count ∈ [1, 19, 20]) :
    pagesOf (littered count) (Small.geometry 2) ((litteredPages count).map Prod.fst) =
      litteredPages count := by
  refine pagesOf_of_slotsOf (slotsOf_littered count either) ?_
  revert count
  decide +kernel

theorem titled_littered (count : Nat) (either : count ∈ [1, 19, 20]) :
    Titled (placed (pagesOf (littered count) (Small.geometry 2)
        ((litteredPages count).map Prod.fst))) []
      ((placed (litteredPages count)).take count)
      (((placed (litteredPages count)).drop count).take 2) (litteredSlot count)
      ((placed (litteredPages count)).drop (count + 3)) (List.replicate count stray)
      letterItem.fragments letterItem.slot where
  slots := by
    have slots : ∀ count ∈ [1, 19, 20], placed (litteredPages count) =
        (placed (litteredPages count)).take count ++
          ((((placed (litteredPages count)).drop count).take 2) ++
            litteredSlot count :: (placed (litteredPages count)).drop (count + 3)) := by
      decide +kernel
    rw [pagesOf_littered count either]
    exact slots count either
  reached := nofun
  ended := nofun
  strays := by
    unfold Spells
    revert count
    decide +kernel
  spells := by
    unfold Spells
    revert count
    decide +kernel
  filled := by decide +kernel
  few := by decide +kernel
  decoded := by
    change Slot.decode letterItem.slot.encode = .short letterItem.slot
    decide +kernel
  plain := by decide
  alive := by decide
  agree := by decide +kernel

/-- Behind twenty strays the file has its name. -/
theorem longName_of_titled_littered :
    ∃ scan entry,
      ((ofRoot (Small.geometry 2) 32 4096 2).run (littered 20) (.empty (Small.geometry 2)) []).1 =
        .ok scan ∧
      (scan.entries.filter fun other =>
        other.place (Small.geometry 2).slotsPerCluster = (3, 6)) = [entry] ∧
      entry.longName = some "Brief an Grete.txt" := by
  obtain ⟨scan, scanned, listings⟩ :
      ∃ scan, (ofRoot (Small.geometry 2) 32 4096 2).answer (littered 20) (Small.geometry 2) =
        .ok scan ∧ scan.listings = [⟨2, false, [2, 3]⟩] := by
    rw [littered, Small.source, Probe.answer_ofImage]
    exact exists_ok (by decide +kernel)
  have member : ⟨2, false, (litteredPages 20).map Prod.fst⟩ ∈ scan.listings := by
    rw [listings]
    exact List.mem_cons_self
  rw [← Probe.run_empty _ _ _ []] at scanned
  obtain ⟨entry, alone, -, -, -, own, -⟩ :=
    longName_of_titled scanned member (titled_littered 20 (by decide))
  exact ⟨scan, entry, scanned, alone, (own ⟨1, rfl⟩).trans (by decide +kernel)⟩

/-- Behind one stray with another checksum a file has no long name, and behind nineteen strays
only the beginning of its name. -/
theorem longName_littered :
    letterItem.fragments.map NameFragment.sequence = [0x42, 0x01] ∧
      NameFragment.assemble letterItem.fragments = some "Brief an Grete.txt" ∧
      ∀ told ∈ [(1, none), (19, some "Brief an Gret")],
        Titled (placed (pagesOf (littered told.1) (Small.geometry 2)
            ((litteredPages told.1).map Prod.fst))) []
          ((placed (litteredPages told.1)).take told.1)
          (((placed (litteredPages told.1)).drop told.1).take 2) (litteredSlot told.1)
          ((placed (litteredPages told.1)).drop (told.1 + 3)) (List.replicate told.1 stray)
          letterItem.fragments letterItem.slot ∧
        ∃ scan,
          ((ofRoot (Small.geometry 2) 32 4096 2).run (littered told.1)
            (.empty (Small.geometry 2)) []).1 = .ok scan ∧
          scan.listings = [⟨2, false, (litteredPages told.1).map Prod.fst⟩] ∧
          scan.entries.map Entry.longName = [told.2] := by
  refine ⟨by decide +kernel, by decide +kernel, fun told either => ⟨?_, ?_⟩⟩
  · refine titled_littered told.1 ?_
    revert told
    decide
  · rw [Probe.run_empty, littered, Small.source, Probe.answer_ofImage]
    refine exists_ok ?_
    revert told
    decide +kernel

end Scan

end Undelete
