import Undelete.Proofs.Directory.Marks

/-!
Scans before and after a file has been deleted. The marks are in the clusters of one listing and
do not change the walk, so that all listings are the same and only that one has another entry.
-/

namespace Undelete

open Directory

/-- The name fragments and the short slot of a live file among the slots of a directory. The
fragments are those of one name and follow a short slot, or nothing. -/
structure Stands (slots before named : List PlacedSlot) (short : PlacedSlot)
    (after : List PlacedSlot) (fragments : List NameFragment) (slot : ShortSlot) : Prop where
  slots : slots = before ++ (named ++ short :: after)
  reached : ∀ placed ∈ before, beforeEnd placed = true
  ended : ∀ last ∈ before.getLast?, ∃ slot, Slot.decode last.data = .short slot
  spells : Spells named fragments
  filled : fragments ≠ []
  few : fragments.length ≤ maxFragments
  decoded : Slot.decode short.data = .short slot
  file : slot.IsFile
  agree : ∀ fragment ∈ fragments, fragment.checksum = slot.checksum
  low : 0x21 ≤ slot.name.byteAt 0
  high : slot.name.byteAt 0 ≤ 0x7E

/-- The places of the slots that deletion marks. -/
def markedPlaces (g : Geometry) (named : List PlacedSlot) (short : PlacedSlot) :
    List (Nat × Nat) :=
  (named ++ [short]).map (PlacedSlot.place g.slotsPerCluster)

namespace Stands

variable {source source' : Source} {g : Geometry} {slots before named after : List PlacedSlot}
  {short : PlacedSlot} {fragments : List NameFragment} {slot : ShortSlot}

theorem middle (stands : Stands slots before named short after fragments slot) :
    slots = before ++ ((named ++ [short]) ++ after) := by
  rw [stands.slots, List.append_cons]

theorem mem_slots (stands : Stands slots before named short after fragments slot)
    {placed : PlacedSlot} (member : placed ∈ named ++ [short]) : placed ∈ slots := by
  rw [stands.middle]
  exact List.mem_append_right _ (List.mem_append_left _ member)

section

variable {clusters : List Nat}

theorem harmless
    (stands : Stands (placed (pagesOf source g clusters)) before named short after fragments slot)
    (proper : slot.isDot = false) : Harmless source g (markedPlaces g named short) := by
  intro cluster index member
  obtain ⟨placed, known, place⟩ := List.mem_map.mp member
  have here : placed ∈ placedFrom (0 * g.slotsPerCluster) (pagesOf source g clusters) := by
    rw [Nat.zero_mul, ← placed_eq]
    exact stands.mem_slots known
  obtain ⟨page, read, same, found⟩ := getElem?_slot whole_pagesOf here
  obtain ⟨rfl, rfl⟩ := Prod.mk.inj place
  refine ⟨page.2, placed.data, same ▸ contents_pagesOf read, found, wayOf_erase ?_⟩
  rcases List.mem_append.mp known with name | last
  · exact .inl (stands.spells.of_mem name)
  · rw [List.mem_singleton.mp last]
    exact .inr ⟨slot, stands.decoded, stands.file, proper⟩

/-- The places are in the clusters of the directory. -/
theorem cluster_of_mem_markedPlaces
    (stands : Stands (placed (pagesOf source g clusters)) before named short after fragments slot)
    {cluster index : Nat} (member : (cluster, index) ∈ markedPlaces g named short) :
    cluster ∈ clusters := by
  obtain ⟨placed, known, place⟩ := List.mem_map.mp member
  have here := stands.mem_slots known
  rw [placed_eq] at here
  obtain ⟨rfl, -⟩ := Prod.mk.inj place
  exact (clusters_pagesOf_isPrefix _).subset (cluster_of_mem_placedFrom here)

/-- Listings of other clusters give the same entries as before. -/
theorem contents_eq
    (stands : Stands (placed (pagesOf source g clusters)) before named short after fragments slot)
    (proper : slot.isDot = false) (erased : Erased source source' g (markedPlaces g named short))
    {listings : List Listing}
    (valid : ∀ listing ∈ listings, ∀ cluster ∈ listing.clusters, g.Valid cluster)
    (other : ∀ cluster ∈ listings.flatMap Listing.clusters, cluster ∉ clusters) (ordinal : Nat) :
    Scan.contents source' g ordinal listings = Scan.contents source g ordinal listings :=
  erased.contents_of_apart (stands.harmless proper) valid
    (fun listing known cluster here _ marked =>
      other cluster (List.mem_flatMap.mpr ⟨listing, known, here⟩)
        (stands.cluster_of_mem_markedPlaces marked))
    ordinal

end

theorem map_slots (stands : Stands slots before named short after fragments slot)
    (distinct : (slots.map (PlacedSlot.place g.slotsPerCluster)).Nodup) :
    slots.map (erasedIn g.slotsPerCluster (markedPlaces g named short)) =
      before ++ (named.map erasePlaced ++ erasePlaced short :: after) := by
  rw [stands.middle] at distinct ⊢
  rw [markedPlaces, map_erasedIn distinct, List.map_append, List.append_assoc]
  rfl

theorem rawName_eq (stands : Stands slots before named short after fragments slot) :
    slot.rawName = slot.name := by
  obtain ⟨first, rest, name, byte⟩ := ShortSlot.exists_name stands.low
  have unescaped := (ShortSlot.ne_of_printable (byte ▸ stands.low) (byte ▸ stands.high)).2
  rw [ShortSlot.rawName, name]
  exact congrArg (· :: rest) (if_neg unescaped)

theorem isDeleted_eq (stands : Stands slots before named short after fragments slot) :
    slot.isDeleted = false :=
  decide_eq_false (ShortSlot.ne_of_printable stands.low stands.high).1

/-- The entries of a directory before and after the deletion. -/
theorem exists_entries (stands : Stands slots before named short after fragments slot)
    (proper : slot.isDot = false)
    (distinct : (slots.map (PlacedSlot.place g.slotsPerCluster)).Nodup) (directory ordinal : Nat) :
    ∃ front entry back,
      entries directory false ordinal [] slots = front ++ entry :: back ∧
      entries directory false ordinal []
          (slots.map (erasedIn g.slotsPerCluster (markedPlaces g named short))) =
        front ++ entry.lost :: back ∧
      entry.slotCluster = short.cluster ∧ entry.slotIndex = short.index ∧
      entry.shortName = slot.name ∧ entry.deleted = false := by
  -- No fragments are left over from the slots in front, so that both names begin afresh.
  obtain ⟨front, apart⟩ : ∃ front, ∀ second,
      entries directory false ordinal [] (before ++ second) =
        front ++ entries directory false (ordinal + front.length) [] second := by
    refine ⟨entries directory false ordinal [] before, fun second => ?_⟩
    refine (entries_append stands.reached [] second).trans ?_
    rw [List.nil_append, fragmentsAfter_eq_nil stands.ended]
    rfl
  have few : (fragments.map NameFragment.erased).length ≤ maxFragments := by
    rw [List.length_map]
    exact stands.few
  refine ⟨front, entryOf directory false (ordinal + front.length) short slot fragments,
    entries directory false (ordinal + front.length + 1) [] after, ?_, ?_, rfl, rfl,
    stands.rawName_eq, ?_⟩
  · rw [stands.slots, apart,
      entries_named stands.spells stands.few stands.decoded (stands.file.plain proper)]
  · rw [stands.map_slots distinct, apart, entries_named stands.spells.erased few
      (Slot.decode_erase_short stands.decoded) (stands.file.erased.plain slot.isDot_erased),
      erasePlaced, entryOf_erased stands.low stands.high stands.filled stands.agree]
  · change (slot.isDeleted || false) = false
    rw [stands.isDeleted_eq, Bool.or_false]

end Stands

theorem Directory.nodup_placed {source : Source} {g : Geometry} {clusters : List Nat}
    (nodup : clusters.Nodup) :
    ((placed (pagesOf source g clusters)).map (PlacedSlot.place g.slotsPerCluster)).Nodup := by
  have places := nodup_place ((clusters_pagesOf_isPrefix clusters).sublist.nodup nodup)
    (@whole_pagesOf source g clusters) 0
  rwa [Nat.zero_mul, ← placed_eq] at places

/-- Marks on a small volume, by their offsets in the image. -/
theorem erased_marked_small (source : Source) (clusters : Nat) (few : clusters ∈ [1, 3])
    (same : source.sectorSize = 512) (places : List (Nat × Nat)) (offsets : List Nat)
    (marks : places.map (source.offsetOf (Small.geometry clusters)) = offsets)
    (inside : ∀ place ∈ places, (Small.geometry clusters).HasSlot place) :
    Erased source (source.marked offsets) (Small.geometry clusters) places := by
  obtain ⟨boot, -, accepted⟩ : ∃ boot, BootSector.parse (Small.boot clusters) = .ok boot ∧
      boot.geometry = .ok (Small.geometry clusters) := by
    simp only [List.mem_cons, List.not_mem_nil, or_false] at few
    rcases few with rfl | rfl
    · exact exists_ok (by decide +kernel)
    · exact exists_ok (by decide +kernel)
  rw [← marks]
  exact erased_marked (BootSector.regular_of_geometry accepted) same inside

namespace Scan

variable {source source' : Source} {g : Geometry} {maxDepth limit start : Nat} {scan : Scan}

/-- Deleting a file leaves all other entries as they are, in their order, and of its own entry the
names. The slots of the file are those that the scan reads in one of its live listings, and its
name is not that of a dot entry. -/
theorem entries_of_erased
    (scanned : ((ofRoot g maxDepth limit start).run source (.empty g) []).1 = .ok scan)
    {listing : Listing} (member : listing ∈ scan.listings) (alive : listing.inDeleted = false)
    {before named after : List PlacedSlot} {short : PlacedSlot} {fragments : List NameFragment}
    {slot : ShortSlot}
    (stands : Stands (placed (pagesOf source g listing.clusters)) before named short after
      fragments slot)
    (proper : slot.isDot = false)
    (erased : Erased source source' g (markedPlaces g named short)) :
    ∃ scan' front entry back,
      ((ofRoot g maxDepth limit start).run source' (.empty g) []).1 = .ok scan' ∧
      scan'.listings = scan.listings ∧
      scan.entries = front ++ entry :: back ∧ scan'.entries = front ++ entry.lost :: back ∧
      entry.slotCluster = short.cluster ∧ entry.slotIndex = short.index ∧
      entry.shortName = slot.name ∧ entry.deleted = false ∧
      entry.lost.displayName = entry.displayName ∧
      entry.lost.shortDisplayName = entry.shortDisplayName := by
  rw [Probe.run_empty] at scanned
  have harmless := stands.harmless proper
  obtain ⟨scan', scanned', abreast⟩ := abreast_of_ofRoot (erased.alike harmless) scanned
  have distinct := (orderly_of_ofRoot scanned).distinct
  have valid := abreast.valid
  obtain ⟨earlier, later, split⟩ := List.append_of_mem member
  rw [split] at distinct valid
  rw [List.flatMap_append, List.flatMap_cons, List.nodup_append, List.nodup_append] at distinct
  obtain ⟨-, ⟨nodup, -, behind⟩, front⟩ := distinct
  -- No cluster is in two listings, so that the marks are in none of the others.
  have first (ordinal : Nat) := stands.contents_eq proper erased
    (fun listing known => valid listing (List.mem_append_left _ known))
    (fun cluster here again => front cluster here cluster (List.mem_append_left _ again) rfl) ordinal
  have last (ordinal : Nat) := stands.contents_eq proper erased
    (fun listing known => valid listing (List.mem_append_right _ (List.mem_cons_of_mem _ known)))
    (fun cluster here again => behind cluster again cluster here rfl) ordinal
  have moved := erased.placed_eq harmless
    (valid listing (List.mem_append_right _ List.mem_cons_self))
  obtain ⟨found, entry, others, told, told', cluster, index, name, live⟩ :=
    stands.exists_entries proper (nodup_placed nodup) listing.directory
      (1 + (contents source g 1 earlier).length)
  obtain ⟨byte, rest, written, same⟩ := ShortSlot.exists_name stands.low
  have unmarked := (ShortSlot.ne_of_printable (same ▸ stands.low) (same ▸ stands.high)).1
  obtain ⟨display, shortDisplay⟩ := Entry.names_lost (name.trans written) unmarked
  refine ⟨scan', contents source g 1 earlier ++ found, entry, others ++ contents source g
    (1 + (contents source g 1 earlier).length + (found ++ entry :: others).length) later,
    ?_, abreast.listings, ?_, ?_, cluster, index, name, live, display, shortDisplay⟩
  · rw [Probe.run_empty]
    exact scanned'
  · rw [entries_eq_contents scanned, split, contents_append, contents, alive, told]
    simp only [List.append_assoc, List.cons_append]
  · have same : (found ++ entry.lost :: others).length = (found ++ entry :: others).length := by
      simp only [List.length_append, List.length_cons]
    rw [entries_eq_contents scanned', abreast.listings, split, contents_append, contents, first,
      alive, moved, told', last, same]
    simp only [List.append_assoc, List.cons_append]

/-- A file with a long name of two fragments. -/
def letterItem : Item := ⟨Small.shortSlot 0x42 0x20 5 9, some "Brief an Grete.txt", false⟩

/-- The slots of a root directory with three files. -/
def letterSlots : List Bytes :=
  Small.slot 0x41 0x20 5 9 :: (letterItem.slots ++ Small.slot 0x43 0x20 5 9 ::
    List.replicate 11 (List.replicate slotSize 0))

def letter : Source := Small.source [0, 0, Small.chainEnd] [letterSlots.flatten]

theorem slotsOf_letter : Directory.slotsOf letter (Small.geometry 1) 2 = .ok letterSlots := by
  rw [Directory.slotsOf, letter, Small.source, Source.read_ofImage]
  decide +kernel

theorem stands_letter : Stands (placed (pagesOf letter (Small.geometry 1) [2]))
    (placedPage 0 2 (letterSlots.take 1)) (placedPage 1 2 ((letterSlots.drop 1).take 2))
    ⟨2, 3, letterItem.slot.encode⟩ (placedPage 4 2 (letterSlots.drop 4)) letterItem.fragments
    letterItem.slot where
  slots := by
    have page : pagesOf letter (Small.geometry 1) [2] = [(2, letterSlots)] := by
      rw [pagesOf, slotsOf_letter]
      exact if_pos (by decide +kernel)
    rw [page]
    rfl
  reached := by decide +kernel
  ended := by
    rintro last ⟨⟩
    exact ⟨_, rfl⟩
  spells := by
    unfold Spells
    decide +kernel
  filled := by decide +kernel
  few := by decide +kernel
  decoded := by decide +kernel
  file := ⟨by decide, by decide⟩
  agree := by decide +kernel
  low := by decide
  high := by decide

/-- The file keeps its names when it is deleted. -/
theorem entries_of_erased_letter : ∃ scan scan',
    ((ofRoot (Small.geometry 1) 32 4096 2).run letter (.empty (Small.geometry 1)) []).1 =
      .ok scan ∧
    ((ofRoot (Small.geometry 1) 32 4096 2).run (letter.marked [1056, 1088, 1120])
      (.empty (Small.geometry 1)) []).1 = .ok scan' ∧
    scan.entries.map Entry.displayName = ["A", "Brief an Grete.txt", "C"] ∧
    scan'.entries.map Entry.displayName = ["A", "Brief an Grete.txt", "C"] := by
  obtain ⟨scan, scanned, listings, names⟩ :
      ∃ scan, (ofRoot (Small.geometry 1) 32 4096 2).answer letter (Small.geometry 1) = .ok scan ∧
        scan.listings = [⟨2, false, [2]⟩] ∧
        scan.entries.map Entry.displayName = ["A", "Brief an Grete.txt", "C"] := by
    rw [letter, Small.source, Probe.answer_ofImage]
    exact exists_ok (by decide +kernel)
  have member : ⟨2, false, [2]⟩ ∈ scan.listings := by
    rw [listings]
    decide
  have erased := erased_marked_small letter 1 (by decide) (by rfl) (markedPlaces (Small.geometry 1)
    (placedPage 1 2 ((letterSlots.drop 1).take 2)) ⟨2, 3, letterItem.slot.encode⟩)
    [1056, 1088, 1120] (by decide +kernel) (by decide +kernel)
  rw [← Probe.run_empty _ _ _ []] at scanned
  obtain ⟨scan', front, entry, back, scanned', -, split, split', -, -, -, -, display, -⟩ :=
    entries_of_erased scanned member rfl stands_letter rfl erased
  refine ⟨scan, scan', scanned, scanned', names, ?_⟩
  rw [← names, split, split', List.map_append, List.map_append, List.map_cons, List.map_cons,
    display]

def crossedItem : Item := ⟨Small.shortSlot 0x42 0x20 5 9, some "Brief.txt", false⟩

/-- The slots of two clusters: a long name at the end of the first and its file in the second. -/
def crossedSlots : Nat → List Bytes
  | 3 => List.replicate 15 (Small.slot 0x43 0x20 5 9) ++ crossedItem.slots.take 1
  | _ => crossedItem.slots.drop 1 ++ List.replicate 15 (List.replicate slotSize 0)

/-- Below the root a directory that begins in the second of these clusters, and one of both. -/
def crossed : Source :=
  Small.source [0, 0, Small.chainEnd, 4, Small.chainEnd]
    [Small.slot 0x45 0x10 4 0 ++ Small.slot 0x44 0x10 3 0, (crossedSlots 3).flatten,
      (crossedSlots 4).flatten]

theorem slotsOf_crossed : ∀ cluster ∈ [3, 4],
    Directory.slotsOf crossed (Small.geometry 3) cluster = .ok (crossedSlots cluster) := by
  unfold Directory.slotsOf
  rw [crossed, Small.source, Source.read_ofImage]
  decide +kernel

theorem stands_crossed : Stands (placed (pagesOf crossed (Small.geometry 3) [3, 4]))
    (placedPage 0 3 ((crossedSlots 3).take 15)) (placedPage 15 3 ((crossedSlots 3).drop 15))
    ⟨4, 16, crossedItem.slot.encode⟩ (placedPage 17 4 ((crossedSlots 4).drop 1))
    crossedItem.fragments crossedItem.slot where
  slots := by
    have pages : pagesOf crossed (Small.geometry 3) [3, 4] =
        [(3, crossedSlots 3), (4, crossedSlots 4)] := by
      rw [pagesOf, slotsOf_crossed 3 (by decide), pagesOf, slotsOf_crossed 4 (by decide)]
      decide +kernel
    rw [pages]
    rfl
  reached := by decide +kernel
  ended := by
    rintro last ⟨⟩
    exact ⟨_, rfl⟩
  spells := by
    unfold Spells
    decide +kernel
  filled := by decide +kernel
  few := by decide +kernel
  decoded := by decide +kernel
  file := ⟨by decide, by decide⟩
  agree := by decide +kernel
  low := by decide
  high := by decide

def dottedItem : Item := ⟨Small.shortSlot 0x2E 0x20 5 9, some "Brief.txt", false⟩

def dottedSlots : List Bytes := dottedItem.slots ++ List.replicate 14 (List.replicate slotSize 0)

/-- A root directory with a file that has the name of a dot entry. -/
def dotted : Source := Small.source [0, 0, Small.chainEnd] [dottedSlots.flatten]

theorem slotsOf_dotted : Directory.slotsOf dotted (Small.geometry 1) 2 = .ok dottedSlots := by
  rw [Directory.slotsOf, dotted, Small.source, Source.read_ofImage]
  decide +kernel

theorem stands_dotted : Stands (placed (pagesOf dotted (Small.geometry 1) [2])) []
    (placedPage 0 2 (dottedSlots.take 1)) ⟨2, 1, dottedItem.slot.encode⟩
    (placedPage 2 2 (dottedSlots.drop 2)) dottedItem.fragments dottedItem.slot where
  slots := by
    have page : pagesOf dotted (Small.geometry 1) [2] = [(2, dottedSlots)] := by
      rw [pagesOf, slotsOf_dotted]
      exact if_pos (by decide +kernel)
    rw [page]
    rfl
  reached := nofun
  ended := nofun
  spells := by
    unfold Spells
    decide +kernel
  filled := by decide +kernel
  few := by decide +kernel
  decoded := by decide +kernel
  file := ⟨by decide, by decide⟩
  agree := by decide +kernel
  low := by decide
  high := by decide

/-- A name at the end of a cluster is lost on a file whose slot is in the next one, when the scan
has read that one for another directory: the deleted file has no first byte. And a file with the
name of a dot entry is found only once it has been deleted. -/
theorem entries_of_erased_crossed :
    (∃ before named short after fragments slot,
      (((Small.geometry 3).liveChain 3 4096).run crossed (.empty (Small.geometry 3)) []).1 =
        .ok [3, 4] ∧
      Stands (placed (pagesOf crossed (Small.geometry 3) [3, 4])) before named short after
        fragments slot ∧ slot.isDot = false ∧
      Erased crossed (crossed.marked [2016, 2048]) (Small.geometry 3)
        (markedPlaces (Small.geometry 3) named short) ∧
      ∃ scan scan',
        ((ofRoot (Small.geometry 3) 32 4096 2).run crossed (.empty (Small.geometry 3)) []).1 =
          .ok scan ∧ ⟨3, false, [3]⟩ ∈ scan.listings ∧
        ((ofRoot (Small.geometry 3) 32 4096 2).run (crossed.marked [2016, 2048])
          (.empty (Small.geometry 3)) []).1 = .ok scan' ∧
        ¬ ∃ front entry back, scan.entries = front ++ entry :: back ∧
          scan'.entries = front ++ entry.lost :: back) ∧
    ∃ before named short after fragments slot,
      Stands (placed (pagesOf dotted (Small.geometry 1) [2])) before named short after
        fragments slot ∧
      Erased dotted (dotted.marked [1024, 1056]) (Small.geometry 1)
        (markedPlaces (Small.geometry 1) named short) ∧
      ∃ scan scan',
        ((ofRoot (Small.geometry 1) 32 4096 2).run dotted (.empty (Small.geometry 1)) []).1 =
          .ok scan ∧ ⟨2, false, [2]⟩ ∈ scan.listings ∧
        ((ofRoot (Small.geometry 1) 32 4096 2).run (dotted.marked [1024, 1056])
          (.empty (Small.geometry 1)) []).1 = .ok scan' ∧
        ¬ ∃ front entry back, scan.entries = front ++ entry :: back ∧
          scan'.entries = front ++ entry.lost :: back := by
  refine ⟨⟨_, _, _, _, _, _, ?_, stands_crossed, rfl, ?_, ?_⟩,
    ⟨_, _, _, _, _, _, stands_dotted, ?_, ?_⟩⟩
  · rw [Probe.run_empty, crossed, Small.source, Probe.answer_ofImage]
    decide +kernel
  · exact erased_marked_small crossed 3 (by decide) (by rfl) _ _ (by decide +kernel)
      (by decide +kernel)
  · obtain ⟨scan, scanned, member, names⟩ :
        ∃ scan, (ofRoot (Small.geometry 3) 32 4096 2).answer crossed (Small.geometry 3) =
          .ok scan ∧ ⟨3, false, [3]⟩ ∈ scan.listings ∧
          ∀ entry ∈ scan.entries, entry.shortName.head? ≠ none := by
      rw [crossed, Small.source, Probe.answer_ofImage]
      exact exists_ok (by decide +kernel)
    obtain ⟨scan', scanned', nothing⟩ :
        ∃ scan, (ofRoot (Small.geometry 3) 32 4096 2).answer (crossed.marked [2016, 2048])
          (Small.geometry 3) = .ok scan ∧ ∀ entry ∈ scan.entries, entry.recoveredInitial = none := by
      rw [crossed, Small.source, Probe.answer_marked]
      exact exists_ok (by decide +kernel)
    rw [← Probe.run_empty _ _ _ []] at scanned scanned'
    refine ⟨scan, scan', scanned, member, scanned', ?_⟩
    rintro ⟨front, entry, back, before, after⟩
    have here : entry ∈ scan.entries := before ▸ List.mem_append_right _ List.mem_cons_self
    have there : entry.lost ∈ scan'.entries := after ▸ List.mem_append_right _ List.mem_cons_self
    exact names entry here (nothing entry.lost there)
  · exact erased_marked_small dotted 1 (by decide) (by rfl) _ _ (by decide +kernel)
      (by decide +kernel)
  · obtain ⟨scan, scanned, member, nothing⟩ :
        ∃ scan, (ofRoot (Small.geometry 1) 32 4096 2).answer dotted (Small.geometry 1) =
          .ok scan ∧ ⟨2, false, [2]⟩ ∈ scan.listings ∧ scan.entries = [] := by
      rw [dotted, Small.source, Probe.answer_ofImage]
      exact exists_ok (by decide +kernel)
    obtain ⟨scan', scanned', -⟩ :
        ∃ scan, (ofRoot (Small.geometry 1) 32 4096 2).answer (dotted.marked [1024, 1056])
          (Small.geometry 1) = .ok scan ∧ scan.entries.length = 1 := by
      rw [dotted, Small.source, Probe.answer_marked]
      exact exists_ok (by decide +kernel)
    rw [← Probe.run_empty _ _ _ []] at scanned scanned'
    refine ⟨scan, scan', scanned, member, scanned', ?_⟩
    rintro ⟨front, entry, back, before, -⟩
    rw [nothing] at before
    exact List.append_ne_nil_of_right_ne_nil _ (List.cons_ne_nil _ _) before.symm

end Scan

end Undelete
