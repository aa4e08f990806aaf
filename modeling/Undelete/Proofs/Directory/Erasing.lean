import Undelete.Proofs.Directory.Alike
import Undelete.Proofs.Directory.Damaged
import Undelete.Proofs.Directory.Encoding
import Undelete.Proofs.Directory.FirstByte
import Undelete.Proofs.Directory.Naming

/-!
Deleting a file overwrites the first byte of its slots. A scan finds the same entries afterwards,
and of the deleted file it tells the same names: the fragments hold the long name as before, and
their checksum gives back the byte that the short name has lost.
-/

namespace Undelete

/-- A short slot that is neither a directory nor a label. -/
structure ShortSlot.IsFile (slot : ShortSlot) : Prop where
  unlabelled : slot.isVolumeLabel = false
  regular : slot.isDirectory = false

theorem ShortSlot.IsFile.plain {slot : ShortSlot} (file : slot.IsFile)
    (proper : slot.isDot = false) : (slot.isVolumeLabel || slot.isDot) = false := by
  rw [file.unlabelled, proper]
  rfl

theorem ShortSlot.IsFile.erased {slot : ShortSlot} (file : slot.IsFile) : slot.erased.IsFile :=
  ⟨file.unlabelled, file.regular⟩

theorem ShortSlot.isDot_erased (slot : ShortSlot) : slot.erased.isDot = false := rfl

namespace Directory

/-- The slots of a cluster with the mark of deletion in some places of the volume. -/
def eraseAt (places : List (Nat × Nat)) (cluster : Nat) (slots : List Bytes) : List Bytes :=
  slots.mapIdx fun index data => if (cluster, index) ∈ places then Slot.erase data else data

/-- A slot where it stands, with the mark of deletion. -/
def erasePlaced (slot : PlacedSlot) : PlacedSlot := { slot with data := Slot.erase slot.data }

/-- A slot with the mark of deletion if it stands in one of some places. -/
def erasedIn (perCluster : Nat) (places : List (Nat × Nat)) (slot : PlacedSlot) : PlacedSlot :=
  if slot.place perCluster ∈ places then erasePlaced slot else slot

theorem Spells.erased {slots : List PlacedSlot} {fragments : List NameFragment}
    (spells : Spells slots fragments) :
    Spells (slots.map erasePlaced) (fragments.map NameFragment.erased) := by
  induction slots generalizing fragments with
  | nil =>
    rw [List.length_eq_zero_iff.mp spells.length.symm]
    rfl
  | cons placed rest ih =>
    obtain ⟨fragment, others, rfl, decoded, later⟩ := spells.cons
    exact congrArg₂ List.cons (Slot.decode_erase_fragment decoded) (ih later)

/-- The mark comes to the slots in those places and to no others. -/
theorem map_erasedIn {perCluster : Nat} {before middle after : List PlacedSlot}
    (nodup : ((before ++ (middle ++ after)).map (PlacedSlot.place perCluster)).Nodup) :
    (before ++ (middle ++ after)).map
        (erasedIn perCluster (middle.map (PlacedSlot.place perCluster))) =
      before ++ (middle.map erasePlaced ++ after) := by
  rw [List.map_append, List.map_append, List.nodup_append, List.nodup_append] at nodup
  obtain ⟨-, ⟨-, -, behind⟩, front⟩ := nodup
  have untouched : ∀ slot, slot.place perCluster ∉ middle.map (PlacedSlot.place perCluster) →
      erasedIn perCluster (middle.map (PlacedSlot.place perCluster)) slot = slot :=
    fun slot other => if_neg other
  have first : before.map (erasedIn perCluster (middle.map (PlacedSlot.place perCluster))) =
      before.map id := by
    refine List.map_congr_left fun slot member => untouched slot fun again => ?_
    exact front _ (List.mem_map_of_mem member) _ (List.mem_append_left _ again) rfl
  have last : after.map (erasedIn perCluster (middle.map (PlacedSlot.place perCluster))) =
      after.map id := by
    refine List.map_congr_left fun slot member => untouched slot fun again => ?_
    exact behind _ again _ (List.mem_map_of_mem member) rfl
  have marked : middle.map (erasedIn perCluster (middle.map (PlacedSlot.place perCluster))) =
      middle.map erasePlaced :=
    List.map_congr_left fun slot member => if_pos (List.mem_map_of_mem member)
  rw [List.map_append, List.map_append, first, last, marked, List.map_id, List.map_id]

theorem wayOf_file {data : Bytes} {slot : ShortSlot} (decoded : Slot.decode data = .short slot)
    (file : slot.IsFile) (proper : slot.isDot = false) : wayOf data = .file := by
  simp only [wayOf, decoded, file.plain proper, file.regular, Bool.false_eq_true, if_false]

/-- To the walk a deleted file or fragment is what it was. -/
theorem wayOf_erase {data : Bytes}
    (kind : (∃ fragment, Slot.decode data = .fragment fragment) ∨
      ∃ slot, Slot.decode data = .short slot ∧ slot.IsFile ∧ slot.isDot = false) :
    wayOf (Slot.erase data) = wayOf data := by
  rcases kind with ⟨fragment, decoded⟩ | ⟨slot, decoded, file, proper⟩
  · rw [wayOf, wayOf, decoded, Slot.decode_erase_fragment decoded]
  · rw [wayOf_file decoded file proper,
      wayOf_file (Slot.decode_erase_short decoded) file.erased slot.isDot_erased]

theorem eraseAt_of_notMem {places : List (Nat × Nat)} {cluster : Nat}
    (apart : ∀ index, (cluster, index) ∉ places) (slots : List Bytes) :
    eraseAt places cluster slots = slots := by
  refine List.ext_getElem (by simp [eraseAt]) fun index _ _ => ?_
  simp [eraseAt, apart index]

theorem map_wayOf_eraseAt {places : List (Nat × Nat)} {cluster : Nat} {slots : List Bytes}
    (harmless : ∀ index data, slots[index]? = some data → (cluster, index) ∈ places →
      wayOf (Slot.erase data) = wayOf data) :
    (eraseAt places cluster slots).map wayOf = slots.map wayOf := by
  refine List.ext_getElem (by simp [eraseAt]) fun index short long => ?_
  rw [List.length_map] at long
  simp only [List.getElem_map, eraseAt, List.getElem_mapIdx]
  split
  next marked => exact harmless index _ (List.getElem?_eq_getElem long) marked
  next => rfl

/-- A slot of whole pages stands in its cluster behind as many others as its number says. -/
theorem getElem?_slot {perCluster : Nat} {read : List (Nat × List Bytes)}
    (whole : ∀ page ∈ read, page.2.length = perCluster) {turns : Nat} {slot : PlacedSlot}
    (member : slot ∈ placedFrom (turns * perCluster) read) :
    ∃ page ∈ read, page.1 = slot.cluster ∧
      page.2[slot.index % perCluster]? = some slot.data := by
  induction read generalizing turns with
  | nil => cases member
  | cons page rest ih =>
    have size := whole page List.mem_cons_self
    rcases List.mem_append.mp member with here | later
    · refine ⟨page, List.mem_cons_self, (cluster_of_mem_placedPage here).symm, ?_⟩
      obtain ⟨⟨data, index⟩, known, rfl⟩ := List.mem_map.mp here
      rw [List.mk_mem_zipIdx_iff_le_and_getElem?_sub] at known
      obtain ⟨low, found⟩ := known
      have inside : index - turns * perCluster < page.2.length := by
        by_contra outside
        rw [List.getElem?_eq_none (Nat.not_lt.mp outside)] at found
        cases found
      rw [mod_of_turn low (by omega)]
      exact found
    · rw [next_turn size] at later
      obtain ⟨page', known, found⟩ :=
        ih (fun other known => whole other (List.mem_cons_of_mem _ known)) later
      exact ⟨page', List.mem_cons_of_mem _ known, found⟩

theorem placedPage_eraseAt {perCluster turns cluster : Nat} {slots : List Bytes}
    (size : slots.length = perCluster) (places : List (Nat × Nat)) :
    placedPage (turns * perCluster) cluster (eraseAt places cluster slots) =
      (placedPage (turns * perCluster) cluster slots).map (erasedIn perCluster places) := by
  refine List.ext_getElem (by simp [placedPage, eraseAt]) fun index _ inside => ?_
  have low : index < perCluster := by
    rw [← size]
    simpa [placedPage] using inside
  have place : (turns * perCluster + index) % perCluster = index := by
    rw [Nat.mul_comm, Nat.mul_add_mod, Nat.mod_eq_of_lt low]
  simp only [placedPage, eraseAt, erasedIn, PlacedSlot.place, List.getElem_map,
    List.getElem_zipIdx, List.getElem_mapIdx, place]
  split <;> rfl

theorem placedFrom_eraseAt {perCluster : Nat} {read : List (Nat × List Bytes)}
    (whole : ∀ page ∈ read, page.2.length = perCluster) (places : List (Nat × Nat))
    (turns : Nat) :
    placedFrom (turns * perCluster)
        (read.map fun page => (page.1, eraseAt places page.1 page.2)) =
      (placedFrom (turns * perCluster) read).map (erasedIn perCluster places) := by
  induction read generalizing turns with
  | nil => rfl
  | cons page rest ih =>
    have size := whole page List.mem_cons_self
    have kept : (eraseAt places page.1 page.2).length = page.2.length := by simp [eraseAt]
    rw [List.map_cons, placedFrom, placedFrom, List.map_append, placedPage_eraseAt size, kept,
      next_turn size,
      ih (fun other known => whole other (List.mem_cons_of_mem _ known))]

theorem whole_pagesOf {source : Source} {g : Geometry} {clusters : List Nat} :
    ∀ page ∈ pagesOf source g clusters, page.2.length = g.slotsPerCluster :=
  fun _ member => length_of_slotsOf (contents_pagesOf member)

end Directory

open Directory

/-- The second volume has the mark of deletion on the slots in some places, and is otherwise the
first one. -/
structure Erased (source source' : Source) (g : Geometry) (places : List (Nat × Nat)) : Prop where
  fat : ∀ cluster, g.Valid cluster → source'.fatEntry g cluster = source.fatEntry g cluster
  slots : ∀ cluster, g.Valid cluster →
    slotsOf source' g cluster = (slotsOf source g cluster).map (eraseAt places cluster)

/-- Marks that the walk does not notice. -/
def Harmless (source : Source) (g : Geometry) (places : List (Nat × Nat)) : Prop :=
  ∀ cluster index, (cluster, index) ∈ places → ∃ slots data,
    slotsOf source g cluster = .ok slots ∧ slots[index]? = some data ∧
    wayOf (Slot.erase data) = wayOf data

namespace Erased

variable {source source' : Source} {g : Geometry} {places : List (Nat × Nat)}

theorem map_wayOf (harmless : Harmless source g places) {cluster : Nat} {slots : List Bytes}
    (answered : slotsOf source g cluster = .ok slots) :
    (eraseAt places cluster slots).map wayOf = slots.map wayOf := by
  refine map_wayOf_eraseAt fun index data here marked => ?_
  obtain ⟨slots', data', answered', here', same⟩ := harmless cluster index marked
  cases answered.symm.trans answered'
  cases here.symm.trans here'
  exact same

theorem alike (erased : Erased source source' g places)
    (harmless : Harmless source g places) : Alike source source' g where
  fat := erased.fat
  ways cluster valid := by
    rw [erased.slots cluster valid]
    cases answered : slotsOf source g cluster with
    | error failure => rfl
    | ok slots => exact congrArg some (map_wayOf harmless answered)

theorem pagesOf_eq (erased : Erased source source' g places)
    (harmless : Harmless source g places) {clusters : List Nat}
    (valid : ∀ cluster ∈ clusters, g.Valid cluster) :
    pagesOf source' g clusters =
      (pagesOf source g clusters).map fun page => (page.1, eraseAt places page.1 page.2) := by
  induction clusters with
  | nil => rfl
  | cons cluster rest ih =>
    have later := ih fun other member => valid other (List.mem_cons_of_mem _ member)
    rw [pagesOf, pagesOf, erased.slots cluster (valid cluster List.mem_cons_self)]
    cases answered : slotsOf source g cluster with
    | error failure => rfl
    | ok slots =>
      simp only [Except.map, any_endMark, map_wayOf harmless answered]
      split
      · rfl
      · rw [later, List.map_cons]

theorem pagesOf_of_apart (erased : Erased source source' g places)
    (harmless : Harmless source g places) {clusters : List Nat}
    (valid : ∀ cluster ∈ clusters, g.Valid cluster)
    (apart : ∀ cluster ∈ clusters, ∀ index, (cluster, index) ∉ places) :
    pagesOf source' g clusters = pagesOf source g clusters := by
  rw [erased.pagesOf_eq harmless valid]
  calc (pagesOf source g clusters).map (fun page => (page.1, eraseAt places page.1 page.2))
      = (pagesOf source g clusters).map id := by
        refine List.map_congr_left fun page member => ?_
        have here : page.1 ∈ clusters :=
          (clusters_pagesOf_isPrefix clusters).subset (List.mem_map_of_mem member)
        rw [eraseAt_of_notMem (apart page.1 here)]
        rfl
    _ = pagesOf source g clusters := List.map_id _

/-- The slots of pages are those of the first volume with the mark on some of them. -/
theorem placed_eq (erased : Erased source source' g places)
    (harmless : Harmless source g places) {clusters : List Nat}
    (valid : ∀ cluster ∈ clusters, g.Valid cluster) :
    placed (pagesOf source' g clusters) =
      (placed (pagesOf source g clusters)).map (erasedIn g.slotsPerCluster places) := by
  have moved := placedFrom_eraseAt (@whole_pagesOf source g clusters) places 0
  rw [Nat.zero_mul] at moved
  rw [erased.pagesOf_eq harmless valid, Directory.placed_eq, Directory.placed_eq, moved]

theorem contents_of_apart (erased : Erased source source' g places)
    (harmless : Harmless source g places) {listings : List Listing}
    (valid : ∀ listing ∈ listings, ∀ cluster ∈ listing.clusters, g.Valid cluster)
    (apart : ∀ listing ∈ listings, ∀ cluster ∈ listing.clusters,
      ∀ index, (cluster, index) ∉ places) (ordinal : Nat) :
    Scan.contents source' g ordinal listings = Scan.contents source g ordinal listings := by
  induction listings generalizing ordinal with
  | nil => rfl
  | cons listing rest ih =>
    have later := ih (fun other member => valid other (List.mem_cons_of_mem _ member))
      (fun other member => apart other (List.mem_cons_of_mem _ member))
    rw [Scan.contents, Scan.contents, later, erased.pagesOf_of_apart harmless
      (valid listing List.mem_cons_self) (apart listing List.mem_cons_self)]

end Erased

/-- An entry as it is found once its file has been deleted. -/
def Entry.lost (entry : Entry) : Entry :=
  { entry with
    deleted := true
    shortName := deletedMark :: entry.shortName.drop 1
    recoveredInitial := entry.shortName.head? }

section

variable {slot : ShortSlot} {fragments : List NameFragment}

theorem ShortSlot.exists_name (low : 0x21 ≤ slot.name.byteAt 0) :
    ∃ first rest, slot.name = first :: rest ∧ slot.name.byteAt 0 = first := by
  cases name : slot.name with
  | nil =>
    rw [name] at low
    exact absurd low (by decide)
  | cons first rest => exact ⟨first, rest, rfl, rfl⟩

theorem ShortSlot.ne_of_printable {first : UInt8} (low : 0x21 ≤ first) (high : first ≤ 0x7E) :
    first ≠ deletedMark ∧ first ≠ escapedMark := by
  constructor
  · rintro rfl
    exact absurd high (by decide)
  · rintro rfl
    exact absurd low (by decide)

/-- The entry of a deleted slot tells the long name and the first byte as before. -/
theorem entryOf_erased (low : 0x21 ≤ slot.name.byteAt 0) (high : slot.name.byteAt 0 ≤ 0x7E)
    (filled : fragments ≠ [])
    (agree : ∀ fragment ∈ fragments, fragment.checksum = slot.checksum)
    (directory ordinal : Nat) (short : PlacedSlot) (data : Bytes) :
    entryOf directory false ordinal { short with data := data } slot.erased
        (fragments.map NameFragment.erased) =
      (entryOf directory false ordinal short slot fragments).lost := by
  obtain ⟨first, rest, name, byte⟩ := ShortSlot.exists_name low
  rw [byte] at low high
  obtain ⟨unmarked, unescaped⟩ := ShortSlot.ne_of_printable low high
  have alive : slot.isDeleted = false := by
    rw [ShortSlot.isDeleted, byte]
    exact decide_eq_false unmarked
  have agree' : ∀ fragment ∈ fragments.map NameFragment.erased,
      fragment.checksum = slot.checksum := by
    intro fragment member
    obtain ⟨written, known, rfl⟩ := List.mem_map.mp member
    exact agree written known
  have marked : ∀ fragment ∈ fragments.map NameFragment.erased, fragment.isDeleted = true := by
    intro fragment member
    obtain ⟨written, -, rfl⟩ := List.mem_map.mp member
    rfl
  have assembled : NameFragment.assemble (fragments.map NameFragment.erased) =
      NameFragment.assemble fragments :=
    @NameFragment.assemble_map NameFragment.erased (fun _ => rfl) fragments
  have before := nameOf_live alive filled agree
  have after := @nameOf_deleted slot.erased _ _ rfl (by simpa using filled) agree' marked
  -- The fragments carry the checksum of the name as it was.
  have told (hint : Option Char) :
      recoverInitial slot.erased.name slot.erased.extension slot.checksum hint = some first := by
    have checksum : slot.checksum = nameChecksum (first :: rest ++ slot.extension) := by
      rw [ShortSlot.checksum, name]
    rw [ShortSlot.erased, checksum, name]
    exact recoverInitial_eq low high rest slot.extension hint
  have raw : slot.rawName = first :: rest := by
    rw [ShortSlot.rawName, name]
    exact congrArg (· :: rest) (if_neg unescaped)
  have raw' : slot.erased.rawName = deletedMark :: rest := by
    rw [ShortSlot.rawName, ShortSlot.erased, name]
    rfl
  rw [assembled, told] at after
  simp only [entryOf, before, after, raw, raw', Entry.lost]
  rfl

end

theorem Entry.names_lost {entry : Entry} {first : UInt8} {rest : Bytes}
    (name : entry.shortName = first :: rest) (unmarked : first ≠ deletedMark) :
    entry.lost.displayName = entry.displayName ∧
      entry.lost.shortDisplayName = entry.shortDisplayName := by
  have before : entry.nameBytes = first :: rest := by
    simp only [nameBytes, name, unmarked, false_and, if_false]
  have after : entry.lost.nameBytes = first :: rest := by
    simp only [nameBytes, lost, name, List.drop_succ_cons, List.drop_zero, List.head?_cons,
      true_and, if_true, Option.getD_some]
  have short : entry.lost.shortDisplayName = entry.shortDisplayName := by
    rw [shortDisplayName, shortDisplayName, after, before]
    rfl
  refine ⟨?_, short⟩
  rw [displayName, displayName, short]
  rfl

end Undelete
