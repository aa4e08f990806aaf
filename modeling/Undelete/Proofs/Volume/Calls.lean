import Mathlib.Data.List.Basic
import Undelete.Chain.Walk
import Undelete.Directory.Scan
import Undelete.Proofs.Volume.Small

/-!
A FAT table in use. Whatever has been asked of a table before, and whether or not the source could
answer that, a table gives every answer that a new one would give. What a new one gives for an
entry is the number in the sector that holds the entry.
-/

namespace Undelete

/-- What can be asked of a FAT table. -/
inductive FatCall where
  | rawEntry (cluster : Nat)
  | entry (cluster : Nat)
  | liveChain (start limit : Nat)
  | walkFrom (walker : Walker) (fileId start expected limit : Nat)
  | walk (walker : Walker) (entry : Entry)

inductive FatAnswer where
  | number (result : Except Failure Nat)
  | entry (result : Except Failure FatEntry)
  | clusters (result : Except Failure (List Nat))
  | chain (chain : Chain)
  deriving DecidableEq

namespace FatTable

variable {table : FatTable} {source : Source} {g : Geometry}

/-- The answer to a call, and the table afterwards. -/
def call (table : FatTable) (source : Source) : FatCall → FatAnswer × FatTable
  | .rawEntry cluster =>
    let (result, later, _) := table.rawEntry source cluster
    (.number result, later)
  | .entry cluster => conduct .entry (Probe.entryOf cluster)
  | .liveChain start limit => conduct .clusters (table.geometry.liveChain start limit)
  | .walkFrom walker fileId start expected limit =>
    conduct .chain (walker.walkFrom table.geometry fileId start expected limit)
  | .walk walker entry => conduct .chain (walker.walk table.geometry entry)
where
  conduct {α : Type} (answer : α → FatAnswer) (work : Probe α) : FatAnswer × FatTable :=
    let (result, later, _) := work.run source table []
    (answer result, later)

/-- The answers to calls that are made one after the other. -/
def answers (source : Source) : FatTable → List FatCall → List FatAnswer
  | _, [] => []
  | table, asked :: rest =>
    (table.call source asked).1 :: answers source (table.call source asked).2 rest

/-- The answer to a call on a table that holds nothing. -/
def fresh (source : Source) (g : Geometry) (asked : FatCall) : FatAnswer :=
  ((empty g).call source asked).1

theorem number_faithful (faithful : table.Faithful source) (cluster : Nat) :
    (table.rawEntry source cluster).1 =
      (source.read (table.geometry.fatSector cluster) table.geometry.bytesPerSector).map
        fun data => FatEntry.mask (data.field (table.geometry.fatOffset cluster) 4) := by
  obtain ⟨answered, -, -⟩ := fetch_faithful faithful (table.geometry.fatSector cluster)
  simp only [rawEntry, answered]

/-- One call answers as it would on a new table, and leaves the table fit for the next. -/
theorem call_faithful (faithful : table.Faithful source) (asked : FatCall) :
    (table.call source asked).1 = fresh source table.geometry asked ∧
      (table.call source asked).2.Faithful source ∧
      (table.call source asked).2.geometry = table.geometry := by
  have new := faithful_empty source table.geometry
  have conducted {α : Type} (answer : α → FatAnswer) (work : Probe α) :
      (call.conduct table source answer work).1 =
          (call.conduct (empty table.geometry) source answer work).1 ∧
        (call.conduct table source answer work).2.Faithful source ∧
        (call.conduct table source answer work).2.geometry = table.geometry := by
    obtain ⟨result, later, same⟩ := Probe.run_answer source work table [] faithful
    refine ⟨congrArg answer ?_, later, same⟩
    rw [result, Probe.run_empty]
  cases asked with
  | rawEntry cluster =>
    obtain ⟨-, later, same⟩ := rawEntry_faithful faithful cluster
    have equal : (table.rawEntry source cluster).1 =
        ((empty table.geometry).rawEntry source cluster).1 :=
      (number_faithful faithful cluster).trans (number_faithful new cluster).symm
    exact ⟨congrArg FatAnswer.number equal, later, same⟩
  | entry cluster => exact conducted .entry _
  | liveChain start limit => exact conducted .clusters _
  | walkFrom walker fileId start expected limit => exact conducted .chain _
  | walk walker entry => exact conducted .chain _

theorem answers_faithful (faithful : table.Faithful source) (asked : List FatCall) :
    table.answers source asked = asked.map (fresh source table.geometry) := by
  induction asked generalizing table with
  | nil => rfl
  | cons first rest ih =>
    obtain ⟨answer, later, same⟩ := call_faithful faithful first
    rw [answers, ih later, answer, same, List.map_cons]

/-- An entry lies in one sector when the sector size is a multiple of its size. -/
theorem fatOffset_add_le (positive : 0 < g.bytesPerSector) (aligned : 4 ∣ g.bytesPerSector)
    (cluster : Nat) : g.fatOffset cluster + 4 ≤ g.bytesPerSector := by
  obtain ⟨entries, size⟩ := aligned
  have inside : g.fatOffset cluster = 4 * (cluster % entries) := by
    rw [Geometry.fatOffset, size, Nat.mul_mod_mul_left]
  have low : cluster % entries < entries := Nat.mod_lt _ (by omega)
  omega

theorem field_four {data : Bytes} {offset : Nat} (inside : offset + 4 ≤ data.length) :
    ∃ b₀ b₁ b₂ b₃, data.slice offset 4 = [b₀, b₁, b₂, b₃] ∧
      data.field offset 4 =
        b₀.toNat + 0x100 * b₁.toNat + 0x10000 * b₂.toNat + 0x1000000 * b₃.toNat := by
  have size : (data.slice offset 4).length = 4 := by
    rw [Bytes.length_slice]
    omega
  obtain ⟨b₀, b₁, b₂, b₃, four⟩ := List.length_eq_four.mp size
  refine ⟨b₀, b₁, b₂, b₃, four, ?_⟩
  rw [Bytes.field, four]
  simp only [Bytes.littleEndian]
  omega

theorem fresh_rawEntry (source : Source) (g : Geometry) (cluster : Nat) :
    fresh source g (.rawEntry cluster) = .number
      ((source.read (g.fatSector cluster) g.bytesPerSector).map
        fun data => FatEntry.mask (data.field (g.fatOffset cluster) 4)) :=
  congrArg FatAnswer.number (number_faithful (faithful_empty source g) cluster)

theorem fresh_conduct {α : Type} (source : Source) (g : Geometry) (answer : α → FatAnswer)
    (work : Probe α) :
    (call.conduct (empty g) source answer work).1 = answer (work.answer source g) :=
  congrArg answer (Probe.run_empty source g work [])

/-- The sector that a table remembers does not show. However it has been used, it answers as a
new table does, and that gives of a cluster's entry the low 28 bits of the little-endian word in
its sector, or the failure to read that sector. -/
theorem answers_eq_fresh (source : Source) (positive : 0 < g.bytesPerSector)
    (aligned : 4 ∣ g.bytesPerSector) (asked : List FatCall) :
    (empty g).answers source asked = asked.map (fresh source g) ∧
      ∀ cluster,
        (∀ failure, source.read (g.fatStart + 4 * cluster / g.bytesPerSector) g.bytesPerSector =
            .error failure →
          fresh source g (.rawEntry cluster) = .number (.error failure)) ∧
        ∀ data, source.read (g.fatStart + 4 * cluster / g.bytesPerSector) g.bytesPerSector =
            .ok data →
          ∃ b₀ b₁ b₂ b₃, data.slice (4 * cluster % g.bytesPerSector) 4 = [b₀, b₁, b₂, b₃] ∧
            fresh source g (.rawEntry cluster) = .number (.ok
              ((b₀.toNat + 0x100 * b₁.toNat + 0x10000 * b₂.toNat + 0x1000000 * b₃.toNat) %
                0x10000000)) := by
  refine ⟨answers_faithful (faithful_empty source g) asked, fun cluster => ⟨?_, ?_⟩⟩
  · intro failure answered
    rw [fresh_rawEntry, Geometry.fatSector, answered]
    rfl
  · intro data answered
    have inside : g.fatOffset cluster + 4 ≤ data.length := by
      rw [Source.length_of_read answered]
      exact fatOffset_add_le positive aligned cluster
    obtain ⟨b₀, b₁, b₂, b₃, four, word⟩ := field_four inside
    refine ⟨b₀, b₁, b₂, b₃, four, ?_⟩
    rw [fresh_rawEntry, Geometry.fatSector, answered, ← word]
    rfl

/-- A volume of 200 clusters, cut off after the first sector of its FAT. -/
def torn : Source :=
  Source.ofImage
    (Small.boot 200 ++ Small.sector ([0, 0, Small.chainEnd, 0xF0000004, Small.chainEnd, 130].flatMap
      (Bytes.ofNat 4))).toArray 512

theorem answers_eq_fresh_torn :
    0 < (Small.geometry 200).bytesPerSector ∧ 4 ∣ (Small.geometry 200).bytesPerSector ∧
      (empty (Small.geometry 200)).answers torn
          [.rawEntry 3, .rawEntry 130, .rawEntry 3, .liveChain 3 9, .liveChain 5 9,
            .walkFrom { } 7 3 1 9] =
        [.number (.ok 4), .number (.error (.unreadableSector 2)), .number (.ok 4),
          .clusters (.ok [3, 4]), .clusters (.error (.unreadableSector 2)),
          .chain ⟨7, [3, 4], [], 0, false, .endOfChain⟩] := by
  refine ⟨by decide, by decide, ?_⟩
  rw [(answers_eq_fresh torn (by decide) (by decide) _).1]
  simp only [List.map_cons, List.map_nil, fresh_rawEntry]
  simp only [fresh, call, fresh_conduct, torn, Probe.answer_ofImage, Source.read_ofImage]
  decide +kernel

end FatTable

end Undelete
