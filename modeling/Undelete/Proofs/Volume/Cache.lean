import Undelete.Volume.Probe

/-!
The one sector that a FAT table remembers cannot be told from a fresh read. A probe that is run
with a table gets the answers of the source, so that its result depends on the source alone.
-/

namespace Undelete

variable {α β : Type}

namespace Source

/-- The FAT entry of a cluster as a fresh read gives it. -/
def fatEntry (source : Source) (g : Geometry) (cluster : Nat) : Except Failure FatEntry :=
  (source.read (g.fatSector cluster) g.bytesPerSector).map fun data =>
    FatEntry.ofRaw (FatEntry.mask (data.field (g.fatOffset cluster) 4))

theorem read_eq_slice (source : Source) (sector count : Nat) :
    source.read sector count =
      match source.contents with
      | none => .error (.unreadableSector sector)
      | some image =>
        if source.inRange image.size sector count then
          .ok (Bytes.slice image.toList ((source.startLba + sector) * source.sectorSize) count)
        else .error (.unreadableSector sector) := by
  unfold read
  cases source.contents with
  | none => rfl
  | some image =>
    simp only [Array.toList_extract, List.extract_eq_take_drop, Nat.add_sub_cancel_left,
      Bytes.slice]

theorem length_of_read {source : Source} {sector count : Nat} {data : Bytes}
    (answered : source.read sector count = .ok data) : data.length = count := by
  rw [read_eq_slice] at answered
  split at answered
  · cases answered
  next image _ =>
    split at answered
    next inside =>
      cases answered
      simp only [inRange, Bool.and_eq_true, decide_eq_true_eq] at inside
      rw [Bytes.length_slice, Array.length_toList]
      omega
    · cases answered

end Source

/-- What a table holds is what the source has there. -/
def FatTable.Faithful (table : FatTable) (source : Source) : Prop :=
  ∀ sector data, table.held = some (sector, data) →
    source.read sector table.geometry.bytesPerSector = .ok data

namespace FatTable

theorem faithful_empty (source : Source) (g : Geometry) : (empty g).Faithful source := by
  intro sector data held
  cases held

theorem fetch_held {table : FatTable} {sector : Nat} {data : Bytes} (source : Source)
    (held : table.held = some (sector, data)) :
    table.fetch source sector = (.ok data, table, []) := by
  simp [fetch, held]

/-- A sector that the table does not hold is read, and then held if it could be read. -/
theorem fetch_afresh {table : FatTable} {sector : Nat} (source : Source)
    (other : ∀ data, table.held ≠ some (sector, data)) :
    table.fetch source sector =
      (source.read sector table.geometry.bytesPerSector,
        { table with
          held := (source.read sector table.geometry.bytesPerSector).toOption.map (sector, ·) },
        [(sector, table.geometry.bytesPerSector)]) := by
  cases held : table.held with
  | none =>
    simp only [fetch, held]
    cases source.read sector table.geometry.bytesPerSector <;> rfl
  | some kept =>
    obtain ⟨known, data⟩ := kept
    have different : known ≠ sector := by
      intro same
      exact other data (same ▸ held)
    simp only [fetch, held, if_neg different]
    cases source.read sector table.geometry.bytesPerSector <;> rfl

/-- A sector comes from the table or from the source, and is the same. -/
theorem fetch_faithful {table : FatTable} {source : Source} (faithful : table.Faithful source)
    (sector : Nat) :
    (table.fetch source sector).1 = source.read sector table.geometry.bytesPerSector ∧
      (table.fetch source sector).2.1.Faithful source ∧
      (table.fetch source sector).2.1.geometry = table.geometry := by
  by_cases known : ∃ data, table.held = some (sector, data)
  · obtain ⟨data, held⟩ := known
    rw [fetch_held source held]
    exact ⟨(faithful sector data held).symm, faithful, rfl⟩
  · rw [fetch_afresh source (fun data held => known ⟨data, held⟩)]
    refine ⟨rfl, ?_, rfl⟩
    intro place data held
    cases answered : source.read sector table.geometry.bytesPerSector with
    | error failure => simp [answered, Except.toOption] at held
    | ok stored =>
      simp only [answered, Except.toOption, Option.map_some, Option.some.injEq,
        Prod.mk.injEq] at held
      obtain ⟨rfl, rfl⟩ := held
      exact answered

theorem rawEntry_faithful {table : FatTable} {source : Source} (faithful : table.Faithful source)
    (cluster : Nat) :
    (table.rawEntry source cluster).1.map FatEntry.ofRaw =
        source.fatEntry table.geometry cluster ∧
      (table.rawEntry source cluster).2.1.Faithful source ∧
      (table.rawEntry source cluster).2.1.geometry = table.geometry := by
  obtain ⟨answered, later, same⟩ := fetch_faithful faithful (table.geometry.fatSector cluster)
  refine ⟨?_, later, same⟩
  simp only [rawEntry, answered, Source.fatEntry]
  cases source.read (table.geometry.fatSector cluster) table.geometry.bytesPerSector <;> rfl

end FatTable

namespace Probe

/-- The result of a probe that gets its answers from a source. -/
def answer (source : Source) (g : Geometry) (work : Probe α) : α :=
  work.eval (source.fatEntry g) source.read

variable (source : Source) (g : Geometry)

@[simp] theorem answer_pure (value : α) : (pure value : Probe α).answer source g = value := rfl

@[simp] theorem answer_entryOf (cluster : Nat) :
    (entryOf cluster).answer source g = source.fatEntry g cluster := rfl

@[simp] theorem answer_bytesAt (sector count : Nat) :
    (bytesAt sector count).answer source g = source.read sector count := rfl

@[simp] theorem answer_bind (work : Probe α) (f : α → Probe β) :
    (work >>= f).answer source g = (f (work.answer source g)).answer source g :=
  eval_bind _ _ work f

/-- Running a probe with any table that is faithful to the source gives the source's answers. -/
theorem run_answer (work : Probe α) (table : FatTable) (log : List (Nat × Nat))
    (faithful : table.Faithful source) :
    (work.run source table log).1 = work.answer source table.geometry ∧
      (work.run source table log).2.1.Faithful source ∧
      (work.run source table log).2.1.geometry = table.geometry := by
  induction work generalizing table log with
  | done value => exact ⟨rfl, faithful, rfl⟩
  | lookup cluster next ih =>
    obtain ⟨answered, later, same⟩ := FatTable.rawEntry_faithful faithful cluster
    obtain ⟨result, final, kept⟩ := ih
      ((table.rawEntry source cluster).1.map FatEntry.ofRaw)
      (table.rawEntry source cluster).2.1 ((table.rawEntry source cluster).2.2 ++ log) later
    rw [same] at result kept
    refine ⟨?_, final, kept⟩
    rw [answered] at result
    simp only [run, answer, eval] at result ⊢
    rw [answered]
    exact result
  | read sector count next ih =>
    exact ih (source.read sector count) table ((sector, count) :: log) faithful

theorem run_empty (work : Probe α) (log : List (Nat × Nat)) :
    (work.run source (FatTable.empty g) log).1 = work.answer source g :=
  (run_answer source work (FatTable.empty g) log (FatTable.faithful_empty source g)).1

end Probe

end Undelete
