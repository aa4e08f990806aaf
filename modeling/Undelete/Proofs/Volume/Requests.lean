import Undelete.Proofs.Volume.Cache

/-!
What a probe asks of a volume: the FAT entries of clusters, and the contents of runs of sectors.
Carried out with a FAT table, it reads each run as asked, and for an entry the entry's sector of
the first FAT copy, unless the table holds that sector.
-/

namespace Undelete

inductive Request where
  | entry (cluster : Nat)
  | contents (sector count : Nat)

namespace Request

def isEntry : Request → Bool
  | entry _ => true
  | contents .. => false

/-- The first sector that is read for a request, and how many bytes from there on. -/
def place (g : Geometry) : Request → Nat × Nat
  | entry cluster => (g.fatSector cluster, g.bytesPerSector)
  | contents sector count => (sector, count)

/-- Whether a request is for the entry of a valid cluster or for the whole of one. -/
def Inside (g : Geometry) : Request → Prop
  | entry cluster => g.Valid cluster
  | contents sector count =>
    ∃ cluster, g.Valid cluster ∧ sector = g.clusterSector cluster ∧ count = g.clusterSize

end Request

/-- What is read for requests, in their order. The sector of an entry may be at hand. -/
inductive Served (g : Geometry) : List Request → List (Nat × Nat) → Prop
  | done : Served g [] []
  | held {cluster : Nat} {requests : List Request} {reads : List (Nat × Nat)} :
    Served g requests reads → Served g (.entry cluster :: requests) reads
  | read {request : Request} {requests : List Request} {reads : List (Nat × Nat)} :
    Served g requests reads → Served g (request :: requests) (request.place g :: reads)

namespace Served

variable {g : Geometry} {requests : List Request} {reads : List (Nat × Nat)}

theorem exists_of_mem (served : Served g requests reads) {place : Nat × Nat}
    (member : place ∈ reads) : ∃ request ∈ requests, request.place g = place := by
  induction served with
  | done => cases member
  | held _ ih =>
    obtain ⟨request, asked, same⟩ := ih member
    exact ⟨request, List.mem_cons_of_mem _ asked, same⟩
  | read _ ih =>
    rcases List.mem_cons.mp member with rfl | later
    · exact ⟨_, List.mem_cons_self, rfl⟩
    · obtain ⟨request, asked, same⟩ := ih later
      exact ⟨request, List.mem_cons_of_mem _ asked, same⟩

/-- Where the sectors of the FAT can be told from the others, each request for contents is read
exactly once. -/
theorem filter_eq (served : Served g requests reads) {isData : Nat × Nat → Bool}
    (told : ∀ request ∈ requests, isData (request.place g) = !request.isEntry) :
    reads.filter isData = (requests.filter (!·.isEntry)).map (Request.place g) := by
  induction served with
  | done => rfl
  | held _ ih =>
    obtain ⟨-, told⟩ := List.forall_mem_cons.mp told
    rw [List.filter_cons_of_neg (by simp [Request.isEntry]), ih told]
  | @read request _ _ _ ih =>
    obtain ⟨here, told⟩ := List.forall_mem_cons.mp told
    rw [List.filter_cons, List.filter_cons, here, ih told]
    split <;> rfl

end Served

theorem FatTable.reads_fetch (table : FatTable) (source : Source) (sector : Nat) :
    (table.fetch source sector).2.2 = [] ∨
      (table.fetch source sector).2.2 = [(sector, table.geometry.bytesPerSector)] := by
  by_cases known : ∃ data, table.held = some (sector, data)
  · obtain ⟨data, held⟩ := known
    rw [fetch_held source held]
    exact .inl rfl
  · rw [fetch_afresh source (fun data held => known ⟨data, held⟩)]
    exact .inr rfl

namespace Probe

variable {α β : Type}

/-- What a probe asks for when it gets its answers from a source. -/
def requests (source : Source) (g : Geometry) : Probe α → List Request
  | done _ => []
  | lookup cluster next => .entry cluster :: (next (source.fatEntry g cluster)).requests source g
  | read sector count next =>
    .contents sector count :: (next (source.read sector count)).requests source g

variable (source : Source) (g : Geometry)

@[simp] theorem requests_pure (value : α) : (pure value : Probe α).requests source g = [] := rfl

@[simp] theorem requests_entryOf (cluster : Nat) :
    (entryOf cluster).requests source g = [.entry cluster] := rfl

@[simp] theorem requests_bytesAt (sector count : Nat) :
    (bytesAt sector count).requests source g = [.contents sector count] := rfl

@[simp] theorem requests_bind (work : Probe α) (f : α → Probe β) :
    (work >>= f).requests source g =
      work.requests source g ++ (f (work.answer source g)).requests source g := by
  induction work with
  | done value => rfl
  | lookup cluster next ih => exact congrArg (_ :: ·) (ih (source.fatEntry g cluster))
  | read sector count next ih => exact congrArg (_ :: ·) (ih (source.read sector count))

variable {source}

/-- What a probe reads when it is run with a table that is faithful to the source. -/
theorem run_served (work : Probe α) {table : FatTable} (log : List (Nat × Nat))
    (faithful : table.Faithful source) :
    ∃ reads, (work.run source table log).2.2 = reads.reverse ++ log ∧
      Served table.geometry (work.requests source table.geometry) reads := by
  induction work generalizing table log with
  | done value => exact ⟨[], rfl, .done⟩
  | lookup cluster next ih =>
    obtain ⟨answered, later, same⟩ := FatTable.rawEntry_faithful faithful cluster
    have onward := ih ((table.rawEntry source cluster).1.map FatEntry.ofRaw)
      ((table.rawEntry source cluster).2.2 ++ log) later
    rw [same, answered] at onward
    obtain ⟨reads, logged, served⟩ := onward
    simp only [run, requests, answered]
    have fetched : (table.rawEntry source cluster).2.2 = [] ∨
        (table.rawEntry source cluster).2.2 = [(Request.entry cluster).place table.geometry] :=
      table.reads_fetch source (table.geometry.fatSector cluster)
    rcases fetched with held | afresh
    · refine ⟨reads, ?_, .held served⟩
      rw [logged, held]
      rfl
    · refine ⟨_ :: reads, ?_, .read served⟩
      rw [logged, afresh, List.reverse_cons, List.append_assoc]
  | read sector count next ih =>
    obtain ⟨reads, logged, served⟩ := ih (source.read sector count) ((sector, count) :: log) faithful
    refine ⟨(sector, count) :: reads, ?_, .read served⟩
    rw [List.reverse_cons, List.append_assoc]
    exact logged

end Probe

end Undelete
