import Undelete.Proofs.Recovery.Filed
import Undelete.Proofs.Recovery.Tour

/-!
Files in memory. Memory accepts files as long as their keys are distinct and free, and it then
holds them all. A run into memory therefore ends early only at a volume that cannot be visited.
-/

namespace Undelete

namespace Delivery

/-- The file as memory holds it. -/
def stored (delivery : Delivery) : MemoryFile :=
  ⟨delivery.partition, delivery.entry.fileId, delivery.data.reverse⟩

theorem contents_stored (delivery : Delivery) :
    delivery.stored.contents = delivery.data.flatten := by
  rw [MemoryFile.contents, stored, List.reverse_reverse]

end Delivery

namespace MemoryOutput

open Output

variable {output last : MemoryOutput} {delivery : Delivery} {files : List Delivery}
  {told : List (Option String)}

theorem accepts_file (free : delivery.key ∉ output.files.map MemoryFile.key) :
    Accepts output delivery.calls [none] ⟨delivery.stored :: output.files, none⟩ :=
  accepts_fileCalls (get?_eq_none_iff_key.mpr free) delivery.data

/-- A file is accepted only under a key that is free. -/
theorem free_of_accepts (accepts : Accepts output delivery.calls told last) :
    delivery.key ∉ output.files.map MemoryFile.key :=
  get?_eq_none_iff_key.mp (accepts_fileCalls_iff.mp accepts).1

/-- Files with distinct free keys are accepted. -/
theorem accepts_files (output : MemoryOutput) (distinct : (files.map Delivery.key).Nodup)
    (free : ∀ delivery ∈ files, delivery.key ∉ output.files.map MemoryFile.key) :
    ∃ told last, Accepts output (files.flatMap Delivery.calls) told last := by
  induction files generalizing output with
  | nil => exact ⟨[], output, .done output⟩
  | cons delivery rest ih =>
    obtain ⟨new, distinct⟩ := List.nodup_cons.mp distinct
    have first := accepts_file (free delivery List.mem_cons_self)
    have still : ∀ later ∈ rest,
        later.key ∉ (delivery.stored :: output.files).map MemoryFile.key := by
      intro later member taken
      rcases List.mem_cons.mp taken with same | old
      · exact new (List.mem_map.mpr ⟨later, member, same⟩)
      · exact free later (List.mem_cons_of_mem _ member) old
    obtain ⟨told, last, onward⟩ := ih ⟨delivery.stored :: output.files, none⟩ distinct still
    exact ⟨_, last, first.trans onward⟩

/-- Memory holds all files that it accepts, the newest first, and tells no places. -/
theorem files_of_accepts (accepts : Accepts output (files.flatMap Delivery.calls) told last) :
    told = files.map (fun _ => none) ∧
      last.files = (files.map Delivery.stored).reverse ++ output.files := by
  induction files generalizing output told with
  | nil =>
    cases accepts
    exact ⟨rfl, rfl⟩
  | cons delivery rest ih =>
    obtain ⟨first, mid, second, early, late, rfl⟩ := accepts.of_append
    obtain ⟨rfl, rfl⟩ := (accepts_file (free_of_accepts early)).unique early
    obtain ⟨rfl, files⟩ := ih late
    refine ⟨rfl, ?_⟩
    rw [files, List.map_cons, List.reverse_cons, List.append_assoc]
    rfl

/-- Files are accepted only under distinct keys. -/
theorem distinct_of_accepts (accepts : Accepts output (files.flatMap Delivery.calls) told last) :
    (files.map Delivery.key).Nodup ∧
      ∀ file ∈ files, file.key ∉ output.files.map MemoryFile.key := by
  induction files generalizing output told with
  | nil => exact ⟨.nil, by simp⟩
  | cons delivery rest ih =>
    obtain ⟨first, mid, second, early, late, rfl⟩ := accepts.of_append
    have free := free_of_accepts early
    obtain ⟨rfl, rfl⟩ := (accepts_file free).unique early
    obtain ⟨distinct, others⟩ := ih late
    simp only [List.map_cons, List.mem_cons, not_or] at others
    refine ⟨List.nodup_cons.mpr ⟨fun taken => ?_, distinct⟩, ?_⟩
    · obtain ⟨later, member, same⟩ := List.mem_map.mp taken
      exact (others later member).1 same
    · intro file member
      rcases List.mem_cons.mp member with rfl | member
      · exact free
      · exact (others file member).2

/-- What memory holds under a key is the file with that key. -/
theorem get?_of_accepts (accepts : Accepts empty (files.flatMap Delivery.calls) told last)
    (partition fileId : Nat) :
    last.get? partition fileId =
      (((files.filter (fun delivery => delivery.partition = partition)).reverse.find?
        fun delivery => delivery.entry.fileId = fileId).map fun delivery => delivery.data.flatten) := by
  obtain ⟨-, held⟩ := files_of_accepts accepts
  have known : MemoryFile.contents ∘ Delivery.stored = fun delivery => delivery.data.flatten :=
    funext Delivery.contents_stored
  rw [get?, held, empty, List.append_nil, ← List.map_reverse, List.find?_map, Option.map_map, known,
    ← List.filter_reverse, List.find?_filter]
  congr 2
  funext delivery
  simp only [Function.comp_apply, MemoryFile.isKnownBy, Delivery.stored, decide_eq_true_eq,
    Prod.mk.injEq]
  exact decide_eq_decide.mpr Iff.rfl

end MemoryOutput

namespace Device

variable [Digests] {config : Config} {session : Session} {drive : Drive} {source : Source}
  {journal : List Event}

/-- Memory refuses no file of a run. -/
theorem not_refuses_memory {category : Category} {stops : Stops} {failure : Failure}
    (planned : Device.stops config source category = .ok stops)
    (few : FewEntries config source category) :
    ¬ Output.Refuses MemoryOutput.empty stops.calls failure := by
  have distinct := (numbered_stops planned).distinct few
  obtain ⟨told, last, accepts⟩ := MemoryOutput.accepts_files MemoryOutput.empty distinct
    fun _ _ => List.not_mem_nil
  exact accepts.not_refuses

/-- A run into memory is stopped exactly when it has no route or is blocked on it. -/
theorem stopped_memory_iff {here : Source} (opened : source.opened = .ok here)
    (few : FewEntries config here drive.category) {failure : Failure} :
    (recover config session drive ⟨source, MemoryOutput.empty, journal⟩).1 = .error failure ↔
      route config source drive.category = .error failure ∨
        ∃ stops, route config source drive.category = .ok stops ∧ stops.Blocked failure := by
  have travels := travels_recover config session drive ⟨source, MemoryOutput.empty, journal⟩
  have stopped {reason : Failure} {after : Run MemoryOutput}
      (done : recover config session drive ⟨source, MemoryOutput.empty, journal⟩ =
        (.error reason, after)) :
      route config source drive.category = .error reason ∨
        ∃ stops, route config source drive.category = .ok stops ∧ stops.Blocked reason := by
    rcases travels.stopped done with unplanned | ⟨stops, planned, blocked | refused⟩
    · exact .inl unplanned
    · exact .inr ⟨stops, planned, blocked⟩
    · obtain ⟨here', opened', planned⟩ := stops_of_route planned
      cases opened.symm.trans opened'
      exact absurd refused (not_refuses_memory planned few)
  cases done : recover config session drive ⟨source, MemoryOutput.empty, journal⟩ with
  | mk result after =>
    cases result with
    | ok report =>
      obtain ⟨stops, planned, tour, -⟩ := travels.ok done
      constructor
      · intro failed
        cases failed
      · rintro (unplanned | ⟨stops', planned', blocked⟩)
        · cases planned.symm.trans unplanned
        · cases planned.symm.trans planned'
          exact absurd blocked tour.not_blocked
    | error reason =>
      constructor
      · intro same
        cases same
        exact stopped done
      · rintro (unplanned | ⟨stops, planned, blocked⟩)
        · rcases stopped done with unplanned' | ⟨stops', planned', -⟩
          · cases unplanned.symm.trans unplanned'
            rfl
          · cases unplanned.symm.trans planned'
        · rcases stopped done with unplanned' | ⟨stops', planned', blocked'⟩
          · cases planned.symm.trans unplanned'
          · cases planned.symm.trans planned'
            rw [blocked.unique blocked']

/-- A run into memory comes to its end when nothing blocks it. -/
theorem recover_memory (session : Session) {here : Source} {stops : Stops}
    (opened : source.opened = .ok here)
    (planned : route config source drive.category = .ok stops)
    (clear : ∀ failure, ¬ stops.Blocked failure) (few : FewEntries config here drive.category)
    (journal : List Event) :
    ∃ report after, recover config session drive ⟨source, MemoryOutput.empty, journal⟩ =
        (.ok report, after) ∧
      Tour MemoryOutput.empty stops report.partitions after.output := by
  obtain ⟨here', opened', planned'⟩ := stops_of_route planned
  cases opened.symm.trans opened'
  obtain ⟨told, last, accepts⟩ := MemoryOutput.accepts_files MemoryOutput.empty
    ((numbered_stops planned').distinct few) fun _ _ => List.not_mem_nil
  let before : Run MemoryOutput := ⟨source, MemoryOutput.empty, journal⟩
  have planned : route config before.source drive.category = .ok stops := planned
  exact recover_accepted planned clear accepts

/-- A single volume whose files have distinct keys is recovered into memory. -/
theorem recover_single (session : Session) (single : drive.category = .logical)
    (fresh : source.reopen = .ok source) {visit : Visit}
    (planned : Visit.ofLogical config source = .ok visit)
    (distinct : (visit.files.map Delivery.key).Nodup) (journal : List Event) :
    ∃ report after told,
      recover config session drive ⟨source, MemoryOutput.empty, journal⟩ = (.ok report, after) ∧
        report.partitions = [visit.report told] ∧
        Output.Accepts MemoryOutput.empty visit.calls told after.output := by
  let before : Run MemoryOutput := ⟨source, MemoryOutput.empty, journal⟩
  have route : route config before.source drive.category = .ok [.ok visit] := by
    rw [Device.route, Source.opened_of_fresh fresh, single]
    exact congrArg (Except.ok [·]) planned
  have clear (failure : Failure) : ¬ Stops.Blocked [.ok visit] failure := by
    rw [Stops.blocked_cons_ok]
    exact Stops.not_blocked_nil
  obtain ⟨told, last, accepts⟩ := MemoryOutput.accepts_files MemoryOutput.empty distinct
    fun _ _ => List.not_mem_nil
  have accepts : Output.Accepts before.output (Stops.calls [.ok visit]) told last := by
    rw [Stops.calls_cons_ok]
    exact (List.append_nil visit.calls).symm ▸ accepts
  obtain ⟨report, after, ok, tour⟩ := recover_accepted route clear accepts
  cases reported : report.partitions with
  | nil =>
    rw [reported] at tour
    cases tour
  | cons part rest =>
    rw [reported] at tour
    cases tour with
    | visit accepts onward =>
      cases onward
      exact ⟨report, after, _, ok, reported, accepts⟩

end Device

end Undelete
