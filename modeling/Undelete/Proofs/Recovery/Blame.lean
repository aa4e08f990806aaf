import Undelete.Proofs.Recovery.Obstacles

/-!
Who is at fault when a run fails. What keeps a run from a volume is a fault of the disk, so that a
run blames its output only when the output has refused a call.
-/

namespace Undelete

/-- What is at fault on a partition is not the output. -/
theorem Failure.blameless_of_local {failure : Failure} (fault : failure.isPartitionLocal = true) :
    failure.isOutput = false := by
  cases failure <;> first | rfl | cases fault

namespace Source

variable {source : Source} {failure : Failure}

theorem unreadable_of_unsized (unknown : source.sectorSize = 0) :
    ∃ reason, source.bytesPerSector = .error (.unreadableDevice reason) := by
  unfold bytesPerSector
  rw [if_neg (not_not.mpr unknown)]
  split
  · exact ⟨_, rfl⟩
  · exact ⟨_, rfl⟩

theorem blameless_of_geometry (failed : source.geometry 0 = .error failure) :
    failure.isOutput = false := by
  by_cases unknown : source.sectorSize = 0
  · obtain ⟨reason, unsized⟩ := unreadable_of_unsized unknown
    rw [geometry, BootSector.ofSource, unsized] at failed
    cases failed
    rfl
  · cases answered : source.read 0 (max source.sectorSize BootSector.size) with
    | error reason =>
      cases (geometry_of_unread unknown answered).symm.trans failed
      rw [unreadable_of_read answered]
      rfl
    | ok data =>
      rw [geometry_of_read unknown answered] at failed
      split at failed
      · exact Failure.blameless_of_local (BootSector.local_of_geometry failed)
      · cases failed
        rfl

theorem blameless_of_reopen (failed : source.reopen = .error failure) :
    failure.isOutput = false := by
  obtain ⟨reason, rfl⟩ := unreadable_of_reopen failed
  rfl

end Source

namespace Visit

variable [Digests] {config : Config} {source : Source} {failure : Failure}

theorem blameless_of_ofPartition {index : Nat} {partition : Partition}
    (failed : ofPartition config source index partition = .error failure) :
    failure.isOutput = false := by
  unfold ofPartition at failed
  dsimp only at failed
  split at failed
  · cases failed
  rcases bind_eq_error_iff.mp failed with unplaced | ⟨volume, -, failed⟩
  · exact Source.blameless_of_reopen unplaced
  unfold ofVolume at failed
  split at failed
  · cases failed
  next recognized =>
    split at failed
    · cases failed
    · cases failed
      exact Source.blameless_of_geometry recognized

theorem blameless_of_ofLogical (failed : ofLogical config source = .error failure) :
    failure.isOutput = false := by
  unfold ofLogical at failed
  dsimp only at failed
  split at failed
  · rcases bind_eq_error_iff.mp failed with closed | ⟨volume, -, failed⟩
    · exact Source.blameless_of_reopen closed
    · cases failed
  next recognized =>
    split at failed
    · cases failed
    · cases failed
      exact Source.blameless_of_geometry recognized

end Visit

namespace Device

variable [Digests] {config : Config} {source : Source} {category : Category} {failure : Failure}

theorem blameless_of_listing (failed : listing source = .error failure) :
    failure.isOutput = false := by
  by_cases unknown : source.sectorSize = 0
  · obtain ⟨reason, unsized⟩ := Source.unreadable_of_unsized unknown
    rw [listing, Detection.ofSource, unsized] at failed
    cases failed
    rfl
  · cases (listing_eq_error_iff unknown).mp failed with
    | unreadable failed =>
      rw [Source.unreadable_of_read failed]
      rfl
    | unknownScheme => rfl
    | arrayRejected _ _ _ rejected =>
      unfold GptHeader.checkShape at rejected
      split at rejected
      · cases rejected
        rfl
      split at rejected
      · cases rejected
        rfl
      · cases rejected
    | arrayUnreadable _ _ _ _ _ _ failed =>
      rw [Source.unreadable_of_read failed]
      rfl

/-- What keeps a run from a volume, or from all of them, is not the output's fault. -/
theorem blameless_of_route (failed : route config source category = .error failure) :
    failure.isOutput = false := by
  unfold route at failed
  rcases bind_eq_error_iff.mp failed with closed | ⟨here, -, failed⟩
  · unfold Source.opened at closed
    split at closed
    · cases closed
    · exact Source.blameless_of_reopen closed
  · cases category with
    | logical => cases failed
    | physical => exact blameless_of_listing (map_eq_error_iff.mp failed)

theorem blameless_of_blocked {planned : Stops}
    (known : route config source category = .ok planned) (blocked : planned.Blocked failure) :
    failure.isOutput = false := by
  obtain ⟨here, -, known⟩ := stops_of_route known
  have member : .error failure ∈ planned := by
    obtain ⟨visits, rest, rfl⟩ := blocked
    exact List.mem_append_right _ List.mem_cons_self
  cases category with
  | logical =>
    cases known
    exact Visit.blameless_of_ofLogical (List.mem_singleton.mp member).symm
  | physical =>
    obtain ⟨partitions, listed, rfl⟩ := map_eq_ok_iff.mp known
    obtain ⟨entry, -, failed⟩ := List.mem_map.mp member
    exact Visit.blameless_of_ofPartition failed

/-- A run fails with the output's fault only when the output refuses a call. -/
theorem refuses_of_recover {ω : Type} [Output ω] [LawfulOutput ω] {session : Session}
    {drive : Drive} {run after : Run ω} {reason : String}
    (stopped : recover config session drive run = (.error (.output reason), after)) :
    ∃ stops, route config run.source drive.category = .ok stops ∧
      Output.Refuses run.output stops.calls (.output reason) := by
  rcases (travels_recover config session drive run).stopped stopped with
    unplanned | ⟨stops, planned, blocked | refused⟩
  · cases blameless_of_route unplanned
  · cases blameless_of_blocked planned blocked
  · exact ⟨stops, planned, refused⟩

end Device

end Undelete
