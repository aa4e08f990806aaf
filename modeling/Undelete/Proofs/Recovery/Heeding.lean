import Undelete.Proofs.Recovery.Blame

/-!
A run heeds its output. The calls that it notes have all been accepted, or the last one has been
failed by the output and the run has ended with that failure; and only then is the failure of a
run the fault of its output.
-/

namespace Undelete

namespace Output

variable {ω α : Type} [Output ω]

/-- What an output makes of the calls of some work, and what comes of the work. -/
inductive Heard (output : ω) : List Event → Except Failure α → ω → Prop
  | accepted {calls : List Event} {told : List (Option String)} {result : Except Failure α}
      {last : ω} (accepts : Accepts output calls told last)
      (blameless : ∀ failure, result = .error failure → failure.isOutput = false) :
      Heard output calls result last
  | refused {accepted : List Event} {event : Event} {told : List (Option String)} {mid last : ω}
      {failure : Failure} (accepts : Accepts output accepted told mid)
      (fails : Fails mid event failure) : Heard output (accepted ++ [event]) (.error failure) last

theorem Heard.after {output mid last : ω} {calls later : List Event}
    {told : List (Option String)} {result : Except Failure α}
    (accepts : Accepts output calls told mid) (heard : Heard mid later result last) :
    Heard output (calls ++ later) result last := by
  cases heard with
  | accepted onward blameless => exact .accepted (accepts.trans onward) blameless
  | refused onward fails =>
    rw [← List.append_assoc]
    exact .refused (accepts.trans onward) fails

end Output

namespace Engine

open Output

variable {ω α β : Type} [Output ω] {run mid after : Run ω}

/-- Whether some work heeds the output. -/
structure Heeds (work : Engine ω α) (run : Run ω) : Prop where
  heard : ∀ {result after}, work run = (result, after) →
    ∃ calls, after.calls = run.calls ++ calls ∧ Heard run.output calls result after.output

namespace Heeds

/-- Work that leaves the output alone and does not blame it. -/
theorem aside {work : Engine ω α} {result : Except Failure α}
    (done : work run = (result, after)) (aside : run.Aside after)
    (blameless : ∀ failure, result = .error failure → failure.isOutput = false) :
    work.Heeds run where
  heard done' := by
    cases done.symm.trans done'
    have kept : Accepts run.output [] [] after.output := by
      rw [aside.output]
      exact .done _
    exact ⟨[], aside.calls.trans (List.append_nil _).symm, .accepted kept blameless⟩

theorem pure (value : α) (run : Run ω) : (pure value : Engine ω α).Heeds run :=
  Heeds.aside rfl (.refl run) fun _ failed => nomatch failed

theorem of_aside {work onward : Engine ω α} (aside : run.Aside mid) (same : work run = onward mid)
    (heeds : onward.Heeds mid) : work.Heeds run where
  heard done := by
    rw [← aside.calls, ← aside.output]
    exact heeds.heard (same.symm.trans done)

theorem bind {work : Engine ω α} {onward : α → Engine ω β} (heeds : work.Heeds run)
    (later : ∀ value mid, work run = (.ok value, mid) → (onward value).Heeds mid) :
    (work >>= onward).Heeds run := by
  refine ⟨fun {result after} done => ?_⟩
  cases first : work run with
  | mk outcome mid =>
    obtain ⟨calls, noted, heard⟩ := heeds.heard first
    cases outcome with
    | error failure =>
      rw [bind_error first] at done
      cases done
      refine ⟨calls, noted, ?_⟩
      cases heard with
      | accepted accepts blameless =>
        refine .accepted accepts fun reason same => ?_
        cases same
        exact blameless _ rfl
      | refused accepts fails => exact .refused accepts fails
    | ok value =>
      rw [bind_ok first] at done
      obtain ⟨others, noted', heard'⟩ := (later value mid first).heard done
      cases heard with
      | accepted accepts _ =>
        refine ⟨calls ++ others, ?_, .after accepts heard'⟩
        rw [noted', noted, List.append_assoc]

/-- Faults of the output are passed on, and others mended without it. -/
theorem tryCatch [LawfulOutput ω] {work : Engine ω α} {handler : Failure → Engine ω α}
    (heeds : work.Heeds run)
    (fault : ∀ failure mid, failure.isOutput = true → handler failure mid = (.error failure, mid))
    (mend : ∀ failure mid, failure.isOutput = false →
      ∃ value, handler failure mid = (.ok value, mid)) :
    (tryCatch work handler).Heeds run := by
  refine ⟨fun {result after} done => ?_⟩
  cases first : work run with
  | mk outcome mid =>
    obtain ⟨calls, noted, heard⟩ := heeds.heard first
    simp only [MonadExcept.tryCatch, tryCatchThe, MonadExceptOf.tryCatch, ExceptT.tryCatch,
      ExceptT.mk, StateT.bind, Bind.bind, first] at done
    cases outcome with
    | ok value =>
      cases done
      exact ⟨calls, noted, heard⟩
    | error failure =>
      have handled : handler failure mid = (result, after) := done
      cases blamed : failure.isOutput with
      | true =>
        rw [fault failure mid blamed] at handled
        cases handled
        exact ⟨calls, noted, heard⟩
      | false =>
        obtain ⟨value, mended⟩ := mend failure mid blamed
        rw [mended] at handled
        cases handled
        refine ⟨calls, noted, ?_⟩
        -- Only faults of the output come from a refusal, and those are not mended.
        cases heard with
        | accepted accepts _ => exact .accepted accepts fun _ failed => nomatch failed
        | refused accepts fails =>
          obtain ⟨reason, rfl⟩ := LawfulOutput.blames fails
          cases blamed

theorem mapM {work : α → Engine ω β} (each : ∀ item run, (work item).Heeds run) (items : List α)
    (run : Run ω) : (items.mapM work).Heeds run := by
  induction items generalizing run with
  | nil => exact .pure [] run
  | cons item rest ih =>
    rw [List.mapM_cons]
    exact (each item run).bind fun _ mid _ => (ih mid).bind fun _ last _ => .pure _ last

theorem announce (phase : Phase) (found count : Nat) (operation : String) (run : Run ω) :
    (announce phase found count operation).Heeds run := by
  obtain ⟨later, announced, quiet⟩ := announce_apply phase found count operation run
  exact .aside announced (.of_quiet quiet) fun _ failed => nomatch failed

theorem changeSource {f : Source → Source} (same : (f run.source).SameMedium run.source) :
    (Device.changeSource f : Engine ω Unit).Heeds run :=
  .aside rfl (.of_source same) fun _ failed => nomatch failed

theorem of_performs {work : Engine ω α} {calls : List Event}
    {Comes : List (Option String) → α → Prop} (performs : work.Performs run calls Comes) :
    work.Heeds run where
  heard finished := by
    cases performs with
    | done ok accepts called =>
      cases ok.symm.trans finished
      exact ⟨calls, called.calls, .accepted accepts fun _ failed => nomatch failed⟩
    | stopped stopped _ accepts fails called =>
      cases stopped.symm.trans finished
      exact ⟨_, called.calls, .refused accepts fails⟩

end Heeds

end Engine

namespace Pass

variable {ω : Type} [Output ω]

theorem heeds_run [Digests] (config : Config) (partition : Nat) (g : Geometry) (run : Run ω) :
    (Pass.run config partition g).Heeds run := by
  cases surveyed : survey config g run.source with
  | ok found => exact .of_performs (performs_run partition surveyed)
  | error failure =>
    obtain ⟨after, unsurveyed, quiet⟩ := run_unsurveyed partition surveyed
    refine .aside unsurveyed (.of_quiet quiet) fun reason same => ?_
    cases same
    obtain ⟨sector, rfl⟩ := unreadable_of_survey surveyed
    rfl

end Pass

namespace Device

variable {ω : Type} [Output ω]

theorem heeds_passOver [Digests] [LawfulOutput ω] (config : Config) (report : PartitionReport)
    (g : Geometry) (run : Run ω) : (passOver config report g).Heeds run := by
  refine Engine.Heeds.tryCatch ?_ (fun failure mid blamed => ?_) (fun failure mid blamed => ?_)
  · exact (Pass.heeds_run ..).bind fun _ last _ => .pure _ last
  · rw [if_pos blamed]
    rfl
  · rw [blamed, if_neg Bool.false_ne_true]
    exact ⟨_, rfl⟩

theorem heeds_geometryOrReason (run : Run ω) : (geometryOrReason : Engine ω _).Heeds run := by
  have looked := geometryOrReason_eq run
  cases recognized : run.source.geometry 0 with
  | ok g =>
    rw [recognized] at looked
    exact .aside looked (.refl run) fun _ failed => nomatch failed
  | error failure =>
    rw [recognized] at looked
    dsimp only at looked
    split at looked
    · exact .aside looked (.refl run) fun _ failed => nomatch failed
    · refine .aside looked (.refl run) fun reason same => ?_
      cases same
      exact Source.blameless_of_geometry recognized

theorem heeds_reopen (run : Run ω) : (reopen : Engine ω Unit).Heeds run := by
  have reopened := reopen_eq run
  cases again : run.source.reopen with
  | ok source =>
    rw [again] at reopened
    exact .aside reopened (.of_source (Source.sameMedium_of_reopen again))
      fun _ failed => nomatch failed
  | error failure =>
    rw [again] at reopened
    refine .aside reopened (.refl run) fun reason same => ?_
    cases same
    exact Source.blameless_of_reopen again

theorem heeds_ask {α : Type} {question : Source → Except Failure α} {run : Run ω}
    (blameless : ∀ failure, question run.source = .error failure → failure.isOutput = false) :
    (ask question).Heeds run :=
  .aside rfl (.refl run) blameless

theorem heeds_recoverPartition [Digests] [LawfulOutput ω] (config : Config) (index : Nat)
    (partition : Partition) (run : Run ω) :
    (recoverPartition config index partition).Heeds run := by
  unfold recoverPartition
  dsimp only
  split
  · exact .pure _ run
  · refine (Engine.Heeds.changeSource ⟨rfl, rfl⟩).bind fun _ moved _ => ?_
    refine (heeds_reopen moved).bind fun _ opened _ => ?_
    refine (heeds_geometryOrReason opened).bind fun found mid _ => ?_
    have closing (report : PartitionReport) (run : Run ω) :
        (do
          changeSource Source.close
          pure report : Engine ω PartitionReport).Heeds run :=
      (Engine.Heeds.changeSource ⟨rfl, rfl⟩).bind fun _ last _ => .pure _ last
    cases found with
    | error reason => exact (Engine.Heeds.pure _ mid).bind fun report last _ => closing report last
    | ok g => exact (heeds_passOver ..).bind fun report last _ => closing report last

theorem heeds_recoverLogical [Digests] [LawfulOutput ω] (config : Config) (run : Run ω) :
    (recoverLogical config).Heeds run := by
  have got : (get : Engine ω (Run ω)) run = (.ok run, run) := rfl
  refine .of_aside (.refl run) (Engine.bind_ok got) ?_
  refine (heeds_geometryOrReason run).bind fun found looked _ => ?_
  refine (Engine.Heeds.changeSource ⟨rfl, rfl⟩).bind fun _ closed _ => ?_
  cases found with
  | error reason => exact .pure _ closed
  | ok g =>
    exact (heeds_reopen closed).bind fun _ opened _ =>
      (heeds_passOver ..).bind fun _ last _ => .pure _ last

theorem heeds_recoverPhysical [Digests] [LawfulOutput ω] (config : Config) (run : Run ω) :
    (recoverPhysical config).Heeds run := by
  unfold recoverPhysical
  refine (Engine.Heeds.announce ..).bind fun _ told _ => ?_
  refine (heeds_ask fun failure failed => ?_).bind fun detection asked answered => ?_
  · have unlisted : listing told.source = .error failure := by
      rw [listing, failed]
      rfl
    exact blameless_of_listing unlisted
  have detected : Detection.ofSource told.source = .ok detection := (Prod.mk.inj answered).1
  have same : told = asked := (Prod.mk.inj answered).2
  refine (heeds_ask fun failure failed => ?_).bind fun partitions listed _ => ?_
  · have unlisted : listing told.source = .error failure := by
      rw [← same] at failed
      rw [listing, detected]
      change (detection.partitions told.source).map Prod.fst = _
      rw [failed]
      rfl
    exact blameless_of_listing unlisted
  refine (Engine.Heeds.changeSource ⟨rfl, rfl⟩).bind fun _ closed _ => ?_
  exact (Engine.Heeds.mapM (fun item run => heeds_recoverPartition config item.2 item.1 run)
    partitions.1.zipIdx closed).bind fun _ last _ => .pure _ last

/-- Work that opens the source first heeds the output as it does with an open source. -/
theorem heeds_opened {α : Type} {work : Engine ω α} (heeds : ∀ run, work.Heeds run)
    (run : Run ω) :
    (if (!run.source.isOpen) = true then reopen >>= fun _ => work else work).Heeds run := by
  split
  · exact (heeds_reopen run).bind fun _ opened _ => heeds opened
  · exact heeds run

/-- A run heeds its output. -/
theorem heeds_recover [Digests] [LawfulOutput ω] (config : Config) (session : Session)
    (drive : Drive) (run : Run ω) : (recover config session drive).Heeds run := by
  unfold recover
  refine (Engine.Heeds.announce ..).bind fun _ told _ => ?_
  have got : (get : Engine ω (Run ω)) told = (.ok told, told) := rfl
  refine .of_aside (.refl told) (Engine.bind_ok got) ?_
  have ended (report : Report) (run : Run ω) :
      (do
        Engine.announce .complete report.totals.candidates report.totals.candidates
          "Recovery complete"
        pure report : Engine ω Report).Heeds run :=
    (Engine.Heeds.announce ..).bind fun _ last _ => .pure _ last
  cases drive.category with
  | logical =>
    exact heeds_opened (fun run => (heeds_recoverLogical config run).bind
      fun _ last _ => ended _ last) told
  | physical =>
    exact heeds_opened (fun run => (heeds_recoverPhysical config run).bind
      fun _ last _ => ended _ last) told

end Device

end Undelete
