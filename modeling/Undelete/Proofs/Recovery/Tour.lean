import Undelete.Proofs.Recovery.Visit

/-!
A run over a drive is a tour over its volumes. It makes the visits that are planned, one after the
other, with the calls that hand over their files; and it ends early only at a volume that cannot be
visited or when the output refuses a file.
-/

namespace Undelete

/-- Nothing but the journal and the place of the source changed, and no call was noted. -/
structure Run.Aside {ω : Type} (before after : Run ω) : Prop where
  medium : after.source.SameMedium before.source
  output : after.output = before.output
  calls : after.calls = before.calls

namespace Run.Aside

variable {ω : Type} {first second third : Run ω}

theorem refl (run : Run ω) : Aside run run := ⟨.refl _, rfl, rfl⟩

theorem of_quiet (quiet : first.Quiet second) : Aside first second :=
  ⟨quiet.source ▸ .refl _, quiet.output, quiet.calls⟩

theorem of_source {run : Run ω} {source : Source} (same : source.SameMedium run.source) :
    Aside run { run with source } :=
  ⟨same, rfl, rfl⟩

end Run.Aside

namespace Engine

variable {ω α : Type} {run after : Run ω} {failure : Failure} {value : α}

/-- Work that goes well in the end went well at once or was caught and mended. -/
theorem ok_of_tryCatch {work : Engine ω α} {handler : Failure → Engine ω α}
    (ok : tryCatch work handler run = (.ok value, after)) :
    work run = (.ok value, after) ∨
      ∃ failure mid, work run = (.error failure, mid) ∧ handler failure mid = (.ok value, after) := by
  simp only [tryCatch, tryCatchThe, MonadExceptOf.tryCatch, ExceptT.tryCatch, ExceptT.mk, bind,
    StateT.bind] at ok
  cases done : work run with
  | mk outcome later =>
    rw [done] at ok
    cases outcome with
    | ok _ => exact .inl ok
    | error failure => exact .inr ⟨failure, later, rfl, ok⟩

theorem stopped_of_tryCatch {work : Engine ω α} {handler : Failure → Engine ω α}
    (stopped : tryCatch work handler run = (.error failure, after)) :
    ∃ reason mid, work run = (.error reason, mid) ∧
      handler reason mid = (.error failure, after) := by
  simp only [tryCatch, tryCatchThe, MonadExceptOf.tryCatch, ExceptT.tryCatch, ExceptT.mk, bind,
    StateT.bind] at stopped
  cases done : work run with
  | mk outcome later =>
    rw [done] at stopped
    cases outcome with
    | ok _ => cases stopped
    | error reason => exact ⟨reason, later, rfl, stopped⟩

variable [Output ω]

open Output

/-- Whether some work makes a visit: it hands the files to the output, and the places told decide
the report. -/
structure Makes (work : Engine ω PartitionReport) (run : Run ω) (stop : Except Failure Visit) :
    Prop where
  ok : ∀ {report after}, work run = (.ok report, after) →
    ∃ visit told, stop = .ok visit ∧ report = visit.report told ∧
      Accepts run.output visit.calls told after.output ∧
      after.calls = run.calls ++ visit.calls ∧ after.source.SameMedium run.source
  stopped : ∀ {failure after}, work run = (.error failure, after) →
    stop = .error failure ∨ ∃ visit, stop = .ok visit ∧ Refuses run.output visit.calls failure

theorem Makes.of_skipped {work : Engine ω PartitionReport} {listed : PartitionReport}
    {reason : String} (aside : run.Aside after)
    (done : work run = (.ok { listed with outcome := .skipped reason }, after)) :
    work.Makes run (.ok (.skipped listed reason)) where
  ok ok := by
    cases done.symm.trans ok
    refine ⟨_, [], rfl, rfl, ?_, ?_, aside.medium⟩
    · rw [aside.output]
      exact .done _
    · rw [aside.calls]
      exact (List.append_nil _).symm
  stopped stopped := by cases done.symm.trans stopped

theorem Makes.of_error {work : Engine ω PartitionReport}
    (done : work run = (.error failure, after)) : work.Makes run (.error failure) where
  ok ok := by cases done.symm.trans ok
  stopped stopped := by
    cases done.symm.trans stopped
    exact .inl rfl

/-- Work that leads aside and makes the visit from there makes it. -/
theorem Makes.of_aside {work onward : Engine ω PartitionReport} {stop : Except Failure Visit}
    {mid : Run ω} (aside : run.Aside mid) (same : work run = onward mid)
    (makes : onward.Makes mid stop) : work.Makes run stop where
  ok ok := by
    obtain ⟨visit, told, planned, report, accepts, calls, medium⟩ := makes.ok (same.symm.trans ok)
    exact ⟨visit, told, planned, report, aside.output ▸ accepts, aside.calls ▸ calls,
      medium.trans aside.medium⟩
  stopped stopped := by
    rw [← aside.output]
    exact makes.stopped (same.symm.trans stopped)

/-- What is done to the source after the visit does not matter. -/
theorem Makes.bind {work : Engine ω PartitionReport}
    {onward : PartitionReport → Engine ω PartitionReport} {stop : Except Failure Visit}
    (makes : work.Makes run stop)
    (last : ∀ report mid, ∃ after, onward report mid = (.ok report, after) ∧ mid.Aside after) :
    (work >>= onward).Makes run stop where
  ok ok := by
    obtain ⟨report, mid, visited, finish⟩ := ok_of_bind ok
    obtain ⟨after', finish', aside⟩ := last report mid
    cases finish'.symm.trans finish
    obtain ⟨visit, told, planned, same, accepts, calls, medium⟩ := makes.ok visited
    refine ⟨visit, told, planned, same, ?_, ?_, aside.medium.trans medium⟩
    · rwa [aside.output]
    · rw [aside.calls, calls]
  stopped stopped := by
    rcases stopped_of_bind stopped with stopped | ⟨report, mid, -, finish⟩
    · exact makes.stopped stopped
    · obtain ⟨after', finish', -⟩ := last report mid
      cases finish'.symm.trans finish

/-- Whether some work leads over the stops that are planned, or ends early. -/
structure Travels (work : Engine ω α) (reports : α → List PartitionReport) (run : Run ω)
    (planned : Except Failure Stops) : Prop where
  ok : ∀ {result after}, work run = (.ok result, after) →
    ∃ stops, planned = .ok stops ∧ Tour run.output stops (reports result) after.output ∧
      after.calls = run.calls ++ stops.calls
  stopped : ∀ {failure after}, work run = (.error failure, after) →
    planned = .error failure ∨ ∃ stops, planned = .ok stops ∧ stops.Ends run.output failure

section

variable {work : Engine ω α} {reports : α → List PartitionReport}

theorem Travels.of_aside {onward : Engine ω α} {planned : Except Failure Stops} {mid : Run ω}
    (aside : run.Aside mid) (same : work run = onward mid)
    (travels : onward.Travels reports mid planned) : work.Travels reports run planned where
  ok ok := by
    rw [← aside.output, ← aside.calls]
    exact travels.ok (same.symm.trans ok)
  stopped stopped := by
    rw [← aside.output]
    exact travels.stopped (same.symm.trans stopped)

theorem Travels.of_error (done : work run = (.error failure, after)) :
    work.Travels reports run (.error failure) where
  ok ok := by cases done.symm.trans ok
  stopped stopped := by
    cases done.symm.trans stopped
    exact .inl rfl

theorem Travels.of_unvisited (done : work run = (.error failure, after)) :
    work.Travels reports run (.ok [.error failure]) where
  ok ok := by cases done.symm.trans ok
  stopped stopped := by
    cases done.symm.trans stopped
    exact .inr ⟨_, rfl, .inl ⟨[], [], rfl⟩⟩

/-- What comes after a tour may rephrase the reports. -/
theorem Travels.bind {β : Type} {onward : α → Engine ω β} {others : β → List PartitionReport}
    {planned : Except Failure Stops} (travels : work.Travels reports run planned)
    (last : ∀ result mid, ∃ value after, onward result mid = (.ok value, after) ∧
      others value = reports result ∧ mid.Aside after) :
    (work >>= onward).Travels others run planned where
  ok ok := by
    obtain ⟨result, mid, toured, finish⟩ := ok_of_bind ok
    obtain ⟨value, after', finish', same, aside⟩ := last result mid
    cases finish'.symm.trans finish
    rw [same, aside.output, aside.calls]
    exact travels.ok toured
  stopped stopped := by
    rcases stopped_of_bind stopped with stopped | ⟨result, mid, -, finish⟩
    · exact travels.stopped stopped
    · obtain ⟨value, after', finish', -⟩ := last result mid
      cases finish'.symm.trans finish

end

/-- A single visit is a tour. -/
theorem Makes.travels {work : Engine ω PartitionReport} {stop : Except Failure Visit}
    (makes : work.Makes run stop) :
    (work >>= fun report => pure [report]).Travels id run (.ok [stop]) where
  ok ok := by
    obtain ⟨report, mid, visited, finish⟩ := ok_of_bind ok
    cases finish
    obtain ⟨visit, told, rfl, rfl, accepts, calls, -⟩ := makes.ok visited
    refine ⟨_, rfl, .visit accepts (.done _), ?_⟩
    rw [calls, Stops.calls_cons_ok]
    exact congrArg _ (List.append_nil _).symm
  stopped stopped := by
    rcases stopped_of_bind stopped with stopped | ⟨report, mid, -, finish⟩
    · rcases makes.stopped stopped with rfl | ⟨visit, rfl, refused⟩
      · exact .inr ⟨_, rfl, .inl ⟨[], [], rfl⟩⟩
      · exact .inr ⟨_, rfl, .inr (by rw [Stops.calls_cons_ok]; exact refused.append _)⟩
    · cases finish

/-- Making visits one after the other is a tour. -/
theorem travels_mapM {work : α → Engine ω PartitionReport}
    {stop : Source → α → Except Failure Visit}
    (makes : ∀ item run, (work item).Makes run (stop run.source item))
    (same : ∀ item {source other : Source}, source.SameMedium other →
      stop source item = stop other item) (items : List α) (run : Run ω) :
    (items.mapM work).Travels id run (.ok (items.map (stop run.source))) := by
  induction items generalizing run with
  | nil =>
    refine ⟨fun ok => ?_, fun stopped => ?_⟩
    · cases ok
      exact ⟨_, rfl, .done _, (List.append_nil _).symm⟩
    · cases stopped
  | cons item rest ih =>
    -- The visits leave the medium as it is, and so do not change what is still to be visited.
    have later {mid : Run ω} (medium : mid.source.SameMedium run.source) :
        (rest.mapM work).Travels id mid (.ok (rest.map (stop run.source))) := by
      rw [← List.map_congr_left fun item _ => same item medium]
      exact ih mid
    rw [List.mapM_cons, List.map_cons]
    refine ⟨fun ok => ⟨_, rfl, ?_⟩, fun stopped => .inr ⟨_, rfl, ?_⟩⟩
    · obtain ⟨first, mid, visited, onward⟩ := ok_of_bind ok
      obtain ⟨others, last, toured, finish⟩ := ok_of_bind onward
      cases finish
      obtain ⟨visit, told, planned, rfl, accepts, calls, medium⟩ := (makes item run).ok visited
      obtain ⟨stops, ahead, tour, calls'⟩ := (later medium).ok toured
      cases ahead
      rw [planned]
      refine ⟨.visit accepts tour, ?_⟩
      rw [calls', calls, Stops.calls_cons_ok, List.append_assoc]
    · rcases stopped_of_bind stopped with stopped | ⟨first, mid, visited, onward⟩
      · rcases (makes item run).stopped stopped with unvisited | ⟨visit, planned, refused⟩
        · rw [unvisited]
          exact .inl ⟨[], _, rfl⟩
        · rw [planned]
          exact .inr (by rw [Stops.calls_cons_ok]; exact refused.append _)
      obtain ⟨visit, told, planned, -, accepts, -, medium⟩ := (makes item run).ok visited
      rw [planned]
      rcases stopped_of_bind onward with stopped | ⟨others, last, -, finish⟩
      · rcases (later medium).stopped stopped with unplanned | ⟨stops, ahead, ends⟩
        · cases unplanned
        cases ahead
        rcases ends with ⟨visits, unvisited, split⟩ | refused
        · exact .inl ⟨visit :: visits, unvisited, congrArg (_ :: ·) split⟩
        · exact .inr (by rw [Stops.calls_cons_ok]; exact accepts.refuses refused)
      · cases finish

end Engine

namespace Device

section

variable {ω : Type} {run : Run ω}

theorem geometryOrReason_eq (run : Run ω) :
    geometryOrReason run =
      match run.source.geometry 0 with
      | .ok g => (.ok (.ok g), run)
      | .error failure =>
        if failure.isPartitionLocal then (.ok (.error failure.message), run)
        else (.error failure, run) := by
  have got : (get : Engine ω (Run ω)) run = (.ok run, run) := rfl
  rw [geometryOrReason, Engine.bind_ok got]
  cases run.source.geometry 0 with
  | ok g => rfl
  | error failure =>
    dsimp only
    cases failure.isPartitionLocal <;> rfl

theorem reopen_eq (run : Run ω) :
    reopen run =
      match run.source.reopen with
      | .ok source => (.ok (), { run with source })
      | .error failure => (.error failure, run) := by
  change (Engine.require run.source.reopen >>= fun source => changeSource fun _ => source :
    Engine ω Unit) run = _
  cases run.source.reopen <;> rfl

end

variable {ω : Type} [Output ω] {config : Config}

open Output

/-- A pass visits the volume that the source is at. -/
theorem makes_passOver [Digests] [LawfulOutput ω] (config : Config) (listed : PartitionReport)
    (g : Geometry) (run : Run ω) :
    (passOver config listed g).Makes run (.ok (.passing config g listed run.source)) where
  ok {report after} ok := by
    rcases Engine.ok_of_tryCatch ok with passed | ⟨failure, mid, stopped, mended⟩
    · obtain ⟨result, last, passed, finish⟩ := Engine.ok_of_bind passed
      cases finish
      obtain ⟨found, surveyed, -⟩ := Pass.run_delivers passed
      obtain ⟨told, accepts⟩ := Pass.accepts_of_run passed
      obtain ⟨last, passed', -⟩ := Pass.run_accepted surveyed accepts
      cases passed'.symm.trans passed
      have called := Pass.called_of_run passed
      rw [← Visit.calls_passing] at accepts called
      refine ⟨_, told, rfl, ?_, accepts, called.calls, called.source ▸ .refl _⟩
      simp only [Visit.passing, surveyed]
    -- A failure that is caught is not the output's, and the pass that it stopped stored nothing.
    · have stopped : Pass.run config listed.index g run = (.error failure, mid) := by
        rcases Engine.stopped_of_bind stopped with stopped | ⟨result, last, -, finish⟩
        · exact stopped
        · cases finish
      cases blamed : failure.isOutput with
      | true =>
        rw [if_pos blamed] at mended
        cases mended
      | false =>
        rw [blamed, if_neg Bool.false_ne_true] at mended
        cases mended
        obtain ⟨unsurveyed, quiet⟩ := Pass.quiet_of_stopped stopped
          (by rintro reason rfl; cases blamed)
        have aside := Run.Aside.of_quiet quiet
        have nothing : (Visit.passing config g listed run.source).calls = [] := by
          rw [Visit.calls_passing, Pass.outputCalls, unsurveyed]
        refine ⟨_, [], rfl, ?_, ?_, ?_, aside.medium⟩
        · simp only [Visit.passing, unsurveyed]
        · rw [nothing, aside.output]
          exact .done _
        · rw [nothing, aside.calls, List.append_nil]
  stopped {failure after} stopped := by
    refine .inr ⟨_, rfl, ?_⟩
    obtain ⟨reason, mid, stopped, handled⟩ := Engine.stopped_of_tryCatch stopped
    have stopped : Pass.run config listed.index g run = (.error reason, mid) := by
      rcases Engine.stopped_of_bind stopped with stopped | ⟨result, last, -, finish⟩
      · exact stopped
      · cases finish
    cases blamed : reason.isOutput with
    | false =>
      rw [blamed, if_neg Bool.false_ne_true] at handled
      cases handled
    | true =>
      rw [if_pos blamed] at handled
      cases handled
      rw [Visit.calls_passing]
      rcases Pass.stopped_of_run stopped with ⟨unsurveyed, -⟩ | refused
      · obtain ⟨sector, rfl⟩ := Pass.unreadable_of_survey unsurveyed
        cases blamed
      · exact refused

theorem makes_recoverPartition [Digests] [LawfulOutput ω] (config : Config) (index : Nat)
    (partition : Partition) (run : Run ω) :
    (recoverPartition config index partition).Makes run
      (Visit.ofPartition config run.source index partition) := by
  unfold recoverPartition Visit.ofPartition
  dsimp only
  split
  next => exact .of_skipped (.refl run) rfl
  next =>
    have moved : (changeSource (·.setStart partition.startLba) : Engine ω Unit) run =
        (.ok (), { run with source := run.source.setStart partition.startLba }) := rfl
    have reopened := reopen_eq { run with source := run.source.setStart partition.startLba }
    rw [Source.volumeAt]
    dsimp only at reopened
    cases again : (run.source.setStart partition.startLba).reopen with
    | error failure =>
      rw [again] at reopened
      exact .of_error ((Engine.bind_ok moved).trans (Engine.bind_error reopened))
    | ok volume =>
      rw [again] at reopened
      have aside : run.Aside { run with source := volume } :=
        .of_source ((Source.sameMedium_of_reopen again).trans ⟨rfl, rfl⟩)
      have looked := geometryOrReason_eq { run with source := volume }
      refine .of_aside aside ((Engine.bind_ok moved).trans (Engine.bind_ok reopened)) ?_
      change Engine.Makes _ _ (Visit.ofVolume config _ volume)
      rw [Visit.ofVolume]
      dsimp only at looked
      cases recognized : volume.geometry 0 with
      | ok g =>
        rw [recognized] at looked
        refine .of_aside (.refl _) (Engine.bind_ok looked) ?_
        refine (makes_passOver config _ g _).bind fun report mid => ⟨_, rfl, ?_⟩
        exact .of_source (.refl mid.source)
      | error failure =>
        rw [recognized] at looked
        dsimp only at looked ⊢
        split
        next locally =>
          rw [if_pos locally] at looked
          have closed : Run.Aside { run with source := volume }
            { run with source := volume.close } := .of_source (.refl volume)
          exact .of_skipped closed (Engine.bind_ok looked)
        next elsewhere =>
          rw [if_neg elsewhere] at looked
          exact .of_error (Engine.bind_error looked)

theorem travels_recoverLogical [Digests] [LawfulOutput ω] (config : Config) (run : Run ω) :
    (recoverLogical config).Travels id run (.ok [Visit.ofLogical config run.source]) := by
  have got : (get : Engine ω (Run ω)) run = (.ok run, run) := rfl
  have closed : (changeSource Source.close : Engine ω Unit) run =
      (.ok (), { run with source := run.source.close }) := rfl
  have aside : run.Aside { run with source := run.source.close } := .of_source ⟨rfl, rfl⟩
  have looked := geometryOrReason_eq run
  unfold recoverLogical
  refine .of_aside (.refl _) (Engine.bind_ok got) ?_
  rw [Visit.ofLogical]
  cases recognized : run.source.geometry 0 with
  | ok g =>
    rw [recognized] at looked
    refine .of_aside (.refl _) (Engine.bind_ok looked) ?_
    refine .of_aside aside (Engine.bind_ok closed) ?_
    have reopened := reopen_eq { run with source := run.source.close }
    dsimp only at reopened ⊢
    rw [Source.reopen_close] at reopened
    cases again : run.source.reopen with
    | error failure =>
      rw [again] at reopened
      exact .of_unvisited (Engine.bind_error reopened)
    | ok volume =>
      rw [again] at reopened
      have back : Run.Aside { run with source := run.source.close }
          { run with source := volume } :=
        .of_source ((Source.sameMedium_of_reopen again).trans ⟨rfl, rfl⟩)
      refine .of_aside back (Engine.bind_ok reopened) ?_
      exact (makes_passOver config _ g _).travels
  | error failure =>
    rw [recognized] at looked
    dsimp only at looked ⊢
    split
    next locally =>
      rw [if_pos locally] at looked
      refine .of_aside (.refl _) (Engine.bind_ok looked) ?_
      refine .of_aside aside (Engine.bind_ok closed) ?_
      exact (Engine.Makes.of_skipped (.refl _) rfl).travels
    next elsewhere =>
      rw [if_neg elsewhere] at looked
      exact .of_unvisited (Engine.bind_error looked)

theorem travels_recoverPhysical [Digests] [LawfulOutput ω] (config : Config) (run : Run ω) :
    (recoverPhysical config).Travels Prod.snd run (stops config run.source .physical) := by
  obtain ⟨told, announced, quiet⟩ := Engine.announce_apply .partitionDiscovery 0 0
    "Reading partition table" run
  unfold recoverPhysical
  refine .of_aside (.of_quiet quiet) (Engine.bind_ok announced) ?_
  rw [← quiet.source, stops, listing]
  have asked {α : Type} (question : Source → Except Failure α) :
    (ask question : Engine ω α) told = (question told.source, told) := rfl
  cases detected : Detection.ofSource told.source with
  | error failure =>
    exact .of_error (Engine.bind_error ((asked _).trans (congrArg (·, told) detected)))
  | ok detection =>
    refine .of_aside (.refl _)
      (Engine.bind_ok ((asked _).trans (congrArg (·, told) detected))) ?_
    change Engine.Travels _ _ _ (((detection.partitions told.source).map Prod.fst).map _)
    cases listed : detection.partitions told.source with
    | error failure =>
      exact .of_error (Engine.bind_error ((asked _).trans (congrArg (·, told) listed)))
    | ok pair =>
      obtain ⟨partitions, warnings⟩ := pair
      refine .of_aside (.refl _)
        (Engine.bind_ok ((asked _).trans (congrArg (·, told) listed))) ?_
      have closed : (changeSource Source.close : Engine ω Unit) told =
          (.ok (), { told with source := told.source.close }) := rfl
      have aside : told.Aside { told with source := told.source.close } := .of_source ⟨rfl, rfl⟩
      refine .of_aside aside (Engine.bind_ok closed) ?_
      have tour := Engine.travels_mapM
        (fun item run => makes_recoverPartition config item.2 item.1 run)
        (fun item _ _ same => Visit.ofPartition_congr same config item.2 item.1) partitions.zipIdx
        { told with source := told.source.close }
      exact tour.bind fun reports mid => ⟨(detection.scheme, reports), mid, rfl, rfl, .refl mid⟩

/-- A tour from the opened source on is a tour that opens the source first. -/
theorem travels_opened {α : Type} {work : Engine ω α} {reports : α → List PartitionReport}
    {onward : Source → Except Failure Stops}
    (travels : ∀ run, work.Travels reports run (onward run.source)) (run : Run ω) :
    (if (!run.source.isOpen) = true then reopen >>= fun _ => work else work).Travels reports run
      (run.source.opened >>= onward) := by
  have reopened := reopen_eq run
  rw [Source.opened]
  cases whole : run.source.isOpen with
  | true => exact travels run
  | false =>
    change (reopen >>= fun _ => work).Travels reports run (run.source.reopen >>= onward)
    cases again : run.source.reopen with
    | error failure =>
      rw [again] at reopened
      exact .of_error (Engine.bind_error reopened)
    | ok here =>
      rw [again] at reopened
      have aside : run.Aside { run with source := here } :=
        .of_source (Source.sameMedium_of_reopen again)
      exact .of_aside aside (Engine.bind_ok reopened) (travels _)

/-- A run is a tour over the stops of its route. -/
theorem travels_recover [Digests] [LawfulOutput ω] (config : Config) (session : Session)
    (drive : Drive) (run : Run ω) :
    (recover config session drive).Travels Report.partitions run
      (route config run.source drive.category) := by
  obtain ⟨told, announced, quiet⟩ := Engine.announce_apply .initialization 0 0
    ("Opening " ++ drive.path) run
  have got : (get : Engine ω (Run ω)) told = (.ok told, told) := rfl
  have ended (report : Report) (mid : Run ω) : ∃ value after,
      (do
        Engine.announce .complete report.totals.candidates report.totals.candidates
          "Recovery complete"
        pure report : Engine ω Report) mid = (.ok value, after) ∧
        value.partitions = report.partitions ∧ mid.Aside after := by
    obtain ⟨after, announced, quiet⟩ := Engine.announce_apply .complete report.totals.candidates
      report.totals.candidates "Recovery complete" mid
    exact ⟨report, after, Engine.bind_ok announced, rfl, .of_quiet quiet⟩
  unfold recover
  refine .of_aside (.of_quiet quiet) (Engine.bind_ok announced) ?_
  refine .of_aside (.refl _) (Engine.bind_ok got) ?_
  rw [← quiet.source, route]
  cases drive.category with
  | logical =>
    refine travels_opened (fun run => ?_) told
    exact (travels_recoverLogical config run).bind fun reports => ended _
  | physical =>
    refine travels_opened (fun run => ?_) told
    exact (travels_recoverPhysical config run).bind fun reports => ended _

/-- A run comes to its end when every volume can be visited and the output accepts the files. -/
theorem recover_accepted [Digests] [LawfulOutput ω] {session : Session} {drive : Drive}
    {run : Run ω} {stops : Stops} {told : List (Option String)} {last : ω}
    (planned : route config run.source drive.category = .ok stops)
    (clear : ∀ failure, ¬ stops.Blocked failure)
    (accepts : Accepts run.output stops.calls told last) :
    ∃ report after, recover config session drive run = (.ok report, after) ∧
      Tour run.output stops report.partitions after.output := by
  have travels := travels_recover config session drive run
  cases done : recover config session drive run with
  | mk result after =>
    cases result with
    | ok report =>
      obtain ⟨stops', planned', tour, -⟩ := travels.ok done
      cases planned.symm.trans planned'
      exact ⟨report, after, rfl, tour⟩
    | error failure =>
      exfalso
      rcases travels.stopped done with unplanned | ⟨stops', planned', ends⟩
      · cases planned.symm.trans unplanned
      · cases planned.symm.trans planned'
        rcases ends with blocked | refused
        · exact clear failure blocked
        · exact accepts.not_refuses refused

end Device

end Undelete
