import Undelete.Proofs.Recovery.Performing
import Undelete.Proofs.Recovery.Survey
import Undelete.Proofs.Recovery.Verdicts

/-!
What a pass does to its output. All calls on the output come from the candidates, one after the
other. A candidate's clusters are read and handed over one by one, and the file is started before
the first of its pieces. That comes to the calls that store the pieces gathered for it, because
bytes have been recovered exactly if the file has been started.
-/

namespace Undelete

namespace Pass

/-- The calls by which a haul has come about. -/
def callsOf (partition : Nat) (entry : Entry) (haul : Haul) : List Event :=
  (if haul.begun then [.start partition entry] else []) ++ haul.pieces.reverse.map Event.append

/-- The call that starts a file which has not been started. -/
def openingOf (partition : Nat) (entry : Entry) (haul : Haul) : List Event :=
  if haul.begun then [] else [.start partition entry]

section

variable {analyzeOnly : Bool} {haul : Haul}

theorem Begins.pieces_eq_nil (begins : Begins analyzeOnly haul) (idle : haul.begun = false) :
    haul.pieces = [] := by
  by_contra given
  cases idle.symm.trans (begins.pieces_iff.mpr given)

theorem Begins.callsOf_eq_nil (begins : Begins analyzeOnly haul) (idle : haul.begun = false)
    (partition : Nat) (entry : Entry) : callsOf partition entry haul = [] := by
  rw [callsOf, idle, begins.pieces_eq_nil idle]
  rfl

/-- Wherever a file is started, that comes before its pieces. -/
theorem Begins.callsOf_append (begins : Begins analyzeOnly haul) (partition : Nat)
    (entry : Entry) :
    callsOf partition entry haul ++ openingOf partition entry haul =
      .start partition entry :: haul.pieces.reverse.map Event.append := by
  cases begun : haul.begun with
  | true => simp [callsOf, openingOf, begun]
  | false => simp [callsOf, openingOf, begun, begins.pieces_eq_nil begun]

end

/-- A cluster is read without touching the output. -/
theorem probe_readCluster {ω : Type} {g : Geometry} {cluster : Nat}
    {contents : Except Failure Bytes} (run : Run ω)
    (answered : contentsOf run.source g cluster = contents) :
    ∃ table mid, Engine.probe (FatTable.empty g) (readCluster g cluster) run =
      (.ok (contents, table), mid) ∧ run.Quiet mid := by
  obtain ⟨table, mid, probed, quiet, -, -⟩ := Engine.probe_apply g (readCluster g cluster)
    (FatTable.faithful_empty run.source g) rfl
  rw [← contentsOf, answered] at probed
  exact ⟨table, mid, probed, quiet⟩

section

variable {ω : Type} [Output ω] {config : Config} {g : Geometry} {partition : Nat} {entry : Entry}
  {haul : Haul}

theorem performs_ensureStarted (partition : Nat) (entry : Entry) (haul : Haul) (run : Run ω) :
    (ensureStarted partition entry haul).Performs run (openingOf partition entry haul)
      fun told _ => told = [] := by
  unfold ensureStarted openingOf
  split
  · exact .pure rfl
  · exact .startFile partition entry run

/-- A share of a cluster is handed over at once, if there is one. -/
theorem performs_takePortion (ω : Type) [Output ω] (source : Source) (config : Config)
    (g : Geometry) (partition : Nat) (entry : Entry) (begins : Begins config.analyzeOnly haul)
    (portion : Nat × Nat) :
    ∃ calls,
      callsOf partition entry (gatherOne source g config.analyzeOnly haul portion) =
        callsOf partition entry haul ++ calls ∧
      ∀ {run : Run ω}, run.source = source →
        (takePortion config g partition entry haul portion).Performs run calls fun told later =>
          told = [] ∧ later = gatherOne source g config.analyzeOnly haul portion := by
  obtain ⟨cluster, share⟩ := portion
  unfold takePortion gatherOne
  dsimp only
  split
  · exact ⟨[], (List.append_nil _).symm, fun _ => .pure ⟨rfl, rfl⟩⟩
  split
  · exact ⟨[], (List.append_nil _).symm, fun _ => .pure ⟨rfl, rfl⟩⟩
  cases answered : contentsOf source g cluster with
  | error failure =>
    refine ⟨[], (List.append_nil _).symm, ?_⟩
    rintro run rfl
    obtain ⟨table, mid, probed, quiet⟩ := probe_readCluster run answered
    exact .of_quiet quiet (Engine.bind_ok probed) (.pure ⟨rfl, rfl⟩)
  | ok data =>
    refine ⟨openingOf partition entry haul ++ [.append (data.take share)], ?_, ?_⟩
    · rw [← List.append_assoc, begins.callsOf_append]
      simp [callsOf]
    rintro run rfl
    obtain ⟨table, mid, probed, quiet⟩ := probe_readCluster run answered
    refine .of_quiet quiet (Engine.bind_ok probed) ?_
    refine (performs_ensureStarted partition entry haul mid).bind _ ?_
    rintro _ _ opened rfl -
    refine (Engine.Performs.appendData (data.take share) opened).bind [] ?_
    rintro _ _ filled rfl -
    exact .pure ⟨rfl, rfl⟩

theorem performs_portions (ω : Type) [Output ω] (source : Source) (config : Config) (g : Geometry)
    (partition : Nat) (entry : Entry) {shares : List (Nat × Nat)}
    (filled : ∀ portion ∈ shares, 0 < portion.2)
    (begins : Begins config.analyzeOnly haul) :
    ∃ calls,
      callsOf partition entry (shares.foldl (gatherOne source g config.analyzeOnly) haul) =
        callsOf partition entry haul ++ calls ∧
      ∀ {run : Run ω}, run.source = source →
        (shares.foldlM (takePortion config g partition entry) haul).Performs run calls
          fun told later =>
            told = [] ∧ later = shares.foldl (gatherOne source g config.analyzeOnly) haul := by
  induction shares generalizing haul with
  | nil => exact ⟨[], (List.append_nil _).symm, fun _ => .pure ⟨rfl, rfl⟩⟩
  | cons portion rest ih =>
    obtain ⟨calls, grown, first⟩ :=
      performs_takePortion ω source config g partition entry begins portion
    obtain ⟨more, grown', onward⟩ := ih
      (fun later member => filled later (List.mem_cons_of_mem _ member))
      (begins.gatherOne (filled portion List.mem_cons_self))
    refine ⟨calls ++ more, ?_, ?_⟩
    · rw [List.foldl_cons, grown', grown, List.append_assoc]
    · intro run same
      rw [List.foldlM_cons]
      refine (first same).bind _ ?_
      rintro _ _ mid ⟨rfl, rfl⟩ kept
      exact onward (kept.trans same)

/-- The file of a candidate has been started by none of its clusters if nothing of it is stored. -/
theorem begun_of_skipped {source : Source} {plan : Plan}
    (skipped : isSkipped source config g plan = true) :
    (haulOf source config g plan).begun = false := by
  have begins := begins_haulOf source config g plan
  cases writing : config.analyzeOnly with
  | true => exact begins.analyzing writing
  | false =>
    rw [← skipped_eq, writing, Bool.false_or, Bool.not_eq_true'] at skipped
    by_contra begun
    have filled := (begins.bytes_iff writing).mp (eq_true_of_ne_false begun)
    exact Bool.false_ne_true (skipped.symm.trans (hasContent_iff.mpr (.inl filled)))

theorem performs_gathering (config : Config) (g : Geometry) (partition : Nat) (plan : Plan)
    (run : Run ω) :
    ((portions g plan.entry.size plan.chain.clusters 0).foldlM
        (takePortion config g partition plan.entry) (Haul.nothing plan.status)).Performs run
      (callsOf partition plan.entry (haulOf run.source config g plan))
      fun told haul => told = [] ∧ haul = haulOf run.source config g plan := by
  have begins := begins_nothing config.analyzeOnly plan.status
  obtain ⟨calls, grown, gathered⟩ := performs_portions ω run.source config g partition plan.entry
    (fun portion member => (mem_of_mem_portions member).2.1) begins
  rw [begins.callsOf_eq_nil rfl, List.nil_append, ← haulOf] at grown
  rw [grown]
  exact gathered rfl

/-- A candidate is recovered by the calls that store it, and comes to its status. -/
theorem performs_recover [Digests] (config : Config) (g : Geometry) (partition : Nat) (plan : Plan)
    (run : Run ω) :
    (recover config g partition plan).Performs run (fileCalls run.source config g partition plan)
      fun told status => ∃ place,
        told = (if isSkipped run.source config g plan then [] else [place]) ∧
          status = statusAt run.source config g place plan := by
  have begins := begins_haulOf run.source config g plan
  have gathering := performs_gathering config g partition plan run
  rw [fileCalls_eq]
  by_cases skipped : isSkipped run.source config g plan = true
  · rw [begins.callsOf_eq_nil (begun_of_skipped skipped)] at gathering
    rw [if_pos skipped]
    refine gathering.bind [] ?_
    rintro _ _ mid ⟨rfl, rfl⟩ -
    dsimp only
    rw [skipped_eq, if_pos skipped]
    refine .pure ⟨none, (if_pos skipped).symm, ?_⟩
    rw [statusAt, if_pos skipped]
    rfl
  · have data := (haulOf_pieces run.source g (writing_of_not_skipped skipped) plan).2.2
    -- The file is started by one of its clusters or after them, and `opened` fits both.
    have opened := begins.callsOf_append partition plan.entry
    rw [if_neg skipped, Output.fileCalls, ← data, ← opened, List.append_assoc]
    refine gathering.bind _ ?_
    rintro _ _ mid ⟨rfl, rfl⟩ -
    dsimp only
    rw [skipped_eq, if_neg skipped]
    refine (performs_ensureStarted partition plan.entry _ mid).bind _ ?_
    rintro _ _ started rfl -
    refine (Engine.Performs.closeFile started).bind [] ?_
    rintro place _ closed rfl -
    refine .pure ⟨place, (if_neg skipped).symm, ?_⟩
    rw [statusAt, if_neg skipped, List.flatMap_def, ← data]
    rfl

/-- The candidates are recovered one after the other. -/
theorem performs_recoverAll [Digests] (config : Config) (g : Geometry) (partition found count : Nat)
    (candidates : List Plan) (run : Run ω) :
    (recoverAll config g partition found count candidates).Performs run
      (candidates.flatMap (fileCalls run.source config g partition))
      fun told statuses => statuses = statusesAt run.source config g candidates told := by
  induction candidates generalizing run count with
  | nil => exact .pure rfl
  | cons plan rest ih =>
    obtain ⟨mid, announced, quiet⟩ := Engine.announce_apply .writing found count
      ("Recovering " ++ plan.status.displayName) run
    rw [List.flatMap_cons, ← quiet.source]
    refine .of_quiet quiet (Engine.bind_ok announced) ?_
    refine (performs_recover config g partition plan mid).bind _ ?_
    rintro _ _ next ⟨place, rfl, rfl⟩ kept
    have onward := ih (count + 1) next
    rw [kept] at onward
    rw [← List.append_nil (rest.flatMap _)]
    refine onward.bind [] ?_
    rintro _ told last rfl -
    refine .pure ?_
    rw [List.append_nil, quiet.source, statusesAt_cons]

theorem answer_walkAll (source : Source) (entries : List Entry) :
    (walkAll config g entries).answer source g =
      ((g.liveChain g.rootCluster config.maxDirectoryClusters).answer source g).map fun root =>
        (root, entries.map fun entry => (entry, chainOf config g source entry)) := by
  rw [walkAll, Probe.answer_bind]
  cases (g.liveChain g.rootCluster config.maxDirectoryClusters).answer source g with
  | error failure => rfl
  | ok root =>
    simp only [Probe.answer_bind, Probe.answer_mapM, Probe.answer_pure]
    rfl

theorem exists_of_forall₂ {α β : Type} {Related : α → β → Prop} {items : List α}
    {others : List β} (related : List.Forall₂ Related items others) {item : α}
    (member : item ∈ items) : ∃ other ∈ others, Related item other := by
  induction related with
  | nil => cases member
  | @cons _ other _ rest first _ ih =>
    rcases List.mem_cons.mp member with rfl | later
    · exact ⟨other, List.mem_cons_self, first⟩
    · obtain ⟨found, known, pair⟩ := ih later
      exact ⟨found, List.mem_cons_of_mem _ known, pair⟩

/-- A pass surveys the volume, which leaves the output alone, and recovers the candidates. -/
theorem run_eq [Digests] (config : Config) (partition : Nat) (g : Geometry) (before : Run ω) :
    ∃ mid, before.Quiet mid ∧ Pass.run config partition g before =
      (do
        let found ← Engine.require (survey config g before.source)
        let statuses ← recoverAll config g partition
          (found.scan.entries.filter config.selects).length 0 (plans config g found)
        pure ⟨g, found.scan.directories, found.scan.entries.length, statuses⟩ :
          Engine ω PassResult) mid := by
  obtain ⟨first, told, quiet⟩ := Engine.announce_apply .directoryScanning 0 0
    s!"Scanning directories from cluster {g.rootCluster}" before
  obtain ⟨table, second, scanned, quiet', faithful, same⟩ := Engine.probe_apply g
    (Scan.ofRoot g config.maxDirectoryDepth config.maxDirectoryClusters g.rootCluster)
    (FatTable.faithful_empty first.source g) rfl
  replace quiet' := quiet.trans quiet'
  rw [quiet.source] at scanned faithful
  unfold Pass.run survey
  rw [Engine.bind_ok told, Engine.bind_ok scanned]
  clear told scanned
  cases (Scan.ofRoot g config.maxDirectoryDepth config.maxDirectoryClusters
      g.rootCluster).answer before.source g with
  | error failure => exact ⟨second, quiet', rfl⟩
  | ok scan =>
    obtain ⟨third, told', quiet''⟩ := Engine.announce_apply .chainWalking
      (scan.entries.filter config.selects).length 0
      s!"Walking {scan.entries.length} cluster chains" second
    replace quiet'' := quiet'.trans quiet''
    rw [← quiet''.source] at faithful
    obtain ⟨table', fourth, walked, quiet₃, -, -⟩ := Engine.probe_apply g
      (walkAll config g scan.entries) faithful same
    replace quiet₃ := quiet''.trans quiet₃
    rw [quiet''.source, answer_walkAll] at walked
    simp only [Engine.require_bind, Engine.bind_ok told', Engine.bind_ok walked]
    cases (g.liveChain g.rootCluster config.maxDirectoryClusters).answer before.source g with
    | error failure => exact ⟨fourth, quiet₃, rfl⟩
    | ok root =>
      obtain ⟨fifth, told₄, quiet₄⟩ := Engine.announce_apply .analysis
        (scan.entries.filter config.selects).length 0 "Analyzing chains" fourth
      refine ⟨fifth, quiet₃.trans quiet₄, ?_⟩
      simp only [Except.map, Engine.require_bind, Engine.bind_ok told₄]
      rfl

/-- The calls that a pass makes on its output when all of them are accepted. -/
def outputCalls (config : Config) (g : Geometry) (partition : Nat) (source : Source) : List Event :=
  match survey config g source with
  | .ok found => (plans config g found).flatMap (fileCalls source config g partition)
  | .error _ => []

/-- A pass over a volume that can be surveyed makes these calls, and comes to the statuses of the
candidates. -/
theorem performs_run [Digests] (partition : Nat) {found : Survey} {before : Run ω}
    (surveyed : survey config g before.source = .ok found) :
    (Pass.run config partition g).Performs before (outputCalls config g partition before.source)
      fun told result => result = ⟨g, found.scan.directories, found.scan.entries.length,
        statusesAt before.source config g (plans config g found) told⟩ := by
  obtain ⟨mid, quiet, same⟩ := run_eq config partition g before
  rw [surveyed, Engine.require_bind] at same
  rw [outputCalls, surveyed]
  refine .of_quiet quiet same ?_
  rw [← quiet.source]
  dsimp only
  rw [← List.append_nil (List.flatMap _ _)]
  refine (performs_recoverAll config g partition _ 0 _ mid).bind [] ?_
  rintro _ told last rfl -
  refine .pure ?_
  rw [List.append_nil]

/-- A pass over a volume that cannot be surveyed fails and leaves the output alone. -/
theorem run_unsurveyed [Digests] {failure : Failure} {before : Run ω} (partition : Nat)
    (unsurveyed : survey config g before.source = .error failure) :
    ∃ after, Pass.run config partition g before = (.error failure, after) ∧
      before.Quiet after := by
  obtain ⟨mid, quiet, same⟩ := run_eq config partition g before
  refine ⟨mid, ?_, quiet⟩
  rw [same, unsurveyed]
  rfl

/-- A pass that succeeds has surveyed the volume. -/
theorem surveyed_of_run [Digests] {before : Run ω} {result : PassResult}
    (ok : Pass.run config partition g before = (.ok result, after)) :
    ∃ found, survey config g before.source = .ok found := by
  cases surveyed : survey config g before.source with
  | ok found => exact ⟨found, rfl⟩
  | error failure =>
    obtain ⟨stopped, unsurveyed, -⟩ := run_unsurveyed partition surveyed
    cases unsurveyed.symm.trans ok

/-- A pass that succeeds has surveyed the volume, and has gone through the candidates in their
order. -/
theorem run_delivers [Digests] {before : Run ω} {result : PassResult}
    (ok : Pass.run config partition g before = (.ok result, after)) :
    ∃ found, survey config g before.source = .ok found ∧
      result.directories = found.scan.directories ∧
      result.entries = found.scan.entries.length ∧
      List.Forall₂ (fun plan => Delivers (verdict before.source config g plan))
        (plans config g found) result.statuses ∧
      after.calls = before.calls ++
        (plans config g found).flatMap (fileCalls before.source config g partition) := by
  obtain ⟨found, surveyed⟩ := surveyed_of_run ok
  obtain ⟨told, -, called, rfl⟩ := (performs_run partition surveyed).of_ok ok
  have calls := called.calls
  rw [outputCalls, surveyed] at calls
  exact ⟨found, surveyed, rfl, rfl, delivers_statusesAt .., calls⟩

/-- A pass that succeeds has surveyed the volume. Its calls on the output store the candidates of
the survey, and its statuses are the candidates' verdicts. -/
theorem run_ok [Digests] {before : Run ω} {result : PassResult}
    (ok : Pass.run config partition g before = (.ok result, after)) :
    ∃ found, survey config g before.source = .ok found ∧
      result.entries = found.scan.entries.length ∧
      ((∀ plan ∈ plans config g found, ∃ status ∈ result.statuses,
          Delivers (verdict before.source config g plan) status) ∧
        ∀ status ∈ result.statuses, ∃ plan ∈ plans config g found,
          Delivers (verdict before.source config g plan) status) ∧
      after.calls = before.calls ++
        (plans config g found).flatMap (fileCalls before.source config g partition) := by
  obtain ⟨found, surveyed, -, count, delivered, called⟩ := run_delivers ok
  refine ⟨found, surveyed, count, ⟨?_, ?_⟩, called⟩
  · exact fun plan planned => exists_of_forall₂ delivered planned
  · exact fun status reported => exists_of_forall₂ delivered.flip reported

/-- The statuses of a pass belong to the selected entries, in their order. -/
theorem run_reports [Digests] {before : Run ω} {result : PassResult}
    (ok : Pass.run config partition g before = (.ok result, after)) :
    ∃ found, survey config g before.source = .ok found ∧
      result.entries = found.scan.entries.length ∧
      List.Forall₂ (fun entry status => entry ∈ found.scan.entries ∧
          config.selects entry = true ∧ Delivers (verdict before.source config g (planOf config g
            (ledgerOf g found.root found.chains) entry (chainOf config g before.source entry)))
              status)
        (found.scan.entries.filter config.selects) result.statuses := by
  obtain ⟨found, surveyed, -, count, delivered, -⟩ := run_delivers ok
  rw [plans_eq surveyed, List.forall₂_map_left_iff] at delivered
  refine ⟨found, surveyed, count, ?_⟩
  simp only [← and_assoc]
  exact (List.forall₂_and_left _ _).mpr ⟨fun entry member => List.mem_filter.mp member, delivered⟩

end

end Pass

end Undelete
