import Undelete.Proofs.Recovery.Outputs
import Undelete.Proofs.Volume.Cache

/-!
The calls on the output that the journal of a run notes, and work that makes some calls in order.
Such work comes to a value if the output accepts all of them, and ends with the failure of the one
that it fails. Announcements and probes are no calls and leave the output alone.
-/

namespace Undelete

def Event.isCall : Event → Bool
  | .start .. | .append _ | .close => true
  | .read .. | .progress _ => false

namespace Run

variable {ω : Type}

/-- The calls on the output, in order. -/
def calls (run : Run ω) : List Event := run.journal.reverse.filter Event.isCall

/-- Nothing but the journal changed, and no call was noted. -/
structure Quiet (before after : Run ω) : Prop where
  source : after.source = before.source
  output : after.output = before.output
  calls : after.calls = before.calls

theorem Quiet.refl (run : Run ω) : Quiet run run := ⟨rfl, rfl, rfl⟩

theorem Quiet.trans {first second third : Run ω} (early : Quiet first second)
    (late : Quiet second third) : Quiet first third :=
  ⟨late.source.trans early.source, late.output.trans early.output, late.calls.trans early.calls⟩

/-- What came in between is the given calls. -/
structure Called (events : List Event) (before after : Run ω) : Prop where
  source : after.source = before.source
  calls : after.calls = before.calls ++ events

theorem Quiet.called {before after : Run ω} (quiet : Quiet before after) :
    Called [] before after :=
  ⟨quiet.source, quiet.calls.trans (List.append_nil _).symm⟩

theorem Called.trans {events later : List Event} {first second third : Run ω}
    (early : Called events first second) (late : Called later second third) :
    Called (events ++ later) first third :=
  ⟨late.source.trans early.source, by rw [late.calls, early.calls, List.append_assoc]⟩

end Run

namespace Engine

variable {ω α β : Type} {run later after : Run ω}

theorem bind_ok {work : Engine ω α} {onward : α → Engine ω β} {value : α}
    (done : work run = (.ok value, later)) : (work >>= onward) run = onward value later := by
  simp only [bind, ExceptT.bind, ExceptT.mk, StateT.bind, done, ExceptT.bindCont]

theorem bind_error {work : Engine ω α} {onward : α → Engine ω β} {failure : Failure}
    (stopped : work run = (.error failure, later)) :
    (work >>= onward) run = (.error failure, later) := by
  simp only [bind, ExceptT.bind, ExceptT.mk, StateT.bind, stopped, ExceptT.bindCont]
  rfl

theorem ok_of_bind {work : Engine ω α} {onward : α → Engine ω β} {result : β}
    (ok : (work >>= onward) run = (.ok result, after)) :
    ∃ value later, work run = (.ok value, later) ∧ onward value later = (.ok result, after) := by
  cases done : work run with
  | mk outcome later =>
    cases outcome with
    | ok value => exact ⟨value, later, rfl, (bind_ok done).symm.trans ok⟩
    | error failure =>
      rw [bind_error done] at ok
      cases ok

theorem stopped_of_bind {work : Engine ω α} {onward : α → Engine ω β} {failure : Failure}
    (stopped : (work >>= onward) run = (.error failure, after)) :
    work run = (.error failure, after) ∨
      ∃ value later, work run = (.ok value, later) ∧
        onward value later = (.error failure, after) := by
  cases done : work run with
  | mk outcome later =>
    cases outcome with
    | ok value => exact .inr ⟨value, later, rfl, (bind_ok done).symm.trans stopped⟩
    | error reason =>
      rw [bind_error done] at stopped
      cases stopped
      exact .inl rfl

theorem require_bind (value : α) (onward : α → Engine ω β) :
    (require (.ok value) >>= onward) run = onward value run := rfl

theorem announce_apply (phase : Phase) (found count : Nat) (operation : String) (run : Run ω) :
    ∃ later, announce phase found count operation run = (.ok (), later) ∧ run.Quiet later :=
  ⟨_, rfl, rfl, rfl, by simp [Run.calls, Event.isCall]⟩

/-- Reading is no call on the output. -/
theorem not_isCall_of_read {reads : List (Nat × Nat)} {event : Event}
    (member : event ∈ reads.map fun (sector, count) => Event.read sector count) :
    ¬ event.isCall = true := by
  obtain ⟨_, -, rfl⟩ := List.mem_map.mp member
  exact Bool.false_ne_true

theorem probe_apply (g : Geometry) {table : FatTable} (work : Probe α) {run : Run ω}
    (faithful : table.Faithful run.source) (same : table.geometry = g) :
    ∃ table' later, probe table work run = (.ok (work.answer run.source g, table'), later) ∧
      run.Quiet later ∧ table'.Faithful run.source ∧ table'.geometry = g := by
  subst same
  obtain ⟨answered, kept, same⟩ := Probe.run_answer run.source work table [] faithful
  refine ⟨(work.run run.source table []).2.1, _, Prod.ext ?_ rfl, ⟨rfl, rfl, ?_⟩, kept, same⟩
  · simp only [probe, answered]
  · simp only [Run.calls, probe, List.reverse_append, List.filter_append, List.filter_reverse,
      List.filter_eq_nil_iff.mpr fun _ => not_isCall_of_read, List.reverse_nil, List.append_nil]

theorem onOutput_apply {event : Event} {act : Act ω α} {result : Except Failure α} {output : ω}
    (acted : act run.output = (result, output)) :
    onOutput event act run =
      (result, { run with output := output, journal := event :: run.journal }) := by
  change ((act run.output).1, ({ run with
    output := (act run.output).2, journal := event :: run.journal } : Run ω)) = _
  rw [acted]

theorem acted_of_onOutput {event : Event} {act : Act ω α} {result : Except Failure α}
    (done : onOutput event act run = (result, after)) :
    act run.output = (result, after.output) := by
  cases acted : act run.output with
  | mk outcome output =>
    rw [onOutput_apply acted] at done
    cases done
    rfl

/-- A call on the output is noted, whatever comes of it. -/
theorem called_of_onOutput {event : Event} {act : Act ω α} {result : Except Failure α}
    (isCall : event.isCall = true) (done : onOutput event act run = (result, after)) :
    run.Called [event] after := by
  have final : after = { run with
      output := (act run.output).2, journal := event :: run.journal } :=
    (congrArg Prod.snd done).symm
  rw [final]
  exact ⟨rfl, by simp [Run.calls, isCall]⟩

/-- What comes of work that makes some calls on the output: a value, along with the places that the
output tells, or the failure of a call that the output fails, which is then the last one noted. -/
inductive Performs [Output ω] (work : Engine ω α) (run : Run ω) (calls : List Event)
    (Comes : List (Option String) → α → Prop) : Prop
  | done {value : α} {told : List (Option String)} {after : Run ω}
      (ok : work run = (.ok value, after))
      (accepts : Output.Accepts run.output calls told after.output)
      (called : run.Called calls after) (comes : Comes told value)
  | stopped {failure : Failure} {accepted rest : List Event} {event : Event}
      {told : List (Option String)} {mid : ω} {after : Run ω}
      (stopped : work run = (.error failure, after)) (split : calls = accepted ++ event :: rest)
      (accepts : Output.Accepts run.output accepted told mid)
      (fails : Output.Fails mid event failure) (called : run.Called (accepted ++ [event]) after)

namespace Performs

open Output

variable [Output ω] {work : Engine ω α} {mid : Run ω} {calls : List Event} {value : α}
  {Comes : List (Option String) → α → Prop} {Comes' : List (Option String) → β → Prop}

theorem pure (comes : Comes [] value) : (pure value : Engine ω α).Performs run [] Comes :=
  .done rfl (.done _) (Run.Quiet.refl run).called comes

/-- What goes before quietly does not count. -/
theorem of_quiet {onward : Engine ω α} (quiet : run.Quiet mid) (same : work run = onward mid)
    (performs : onward.Performs mid calls Comes) : work.Performs run calls Comes := by
  cases performs with
  | done ok accepts called comes =>
    exact .done (same.trans ok) (quiet.output ▸ accepts) (quiet.called.trans called) comes
  | stopped stopped split accepts fails called =>
    exact .stopped (same.trans stopped) split (quiet.output ▸ accepts) fails
      (quiet.called.trans called)

theorem bind {onward : α → Engine ω β} (performs : work.Performs run calls Comes)
    (more : List Event) (later : ∀ {value told mid}, Comes told value → mid.source = run.source →
      (onward value).Performs mid more fun told' result => Comes' (told ++ told') result) :
    (work >>= onward).Performs run (calls ++ more) Comes' := by
  cases performs with
  | @stopped _ accepted rest event _ _ _ stopped split accepts fails called =>
    have wider : calls ++ more = accepted ++ event :: (rest ++ more) := by
      rw [split, List.append_assoc, List.cons_append]
    exact .stopped (bind_error stopped) wider accepts fails called
  | done ok accepts called comes =>
    cases later comes called.source with
    | done ok' accepts' called' comes' =>
      exact .done ((bind_ok ok).trans ok') (accepts.trans accepts') (called.trans called') comes'
    | @stopped _ accepted rest event _ _ _ stopped split accepts' fails called' =>
      have wider : calls ++ more = calls ++ accepted ++ event :: rest := by
        rw [split, List.append_assoc]
      have both := called.trans called'
      rw [← List.append_assoc] at both
      exact .stopped ((bind_ok ok).trans stopped) wider (accepts.trans accepts') fails both

theorem of_ok (performs : work.Performs run calls Comes) (ok : work run = (.ok value, after)) :
    ∃ told, Accepts run.output calls told after.output ∧ run.Called calls after ∧
      Comes told value := by
  cases performs with
  | done ok' accepts called comes =>
    cases ok.symm.trans ok'
    exact ⟨_, accepts, called, comes⟩
  | stopped stopped => cases ok.symm.trans stopped

theorem of_error {failure : Failure} (performs : work.Performs run calls Comes)
    (stopped : work run = (.error failure, after)) : Refuses run.output calls failure := by
  cases performs with
  | done ok => cases stopped.symm.trans ok
  | stopped stopped' split accepts fails =>
    cases stopped.symm.trans stopped'
    exact ⟨_, _, _, _, _, split, accepts, fails⟩

theorem of_accepts {told : List (Option String)} {last : ω}
    (performs : work.Performs run calls Comes) (accepts : Accepts run.output calls told last) :
    ∃ value after, work run = (.ok value, after) ∧ after.output = last ∧
      run.Called calls after ∧ Comes told value := by
  cases performs with
  | done ok accepts' called comes =>
    obtain ⟨rfl, rfl⟩ := accepts.unique accepts'
    exact ⟨_, _, ok, rfl, called, comes⟩
  | stopped _ split accepts' fails =>
    exact absurd ⟨_, _, _, _, _, split, accepts', fails⟩ accepts.not_refuses

/-- A call is accepted or failed. -/
theorem onOutput {event : Event} {act : Act ω α} (isCall : event.isCall = true)
    (ok : ∀ {value last}, act run.output = (.ok value, last) →
      ∃ told, Accepts run.output [event] told last ∧ Comes told value)
    (fails : ∀ {failure last}, act run.output = (.error failure, last) →
      Fails run.output event failure) :
    (Engine.onOutput event act).Performs run [event] Comes := by
  cases done : Engine.onOutput event act run with
  | mk result after =>
    have called := called_of_onOutput isCall done
    cases result with
    | ok value =>
      obtain ⟨told, accepts, comes⟩ := ok (acted_of_onOutput done)
      exact .done done accepts called comes
    | error failure => exact .stopped done rfl (.done _) (fails (acted_of_onOutput done)) called

theorem startFile (partition : Nat) (entry : Entry) (run : Run ω) :
    (startFile partition entry).Performs run [.start partition entry] fun told _ => told = [] :=
  .onOutput rfl (fun started => ⟨[], .start started (.done _), rfl⟩) .start

theorem appendData (data : Bytes) (run : Run ω) :
    (appendData data).Performs run [.append data] fun told _ => told = [] :=
  .onOutput rfl (fun appended => ⟨[], .append appended (.done _), rfl⟩) .append

theorem closeFile (run : Run ω) :
    (closeFile : Engine ω _).Performs run [.close] fun told place => told = [place] :=
  .onOutput rfl (fun finished => ⟨_, .close finished (.done _), rfl⟩) .close

end Performs

end Engine

end Undelete
