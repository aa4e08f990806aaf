import Undelete.Recovery.Run

/-!
What outputs make of the calls on them. They accept some calls one after the other, or they accept
some up to one that they fail.
-/

namespace Undelete

namespace Output

variable {ω : Type} [Output ω]

/-- Whether an output accepts some calls, one after the other. It tells a place whenever a file is
closed. -/
inductive Accepts : (output : ω) → List Event → (told : List (Option String)) → (last : ω) → Prop
  | done (output : ω) : Accepts output [] [] output
  | start {output begun last : ω} {partition : Nat} {entry : Entry} {calls : List Event}
      {told : List (Option String)} (started : Output.start partition entry output = (.ok (), begun))
      (onward : Accepts begun calls told last) :
      Accepts output (.start partition entry :: calls) told last
  | append {output filled last : ω} {data : Bytes} {calls : List Event}
      {told : List (Option String)} (appended : Output.append data output = (.ok (), filled))
      (onward : Accepts filled calls told last) : Accepts output (.append data :: calls) told last
  | close {output closed last : ω} {place : Option String} {calls : List Event}
      {told : List (Option String)} (finished : Output.close output = (.ok place, closed))
      (onward : Accepts closed calls told last) :
      Accepts output (.close :: calls) (place :: told) last

namespace Accepts

variable {output mid last : ω} {calls later : List Event} {told others : List (Option String)}

theorem trans (first : Accepts output calls told mid) (second : Accepts mid later others last) :
    Accepts output (calls ++ later) (told ++ others) last := by
  induction first with
  | done => exact second
  | start started _ ih => exact .start started (ih second)
  | append appended _ ih => exact .append appended (ih second)
  | close finished _ ih => exact .close finished (ih second)

theorem of_append (accepts : Accepts output (calls ++ later) told last) :
    ∃ first mid second, Accepts output calls first mid ∧ Accepts mid later second last ∧
      told = first ++ second := by
  induction calls generalizing output told with
  | nil => exact ⟨[], output, told, .done output, accepts, rfl⟩
  | cons event rest ih =>
    cases accepts with
    | start started onward =>
      obtain ⟨first, mid, second, early, late, same⟩ := ih onward
      exact ⟨first, mid, second, .start started early, late, same⟩
    | append appended onward =>
      obtain ⟨first, mid, second, early, late, same⟩ := ih onward
      exact ⟨first, mid, second, .append appended early, late, same⟩
    | close finished onward =>
      obtain ⟨first, mid, second, early, late, same⟩ := ih onward
      exact ⟨_ :: first, mid, second, .close finished early, late, congrArg _ same⟩

/-- What every single append keeps is kept while data is appended, and no place is told. -/
theorem appends_keep {Holds : ω → Prop} {data : List Bytes}
    (keeps : ∀ {output filled data}, Holds output → Output.append data output = (.ok (), filled) →
      Holds filled)
    (accepts : Accepts output (data.map Event.append) told last) (before : Holds output) :
    told = [] ∧ Holds last := by
  induction data generalizing output with
  | nil =>
    cases accepts
    exact ⟨rfl, before⟩
  | cons piece rest ih =>
    cases accepts with
    | append appended onward => exact ih onward (keeps before appended)

end Accepts

/-- The calls that store one file. -/
def fileCalls (partition : Nat) (entry : Entry) (data : List Bytes) : List Event :=
  .start partition entry :: data.map Event.append ++ [.close]

theorem Accepts.file {output last : ω} {partition : Nat} {entry : Entry} {data : List Bytes}
    {told : List (Option String)}
    (accepts : Accepts output (fileCalls partition entry data) told last) :
    ∃ begun filled place, Output.start partition entry output = (.ok (), begun) ∧
      Accepts begun (data.map Event.append) [] filled ∧
      Output.close filled = (.ok place, last) ∧ told = [place] := by
  cases accepts with
  | start started onward =>
    obtain ⟨first, filled, second, appends, closes, rfl⟩ := onward.of_append
    obtain ⟨rfl, -⟩ : first = [] ∧ True :=
      appends.appends_keep (fun _ _ => trivial) trivial
    cases closes with
    | close finished onward =>
      cases onward
      exact ⟨_, filled, _, started, appends, finished, rfl⟩

/-- Whether an output fails a call. -/
inductive Fails (output : ω) : Event → Failure → Prop
  | start {later : ω} {partition : Nat} {entry : Entry} {failure : Failure}
      (failed : Output.start partition entry output = (.error failure, later)) :
      Fails output (.start partition entry) failure
  | append {later : ω} {data : Bytes} {failure : Failure}
      (failed : Output.append data output = (.error failure, later)) :
      Fails output (.append data) failure
  | close {later : ω} {failure : Failure}
      (failed : Output.close output = (.error failure, later)) : Fails output .close failure

/-- Whether an output accepts some calls up to one that it fails. -/
def Refuses (output : ω) (calls : List Event) (failure : Failure) : Prop :=
  ∃ accepted event rest told mid, calls = accepted ++ event :: rest ∧
    Accepts output accepted told mid ∧ Fails mid event failure

variable {output mid last : ω} {calls later : List Event} {told : List (Option String)}
  {failure : Failure}

theorem Fails.refuses {event : Event} (fails : Fails output event failure) (rest : List Event) :
    Refuses output (event :: rest) failure :=
  ⟨[], event, rest, [], output, rfl, .done output, fails⟩

theorem Accepts.refuses (first : Accepts output calls told mid)
    (second : Refuses mid later failure) : Refuses output (calls ++ later) failure := by
  obtain ⟨accepted, event, rest, others, end_, rfl, early, fails⟩ := second
  exact ⟨calls ++ accepted, event, rest, told ++ others, end_,
    (List.append_assoc ..).symm, first.trans early, fails⟩

theorem Refuses.append (refuses : Refuses output calls failure) (later : List Event) :
    Refuses output (calls ++ later) failure := by
  obtain ⟨accepted, event, rest, told, mid, rfl, early, fails⟩ := refuses
  exact ⟨accepted, event, rest ++ later, told, mid, List.append_assoc .., early, fails⟩

theorem not_refuses_nil : ¬ Refuses output [] failure := by
  rintro ⟨accepted, event, rest, told, mid, split, -⟩
  cases accepted <;> cases split

/-- Calls are refused at the first of them or after it. -/
theorem Refuses.of_cons {event : Event} (refuses : Refuses output (event :: calls) failure) :
    Fails output event failure ∨
      ∃ told mid, Accepts output [event] told mid ∧ Refuses mid calls failure := by
  obtain ⟨accepted, failing, rest, told, last, split, early, fails⟩ := refuses
  cases accepted with
  | nil =>
    cases split
    cases early
    exact .inl fails
  | cons first accepted =>
    obtain ⟨rfl, rfl⟩ := List.cons.inj split
    obtain ⟨one, mid, others, first, onward, -⟩ := (List.singleton_append ▸ early).of_append
    exact .inr ⟨one, mid, first, accepted, failing, rest, others, last, rfl, onward, fails⟩

/-- Calls are refused among the earlier or among the later ones. -/
theorem Refuses.of_append (refuses : Refuses output (calls ++ later) failure) :
    Refuses output calls failure ∨
      ∃ told mid, Accepts output calls told mid ∧ Refuses mid later failure := by
  induction calls generalizing output with
  | nil => exact .inr ⟨[], output, .done output, refuses⟩
  | cons event rest ih =>
    rcases refuses.of_cons with fails | ⟨one, mid, first, onward⟩
    · exact .inl (fails.refuses _)
    rcases ih onward with refuses | ⟨told, last, accepts, refuses⟩
    · exact .inl (first.refuses refuses)
    · exact .inr ⟨one ++ told, last, first.trans accepts, refuses⟩

theorem Accepts.unique {last' : ω} {told' : List (Option String)}
    (one : Accepts output calls told last) (other : Accepts output calls told' last') :
    told = told' ∧ last = last' := by
  induction one generalizing told' with
  | done =>
    cases other
    exact ⟨rfl, rfl⟩
  | start started _ ih =>
    cases other with
    | start started' onward =>
      cases started.symm.trans started'
      exact ih onward
  | append appended _ ih =>
    cases other with
    | append appended' onward =>
      cases appended.symm.trans appended'
      exact ih onward
  | close finished _ ih =>
    cases other with
    | close finished' onward =>
      cases finished.symm.trans finished'
      obtain ⟨rfl, rfl⟩ := ih onward
      exact ⟨rfl, rfl⟩

/-- What is accepted is not refused. -/
theorem Accepts.not_refuses (accepts : Accepts output calls told last) :
    ¬ Refuses output calls failure := by
  rintro ⟨accepted, event, rest, told', mid, rfl, early, fails⟩
  obtain ⟨first, mid', second, early', onward, rfl⟩ := accepts.of_append
  obtain ⟨-, rfl⟩ := early.unique early'
  cases fails with
  | start failed =>
    cases onward with
    | start started _ => cases failed.symm.trans started
  | append failed =>
    cases onward with
    | append appended _ => cases failed.symm.trans appended
  | close failed =>
    cases onward with
    | close finished _ => cases failed.symm.trans finished

end Output

end Undelete
