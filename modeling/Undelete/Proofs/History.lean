/-!
Histories of calls. What a call began is over once another call has come behind it.
-/

namespace Undelete

variable {α : Type} {kind : α → Prop} {answer item : α} {history : List α}

/-- Whether everything of some kind in a history has an answer behind it. -/
def Followed (kind : α → Prop) (answer : α) (history : List α) : Prop :=
  ∀ earlier item later, history = earlier ++ item :: later → kind item → answer ∈ later

theorem followed_nil : Followed kind answer [] := by
  intro earlier item later split
  cases earlier <;> cases split

theorem followed_cons_iff :
    Followed kind answer (item :: history) ↔
      (kind item → answer ∈ history) ∧ Followed kind answer history := by
  constructor
  · intro followed
    refine ⟨followed [] item history rfl, ?_⟩
    intro earlier other later split
    exact followed (item :: earlier) other later (congrArg _ split)
  · rintro ⟨first, followed⟩ earlier other later split
    cases earlier with
    | nil =>
      obtain ⟨rfl, rfl⟩ := List.cons.inj split
      exact first
    | cons _ earlier => exact followed earlier other later (List.cons.inj split).2

/-- A call that neither begins nor answers makes no difference at the end. -/
theorem followed_concat_iff (aside : ¬ kind item) (other : item ≠ answer) :
    Followed kind answer (history ++ [item]) ↔ Followed kind answer history := by
  induction history with
  | nil => simp [followed_cons_iff, followed_nil, aside]
  | cons first rest ih => simp [followed_cons_iff, ih, other.symm]

end Undelete
