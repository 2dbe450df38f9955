import CallForms.Lowering

namespace CallForms.Lowering

variable {overrides : Overrides} {levels : Nat} {site : Site}

def Appends (walk : List Tree → Visit) : Prop :=
  ∀ context, walk context = ⟨context ++ (walk []).context, (walk []).stop⟩

theorem appends_append (value : Tree) : Appends fun context => append context value := by
  intro context
  rfl

theorem appends_refuse (value : Tree) : Appends fun context => refuse context value := by
  intro context
  simp [refuse]

theorem appends_visitAll_of (h : ∀ value, Appends (visit overrides levels site value))
    (values : List Tree) : Appends (visitAll overrides levels site values) := by
  induction values with
  | nil =>
    intro context
    simp [visitAll]
  | cons value rest ih =>
    intro context
    simp only [visitAll]
    rw [h value context]
    cases hstop : (visit overrides levels site value []).stop with
    | some stop => simp only [hstop]
    | none =>
      simp only
      rw [ih (context ++ _), ih (visit overrides levels site value []).context,
        List.append_assoc]

theorem appends_visit_of (h : ∀ site values, Appends (visitAll overrides levels site values))
    (site : Site) (value : Tree) : Appends (visit overrides (levels + 1) site value) := by
  intro context
  cases value with
  | program family body span =>
    cases family with
    | source =>
      simp only [visit]
      split
      · exact appends_append _ context
      · split
        · exact h .body body context
        · exact appends_refuse _ context
    | target =>
      simp only [visit]
      exact appends_refuse _ context
  | number family digits span =>
    cases family with
    | source =>
      simp only [visit]
      split <;> exact appends_append _ context
    | target =>
      simp only [visit]
      exact appends_refuse _ context
  | call name params span =>
    simp only [visit]
    split
    · exact appends_append _ context
    · simp
  | custom kind span =>
    obtain ⟨family, tag, other⟩ := kind
    rcases family with _ | _ | _
    · simp only [visit]
      exact appends_refuse _ context
    · simp only [visit]
      split
      · exact appends_append _ context
      · exact appends_refuse _ context
    · simp only [visit]
      exact appends_refuse _ context
  | _ =>
    simp only [visit]
    exact appends_refuse _ context

theorem appends_visit (levels : Nat) :
    ∀ (site : Site) (value : Tree), Appends (visit overrides levels site value) := by
  induction levels with
  | zero =>
    intro site value context
    simp [visit]
  | succ levels ih =>
    intro site value
    exact appends_visit_of (fun site => appends_visitAll_of (ih site)) site value

end CallForms.Lowering
