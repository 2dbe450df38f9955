import CallForms.Proofs.Reader.FirstFailure

namespace CallForms

def Fault.TooDeep (f : Fault) : Prop :=
  ∃ stage, f.cause = .nestingTooDeep stage

namespace Reader

variable {room room' : Nat} {s s' : State} {t : Token} {r : Step} {ts us rest : List Token}
  {es : List Expr} {f : Fault}

theorem begin_mono (h : room ≤ room') {stack : List Frame}
    (hc : begin room stack t ≠ .error (.nestingTooDeep stage)) :
    begin room' stack t = begin room stack t := by
  unfold begin at hc ⊢
  split
  · rfl
  · next hnumber =>
    split
    · next hopen =>
      by_cases hl : 2 * stack.length + 3 ≤ room
      · rw [if_pos hl, if_pos (Nat.le_trans hl h)]
      · rw [if_neg hnumber, if_pos hopen, if_neg hl] at hc
        exact absurd rfl hc
    · rfl

theorem step_mono (h : room ≤ room') (hc : s.step room t ≠ .error (.nestingTooDeep stage)) :
    s.step room' t = s.step room t := by
  cases s with
  | fresh => exact begin_mono h hc
  | opened opening outer =>
    simp only [State.step] at hc ⊢
    by_cases hl : room < 2 * outer.length + 4
    · rw [if_pos hl] at hc
      exact absurd rfl hc
    · rw [if_neg hl, if_neg (by omega)]
  | within frame outer =>
    simp only [State.step] at hc ⊢
    split
    · rfl
    · next hclose =>
      rw [if_neg hclose] at hc
      exact begin_mono h hc

theorem Run.mono (h : Run room s ts es s') (hle : room ≤ room') : Run room' s ts es s' := by
  induction h with
  | refl s => exact .refl s
  | step hstep _ ih =>
    refine .step ?_ ih
    rw [step_mono hle (by simp [hstep]), hstep]

theorem Run.unique {es' : List Expr} {s'' : State} (h : Run room s ts es s')
    (h' : Run room s ts es' s'') : s'' = s' := by
  induction h generalizing es' with
  | refl s =>
    cases h'
    rfl
  | step hstep _ ih =>
    cases h' with
    | step hstep' hr =>
      cases hstep.symm.trans hstep'
      exact ih hr

-- The most frames that were taken to get where the reader is.
def State.taken : State → Nat
  | .fresh => 0
  | .opened _ outer => 2 * outer.length + 3
  | .within _ outer => 2 * outer.length + 4

theorem Move.taken_le (h : Move room s t r) (hs : s.taken ≤ room) : r.next.taken ≤ room := by
  cases h with
  | @number stack t hk =>
    cases stack with
    | nil => exact Nat.zero_le _
    | cons frame outer => exact hs
  | enter ho hl => exact hl
  | name hk hl => exact hl
  | @leave frame outer t hc =>
    cases outer with
    | nil => exact Nat.zero_le _
    | cons next outer =>
      simp only [State.taken, resume, Step.next_more, List.length_cons] at hs ⊢
      omega

theorem Run.taken_le (h : Run room s ts es s') (hs : s.taken ≤ room) : s'.taken ≤ room := by
  induction h with
  | refl s => exact hs
  | step hstep _ ih => exact ih ((move_of_step hstep).taken_le hs)

end Reader

end CallForms
