import CallForms.Proofs.Reader.Run

namespace CallForms.Reader

def capacity (room : Nat) : Nat :=
  (room - 2) / 2

def stackDepth : List Frame → Nat
  | [] => 0
  | frame :: outer =>
    max (outer.length + 1 + Expr.depthAll frame.params.toList) (stackDepth outer)

namespace State

def height : State → Nat
  | .fresh => 0
  | .opened _ outer => outer.length + 1
  | .within _ outer => outer.length + 1

def named : State → Nat
  | .fresh => 0
  | .opened _ outer => outer.length
  | .within _ outer => outer.length + 1

def depth : State → Nat
  | .fresh => 0
  | .opened _ outer => stackDepth outer
  | .within frame outer => stackDepth (frame :: outer)

end State

variable {room : Nat} {s s' : State} {t : Token} {r : Step} {ts : List Token} {es : List Expr}

theorem length_le_stackDepth (stack : List Frame) : stack.length ≤ stackDepth stack := by
  cases stack with
  | nil => exact Nat.le_refl 0
  | cons frame outer =>
    simp only [List.length_cons, stackDepth]
    omega

theorem State.named_le_depth (s : State) : s.named ≤ s.depth := by
  cases s with
  | fresh => exact Nat.le_refl 0
  | opened opening outer => exact length_le_stackDepth outer
  | within frame outer => exact length_le_stackDepth (frame :: outer)

theorem State.named_le_height (s : State) : s.named ≤ s.height := by
  cases s with
  | opened opening outer => exact Nat.le_succ _
  | _ => exact Nat.le_refl _

theorem depth_ready (stack : List Frame) : (ready stack).depth = stackDepth stack := by
  cases stack <;> rfl

theorem height_ready (stack : List Frame) : (ready stack).height = stack.length := by
  cases stack <;> rfl

theorem named_ready (stack : List Frame) : (ready stack).named = stack.length := by
  cases stack <;> rfl

theorem depth_resume (stack : List Frame) (e : Expr) :
    max (Expr.depthAll (resume stack e).made) (resume stack e).next.depth =
      max (stackDepth stack) (stack.length + e.depth) := by
  cases stack with
  | nil => simp [resume, Expr.depthAll, State.depth, stackDepth]
  | cons frame outer =>
    simp only [resume, Step.made_more, Step.next_more, Expr.depthAll, State.depth, stackDepth,
      Frame.push, Array.toList_push, Expr.depthAll_append, List.length_cons]
    omega

theorem height_resume (stack : List Frame) (e : Expr) :
    (resume stack e).next.height = stack.length := by
  cases stack <;> rfl

theorem named_resume (stack : List Frame) (e : Expr) :
    (resume stack e).next.named = stack.length := by
  cases stack <;> rfl

theorem Move.depth (h : Move room s t r) :
    max (Expr.depthAll r.made) r.next.depth = max s.depth r.next.named := by
  cases h with
  | @number stack t hk =>
    rw [depth_resume, depth_ready, named_resume]
    rfl
  | @enter stack t ho hl =>
    have hlength := length_le_stackDepth stack
    rw [depth_ready]
    simp only [Step.made_more, Step.next_more, Expr.depthAll, State.depth, State.named]
    omega
  | name hk hl =>
    simp only [Step.made_more, Step.next_more, Expr.depthAll, State.depth, State.named,
      stackDepth]
    omega
  | @leave frame outer t hc =>
    rw [depth_resume, named_resume]
    simp only [Frame.close, Expr.depth, State.depth, stackDepth]
    omega

theorem Move.named_le (h : Move room s t r) : r.next.named ≤ max s.named (capacity room) := by
  cases h with
  | @number stack t hk =>
    rw [named_resume, named_ready]
    exact Nat.le_max_left _ _
  | @enter stack t ho hl =>
    rw [named_ready]
    exact Nat.le_max_left _ _
  | name hk hl =>
    simp only [Step.next_more, State.named, capacity]
    omega
  | @leave frame outer t hc =>
    rw [named_resume]
    simp only [State.named]
    omega

theorem Run.depth_le (h : Run room s ts es s') (hs : s.depth ≤ capacity room) :
    Expr.depthAll es ≤ capacity room ∧ s'.depth ≤ capacity room := by
  induction h with
  | refl s => exact ⟨Nat.zero_le _, hs⟩
  | @step s s' t r ts es hstep _ ih =>
    have hmove := move_of_step hstep
    have hdepth := hmove.depth
    have hnamed := hmove.named_le
    have hle := s.named_le_depth
    obtain ⟨hes, hs'⟩ := ih (by omega)
    refine ⟨?_, hs'⟩
    rw [Expr.depthAll_append]
    omega

end CallForms.Reader
