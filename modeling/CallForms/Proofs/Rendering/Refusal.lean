import CallForms.Proofs.Lowering.Refusal

namespace CallForms

namespace Tree

def isTarget : Tree → Bool
  | .program .target _ _ => true
  | .statement _ _ => true
  | .invoke _ _ _ => true
  | .identifier _ _ => true
  | .number .target _ _ => true
  | _ => false

mutual

def reached : Tree → List Tree
  | .program .target body span => .program .target body span :: reachedAll body
  | .statement expression span => .statement expression span :: reached expression
  | .invoke callee arguments span =>
    .invoke callee arguments span :: (reachedAll arguments ++ reached callee)
  | value => [value]

def reachedAll : List Tree → List Tree
  | [] => []
  | value :: rest => reached value ++ reachedAll rest

end

mutual

def wrapping : Tree → Nat
  | .program .target body _ => wrappingAll body + 1
  | .statement expression _ => wrapping expression + 1
  | .invoke callee arguments _ => max (wrapping callee) (wrappingAll arguments)
  | _ => 0

def wrappingAll : List Tree → Nat
  | [] => 0
  | value :: rest => max (wrapping value) (wrappingAll rest)

end

theorem wrapping_le_wrappingAll {value : Tree} {values : List Tree} (h : value ∈ values) :
    value.wrapping ≤ wrappingAll values := by
  induction values with
  | nil => cases h
  | cons first rest ih =>
    rw [wrappingAll]
    rcases List.mem_cons.mp h with rfl | hrest
    · exact Nat.le_max_left _ _
    · exact Nat.le_trans (ih hrest) (Nat.le_max_right _ _)

def foreign? (values : List Tree) : Option Tree :=
  values.find? fun v => !v.isTarget

theorem foreign?_append (values rest : List Tree) :
    foreign? (values ++ rest) = (foreign? values).or (foreign? rest) :=
  List.find?_append

theorem foreign?_cons {value : Tree} (h : value.isTarget = true) (rest : List Tree) :
    foreign? (value :: rest) = foreign? rest := by
  simp [foreign?, h]

end Tree

namespace Rendering

variable {α β : Type} {found later : Option Tree} {x : Except Stop α} {levels : Nat}

inductive Settles {α : Type} : Option Tree → Except Stop α → Prop
  | ok (a : α) : Settles none (.ok a)
  | error (w : Tree) : Settles (some w) (.error (.unknown w))

theorem Settles.map (h : Settles found x) (f : α → β) : Settles found (x.map f) := by
  cases h with
  | ok a => exact .ok (f a)
  | error w => exact .error w

theorem Settles.bind {f : α → Except Stop β} (h : Settles found x)
    (hf : ∀ a, Settles later (f a)) : Settles (found.or later) (x >>= f) := by
  cases h with
  | ok a => exact hf a
  | error w => exact .error w

theorem renderAll_settles {values : List Tree}
    (h : ∀ v ∈ values, Settles (Tree.foreign? v.reached) (render (fun _ => none) levels v)) :
    Settles (Tree.foreign? (Tree.reachedAll values)) (renderAll (fun _ => none) levels values) := by
  induction values with
  | nil =>
    rw [renderAll, Tree.reachedAll]
    exact .ok []
  | cons value rest ih =>
    have hrest := ih fun v hv => h v (by simp [hv])
    rw [renderAll, Tree.reachedAll, Tree.foreign?_append]
    apply (h value (by simp)).bind
    intro first
    exact hrest.map (first :: ·)

theorem renderAll_settles_of_shallow
    (ih : ∀ v : Tree, 0 < levels → (v.isNode = true → v.depth + v.wrapping < levels) →
      Settles (Tree.foreign? v.reached) (render (fun _ => none) levels v))
    {values : List Tree} (h : Tree.depthAll values + Tree.wrappingAll values < levels) :
    Settles (Tree.foreign? (Tree.reachedAll values)) (renderAll (fun _ => none) levels values) := by
  apply renderAll_settles
  intro v hv
  have hwrapping := Tree.wrapping_le_wrappingAll hv
  refine ih v (Nat.zero_lt_of_lt h) fun hnode => ?_
  have hdepth := Tree.depth_le_depthAll hv hnode
  omega

theorem render_foreign {w : Tree} (h : w.isTarget = false) :
    render (fun _ => none) (levels + 1) w = .error (.unknown w) := by
  cases w with
  | number family digits span =>
    cases family with
    | source => simp [render]
    | target => cases h
  | program family body span =>
    cases family with
    | source => simp [render]
    | target => cases h
  | custom kind span =>
    obtain ⟨family, tag, other⟩ := kind
    rcases family with _ | _ | _ <;> simp [render]
  | identifier name span => cases h
  | invoke callee arguments span => cases h
  | statement expression span => cases h
  | _ => simp [render]

theorem reached_foreign {w : Tree} (h : w.isTarget = false) : Tree.foreign? w.reached = some w := by
  have hreached : w.reached = [w] := by
    unfold Tree.isTarget at h
    unfold Tree.reached
    split <;> first | rfl | cases h
  simp [hreached, Tree.foreign?, h]

theorem render_settles (levels : Nat) : ∀ value : Tree, 0 < levels →
    (value.isNode = true → value.depth + value.wrapping < levels) →
    Settles (Tree.foreign? value.reached) (render (fun _ => none) levels value) := by
  induction levels with
  | zero =>
    intro value hlevels
    cases hlevels
  | succ levels ih =>
    intro value _ h
    cases hvalue : value.isTarget with
    | false =>
      rw [render_foreign hvalue, reached_foreign hvalue]
      exact .error value
    | true =>
      cases value with
      | number family digits span =>
        cases family with
        | source => cases hvalue
        | target => exact .ok digits
      | identifier name span => exact .ok name
      | program family body span =>
        cases family with
        | source => cases hvalue
        | target =>
          have hbody := h rfl
          rw [Tree.depth, Tree.wrapping] at hbody
          rw [Tree.reached, Tree.foreign?_cons rfl, render]
          exact (renderAll_settles_of_shallow ih (by omega)).map _
      | statement expression span =>
        have hexpression := h rfl
        rw [Tree.depth, Tree.wrapping] at hexpression
        rw [Tree.reached, Tree.foreign?_cons rfl, render]
        exact (ih expression (by omega) fun _ => by omega).map _
      | invoke callee arguments span =>
        have hboth := h rfl
        rw [Tree.depth, Tree.wrapping] at hboth
        rw [Tree.reached, Tree.foreign?_cons rfl, Tree.foreign?_append, render]
        apply (renderAll_settles_of_shallow ih (by omega)).bind
        intro texts
        exact (ih callee (by omega) fun _ => by omega).map _
      | _ => cases hvalue

end Rendering

namespace Tree

theorem render_cases (stack : Allowance) {root : Tree} (hcalls : root.depth ≤ assuredNesting)
    (hwraps : root.wrapping ≤ assuredNesting) :
    (∃ text, foreign? root.reached = none ∧
      root.render stack.room (fun _ => none) = .ok text) ∨
    ∃ w, foreign? root.reached = some w ∧
      root.render stack.room (fun _ => none) = .error (.unknownNode Rendering.stage w) := by
  have hlevels := stack.levels_ge
  have hsettles := Rendering.render_settles (levelsIn stack.room) root (by omega)
    fun _ => by omega
  unfold Tree.render
  generalize foreign? root.reached = found at hsettles
  generalize Rendering.render (fun _ => none) (levelsIn stack.room) root = x at hsettles
  cases hsettles with
  | ok text => exact .inl ⟨text, rfl, rfl⟩
  | error w => exact .inr ⟨w, rfl, rfl⟩

theorem rendering_refuses_first_foreign (stack : Allowance) (root : Tree)
    (hcalls : root.depth ≤ assuredNesting) (hwraps : root.wrapping ≤ assuredNesting) :
    ((∃ text, root.render stack.room (fun _ => none) = .ok text) ↔
      ∀ v ∈ root.reached, v.isTarget = true) ∧
    ∀ v, root.reached.find? (fun v => !v.isTarget) = some v →
      ∃ f, root.render stack.room (fun _ => none) = .error f ∧ f.Refuses "code generator" v := by
  apply refuses_first_of
  exact render_cases stack hcalls hwraps

theorem rendering_refuses_first_foreign_before_callee :
    (∃ f, (Tree.statement (.invoke (.plain .null)
        [.program .target [.statement (.number .target "1" none) none] none,
          .invoke (.custom ⟨some .target, "Odd", by decide⟩
              (some ⟨⟨1, 5, 4, none⟩, ⟨2, 1, 8, some "a"⟩⟩))
            [.identifier "x" none] none, .number .source "2" none] none) none).render
          Allowance.usual.room (fun _ => none) = .error f ∧
      f.Refuses "code generator" (.custom ⟨some .target, "Odd", by decide⟩
        (some ⟨⟨1, 5, 4, none⟩, ⟨2, 1, 8, some "a"⟩⟩))) ∧
    (∃ f, (Tree.invoke (.foreign ⟨"SimpleNamespace", some "x", none⟩) [] none).render
        Allowance.usual.room (fun _ => none) = .error f ∧
      f.Refuses "code generator" (.foreign ⟨"SimpleNamespace", some "x", none⟩)) ∧
    ∃ text, (Tree.invoke (.invoke (.identifier "f" none) [] none)
      [.statement (.number .target "1" none) none] none).render
        Allowance.usual.room (fun _ => none) = .ok text := by
  refine ⟨?_, ?_, ?_⟩
  · exact (rendering_refuses_first_foreign .usual _ (by decide) (by decide)).2 _ rfl
  · exact (rendering_refuses_first_foreign .usual _ (by decide) (by decide)).2 _ rfl
  · exact (rendering_refuses_first_foreign .usual _ (by decide) (by decide)).1.mpr (by decide)

end Tree

end CallForms
