import CallForms.Proofs.Lowering.Lossless
import CallForms.Proofs.Reader.Overflow

namespace CallForms

namespace Tree

theorem depthAll_eq_foldr (values : List Tree) :
    depthAll values = ((values.filter isNode).map depth).foldr max 0 := by
  induction values with
  | nil => simp [depthAll]
  | cons value rest ih =>
    rw [depthAll, ih]
    cases h : value.isNode <;> simp [h]

theorem foldr_max_append (xs ys : List Nat) :
    (xs ++ ys).foldr max 0 = max (xs.foldr max 0) (ys.foldr max 0) := by
  calc (xs ++ ys).foldr max 0 = xs.foldr max (max 0 (ys.foldr max 0)) := by
        rw [List.foldr_append, Nat.zero_max]
    _ = max (xs.foldr max 0) (ys.foldr max 0) := List.foldr_assoc

theorem foldr_inField (value : Tree) : (value.inField.map depth).foldr max 0 = value.depth := by
  cases value with
  | list items => rw [inField, depth, depthAll_eq_foldr]
  | _ => simp [inField, List.filter_cons, isNode, depth]

theorem depth_eq_foldr_children {value : Tree} (h : value.isNode = true) :
    value.depth = (value.children.map depth).foldr max 0 +
      if value.tag = "CallExpression" then 1 else 0 := by
  cases value with
  | call name params span => simp [depth, children, tag, depthAll_eq_foldr]
  | program family body span => simp [depth, children, tag, depthAll_eq_foldr]
  | invoke callee arguments span =>
    rw [children, List.map_append, foldr_max_append, foldr_inField, ← depthAll_eq_foldr]
    simp [depth, tag]
  | statement expression span =>
    rw [children, foldr_inField]
    simp [depth, tag]
  | custom kind span =>
    rw [depth]
    exact (Nat.zero_add _).symm
  | number family digits span => simp [depth, children, tag]
  | identifier name span => simp [depth, children, tag]
  | token t => cases h
  | list items => cases h
  | plain value => cases h
  | foreign value => cases h

theorem depthAll_cons {value : Tree} {rest : List Tree} (h : value.isNode = true) :
    depthAll (value :: rest) = max value.depth (depthAll rest) := by
  rw [depthAll, if_pos h]

theorem depth_le_depthAll {value : Tree} {values : List Tree} (h : value ∈ values)
    (hnode : value.isNode = true) : value.depth ≤ depthAll values := by
  induction values with
  | nil => cases h
  | cons first rest ih =>
    rcases List.mem_cons.mp h with rfl | hrest
    · rw [depthAll_cons hnode]
      exact Nat.le_max_left _ _
    · rw [depthAll]
      exact Nat.le_trans (ih hrest) (Nat.le_max_right _ _)

theorem depthAll_map {f : Expr → Tree} {es : List Expr} (hnode : ∀ e, (f e).isNode = true)
    (h : ∀ e ∈ es, (f e).depth = e.depth) : depthAll (es.map f) = Expr.depthAll es := by
  induction es with
  | nil => simp [depthAll, Expr.depthAll]
  | cons e rest ih =>
    have hrest := ih fun d hd => h d (by simp [hd])
    rw [List.map_cons, depthAll_cons (hnode e), h e (by simp), hrest, Expr.depthAll]

end Tree

namespace Expr

theorem depth_toTree (e : Expr) : e.toTree.depth = e.depth := by
  induction e with
  | number digits span => simp [toTree, Tree.depth, depth]
  | call name params span ih =>
    rw [toTree, Tree.depth, toTrees_eq_map, Tree.depthAll_map isNode_toTree ih, depth]

theorem depthAll_toTrees (es : List Expr) : Tree.depthAll (toTrees es) = depthAll es := by
  rw [toTrees_eq_map, Tree.depthAll_map isNode_toTree fun e _ => depth_toTree e]

theorem depth_lowered (e : Expr) : ∀ site : Lowering.Site, (e.lowered site).depth = e.depth := by
  induction e with
  | number digits span =>
    intro site
    simp [lowered, Tree.depth, depth]
  | call name params span ih =>
    intro site
    have hparams : Tree.depthAll (loweredAll params) = depthAll params := by
      rw [loweredAll_eq_map]
      exact Tree.depthAll_map (isNode_lowered .nested) fun e he => ih e he .nested
    cases site <;> simp [lowered, Lowering.Site.place, Tree.depth, depth, hparams]

end Expr

namespace Program

theorem depth_toTree (p : Program) : p.toTree.depth = p.depth := by
  rw [toTree, Tree.depth, Expr.depthAll_toTrees, depth]

theorem depth_lowered (p : Program) : p.lowered.depth = p.depth := by
  rw [lowered, Tree.depth, depth]
  exact Tree.depthAll_map (Expr.isNode_lowered .body) fun e _ => e.depth_lowered .body

end Program

namespace Tree

theorem depth_survives_stages :
    (∀ value : Tree, value.isNode = true → value.depth =
      (value.children.map depth).foldr max 0 + if value.tag = "CallExpression" then 1 else 0) ∧
    (∀ (room : Nat) (ts : List Token) (p : Program), Program.parse room ts = .ok p →
      IsGreatest {n : Int | ∃ us, us <+: ts ∧ Reader.unclosed us = n} p.toTree.depth) ∧
    (∀ (stack : Allowance) (p : Program), p.toTree.depth ≤ assuredNesting →
      ∃ target, p.toTree.lower stack.room (fun _ => none) = .ok target ∧
        target.depth = p.toTree.depth) := by
  refine ⟨?_, ?_, ?_⟩
  · intro value h
    exact depth_eq_foldr_children h
  · intro room ts p h
    rw [p.depth_toTree]
    exact Reader.isGreatest_depth_of_parse_ok h
  · intro stack p h
    rw [p.depth_toTree] at h ⊢
    exact ⟨_, Program.lower_assured stack h, p.depth_lowered⟩

theorem depth_survives_stages_of_branching_call :
    (Tree.invoke (.list [.custom ⟨none, "CallExpression", by simp⟩ none]) [.list []]
      none).depth = 2 ∧
    ∃ ts p, ts = [⟨.paren, "(", none⟩, ⟨.name, "f", none⟩, ⟨.paren, "(", none⟩,
        ⟨.name, "(", none⟩, ⟨.paren, ")", none⟩, ⟨.paren, "(", none⟩, ⟨.name, "g", none⟩,
        ⟨.number, ")", none⟩, ⟨.paren, ")", none⟩, ⟨.paren, ")", none⟩] ∧
      Program.parse 8 ts = .ok p ∧
      IsGreatest {n : Int | ∃ us, us <+: ts ∧ Reader.unclosed us = n} 2 ∧
      ∃ target, p.toTree.lower Allowance.usual.room (fun _ => none) = .ok target ∧
        target.depth = 2 := by
  obtain ⟨hwalk, hparse, hlower⟩ := depth_survives_stages
  refine ⟨hwalk _ rfl, _, ⟨[.call "f" [.call "(" [] none, .call "g" [.number ")" none] none] none],
    none⟩, rfl, rfl, ?_, ?_⟩
  · apply hparse 8 _ ⟨[.call "f" [.call "(" [] none, .call "g" [.number ")" none] none] none], none⟩
    rfl
  · exact hlower .usual _ (by decide)

end Tree

end CallForms
