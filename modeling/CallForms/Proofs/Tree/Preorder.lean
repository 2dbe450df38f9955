import CallForms.Proofs.Tree.Depth

namespace CallForms

namespace Tree

def isSourceProgram : Tree → Bool
  | .program .source _ _ => true
  | _ => false

def isSourceExpr : Tree → Bool
  | .number .source _ _ => true
  | .call _ _ _ => true
  | _ => false

theorem exists_of_isSourceProgram {value : Tree} (h : value.isSourceProgram = true) :
    ∃ body span, value = .program .source body span := by
  unfold isSourceProgram at h
  split at h
  · exact ⟨_, _, rfl⟩
  · cases h

mutual

def held : Tree → List Tree
  | .call _ params _ => preorder params
  | .program .source body _ => preorder body
  | _ => []

def preorder : List Tree → List Tree
  | [] => []
  | value :: rest => value :: (held value ++ preorder rest)

end

def stub : Tree → Tree
  | .call name _ span => .call name [] span
  | .program .source _ span => .program .source [] span
  | value => value

mutual

def keep : Nat → Tree → Tree
  | count, .call name params span => .call name (keepAll count params) span
  | count, .program .source body span => .program .source (keepAll count body) span
  | _, value => value

def keepAll : Nat → List Tree → List Tree
  | _, [] => []
  | 0, _ :: _ => []
  | count + 1, value :: rest => keep count value :: keepAll (count - (held value).length) rest

end

theorem keepAll_zero (values : List Tree) : keepAll 0 values = [] := by
  cases values <;> simp [keepAll]

theorem keepAll_of_length_le {values : List Tree}
    (hkeep : ∀ v ∈ values, ∀ count, v.held.length ≤ count → v.keep count = v) {count : Nat}
    (h : (preorder values).length ≤ count) : keepAll count values = values := by
  induction values generalizing count with
  | nil => simp [keepAll]
  | cons value rest ih =>
    rw [preorder, List.length_cons, List.length_append] at h
    obtain ⟨count, rfl⟩ := Nat.exists_eq_succ_of_ne_zero (Nat.ne_zero_of_lt h)
    rw [keepAll, hkeep value (by simp) count (by omega),
      ih (fun v hv => hkeep v (by simp [hv])) (by omega)]

theorem keep_toTree (e : Expr) : ∀ count, e.toTree.held.length ≤ count →
    e.toTree.keep count = e.toTree := by
  induction e with
  | number digits span => simp [Expr.toTree, keep]
  | call name params span ih =>
    intro count h
    rw [Expr.toTree, held] at h
    rw [Expr.toTree, keep, keepAll_of_length_le _ h]
    rw [Expr.toTrees_eq_map, List.forall_mem_map]
    exact ih

theorem sizeOf_lt_of_mem_preorder : ∀ {values : List Tree} {v : Tree}, v ∈ preorder values →
    sizeOf v < sizeOf values
  | [], v, h => by simp [preorder] at h
  | value :: rest, v, h => by
    rw [preorder, List.mem_cons, List.mem_append] at h
    rw [List.cons.sizeOf_spec]
    rcases h with rfl | hheld | hrest
    · omega
    · unfold held at hheld
      split at hheld
      · have hlt := sizeOf_lt_of_mem_preorder hheld
        rw [call.sizeOf_spec]
        omega
      · have hlt := sizeOf_lt_of_mem_preorder hheld
        rw [program.sizeOf_spec]
        omega
      · cases hheld
    · have hlt := sizeOf_lt_of_mem_preorder hrest
      omega

variable {w : Tree} {values : List Tree} {es : List Expr}

-- The first value in preorder that is no expression is `w`. Before it come `es`, those around it
-- with only the arguments that come before it.
inductive Breaks (w : Tree) : List Tree → List Expr → Prop
  | here {rest : List Tree} (hw : w.isSourceExpr = false) : Breaks w (w :: rest) []
  | inside {name : String} {params rest : List Tree} {es : List Expr} {span : Option Span}
      (h : Breaks w params es) : Breaks w (.call name params span :: rest) [.call name es span]
  | later {e : Expr} {rest : List Tree} {es : List Expr} (h : Breaks w rest es) :
      Breaks w (e.toTree :: rest) (e :: es)

theorem exists_toTrees_cons (e : Expr)
    (h : (∃ es, values = Expr.toTrees es) ∨ ∃ w es, Breaks w values es) :
    (∃ es, e.toTree :: values = Expr.toTrees es) ∨ ∃ w es, Breaks w (e.toTree :: values) es := by
  rcases h with ⟨es, rfl⟩ | ⟨w, es, hbreaks⟩
  · exact .inl ⟨e :: es, by rw [Expr.toTrees]⟩
  · exact .inr ⟨w, e :: es, .later hbreaks⟩

theorem exprs_or_breaks : ∀ values : List Tree,
    (∃ es, values = Expr.toTrees es) ∨ ∃ w es, Breaks w values es
  | [] => .inl ⟨[], by rw [Expr.toTrees]⟩
  | value :: rest => by
    have hrest := exprs_or_breaks rest
    cases value with
    | call name params span =>
      rcases exprs_or_breaks params with ⟨es, rfl⟩ | ⟨w, es, hbreaks⟩
      · have hcall := exists_toTrees_cons (.call name es span) hrest
        rwa [Expr.toTree] at hcall
      · exact .inr ⟨w, _, .inside hbreaks⟩
    | number family digits span =>
      cases family with
      | source =>
        have hnumber := exists_toTrees_cons (.number digits span) hrest
        rwa [Expr.toTree] at hnumber
      | target => exact .inr ⟨_, [], .here rfl⟩
    | _ => exact .inr ⟨_, [], .here rfl⟩

theorem isSourceExpr_toTree (e : Expr) : e.toTree.isSourceExpr = true := by
  cases e <;> simp [Expr.toTree, isSourceExpr]

theorem preorder_toTrees_of (h : ∀ e ∈ es, ∀ v ∈ e.toTree.held, v.isSourceExpr = true) :
    ∀ v ∈ preorder (Expr.toTrees es), v.isSourceExpr = true := by
  induction es with
  | nil => simp [Expr.toTrees, preorder]
  | cons e rest ih =>
    have hrest := ih fun d hd => h d (by simp [hd])
    rw [Expr.toTrees, preorder, List.forall_mem_cons, List.forall_mem_append]
    exact ⟨isSourceExpr_toTree e, h e (by simp), hrest⟩

theorem held_toTree (e : Expr) : ∀ v ∈ e.toTree.held, v.isSourceExpr = true := by
  induction e with
  | number digits span => simp [Expr.toTree, held]
  | call name params span ih =>
    rw [Expr.toTree, held]
    exact preorder_toTrees_of ih

theorem preorder_toTrees (es : List Expr) :
    ∀ v ∈ preorder (Expr.toTrees es), v.isSourceExpr = true :=
  preorder_toTrees_of fun e _ => held_toTree e

namespace Breaks

theorem isSourceExpr_eq_false (h : Breaks w values es) : w.isSourceExpr = false := by
  induction h with
  | here hw => exact hw
  | inside _ ih => exact ih
  | later _ ih => exact ih

theorem preorder_eq (h : Breaks w values es) :
    ∃ before after, preorder values = before ++ w :: after ∧
      (∀ v ∈ before, v.isSourceExpr = true) ∧ keepAll before.length values = Expr.toTrees es ∧
      (preorder (Expr.toTrees es)).map stub = before.map stub := by
  induction h with
  | @here rest hw =>
    refine ⟨[], held w ++ preorder rest, ?_, by simp, ?_, ?_⟩
    · rw [preorder]
      rfl
    · rw [List.length_nil, keepAll_zero, Expr.toTrees]
    · simp [Expr.toTrees, preorder]
  | @inside name params rest es span _ ih =>
    obtain ⟨before, after, heq, hbefore, hkeep, hstub⟩ := ih
    refine ⟨.call name params span :: before, after ++ preorder rest, ?_, ?_, ?_, ?_⟩
    · rw [preorder, held, heq]
      simp
    · rw [List.forall_mem_cons]
      exact ⟨rfl, hbefore⟩
    · have hnone : before.length - (preorder params).length = 0 := by
        simp [heq]
      rw [List.length_cons, keepAll, keep, held, hkeep, hnone, keepAll_zero]
      simp [Expr.toTrees, Expr.toTree]
    · simp [Expr.toTrees, Expr.toTree, preorder, held, stub, hstub]
  | @later e rest es _ ih =>
    obtain ⟨before, after, heq, hbefore, hkeep, hstub⟩ := ih
    refine ⟨e.toTree :: (held e.toTree ++ before), after, ?_, ?_, ?_, ?_⟩
    · rw [preorder, heq]
      simp
    · rw [List.forall_mem_cons, List.forall_mem_append]
      exact ⟨isSourceExpr_toTree e, held_toTree e, hbefore⟩
    · rw [List.length_cons, List.length_append, keepAll, keep_toTree e _ (by omega),
        Nat.add_sub_cancel_left, hkeep, Expr.toTrees]
    · simp [Expr.toTrees, preorder, hstub]

theorem depthAll_le (h : Breaks w values es) : Expr.depthAll es ≤ depthAll values := by
  induction h with
  | here _ => simp [Expr.depthAll]
  | inside _ ih =>
    rw [depthAll_cons (by rfl), depth]
    simp only [Expr.depthAll, Expr.depth]
    omega
  | @later e rest es _ ih =>
    rw [depthAll_cons e.isNode_toTree, e.depth_toTree, Expr.depthAll]
    omega

theorem find?_eq (h : Breaks w values es) :
    (preorder values).find? (fun v => !v.isSourceExpr) = some w := by
  obtain ⟨before, after, heq, hbefore, -⟩ := h.preorder_eq
  rw [List.find?_eq_some_iff_append]
  refine ⟨by simp [h.isSourceExpr_eq_false], before, after, heq, ?_⟩
  intro v hv
  simp [hbefore v hv]

end Breaks

end Tree

end CallForms
