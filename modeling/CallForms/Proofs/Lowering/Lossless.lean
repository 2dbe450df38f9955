import CallForms.Proofs.Compilation.Code
import Mathlib.Data.List.Forall2

namespace CallForms

namespace Tree

mutual

def raised : Tree → Tree
  | .number .target digits span => .number .source digits span
  | .program .target body span => .program .source (raisedAll body) span
  | .statement expression _ => raised expression
  | .invoke (.identifier name _) arguments span => .call name (raisedAll arguments) span
  | value => value

def raisedAll : List Tree → List Tree
  | [] => []
  | value :: rest => raised value :: raisedAll rest

end

def isStatement : Tree → Bool
  | .statement _ _ => true
  | _ => false

theorem raisedAll_eq_map (values : List Tree) : raisedAll values = values.map raised := by
  induction values with
  | nil => simp [raisedAll]
  | cons value rest ih => rw [raisedAll, ih, List.map_cons]

theorem nodesAll_map {f : Expr → Tree} (h : ∀ e, (f e).isNode = true) (es : List Expr) :
    nodesAll (es.map f) = es.flatMap fun e => (f e).nodes := by
  induction es with
  | nil => simp [nodesAll]
  | cons e rest ih => rw [List.map_cons, nodesAll, if_pos (h e), ih, List.flatMap_cons]

theorem raised_place (site : Lowering.Site) (value : Tree) (span : Option Span) :
    (site.place value span).raised = value.raised := by
  cases site <;> simp [Lowering.Site.place, raised]

def CallsFrom (source target : Tree) : Prop :=
  ∀ callee arguments span, .invoke callee arguments span ∈ target.nodes →
    ∃ name, callee = .identifier name span ∧
      .call name (raisedAll arguments) span ∈ source.nodes

end Tree

namespace Expr

variable {es : List Expr}

inductive Placed : Expr → Tree → Prop
  | number {digits : String} {span : Option Span} :
      Placed (.number digits span) (.number .target digits span)
  | call {name : String} {params : List Expr} {arguments : List Tree} {span : Option Span} :
      Placed (.call name params span)
        (.statement (.invoke (.identifier name span) arguments span) span)

theorem isNode_toTree (e : Expr) : e.toTree.isNode = true := by
  cases e <;> simp [toTree, Tree.isNode]

theorem isNode_lowered (site : Lowering.Site) (e : Expr) : (e.lowered site).isNode = true := by
  cases e with
  | number digits span => simp [lowered, Tree.isNode]
  | call name params span => cases site <;> simp [lowered, Lowering.Site.place, Tree.isNode]

theorem nodesAll_lowered (site : Lowering.Site) (es : List Expr) :
    Tree.nodesAll (es.map (lowered site)) = es.flatMap fun e => (e.lowered site).nodes :=
  Tree.nodesAll_map (isNode_lowered site) es

theorem mem_nodesAll_toTrees {value : Tree} :
    value ∈ Tree.nodesAll (toTrees es) ↔ ∃ e ∈ es, value ∈ e.toTree.nodes := by
  rw [toTrees_eq_map, Tree.nodesAll_map isNode_toTree, List.mem_flatMap]

theorem raised_lowered (e : Expr) : ∀ site : Lowering.Site, (e.lowered site).raised = e.toTree := by
  induction e with
  | number digits span =>
    intro site
    simp [lowered, toTree, Tree.raised]
  | call name params span ih =>
    intro site
    have hparams : Tree.raisedAll (loweredAll params) = toTrees params := by
      rw [Tree.raisedAll_eq_map, loweredAll_eq_map, toTrees_eq_map, List.map_map]
      exact List.map_congr_left fun e he => ih e he .nested
    rw [lowered, Tree.raised_place, Tree.raised, hparams, toTree]

theorem statements_lowered_nested (e : Expr) :
    (e.lowered .nested).nodes.filter Tree.isStatement = [] := by
  induction e with
  | number digits span => simp [lowered, Tree.nodes, Tree.isStatement]
  | call name params span ih =>
    have hparams : (Tree.nodesAll (loweredAll params)).filter Tree.isStatement = [] := by
      rw [loweredAll_eq_map, nodesAll_lowered, List.filter_flatMap, List.flatMap_eq_nil_iff]
      exact ih
    simp [lowered, Lowering.Site.place, Tree.nodes, Tree.isStatement, hparams]

theorem statements_lowered_body (e : Expr) :
    (e.lowered .body).nodes.filter Tree.isStatement =
      [e.lowered .body].filter Tree.isStatement := by
  cases e with
  | number digits span => simp [lowered, Tree.nodes]
  | call name params span =>
    have hcall := statements_lowered_nested (.call name params span)
    simp only [lowered, Lowering.Site.place] at hcall ⊢
    rw [Tree.nodes, List.filter_cons_of_pos (by rfl), hcall]
    rfl

theorem statements_lowered_all (es : List Expr) :
    (Tree.nodesAll (es.map (lowered .body))).filter Tree.isStatement =
      (es.map (lowered .body)).filter Tree.isStatement := by
  rw [nodesAll_lowered, List.filter_flatMap]
  induction es with
  | nil => rfl
  | cons e rest ih =>
    rw [List.flatMap_cons, ih, statements_lowered_body, List.map_cons, ← List.filter_append,
      List.singleton_append]

theorem callsFrom_lowered_nested (e : Expr) : e.toTree.CallsFrom (e.lowered .nested) := by
  induction e with
  | number digits span =>
    intro callee arguments span' h
    simp [lowered, Tree.nodes] at h
  | call name params span ih =>
    intro callee arguments span' h
    have hraised := raised_lowered (.call name params span) .nested
    simp only [lowered, Lowering.Site.place, Tree.nodes, List.mem_cons, List.mem_append,
      List.not_mem_nil, or_false, reduceCtorEq, false_or] at h hraised
    rcases h with hhere | hbelow
    · cases hhere
      refine ⟨name, rfl, ?_⟩
      rw [Tree.raised] at hraised
      rw [hraised, toTree, Tree.nodes]
      exact List.mem_cons_self
    · rw [loweredAll_eq_map, nodesAll_lowered, List.mem_flatMap] at hbelow
      obtain ⟨d, hd, hmem⟩ := hbelow
      obtain ⟨called, hcallee, hcall⟩ := ih d hd callee arguments span' hmem
      refine ⟨called, hcallee, ?_⟩
      rw [toTree, Tree.nodes]
      apply List.mem_cons_of_mem
      exact mem_nodesAll_toTrees.mpr ⟨d, hd, hcall⟩

theorem callsFrom_lowered_body (e : Expr) : e.toTree.CallsFrom (e.lowered .body) := by
  have hnested := callsFrom_lowered_nested e
  cases e with
  | number digits span => exact hnested
  | call name params span =>
    intro callee arguments span' h
    simp only [lowered, Lowering.Site.place] at h hnested
    rw [Tree.nodes, List.mem_cons] at h
    exact hnested callee arguments span' (h.resolve_left (by simp))

theorem placed_lowered (e : Expr) : e.Placed (e.lowered .body) := by
  cases e with
  | number digits span => exact .number
  | call name params span => exact .call

end Expr

namespace Program

theorem raised_lowered (p : Program) : p.lowered.raised = p.toTree := by
  rw [lowered, Tree.raised, Tree.raisedAll_eq_map, List.map_map, toTree, Expr.toTrees_eq_map]
  congr 1
  exact List.map_congr_left fun e _ => Expr.raised_lowered e .body

theorem callsFrom_lowered (p : Program) :
    p.toTree.CallsFrom p.lowered := by
  intro callee arguments span h
  rw [lowered, Tree.nodes, List.mem_cons, Expr.nodesAll_lowered, List.mem_flatMap] at h
  obtain ⟨e, he, hmem⟩ := h.resolve_left (by simp)
  obtain ⟨name, hcallee, hcall⟩ := e.callsFrom_lowered_body callee arguments span hmem
  refine ⟨name, hcallee, ?_⟩
  rw [toTree, Tree.nodes]
  apply List.mem_cons_of_mem
  exact Expr.mem_nodesAll_toTrees.mpr ⟨e, he, hcall⟩

theorem lowering_is_lossless (stack : Allowance) (p : Program) (h : p.depth ≤ assuredNesting) :
    ∃ body, p.toTree.lower stack.room (fun _ => none) = .ok (.program .target body p.span) ∧
      (Tree.program .target body p.span).raised = p.toTree ∧
      List.Forall₂ Expr.Placed p.body body ∧
      (Tree.program .target body p.span).nodes.filter Tree.isStatement =
        body.filter Tree.isStatement ∧
      p.toTree.CallsFrom (.program .target body p.span) := by
  refine ⟨_, lower_assured stack h, p.raised_lowered, ?_, ?_, p.callsFrom_lowered⟩
  · rw [List.forall₂_map_right_iff, List.forall₂_same]
    intro e _
    exact e.placed_lowered
  · rw [Tree.nodes, List.filter_cons_of_neg (by simp [Tree.isStatement])]
    exact Expr.statements_lowered_all p.body

theorem lowering_is_lossless_of_nested_call :
    ∃ body, Tree.lower Allowance.usual.room (fun _ => none) (toTree ⟨[.number "7" none,
        .call "f" [.call "" [] (some ⟨⟨1, 5, 4, none⟩, ⟨2, 1, 8, some "a"⟩⟩), .number "x" none]
          none], none⟩) = .ok (.program .target body none) ∧
      body = [.number .target "7" none,
        .statement (.invoke (.identifier "f" none)
          [.invoke (.identifier "" (some ⟨⟨1, 5, 4, none⟩, ⟨2, 1, 8, some "a"⟩⟩)) []
            (some ⟨⟨1, 5, 4, none⟩, ⟨2, 1, 8, some "a"⟩⟩), .number .target "x" none] none) none] ∧
      (Tree.program .target body none).nodes.filter Tree.isStatement =
        body.filter Tree.isStatement := by
  obtain ⟨body, hlower, -, -, hstatements, -⟩ := lowering_is_lossless .usual ⟨[.number "7" none,
    .call "f" [.call "" [] (some ⟨⟨1, 5, 4, none⟩, ⟨2, 1, 8, some "a"⟩⟩), .number "x" none] none],
    none⟩ (by decide)
  refine ⟨body, hlower, ?_, hstatements⟩
  cases hlower
  rfl

end Program

end CallForms
