import CallForms.Proofs.Lowering.Appending
import CallForms.Proofs.Lowering.Refusal

namespace CallForms.Lowering

inductive Counterpart : Bool → Tree → Tree → Prop
  | number {inBody : Bool} {digits : String} {span : Option Span} :
      Counterpart inBody (.number .source digits span) (.number .target digits span)
  | statement {name : String} {params arguments : List Tree} {span : Option Span}
      (h : List.Forall₂ (Counterpart false) params arguments) :
      Counterpart true (.call name params span)
        (.statement (.invoke (.identifier name span) arguments span) span)
  | expression {name : String} {params arguments : List Tree} {span : Option Span}
      (h : List.Forall₂ (Counterpart false) params arguments) :
      Counterpart false (.call name params span) (.invoke (.identifier name span) arguments span)

inductive Adds (parent : Option Tree) : Tree → List Tree → Prop
  | program {body added : List Tree} {span : Option Span} (hp : ∀ p ∈ parent, p = .plain .null)
      (h : List.Forall₂ (Counterpart true) body added) :
      Adds parent (.program .source body span) added
  | single {value made : Tree} (h : Counterpart (parent.any Tree.isSourceProgram) value made) :
      Adds parent value [made]

-- What is left of a value when `w` stops its traversal: nothing of `w` itself or behind it.
structure Remnant (room : Nat) (parent : Option Tree) (value w : Tree) (added : List Tree) :
    Prop where
  itself : w = value → added = []
  inside : w ≠ value → ∃ before after, value.held = before ++ w :: after ∧
    (value.keep before.length).held.map Tree.stub = before.map Tree.stub ∧
    ∀ context, traverse room (value.keep before.length) parent context = (context ++ added, none)

inductive Ends (site : Site) : Tree → Visit → Prop
  | expr (e : Expr) : Ends site e.toTree ⟨[e.lowered site], none⟩
  | program {es : List Expr} {span : Option Span} (hsite : site = .root) :
      Ends site (.program .source (Expr.toTrees es) span) ⟨es.map (Expr.lowered .body), none⟩
  | refused (value : Tree) : Ends site value (refuse [] value)
  | inCall {w : Tree} {name : String} {params : List Tree} {es : List Expr} {span : Option Span}
      (h : Tree.Breaks w params es) :
      Ends site (.call name params span)
        ⟨[(Expr.call name es span).lowered site], some (.unknown w)⟩
  | inBody {w : Tree} {body : List Tree} {es : List Expr} {span : Option Span}
      (hsite : site = .root) (h : Tree.Breaks w body es) :
      Ends site (.program .source body span)
        ⟨es.map (Expr.lowered .body), some (.unknown w)⟩

variable {levels : Nat} {site : Site} {w value : Tree} {values : List Tree} {es : List Expr}
  {parent : Option Tree} {span : Option Span}

theorem visit_call_of_breaks {name : String} (h : Tree.Breaks w values es)
    (hlevels : Tree.depthAll values < levels) :
    visit (fun _ => none) (levels + 1) site (.call name values span) [] =
      ⟨[(Expr.call name es span).lowered site], some (.unknown w)⟩ := by
  have hvalues : visitAll (fun _ => none) levels .nested values [] =
      ⟨[] ++ es.map (Expr.lowered .nested), some (.unknown w)⟩ :=
    visitAll_of_breaks h (by simp) hlevels []
  simp [visit, hvalues, Expr.lowered, Expr.loweredAll_eq_map]

theorem ends_call {name : String} (h : (Tree.call name values span).depth < levels + 1) :
    Ends site (.call name values span)
      (visit (fun _ => none) (levels + 1) site (.call name values span) []) := by
  have hdepth := h
  rw [Tree.depth] at hdepth
  rcases Tree.exprs_or_breaks values with ⟨es, rfl⟩ | ⟨w, es, hbreaks⟩
  · have hcall : Tree.call name (Expr.toTrees es) span = (Expr.call name es span).toTree := by
      rw [Expr.toTree]
    rw [hcall, Expr.depth_toTree] at h
    rw [hcall, visit_shallow h site]
    exact .expr _
  · rw [visit_call_of_breaks hbreaks (by omega)]
    exact .inCall hbreaks

theorem visit_program (levels : Nat) (values : List Tree) (span : Option Span)
    (context : List Tree) :
    visit (fun _ => none) (levels + 1) .root (.program .source values span) context =
      visitAll (fun _ => none) levels .body values context := by
  simp [visit]

theorem ends_program (h : Tree.depthAll values < levels) :
    Ends .root (.program .source values span)
      (visit (fun _ => none) (levels + 1) .root (.program .source values span) []) := by
  rw [visit_program]
  rcases Tree.exprs_or_breaks values with ⟨es, rfl⟩ | ⟨w, es, hbreaks⟩
  · rw [visitAll_shallow .body h]
    exact .program rfl
  · rw [visitAll_of_breaks hbreaks (by simp) h]
    exact .inBody rfl hbreaks

theorem ends_visit (site : Site) (value : Tree) (h : value.depth < levels) :
    Ends site value (visit (fun _ => none) (levels + 1) site value []) := by
  cases hexpr : value.isSourceExpr with
  | true =>
    unfold Tree.isSourceExpr at hexpr
    split at hexpr
    · next digits span =>
      have hnumber : Ends site _ _ := .expr (.number digits span)
      simpa [visit, append, Expr.toTree, Expr.lowered] using hnumber
    · exact ends_call (Nat.lt_succ_of_lt h)
    · cases hexpr
  | false =>
    by_cases hroot : site = .root → value.isSourceProgram = false
    · rw [visit_foreign hexpr hroot]
      exact .refused value
    · simp only [Classical.not_imp, Bool.not_eq_false] at hroot
      obtain ⟨rfl, hprogram⟩ := hroot
      obtain ⟨body, span, rfl⟩ := Tree.exists_of_isSourceProgram hprogram
      rw [Tree.depth] at h
      exact ends_program h

theorem below_eq_body (parent : Option Tree) :
    decide (Site.below parent = .body) = parent.any Tree.isSourceProgram := by
  unfold Site.below
  split <;> simp [Tree.isSourceProgram]

theorem absent_of_below_eq_root (h : Site.below parent = .root) :
    ∀ p ∈ parent, p = .plain .null := by
  unfold Site.below at h
  split at h <;> simp at h ⊢

theorem counterpart_lowered (e : Expr) : ∀ site : Site,
    Counterpart (decide (site = .body)) e.toTree (e.lowered site) := by
  induction e with
  | number digits span =>
    intro site
    rw [Expr.toTree, Expr.lowered]
    exact .number
  | call name params span ih =>
    intro site
    have hparams : List.Forall₂ (Counterpart false) (Expr.toTrees params)
        (Expr.loweredAll params) := by
      rw [Expr.toTrees_eq_map, Expr.loweredAll_eq_map, List.forall₂_map_left_iff,
        List.forall₂_map_right_iff, List.forall₂_same]
      exact fun e he => ih e he .nested
    rw [Expr.toTree, Expr.lowered]
    cases site with
    | root => exact .expression hparams
    | body => exact .statement hparams
    | nested => exact .expression hparams

theorem counterparts_lowered (es : List Expr) :
    List.Forall₂ (Counterpart true) (Expr.toTrees es) (es.map (Expr.lowered .body)) := by
  rw [Expr.toTrees_eq_map, List.forall₂_map_left_iff, List.forall₂_map_right_iff,
    List.forall₂_same]
  exact fun e _ => counterpart_lowered e .body

theorem traverse_toTree (stack : Allowance) {e : Expr} (h : e.depth ≤ assuredNesting)
    (parent : Option Tree) (context : List Tree) :
    traverse stack.room e.toTree parent context =
      (context ++ [e.lowered (.below parent)], none) := by
  have hlevels := stack.levels_ge
  have hvisit := visit_shallow (by omega : e.depth < levelsIn stack.room) (.below parent) context
  rw [traverse, hvisit]
  rfl

theorem traverse_program (stack : Allowance) (h : Expr.depthAll es ≤ assuredNesting)
    (hroot : Site.below parent = .root) (context : List Tree) :
    traverse stack.room (.program .source (Expr.toTrees es) span) parent context =
      (context ++ es.map (Expr.lowered .body), none) := by
  have hlevels := stack.levels_ge
  obtain ⟨levels, heq⟩ := Nat.exists_eq_succ_of_ne_zero (Nat.ne_zero_of_lt hlevels)
  have hlt : Tree.depthAll (Expr.toTrees es) < levels := by
    rw [Expr.depthAll_toTrees]
    omega
  rw [traverse, hroot, heq, visit_program, visitAll_shallow .body hlt]
  rfl

theorem remnant_of_call (stack : Allowance) {name : String} (h : Tree.Breaks w values es)
    (hdepth : Tree.depthAll values < assuredNesting) (parent : Option Tree) :
    Remnant stack.room parent (.call name values span) w
      [(Expr.call name es span).lowered (.below parent)] := by
  constructor
  · rintro rfl
    cases h.isSourceExpr_eq_false
  · intro _
    obtain ⟨before, after, heq, -, hkeep, hstub⟩ := h.preorder_eq
    have hle := h.depthAll_le
    have hkept : (Expr.call name es span).depth ≤ assuredNesting := by
      rw [Expr.depth]
      omega
    refine ⟨before, after, by rw [Tree.held, heq], ?_, ?_⟩
    · rw [Tree.keep, hkeep, Tree.held, hstub]
    · intro context
      rw [Tree.keep, hkeep, ← traverse_toTree stack hkept, Expr.toTree]

theorem remnant_of_program (stack : Allowance) (h : Tree.Breaks w values es)
    (hdepth : Tree.depthAll values ≤ assuredNesting) (hroot : Site.below parent = .root) :
    Remnant stack.room parent (.program .source values span) w
      (es.map (Expr.lowered .body)) := by
  obtain ⟨before, after, heq, -, hkeep, hstub⟩ := h.preorder_eq
  constructor
  · intro hw
    -- Both may be programs, so only their sizes tell them apart.
    have hlt := Tree.sizeOf_lt_of_mem_preorder (heq ▸ List.mem_append_cons_self)
    rw [hw, Tree.program.sizeOf_spec] at hlt
    omega
  · intro _
    refine ⟨before, after, by rw [Tree.held, heq], ?_, ?_⟩
    · rw [Tree.keep, hkeep, Tree.held, hstub]
    · intro context
      rw [Tree.keep, hkeep, traverse_program stack (Nat.le_trans h.depthAll_le hdepth) hroot]

theorem remnant_of_refused (room : Nat) (parent : Option Tree) (value : Tree) :
    Remnant room parent value value [] :=
  ⟨fun _ => rfl, fun h => absurd rfl h⟩

theorem traverse_eq (room : Nat) (value : Tree) (parent : Option Tree) (context : List Tree) :
    traverse room value parent context =
      (context ++ (traverse room value parent []).1, (traverse room value parent []).2) := by
  rw [traverse, appends_visit]
  rfl

theorem exists_ends (stack : Allowance) (value : Tree) (parent : Option Tree)
    (h : value.depth ≤ assuredNesting) :
    ∃ walk, Ends (.below parent) value walk ∧ ∀ context,
      traverse stack.room value parent context =
        (context ++ walk.context, walk.stop.map Interruption.ofStop) := by
  have hlevels := stack.levels_ge
  obtain ⟨levels, heq⟩ := Nat.exists_eq_succ_of_ne_zero (Nat.ne_zero_of_lt hlevels)
  have hdepth : value.depth < levels := by omega
  refine ⟨_, ends_visit (.below parent) value hdepth, fun context => ?_⟩
  rw [traverse_eq, traverse, heq]

theorem traverse_cases (stack : Allowance) (value : Tree) (parent : Option Tree)
    (h : value.depth ≤ assuredNesting) :
    ∃ added, (Adds parent value added ∧
        ∀ context, traverse stack.room value parent context = (context ++ added, none)) ∨
      ∃ w, Remnant stack.room parent value w added ∧ ∀ context,
        traverse stack.room value parent context =
          (context ++ added, some (.fault (.unknownNode stage w))) := by
  obtain ⟨walk, hends, htraverse⟩ := exists_ends stack value parent h
  refine ⟨walk.context, ?_⟩
  cases hends with
  | expr e =>
    refine .inl ⟨.single ?_, htraverse⟩
    rw [← below_eq_body]
    exact counterpart_lowered e _
  | program hroot =>
    exact .inl ⟨.program (absent_of_below_eq_root hroot) (counterparts_lowered _), htraverse⟩
  | refused => exact .inr ⟨value, remnant_of_refused stack.room parent value, htraverse⟩
  | inCall hbreaks =>
    rw [Tree.depth] at h
    exact .inr ⟨_, remnant_of_call stack hbreaks (by omega) parent, htraverse⟩
  | inBody hroot hbreaks =>
    rw [Tree.depth] at h
    exact .inr ⟨_, remnant_of_program stack hbreaks h hroot, htraverse⟩

theorem foldl_traverse (room : Nat) (calls : List (Tree × Option Tree)) (context : List Tree) :
    calls.foldl (fun context call => (traverse room call.1 call.2 context).1) context =
      context ++ calls.flatMap fun call => (traverse room call.1 call.2 []).1 := by
  induction calls generalizing context with
  | nil => simp
  | cons call rest ih =>
    rw [List.foldl_cons, ih, traverse_eq, List.flatMap_cons, List.append_assoc]

theorem traversal_leaves_what_precedes :
    (∀ (stack : Allowance) (value : Tree) (parent : Option Tree) (context : List Tree),
      value.depth ≤ assuredNesting →
      ∃ added, (traverse stack.room value parent context).1 = context ++ added ∧
        (((traverse stack.room value parent context).2 = none ∧ Adds parent value added) ∨
          ∃ f w, (traverse stack.room value parent context).2 = some (.fault f) ∧
            f.Refuses "transformer" w ∧ Remnant stack.room parent value w added)) ∧
    ∀ (room : Nat) (calls : List (Tree × Option Tree)) (context : List Tree),
      calls.foldl (fun context call => (traverse room call.1 call.2 context).1) context =
        context ++ calls.flatMap fun call => (traverse room call.1 call.2 []).1 := by
  refine ⟨?_, foldl_traverse⟩
  intro stack value parent context h
  obtain ⟨added, ⟨hadds, htraverse⟩ | ⟨w, hremnant, htraverse⟩⟩ :=
    traverse_cases stack value parent h
  · rw [htraverse]
    exact ⟨added, rfl, .inl ⟨rfl, hadds⟩⟩
  · rw [htraverse]
    exact ⟨added, rfl, .inr ⟨_, w, rfl, Fault.refuses_unknownNode _ _, hremnant⟩⟩

theorem traversal_leaves_what_precedes_inside_call :
    ∃ value parent added w, value = Tree.call "f" [.number .source "1" none,
        .call "g" [.call "h" [] none, .token ⟨.name, "x", none⟩, .number .source "2" none] none,
        .list []] none ∧
      parent = some (Tree.program .source [value] none) ∧
      (traverse Allowance.usual.room value parent [.identifier "a" none]).1 =
        [.identifier "a" none] ++ added ∧
      added = [.statement (.invoke (.identifier "f" none) [.number .target "1" none,
        .invoke (.identifier "g" none) [.invoke (.identifier "h" none) [] none] none] none) none] ∧
      w = .token ⟨.name, "x", none⟩ ∧ Remnant Allowance.usual.room parent value w added := by
  obtain ⟨added, hadded, hcase⟩ := traversal_leaves_what_precedes.1 .usual
    (.call "f" [.number .source "1" none,
      .call "g" [.call "h" [] none, .token ⟨.name, "x", none⟩, .number .source "2" none] none,
      .list []] none)
    (some (.program .source [.call "f" [.number .source "1" none,
      .call "g" [.call "h" [] none, .token ⟨.name, "x", none⟩, .number .source "2" none] none,
      .list []] none] none)) [.identifier "a" none] (by decide)
  rcases hcase with ⟨hnone, -⟩ | ⟨f, w, hf, hrefuses, hremnant⟩
  · cases hnone
  · refine ⟨_, _, added, w, rfl, rfl, hadded, ?_, ?_, hremnant⟩
    · exact (List.append_cancel_left hadded).symm
    · have hcause := hrefuses.cause
      cases hf
      cases hcause
      rfl

end CallForms.Lowering
