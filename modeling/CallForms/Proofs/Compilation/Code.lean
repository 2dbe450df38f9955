import CallForms.Compilation
import CallForms.Proofs.Reader.Inverse
import CallForms.Proofs.Source.Scan

namespace CallForms

namespace Tree

mutual

def levels : Tree → Nat
  | .call _ params _ => levelsAll params + 1
  | .program _ body _ => levelsAll body + 1
  | .invoke callee arguments _ => max (levels callee) (levelsAll arguments) + 1
  | .statement expression _ => levels expression + 1
  | _ => 1

def levelsAll : List Tree → Nat
  | [] => 0
  | value :: rest => max (levels value) (levelsAll rest)

end

theorem levelsAll_append (values others : List Tree) :
    levelsAll (values ++ others) = max (levelsAll values) (levelsAll others) := by
  induction values with
  | nil => simp [levelsAll]
  | cons value rest ih => simp only [List.cons_append, levelsAll, ih, Nat.max_assoc]

theorem levelsAll_map_le {α : Type} {f : α → Tree} {xs : List α} {n : Nat}
    (h : ∀ x ∈ xs, (f x).levels ≤ n) : levelsAll (xs.map f) ≤ n := by
  induction xs with
  | nil => exact Nat.zero_le n
  | cons x rest ih =>
    rw [List.map_cons, levelsAll]
    exact Nat.max_le.mpr ⟨h x (by simp), ih fun y hy => h y (by simp [hy])⟩

theorem levels_le_of_mem {α : Type} {f : α → Tree} {xs : List α} {n : Nat}
    (h : levelsAll (xs.map f) ≤ n) : ∀ x ∈ xs, (f x).levels ≤ n := by
  induction xs with
  | nil => simp
  | cons x rest ih =>
    rw [List.map_cons, levelsAll, Nat.max_le] at h
    rw [List.forall_mem_cons]
    exact ⟨h.1, ih h.2⟩

end Tree

theorem Allowance.levels_ge (stack : Allowance) :
    2 * assuredNesting + 4 ≤ levelsIn stack.room := by
  have h := stack.assured
  rw [levelsIn]
  omega

namespace Expr

mutual

def rendering : Expr → String
  | .number digits _ => digits
  | .call name params _ => name ++ "(" ++ ", ".intercalate (renderings params) ++ ")"

def renderings : List Expr → List String
  | [] => []
  | e :: rest => rendering e :: renderings rest

end

def statement : Expr → String
  | .number digits _ => digits
  | .call name params span => (Expr.call name params span).rendering ++ ";"

def code (es : List Expr) : String :=
  "\n".intercalate (es.map statement)

mutual

def lowered (site : Lowering.Site) : Expr → Tree
  | .number digits span => .number .target digits span
  | .call name params span =>
    site.place (.invoke (.identifier name span) (loweredAll params) span) span

def loweredAll : List Expr → List Tree
  | [] => []
  | e :: rest => lowered .nested e :: loweredAll rest

end

theorem renderings_eq_map (es : List Expr) : renderings es = es.map rendering := by
  induction es with
  | nil => rfl
  | cons e rest ih => rw [renderings, ih, List.map_cons]

theorem loweredAll_eq_map (es : List Expr) : loweredAll es = es.map (lowered .nested) := by
  induction es with
  | nil => rfl
  | cons e rest ih => rw [loweredAll, ih, List.map_cons]

theorem toTrees_eq_map (es : List Expr) : toTrees es = es.map toTree := by
  induction es with
  | nil => simp [toTrees]
  | cons e rest ih => rw [toTrees, ih, List.map_cons]

theorem levels_toTree_le (e : Expr) : e.toTree.levels ≤ e.depth + 1 := by
  induction e with
  | number digits span => simp [toTree, Tree.levels]
  | call name params span ih =>
    have hp : Tree.levelsAll (toTrees params) ≤ depthAll params + 1 := by
      rw [toTrees_eq_map]
      apply Tree.levelsAll_map_le
      intro e he
      exact Nat.le_trans (ih e he)
        (Nat.succ_le_succ (depthAll_le_iff.mp (Nat.le_refl _) e he))
    rw [toTree, Tree.levels, depth]
    exact Nat.succ_le_succ hp

theorem levels_lowered_le (e : Expr) : (e.lowered .nested).levels ≤ e.depth + 1 := by
  induction e with
  | number digits span => simp [lowered, Tree.levels]
  | call name params span ih =>
    have hp : Tree.levelsAll (loweredAll params) ≤ depthAll params + 1 := by
      rw [loweredAll_eq_map]
      apply Tree.levelsAll_map_le
      intro e he
      exact Nat.le_trans (ih e he)
        (Nat.succ_le_succ (depthAll_le_iff.mp (Nat.le_refl _) e he))
    simp only [lowered, Lowering.Site.place, Tree.levels, depth]
    omega

theorem levels_lowered_body_le (e : Expr) : (e.lowered .body).levels ≤ e.depth + 2 := by
  have hle := levels_lowered_le e
  cases e with
  | number digits span => exact Nat.le_succ_of_le hle
  | call name params span =>
    simp only [lowered, Lowering.Site.place, Tree.levels] at hle ⊢
    omega

theorem rendering_bare (e : Expr) : e.bare.rendering = e.rendering := by
  induction e with
  | number digits span => rfl
  | call name params span ih =>
    have hp : renderings (bareAll params) = renderings params := by
      rw [renderings_eq_map, renderings_eq_map, bareAll_eq_map, List.map_map]
      exact List.map_congr_left ih
    simp only [bare, rendering, hp]

theorem statement_bare (e : Expr) : e.bare.statement = e.statement := by
  cases e with
  | number digits span => rfl
  | call name params span => exact congrArg (· ++ ";") (rendering_bare (.call name params span))

theorem code_bareAll (es : List Expr) : code (bareAll es) = code es := by
  rw [code, code, bareAll_eq_map, List.map_map]
  congr 1
  exact List.map_congr_left fun e _ => statement_bare e

end Expr

namespace Lowering

variable {levels : Nat} {site : Site} {es : List Expr}

theorem visitAll_toTrees_of
    (h : ∀ e ∈ es, ∀ context, visit (fun _ => none) levels site e.toTree context =
      append context (e.lowered site)) (context : List Tree) :
    visitAll (fun _ => none) levels site (Expr.toTrees es) context =
      ⟨context ++ es.map (Expr.lowered site), none⟩ := by
  induction es generalizing context with
  | nil => simp [Expr.toTrees, visitAll]
  | cons e rest ih =>
    have hrest := ih (fun d hd => h d (by simp [hd])) (context ++ [e.lowered site])
    simp [Expr.toTrees, visitAll, h e (by simp), append, hrest]

theorem visit_toTree (e : Expr) : ∀ {levels : Nat} (site : Site) (context : List Tree),
    e.toTree.levels ≤ levels →
    visit (fun _ => none) levels site e.toTree context = append context (e.lowered site) := by
  induction e with
  | number digits span =>
    rintro (_ | levels) site context h
    · simp [Expr.toTree, Tree.levels] at h
    · simp [Expr.toTree, visit, Expr.lowered]
  | call name params span ih =>
    rintro (_ | levels) site context h
    · simp [Expr.toTree, Tree.levels] at h
    · have hle : Tree.levelsAll (params.map Expr.toTree) ≤ levels := by
        rw [Expr.toTree, Tree.levels, Expr.toTrees_eq_map] at h
        exact Nat.le_of_succ_le_succ h
      have hp := visitAll_toTrees_of (fun e he context =>
        ih e he .nested context (Tree.levels_le_of_mem hle e he)) []
      simp [Expr.toTree, visit, hp, Expr.lowered, Expr.loweredAll_eq_map, append]

theorem visitAll_toTrees (site : Site) (h : Tree.levelsAll (Expr.toTrees es) ≤ levels)
    (context : List Tree) :
    visitAll (fun _ => none) levels site (Expr.toTrees es) context =
      ⟨context ++ es.map (Expr.lowered site), none⟩ := by
  rw [Expr.toTrees_eq_map] at h
  exact visitAll_toTrees_of (fun e he context =>
    visit_toTree e site context (Tree.levels_le_of_mem h e he)) context

theorem stop_visitAll_toTrees
    (ih : ∀ e ∈ es, ∀ context, levels < e.toTree.levels →
      (visit (fun _ => none) levels site e.toTree context).stop = some .tooDeep)
    (h : levels < Tree.levelsAll (Expr.toTrees es)) (context : List Tree) :
    (visitAll (fun _ => none) levels site (Expr.toTrees es) context).stop = some .tooDeep := by
  induction es generalizing context with
  | nil => simp [Expr.toTrees, Tree.levelsAll] at h
  | cons e rest ihrest =>
    rw [Expr.toTrees, Tree.levelsAll] at h
    rw [Expr.toTrees, visitAll]
    by_cases he : e.toTree.levels ≤ levels
    · rw [visit_toTree e site context he]
      exact ihrest (fun d hd => ih d (by simp [hd])) (by omega) _
    · have hstop := ih e (by simp) context (by omega)
      simp only [hstop]

theorem stop_visit_toTree (e : Expr) : ∀ {levels : Nat} (site : Site) (context : List Tree),
    levels < e.toTree.levels →
    (visit (fun _ => none) levels site e.toTree context).stop = some .tooDeep := by
  induction e with
  | number digits span =>
    rintro (_ | levels) site context h
    · simp [visit]
    · simp [Expr.toTree, Tree.levels] at h
  | call name params span ih =>
    rintro (_ | levels) site context h
    · simp [visit]
    · rw [Expr.toTree, Tree.levels] at h
      simp only [Expr.toTree, visit]
      exact stop_visitAll_toTrees (fun e he context => ih e he .nested context)
        (Nat.lt_of_succ_lt_succ h) []

end Lowering

namespace Rendering

variable {levels : Nat} {es : List Expr}

theorem renderAll_lowered_of {site : Lowering.Site} {text : Expr → String}
    (h : ∀ e ∈ es, render (fun _ => none) levels (e.lowered site) =
      if (e.lowered site).levels ≤ levels then .ok (text e) else .error .tooDeep) :
    renderAll (fun _ => none) levels (es.map (Expr.lowered site)) =
      if Tree.levelsAll (es.map (Expr.lowered site)) ≤ levels then .ok (es.map text)
      else .error .tooDeep := by
  induction es with
  | nil => simp [renderAll, Tree.levelsAll]
  | cons e rest ih =>
    have hrest := ih fun d hd => h d (by simp [hd])
    simp only [List.map_cons, renderAll, h e (by simp), hrest, Tree.levelsAll, Nat.max_le]
    by_cases hfirst : (e.lowered site).levels ≤ levels
    · by_cases hlater : Tree.levelsAll (rest.map (Expr.lowered site)) ≤ levels
      · simp only [hfirst, hlater, and_self, if_true]
        rfl
      · simp only [hfirst, hlater, and_false, if_true, if_false]
        rfl
    · simp only [hfirst, false_and, if_false]
      rfl

theorem render_identifier (levels : Nat) (name : String) (span : Option Span) :
    render (fun _ => none) levels (.identifier name span) =
      if 1 ≤ levels then .ok name else .error .tooDeep := by
  cases levels <;> simp [render]

theorem render_lowered_nested (e : Expr) : ∀ levels : Nat,
    render (fun _ => none) levels (e.lowered .nested) =
      if (e.lowered .nested).levels ≤ levels then .ok e.rendering else .error .tooDeep := by
  induction e with
  | number digits span =>
    intro levels
    cases levels <;> simp [Expr.lowered, render, Tree.levels, Expr.rendering]
  | call name params span ih =>
    rintro (_ | levels)
    · simp [Expr.lowered, Lowering.Site.place, render, Tree.levels]
    · have hp := renderAll_lowered_of fun e he => ih e he levels
      simp only [Expr.lowered, Lowering.Site.place, render, Expr.loweredAll_eq_map, hp,
        render_identifier, Tree.levels, Nat.add_le_add_iff_right, Nat.max_le]
      by_cases hargs : Tree.levelsAll (params.map (Expr.lowered .nested)) ≤ levels
      · by_cases hname : 1 ≤ levels
        · simp only [hargs, hname, and_self, if_true, Expr.rendering, Expr.renderings_eq_map]
          rfl
        · simp only [hargs, hname, false_and, if_true, if_false]
          rfl
      · simp only [hargs, and_false, if_false]
        rfl

theorem render_lowered_body (e : Expr) (levels : Nat) :
    render (fun _ => none) levels (e.lowered .body) =
      if (e.lowered .body).levels ≤ levels then .ok e.statement else .error .tooDeep := by
  cases e with
  | number digits span => exact render_lowered_nested (.number digits span) levels
  | call name params span =>
    have hplace : (Expr.call name params span).lowered .body =
        .statement ((Expr.call name params span).lowered .nested) span := by
      simp [Expr.lowered, Lowering.Site.place]
    rw [hplace, Tree.levels]
    cases levels with
    | zero => simp [render]
    | succ levels =>
      simp only [render, render_lowered_nested, Nat.add_le_add_iff_right]
      split <;> rfl

end Rendering

namespace Program

variable {p : Program} {room : Nat} {code : String}

def lowered (p : Program) : Tree :=
  .program .target (p.body.map (Expr.lowered .body)) p.span

def emit (room : Nat) (p : Program) : Except Fault String :=
  (p.toTree.lower room fun _ => none).bind (Tree.render room fun _ => none)

theorem lower_toTree (h : p.toTree.levels ≤ levelsIn room) :
    p.toTree.lower room (fun _ => none) = .ok p.lowered := by
  rw [toTree, Tree.levels] at h
  obtain ⟨levels, heq⟩ := Nat.exists_eq_succ_of_ne_zero (Nat.ne_zero_of_lt h)
  have hle : Tree.levelsAll (Expr.toTrees p.body) ≤ levels := by omega
  have hall := Lowering.visitAll_toTrees .body hle []
  simp only [toTree, Tree.lower, heq]
  simp [Lowering.visit, hall, lowered]

theorem lower_toTree_deep (h : levelsIn room < p.toTree.levels) :
    p.toTree.lower room (fun _ => none) =
      .error ⟨.nestingTooDeep Lowering.stage, p.span, none⟩ := by
  rw [toTree, Tree.levels] at h
  simp only [toTree, Tree.lower]
  cases heq : levelsIn room with
  | zero => simp [Lowering.visit, Stop.fault]
  | succ levels =>
    have hlt : levels < Tree.levelsAll (Expr.toTrees p.body) := by omega
    have hstop := Lowering.stop_visitAll_toTrees
      (fun e _ context => Lowering.stop_visit_toTree e .body context) hlt []
    simp [Lowering.visit, hstop, Stop.fault]

theorem render_lowered (p : Program) (room : Nat) :
    p.lowered.render room (fun _ => none) =
      if p.lowered.levels ≤ levelsIn room then .ok (Expr.code p.body)
      else .error ⟨.nestingTooDeep Rendering.stage, p.span, none⟩ := by
  rw [Tree.render, lowered, Tree.levels]
  cases heq : levelsIn room with
  | zero => simp [Rendering.render, Except.mapError, Stop.fault, Tree.span]
  | succ levels =>
    have hall := Rendering.renderAll_lowered_of fun e (_ : e ∈ p.body) =>
      Rendering.render_lowered_body e levels
    simp only [Rendering.render, hall, Nat.add_le_add_iff_right]
    split <;> rfl

theorem emit_eq (p : Program) (room : Nat) :
    p.emit room =
      if p.toTree.levels ≤ levelsIn room then
        if p.lowered.levels ≤ levelsIn room then .ok (Expr.code p.body)
        else .error ⟨.nestingTooDeep Rendering.stage, p.span, none⟩
      else .error ⟨.nestingTooDeep Lowering.stage, p.span, none⟩ := by
  rw [emit]
  split
  · next hle =>
    rw [lower_toTree hle]
    exact p.render_lowered room
  · next hlt =>
    rw [lower_toTree_deep (Nat.lt_of_not_le hlt)]
    rfl

theorem emit_eq_ok_iff : p.emit room = .ok code ↔
    p.toTree.levels ≤ levelsIn room ∧ p.lowered.levels ≤ levelsIn room ∧
      code = Expr.code p.body := by
  rw [emit_eq]
  split
  · next hsource =>
    split
    · next htarget => simp [hsource, htarget, eq_comm]
    · next htarget => simp [htarget]
  · next hsource => simp [hsource]

theorem levels_toTree_le (p : Program) : p.toTree.levels ≤ p.depth + 2 := by
  rw [toTree, Tree.levels, Expr.toTrees_eq_map]
  apply Nat.succ_le_succ
  apply Tree.levelsAll_map_le
  intro e he
  exact Nat.le_trans e.levels_toTree_le
    (Nat.succ_le_succ (Expr.depthAll_le_iff.mp (Nat.le_refl p.depth) e he))

theorem levels_lowered_le (p : Program) : p.lowered.levels ≤ p.depth + 3 := by
  rw [lowered, Tree.levels]
  apply Nat.succ_le_succ
  apply Tree.levelsAll_map_le
  intro e he
  exact Nat.le_trans e.levels_lowered_body_le
    (Nat.add_le_add_right (Expr.depthAll_le_iff.mp (Nat.le_refl p.depth) e he) 2)

theorem emit_eq_ok (h : p.depth + 3 ≤ levelsIn room) : p.emit room = .ok (Expr.code p.body) := by
  have hsource := p.levels_toTree_le
  have htarget := p.levels_lowered_le
  exact emit_eq_ok_iff.mpr ⟨by omega, by omega, rfl⟩

theorem lower_assured (stack : Allowance) (h : p.depth ≤ assuredNesting) :
    p.toTree.lower stack.room (fun _ => none) = .ok p.lowered := by
  have hlevels := stack.levels_ge
  have hle := p.levels_toTree_le
  exact lower_toTree (by omega)

theorem emit_assured (stack : Allowance) (h : p.depth ≤ assuredNesting) :
    p.emit stack.room = .ok (Expr.code p.body) := by
  have hlevels := stack.levels_ge
  apply emit_eq_ok
  omega

theorem code_of_emit (h : p.emit room = .ok code) : code = Expr.code p.body :=
  (emit_eq_ok_iff.mp h).2.2

end Program

namespace Source

variable {room : Nat} {s : Source} {code : String}

theorem program_eq_bind (s : Source) : s.program room = s.tokens.bind (Program.parse room) := by
  rfl

theorem compile_eq_bind (s : Source) :
    s.compile room = (s.program room).bind (Program.emit room) := by
  rfl

theorem compile_eq_ok_iff : s.compile room = .ok code ↔
    ∃ ts p, s.tokens = .ok ts ∧ Program.parse room ts = .ok p ∧ p.emit room = .ok code := by
  rw [compile_eq_bind, program_eq_bind]
  cases s.tokens with
  | error f => simp [Except.bind]
  | ok ts =>
    cases hp : Program.parse room ts with
    | error f => simp [Except.bind, hp]
    | ok p => simp [Except.bind, hp]

theorem compile_eq_within (s : Source) :
    s.compile room = ((s.tokensWithin (s.text.toList.length + 1) (.ofText s.text)).bind
      (Program.parse room)).bind (Program.emit room) := by
  rw [compile_eq_bind, program_eq_bind, tokens_eq_within]

theorem compile_eq_ok_of_within
    (h : (((s.tokensWithin (s.text.toList.length + 1) (.ofText s.text)).bind
      (Program.parse room)).bind (Program.emit room)).toOption = some code) :
    s.compile room = .ok code := by
  rw [← compile_eq_within] at h
  cases hx : s.compile room with
  | error f => simp [hx, Except.toOption] at h
  | ok text =>
    rw [hx] at h
    rw [Option.some.inj h]

end Source

end CallForms
