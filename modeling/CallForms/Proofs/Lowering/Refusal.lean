import CallForms.Proofs.Tree.Preorder

namespace CallForms

structure Fault.Refuses (f : Fault) (stage : String) (value : Tree) : Prop where
  cause : f.cause = .unknownNode stage value
  code : f.diagnostic.code = "E201"
  message : f.diagnostic.message = stage ++ ": unknown node type '" ++ value.tag ++ "'"
  span : f.diagnostic.span = value.span

theorem Fault.refuses_unknownNode (stage : String) (value : Tree) :
    (Fault.unknownNode stage value).Refuses stage value :=
  ⟨rfl, rfl, rfl, rfl⟩

theorem Fault.message_of_refuses_foreign {f : Fault} {stage : String} {value : Foreign}
    (h : f.Refuses stage (.foreign value)) :
    (∀ name, value.tag? = some name →
      f.diagnostic.message = stage ++ ": unknown node type '" ++ name ++ "'") ∧
    (value.tag? = none →
      f.diagnostic.message = stage ++ ": unknown node type '" ++ value.typeName ++ "'") := by
  constructor
  · intro name hname
    rw [h.message, Tree.tag, hname, Option.getD_some]
  · intro hnone
    rw [h.message, Tree.tag, hnone, Option.getD_none]

theorem refuses_first_of {α : Type} {stage : String} {known : Tree → Bool} {values : List Tree}
    {x : Except Fault α}
    (h : (∃ a, values.find? (fun v => !known v) = none ∧ x = .ok a) ∨
      ∃ w, values.find? (fun v => !known v) = some w ∧ x = .error (.unknownNode stage w)) :
    ((∃ a, x = .ok a) ↔ ∀ v ∈ values, known v = true) ∧
    ∀ v, values.find? (fun v => !known v) = some v →
      ∃ f, x = .error f ∧ f.Refuses stage v := by
  rcases h with ⟨a, hnone, rfl⟩ | ⟨w, hsome, rfl⟩
  · refine ⟨⟨?_, fun _ => ⟨a, rfl⟩⟩, ?_⟩
    · intro _ v hv
      simpa using List.find?_eq_none.mp hnone v hv
    · intro v hv
      cases hnone.symm.trans hv
  · refine ⟨⟨?_, ?_⟩, ?_⟩
    · rintro ⟨a, ha⟩
      cases ha
    · intro hall
      have hw := List.find?_some hsome
      simp [hall w (List.mem_of_find?_eq_some hsome)] at hw
    · intro v hv
      obtain rfl := Option.some.inj (hsome.symm.trans hv)
      exact ⟨_, rfl, Fault.refuses_unknownNode _ _⟩

namespace Lowering

variable {levels : Nat} {site : Site} {w : Tree} {values : List Tree} {es : List Expr}

theorem visit_foreign (hw : w.isSourceExpr = false)
    (hroot : site = .root → w.isSourceProgram = false) (context : List Tree) :
    visit (fun _ => none) (levels + 1) site w context = refuse context w := by
  cases w with
  | number family digits span =>
    cases family with
    | source => cases hw
    | target => simp [visit]
  | call name params span => cases hw
  | program family body span =>
    cases family with
    | source =>
      have hsite : site ≠ .root := fun h => by cases hroot h
      simp [visit, hsite]
    | target => simp [visit]
  | custom kind span =>
    obtain ⟨family, tag, other⟩ := kind
    rcases family with _ | _ | _ <;> simp [visit]
  | _ => simp [visit]

theorem visit_shallow {e : Expr} (h : e.depth < levels) (site : Site) (context : List Tree) :
    visit (fun _ => none) levels site e.toTree context = append context (e.lowered site) :=
  visit_toTree e site context (Nat.le_trans e.levels_toTree_le h)

theorem visitAll_shallow (site : Site) (h : Tree.depthAll (Expr.toTrees es) < levels)
    (context : List Tree) :
    visitAll (fun _ => none) levels site (Expr.toTrees es) context =
      ⟨context ++ es.map (Expr.lowered site), none⟩ := by
  rw [Expr.depthAll_toTrees] at h
  apply visitAll_toTrees_of
  intro e he
  exact visit_shallow (Nat.lt_of_le_of_lt (Expr.depthAll_le_iff.mp (Nat.le_refl _) e he) h) site

theorem visitAll_of_breaks (h : Tree.Breaks w values es) (hsite : site ≠ .root)
    (hlevels : Tree.depthAll values < levels) (context : List Tree) :
    visitAll (fun _ => none) levels site values context =
      ⟨context ++ es.map (Expr.lowered site), some (.unknown w)⟩ := by
  induction h generalizing levels site context with
  | here hw =>
    obtain ⟨levels, rfl⟩ := Nat.exists_eq_succ_of_ne_zero (Nat.ne_zero_of_lt hlevels)
    simp only [visitAll, visit_foreign hw fun h => absurd h hsite, refuse, List.map_nil,
      List.append_nil]
  | @inside name params rest es span _ ih =>
    obtain ⟨levels, rfl⟩ := Nat.exists_eq_succ_of_ne_zero (Nat.ne_zero_of_lt hlevels)
    rw [Tree.depthAll_cons (by rfl), Tree.depth] at hlevels
    have hparams : visitAll (fun _ => none) levels .nested params [] =
        ⟨[] ++ es.map (Expr.lowered .nested), some (.unknown w)⟩ := ih (by simp) (by omega) []
    simp [visitAll, visit, hparams, Expr.lowered, Expr.loweredAll_eq_map]
  | @later e rest es _ ih =>
    rw [Tree.depthAll_cons e.isNode_toTree, e.depth_toTree] at hlevels
    have hfirst := visit_shallow (by omega : e.depth < levels) site context
    have hrest := ih hsite (by omega : Tree.depthAll rest < levels) (context ++ [e.lowered site])
    simp [visitAll, hfirst, append, hrest]

end Lowering

namespace Tree

theorem lower_of_not_program {room : Nat} {root : Tree} (h : root.isSourceProgram = false) :
    root.lower room (fun _ => none) = .error (.unknownNode Lowering.stage root) := by
  unfold Tree.lower
  split
  · cases h
  · rfl

theorem lower_program_of_exprs (stack : Allowance) {es : List Expr} {span : Option Span}
    (h : (Tree.program .source (Expr.toTrees es) span).depth ≤ assuredNesting) :
    ∃ target, (Tree.program .source (Expr.toTrees es) span).lower stack.room (fun _ => none) =
      .ok target := by
  have hdepth : Program.depth ⟨es, span⟩ ≤ assuredNesting := by
    rw [← Program.depth_toTree]
    exact h
  exact ⟨_, Program.lower_assured stack hdepth⟩

theorem lower_program_of_breaks (stack : Allowance) {w : Tree} {body : List Tree} {es : List Expr}
    {span : Option Span} (hbreaks : Breaks w body es)
    (h : (Tree.program .source body span).depth ≤ assuredNesting) :
    (Tree.program .source body span).lower stack.room (fun _ => none) =
      .error (.unknownNode Lowering.stage w) := by
  rw [depth] at h
  have hlevels := stack.levels_ge
  obtain ⟨levels, heq⟩ := Nat.exists_eq_succ_of_ne_zero (Nat.ne_zero_of_lt hlevels)
  have hbody : Lowering.visitAll (fun _ => none) levels .body body [] =
      ⟨[] ++ es.map (Expr.lowered .body), some (.unknown w)⟩ :=
    Lowering.visitAll_of_breaks hbreaks (by simp) (by omega) []
  simp only [Tree.lower, heq]
  simp [Lowering.visit, hbody, Stop.fault]

theorem lowering_refuses_first_foreign (stack : Allowance) (root : Tree)
    (h : root.depth ≤ assuredNesting) :
    (root.isSourceProgram = false →
      ∃ f, root.lower stack.room (fun _ => none) = .error f ∧ f.Refuses "transformer" root) ∧
    (root.isSourceProgram = true →
      ((∃ target, root.lower stack.room (fun _ => none) = .ok target) ↔
        ∀ v ∈ root.held, v.isSourceExpr = true) ∧
      ∀ v, root.held.find? (fun v => !v.isSourceExpr) = some v →
        ∃ f, root.lower stack.room (fun _ => none) = .error f ∧ f.Refuses "transformer" v) ∧
    ∀ (f : Fault) (value : Foreign), f.Refuses "transformer" (.foreign value) →
      (∀ name, value.tag? = some name →
        f.diagnostic.message = "transformer: unknown node type '" ++ name ++ "'") ∧
      (value.tag? = none →
        f.diagnostic.message = "transformer: unknown node type '" ++ value.typeName ++ "'") := by
  refine ⟨fun hroot => ⟨_, lower_of_not_program hroot, Fault.refuses_unknownNode _ _⟩, ?_,
    fun f value => Fault.message_of_refuses_foreign⟩
  intro hroot
  obtain ⟨body, span, rfl⟩ := exists_of_isSourceProgram hroot
  apply refuses_first_of
  rw [held]
  rcases exprs_or_breaks body with ⟨es, rfl⟩ | ⟨w, es, hbreaks⟩
  · obtain ⟨target, htarget⟩ := lower_program_of_exprs stack h
    refine .inl ⟨target, ?_, htarget⟩
    rw [List.find?_eq_none]
    intro v hv
    simp [preorder_toTrees es v hv]
  · exact .inr ⟨w, hbreaks.find?_eq, lower_program_of_breaks stack hbreaks h⟩

theorem lowering_refuses_first_foreign_inside_call :
    (∃ f, (Tree.program .target [] none).lower Allowance.usual.room (fun _ => none) = .error f ∧
      f.Refuses "transformer" (.program .target [] none)) ∧
    (∃ f, (Tree.program .source [.number .source "1" none,
        .call "f" [.call "g" [] none, .program .source [.list []] (some ⟨⟨1, 5, 4, none⟩,
          ⟨2, 1, 8, some "a"⟩⟩), .token ⟨.name, "x", none⟩] none, .plain .null] none).lower
          Allowance.usual.room (fun _ => none) = .error f ∧
      f.Refuses "transformer" (.program .source [.list []] (some ⟨⟨1, 5, 4, none⟩,
        ⟨2, 1, 8, some "a"⟩⟩))) ∧
    ∃ target, (Tree.program .source [.call "f" [.number .source "" none] none] none).lower
      Allowance.usual.room (fun _ => none) = .ok target := by
  refine ⟨?_, ?_, ?_⟩
  · exact (lowering_refuses_first_foreign .usual _ (by decide)).1 rfl
  · exact ((lowering_refuses_first_foreign .usual _ (by decide)).2.1 rfl).2 _ rfl
  · exact ((lowering_refuses_first_foreign .usual _ (by decide)).2.1 rfl).1.mpr (by decide)

theorem lowering_names_foreign_by_its_tag :
    ∃ f, (Tree.program .source [.foreign ⟨"SimpleNamespace", some "x", none⟩] none).lower
        Allowance.usual.room (fun _ => none) = .error f ∧
      f.diagnostic.message = "transformer: unknown node type 'x'" ∧
      f.diagnostic.message ≠ "transformer: unknown node type 'SimpleNamespace'" := by
  refine ⟨_, rfl, rfl, ?_⟩
  decide

end Tree

end CallForms
