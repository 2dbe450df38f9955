import CallForms.Proofs.Compilation.Pointing
import CallForms.Proofs.Places.Reading

namespace CallForms

namespace Relocation

variable (m : Relocation) (overrides : Overrides)

def visited (walk : Lowering.Visit) : Lowering.Visit :=
  ⟨m.trees walk.context, walk.stop.map m.stop⟩

theorem trees_eq_map (values : List Tree) : m.trees values = values.map m.tree := by
  induction values with
  | nil => simp [trees]
  | cons value rest ih => rw [trees, ih, List.map_cons]

theorem trees_append (vs ws : List Tree) : m.trees (vs ++ ws) = m.trees vs ++ m.trees ws := by
  simp only [trees_eq_map, List.map_append]

theorem tree_place (site : Lowering.Site) (value : Tree) (span : Option Span) :
    site.place (m.tree value) (m.span? span) = m.tree (site.place value span) := by
  cases site <;> simp [Lowering.Site.place, tree]

theorem visited_append (context : List Tree) (value : Tree) :
    m.visited (Lowering.append context value) =
      Lowering.append (m.trees context) (m.tree value) := by
  simp [visited, Lowering.append, trees_append, trees]

theorem visited_refuse (context : List Tree) (value : Tree) :
    m.visited (Lowering.refuse context value) =
      Lowering.refuse (m.trees context) (m.tree value) :=
  rfl

def Lowers (levels : Nat) : Prop :=
  ∀ site value context,
    Lowering.visit overrides levels site (m.tree value) (m.trees context) =
      m.visited (Lowering.visit overrides levels site value context)

variable {m overrides} {levels : Nat}

theorem Lowers.all (h : m.Lowers overrides levels) (site : Lowering.Site) (values : List Tree)
    (context : List Tree) :
    Lowering.visitAll overrides levels site (m.trees values) (m.trees context) =
      m.visited (Lowering.visitAll overrides levels site values context) := by
  induction values generalizing context with
  | nil => simp [trees, Lowering.visitAll, visited]
  | cons value rest ih =>
    rw [trees, Lowering.visitAll, Lowering.visitAll, h]
    simp only [visited]
    cases hstop : (Lowering.visit overrides levels site value context).stop with
    | none => exact ih _
    | some stop => simp [hstop]

theorem Lowers.succ (h : m.Lowers overrides levels) : m.Lowers overrides (levels + 1) := by
  intro site value context
  cases value with
  | number family digits span =>
    cases family with
    | source =>
      simp only [tree, Lowering.visit]
      split <;> rw [visited_append, tree]
    | target => simp only [tree, Lowering.visit, visited_refuse]
  | call name params span =>
    simp only [tree, Lowering.visit]
    split
    · rw [visited_append, tree]
    · have harguments := h.all .nested params []
      rw [trees] at harguments
      simp only [harguments, visited, trees_append, trees, ← tree_place, tree]
  | program family body span =>
    cases family with
    | source =>
      simp only [tree, Lowering.visit]
      split
      · rw [visited_append, tree]
      · split
        · exact h.all .body body context
        · rw [visited_refuse, tree]
    | target => simp only [tree, Lowering.visit, visited_refuse]
  | custom kind span =>
    obtain ⟨family, tag, other⟩ := kind
    rcases family with _ | _ | _
    · simp only [tree, Lowering.visit, visited_refuse]
    · simp only [tree, Lowering.visit]
      split
      · rw [visited_append, tree]
      · rw [visited_refuse, tree]
    · simp only [tree, Lowering.visit, visited_refuse]
  | _ => simp only [tree, Lowering.visit, visited_refuse]

variable (m overrides)

theorem lowers (levels : Nat) : m.Lowers overrides levels := by
  induction levels with
  | zero =>
    intro site value context
    simp [Lowering.visit, visited, stop]
  | succ levels ih => exact ih.succ

theorem fault_stop (stage : String) (span : Option Span) (s : Stop) :
    (m.stop s).fault stage (m.span? span) = m.fault (s.fault stage span) := by
  cases s with
  | unknown value => exact (m.fault_unknownNode stage value).symm
  | tooDeep => rfl

theorem lower_relocated (room : Nat) (value : Tree) :
    (m.tree value).lower room overrides =
      mapBoth m.tree m.fault (value.lower room overrides) := by
  cases value with
  | program family body span =>
    cases family with
    | source =>
      have hvisit := m.lowers overrides (levelsIn room) .root (.program .source body span) []
      simp only [tree, trees] at hvisit
      simp only [tree, Tree.lower, hvisit, visited]
      cases (Lowering.visit overrides (levelsIn room) .root (.program .source body span) []).stop
        with
      | none => simp [tree]
      | some stop => simp [fault_stop]
    | target => simp [tree, Tree.lower, fault_unknownNode]
  | _ => simp [tree, Tree.lower, fault_unknownNode]

def Renders (levels : Nat) : Prop :=
  ∀ value, Rendering.render overrides levels (m.tree value) =
    mapBoth id m.stop (Rendering.render overrides levels value)

variable {m overrides}

theorem Renders.all (h : m.Renders overrides levels) (values : List Tree) :
    Rendering.renderAll overrides levels (m.trees values) =
      mapBoth id m.stop (Rendering.renderAll overrides levels values) := by
  induction values with
  | nil => simp [trees, Rendering.renderAll]
  | cons value rest ih =>
    rw [trees, Rendering.renderAll, Rendering.renderAll, h, ih]
    cases Rendering.render overrides levels value with
    | error stop => rfl
    | ok text => cases Rendering.renderAll overrides levels rest <;> rfl

theorem Renders.succ (h : m.Renders overrides levels) : m.Renders overrides (levels + 1) := by
  intro value
  cases value with
  | number family digits span =>
    cases family <;> simp [tree, Rendering.render, stop]
  | program family body span =>
    cases family with
    | target =>
      simp only [tree, Rendering.render]
      split
      · rfl
      · rw [h.all]
        cases Rendering.renderAll overrides levels body <;> rfl
    | source => simp [tree, Rendering.render, stop]
  | identifier name span => simp [tree, Rendering.render]
  | invoke callee arguments span =>
    simp only [tree, Rendering.render]
    split
    · rfl
    · rw [h.all, h]
      cases Rendering.renderAll overrides levels arguments with
      | error stop => rfl
      | ok texts => cases Rendering.render overrides levels callee <;> rfl
  | statement expression span =>
    simp only [tree, Rendering.render]
    split
    · rfl
    · rw [h]
      cases Rendering.render overrides levels expression <;> rfl
  | custom kind span =>
    obtain ⟨family, tag, other⟩ := kind
    rcases family with _ | _ | _
    · simp [tree, Rendering.render, stop]
    · simp [tree, Rendering.render, stop]
    · simp only [tree, Rendering.render]
      split
      · rfl
      · simp [stop, tree]
  | _ => simp [tree, Rendering.render, stop]

variable (m overrides)

theorem renders (levels : Nat) : m.Renders overrides levels := by
  induction levels with
  | zero =>
    intro value
    simp [Rendering.render, stop]
  | succ levels ih => exact ih.succ

theorem render_relocated (room : Nat) (value : Tree) :
    (m.tree value).render room overrides = mapBoth id m.fault (value.render room overrides) := by
  rw [Tree.render, Tree.render, m.renders overrides (levelsIn room) value, span_tree]
  cases Rendering.render overrides (levelsIn room) value with
  | ok text => rfl
  | error stop => exact congrArg Except.error (m.fault_stop _ _ stop)

theorem tree_toTree (e : Expr) : m.tree e.toTree = (m.expr e).toTree := by
  induction e with
  | number digits span => simp [Expr.toTree, tree, expr]
  | call name params span ih =>
    have hparams : m.trees (Expr.toTrees params) = Expr.toTrees (m.exprs params) := by
      rw [trees_eq_map, Expr.toTrees_eq_map, Expr.toTrees_eq_map, exprs_eq_map, List.map_map,
        List.map_map]
      exact List.map_congr_left ih
    simp only [Expr.toTree, tree, expr, hparams]

theorem toTree_program (p : Program) : (m.program p).toTree = m.tree p.toTree := by
  rw [Program.toTree, Program.toTree, tree, program, trees_eq_map, Expr.toTrees_eq_map,
    Expr.toTrees_eq_map, exprs_eq_map, List.map_map, List.map_map]
  exact congrArg (Tree.program .source · (m.span? p.span))
    (List.map_congr_left fun e _ => (m.tree_toTree e).symm)

theorem emit_relocated (room : Nat) (p : Program) :
    (m.program p).emit room = mapBoth id m.fault (p.emit room) := by
  rw [Program.emit, Program.emit, toTree_program, lower_relocated]
  cases p.toTree.lower room fun _ => none with
  | ok target => exact m.render_relocated _ room target
  | error f => rfl

end Relocation

def Tree.bare (value : Tree) : Tree :=
  Relocation.forget.tree value

def Fault.unfiled (f : Fault) : Fault :=
  Relocation.unfile.fault f

theorem Tree.lower_agree {v w : Tree} (room : Nat) (overrides : Overrides) (h : v.bare = w.bare) :
    Agree (fun a b => a.bare = b.bare) (v.lower room overrides) (w.lower room overrides) := by
  have hv := Relocation.forget.lower_relocated overrides room v
  have hw := Relocation.forget.lower_relocated overrides room w
  exact .of_mapBoth (hv.symm.trans ((congrArg (lower room overrides) h).trans hw))

theorem Tree.render_agree {v w : Tree} (room : Nat) (overrides : Overrides)
    (h : v.bare = w.bare) :
    Agree (fun a b => a = b) (v.render room overrides) (w.render room overrides) := by
  have hv := Relocation.forget.render_relocated overrides room v
  have hw := Relocation.forget.render_relocated overrides room w
  exact .of_mapBoth (hv.symm.trans ((congrArg (render room overrides) h).trans hw))

theorem Program.emit_agree {p q : Program} (room : Nat) (h : p.bare = q.bare) :
    Agree (fun a b => a = b) (p.emit room) (q.emit room) := by
  have hp := Relocation.forget.emit_relocated room p
  have hq := Relocation.forget.emit_relocated room q
  rw [Relocation.forget_program] at hp hq
  exact .of_mapBoth (hp.symm.trans ((congrArg (emit room) h).trans hq))

namespace Source

variable {s s' : Source} {room : Nat}

theorem compile_agree
    (h : Agree (fun ts us => ts.map Token.bare = us.map Token.bare) s.tokens s'.tokens) :
    Agree (fun a b => a = b) (s.compile room) (s'.compile room) := by
  rw [compile_eq_bind, compile_eq_bind, program_eq_bind, program_eq_bind]
  generalize s.tokens = x at h
  generalize s'.tokens = y at h
  cases h with
  | error halike => exact .error halike
  | @ok ts us hbare =>
    have hparse := Program.parse_agree room hbare
    simp only [Except.bind]
    generalize Program.parse room ts = x at hparse
    generalize Program.parse room us = y at hparse
    cases hparse with
    | error halike => exact .error halike
    | ok hpq => exact Program.emit_agree room hpq

theorem alike_strayFault (s s' : Source) (i j : Nat) (ch : Char) :
    (s.strayFault i ch).Alike (s'.strayFault j ch) :=
  Fault.alike_of_cause rfl

theorem tokens_agree_of_text (text : String) (file file' : Option String) :
    Agree (fun ts us => ts.map Token.bare = us.map Token.bare) (tokens ⟨text, file⟩)
      (tokens ⟨text, file'⟩) := by
  cases h : tokens ⟨text, file⟩ with
  | ok ts =>
    obtain ⟨hlayout, hlexeme⟩ := layout_of_tokens h
    obtain ⟨us, hus, hbare⟩ := tokens_of_layout ⟨text, file'⟩ hlayout hlexeme
    rw [hus]
    exact .ok hbare.symm
  | error f =>
    obtain ⟨before, ch, after, htext, hbefore, hch, rfl⟩ := exists_of_tokens_error h
    rw [tokens_eq_error (s := ⟨text, file'⟩) (stray?_eq_some htext hbefore hch)]
    exact .error (alike_strayFault _ _ _ _ _)

theorem tokens_unfiled (text : String) (file : Option String) :
    tokens ⟨text, none⟩ =
      mapBoth (List.map Relocation.unfile.token) Fault.unfiled (tokens ⟨text, file⟩) := by
  cases h : tokens ⟨text, file⟩ with
  | ok ts =>
    obtain ⟨ps, hps, rfl⟩ := tokens_eq_ok_iff.mp h
    rw [mapBoth_ok, List.map_map]
    exact tokens_eq_ok_iff.mpr ⟨ps, hps, rfl⟩
  | error f =>
    obtain ⟨before, ch, after, htext, hbefore, hch, rfl⟩ := exists_of_tokens_error h
    rw [mapBoth_error]
    exact tokens_eq_error (stray?_eq_some htext hbefore hch)

theorem compile_unfiled (room : Nat) (text : String) (file : Option String) :
    compile room ⟨text, none⟩ = mapBoth id Fault.unfiled (compile room ⟨text, file⟩) := by
  rw [compile_eq_bind, compile_eq_bind, program_eq_bind, program_eq_bind,
    tokens_unfiled text file]
  cases tokens ⟨text, file⟩ with
  | error f => rfl
  | ok ts =>
    have hparse := Relocation.unfile.parse_relocated room ts
    simp only [mapBoth_ok, Except.bind, hparse]
    cases Program.parse room ts with
    | error f => rfl
    | ok p => exact Relocation.unfile.emit_relocated room p

theorem unfiled_of_compile {text : String} {file file' : Option String} {f g : Fault}
    (hf : compile room ⟨text, file⟩ = .error f) (hg : compile room ⟨text, file'⟩ = .error g) :
    f.unfiled = g.unfiled := by
  have hsame := (compile_unfiled room text file).symm.trans (compile_unfiled room text file')
  rw [hf, hg] at hsame
  exact Except.error.inj hsame

theorem stages_ignore_places (room : Nat) :
    (∀ ts us : List Token, ts.map Token.bare = us.map Token.bare →
      Agree (fun p q => p.bare = q.bare) (Program.parse room ts) (Program.parse room us)) ∧
    (∀ v w : Tree, v.bare = w.bare →
      Agree (fun a b => a.bare = b.bare) (v.lower room fun _ => none) (w.lower room fun _ => none) ∧
        Agree (fun a b => a = b) (v.render room fun _ => none)
          (w.render room fun _ => none)) ∧
    (∀ (text : String) (file file' : Option String),
      Agree (fun a b => a = b) (compile room ⟨text, file⟩)
        (compile room ⟨text, file'⟩) ∧
        ∀ f g, compile room ⟨text, file⟩ = .error f → compile room ⟨text, file'⟩ = .error g →
          f.unfiled = g.unfiled) := by
  refine ⟨?_, ?_, ?_⟩
  · intro ts us h
    exact Program.parse_agree room h
  · intro v w h
    exact ⟨Tree.lower_agree room _ h, Tree.render_agree room _ h⟩
  · intro text file file'
    refine ⟨compile_agree (tokens_agree_of_text text file file'), ?_⟩
    intro f g hf hg
    exact unfiled_of_compile hf hg

theorem stages_ignore_places_of_mixed_spans :
    (∃ f g, Program.parse Allowance.usual.room
        [⟨.paren, "(", some ⟨⟨1, 1, 0, none⟩, ⟨1, 2, 1, none⟩⟩⟩, ⟨.name, "f", none⟩] = .error f ∧
      Program.parse Allowance.usual.room [⟨.paren, "(", none⟩,
        ⟨.name, "f", some ⟨⟨3, 1, 9, none⟩, ⟨3, 2, 10, some "a"⟩⟩⟩] = .error g ∧ f.Alike g) ∧
    (∃ f g, Tree.lower Allowance.usual.room (fun _ => none)
        (.program .source [.token ⟨.name, "f", none⟩] none) = .error f ∧
      Tree.lower Allowance.usual.room (fun _ => none) (.program .source
        [.token ⟨.name, "f", some ⟨⟨1, 1, 0, none⟩, ⟨1, 2, 1, none⟩⟩⟩] none) = .error g ∧
      f.Alike g) ∧
    (∃ f g, compile Allowance.usual.room ⟨"(f\n%", none⟩ = .error f ∧
      compile Allowance.usual.room ⟨"(f\n%", some "a"⟩ = .error g ∧
      f.Alike g ∧ f.unfiled = g.unfiled) := by
  obtain ⟨hparse, htrees, hfiles⟩ := stages_ignore_places Allowance.usual.room
  refine ⟨?_, ?_, ?_⟩
  · have hagree := hparse [⟨.paren, "(", some ⟨⟨1, 1, 0, none⟩, ⟨1, 2, 1, none⟩⟩⟩,
      ⟨.name, "f", none⟩] [⟨.paren, "(", none⟩,
      ⟨.name, "f", some ⟨⟨3, 1, 9, none⟩, ⟨3, 2, 10, some "a"⟩⟩⟩] rfl
    cases hagree with
    | error halike => exact ⟨_, _, rfl, rfl, halike⟩
  · have hagree := (htrees (.program .source [.token ⟨.name, "f", none⟩] none) (.program .source
      [.token ⟨.name, "f", some ⟨⟨1, 1, 0, none⟩, ⟨1, 2, 1, none⟩⟩⟩] none) rfl).1
    cases hagree with
    | error halike => exact ⟨_, _, rfl, rfl, halike⟩
  · obtain ⟨hagree, hunfiled⟩ := hfiles "(f\n%" none (some "a")
    have hf : compile Allowance.usual.room ⟨"(f\n%", none⟩ = .error ⟨.unrecognizedCharacter "%"
      (some ⟨2, 1, 3, none⟩), some ⟨⟨2, 1, 3, none⟩, ⟨2, 2, 4, none⟩⟩, some "%"⟩ := by
      rw [compile_eq_within]
      rfl
    have hg : compile Allowance.usual.room ⟨"(f\n%", some "a"⟩ = .error ⟨.unrecognizedCharacter "%"
      (some ⟨2, 1, 3, some "a"⟩), some ⟨⟨2, 1, 3, some "a"⟩, ⟨2, 2, 4, some "a"⟩⟩, some "%"⟩ := by
      rw [compile_eq_within]
      rfl
    rw [hf, hg] at hagree
    cases hagree with
    | error halike => exact ⟨_, _, hf, hg, halike, hunfiled _ _ hf hg⟩

end Source

end CallForms
