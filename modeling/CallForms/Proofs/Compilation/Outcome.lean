import CallForms.Proofs.Compilation.Code
import CallForms.Proofs.Reader.Overflow
import CallForms.Proofs.Source.Layout
import CallForms.Proofs.Source.Stray
import Mathlib.Algebra.BigOperators.Group.List.Basic

namespace CallForms

section Except

variable {ε α β : Type} {x : Except ε α} {e : ε}

theorem error_of_map {f : α → β} (h : x.map f = .error e) : x = .error e := by
  cases x with
  | error e' =>
    cases h
    rfl
  | ok a => cases h

end Except

namespace Lowering

def Refuses (levels : Nat) (site : Site) (value : Tree) : Prop :=
  ∃ v, (visit (fun _ => none) levels site value []).stop = some (.unknown v)

theorem not_refuses_toTree (p : Program) (levels : Nat) : ¬ Refuses levels .root p.toTree := by
  rintro ⟨v, hv⟩
  cases levels with
  | zero => simp [visit] at hv
  | succ levels =>
    simp only [Program.toTree, visit, if_true] at hv
    by_cases hle : Tree.levelsAll (Expr.toTrees p.body) ≤ levels
    · rw [visitAll_toTrees .body hle] at hv
      cases hv
    · rw [stop_visitAll_toTrees (fun e _ context => stop_visit_toTree e .body context)
        (Nat.lt_of_not_le hle)] at hv
      cases hv

end Lowering

namespace Rendering

def Refuses (levels : Nat) (value : Tree) : Prop :=
  ∃ v, render (fun _ => none) levels value = .error (.unknown v)

theorem not_refuses_lowered (p : Program) (levels : Nat) : ¬ Refuses levels p.lowered := by
  rintro ⟨v, hv⟩
  cases levels with
  | zero => simp [render] at hv
  | succ levels =>
    have hall := renderAll_lowered_of fun e (_ : e ∈ p.body) => render_lowered_body e levels
    simp only [Program.lowered, render] at hv
    have herror := error_of_map hv
    rw [hall] at herror
    split at herror <;> cases herror

end Rendering

def ReturnsUnlessDeep {α : Type} (x : Except Fault α) (a : α) (stage : String) : Prop :=
  x = .ok a ∨ ∃ span, x = .error ⟨.nestingTooDeep stage, span, none⟩

namespace Program

variable {room : Nat} {p : Program}

theorem lower_unless_deep (p : Program) (room : Nat) :
    ReturnsUnlessDeep (p.toTree.lower room fun _ => none) p.lowered Lowering.stage := by
  by_cases hle : p.toTree.levels ≤ levelsIn room
  · exact .inl (lower_toTree hle)
  · exact .inr ⟨_, lower_toTree_deep (Nat.lt_of_not_le hle)⟩

theorem render_unless_deep (p : Program) (room : Nat) :
    ReturnsUnlessDeep (p.lowered.render room fun _ => none) (Expr.code p.body)
      Rendering.stage := by
  rw [ReturnsUnlessDeep, render_lowered]
  split
  · exact .inl rfl
  · exact .inr ⟨_, rfl⟩

theorem emit_error {f : Fault} (h : p.emit room = .error f) :
    ∃ stage, f = ⟨.nestingTooDeep stage, p.span, none⟩ := by
  rw [emit_eq] at h
  split at h
  · split at h
    · cases h
    · cases h
      exact ⟨_, rfl⟩
  · cases h
    exact ⟨_, rfl⟩

theorem stages_assured (stack : Allowance) (h : p.depth ≤ assuredNesting) :
    p.toTree.lower stack.room (fun _ => none) = .ok p.lowered ∧
      p.lowered.render stack.room (fun _ => none) = .ok (Expr.code p.body) := by
  have htarget := p.levels_lowered_le
  have hlevels := stack.levels_ge
  refine ⟨lower_assured stack h, ?_⟩
  rw [render_lowered, if_pos (by omega)]

end Program

namespace Reader

theorem parse_error_code {room : Nat} {ts : List Token} {f : Fault}
    (h : Program.parse room ts = .error f) :
    f.cause = .nestingTooDeep stage ∨ f.cause.code = "E101" ∨ f.cause.code = "E102" := by
  by_cases hc : f.cause = .nestingTooDeep stage
  · exact .inl hc
  · obtain ⟨i, -, rfl⟩ := failsFirstAt_of_parse_error h hc
    right
    rw [code_causeAt]
    split
    · exact .inr rfl
    · exact .inl rfl

def openings (count : Nat) : List Token :=
  (List.replicate count [⟨.paren, "(", none⟩, ⟨.name, "f", none⟩]).flatten

theorem openings_eq_openTokens (count : Nat) :
    openings count = openTokens (List.replicate count ⟨⟨.paren, "(", none⟩, "f", #[]⟩) := by
  induction count with
  | zero => rfl
  | succ count ih =>
    rw [openings, List.replicate_succ', List.flatten_concat, ← openings, ih]
    simp [List.replicate_succ, openTokens, Expr.tokensAll]

theorem mem_openings {t : Token} {count : Nat} (h : t ∈ openings count) :
    t = ⟨.paren, "(", none⟩ ∨ t = ⟨.name, "f", none⟩ := by
  obtain ⟨call, hcall, ht⟩ := List.mem_flatten.mp h
  obtain rfl := List.eq_of_mem_replicate hcall
  simpa using ht

theorem map_bare_openings (count : Nat) :
    (openings count).map Token.bare = openings count := by
  have hsame : ∀ t ∈ openings count, t.bare = t := by
    intro t ht
    rcases mem_openings ht with rfl | rfl <;> rfl
  exact (List.map_congr_left hsame).trans (List.map_id' _)

theorem viable_openings {ts : List Token} {count : Nat}
    (h : ts.map Token.bare = openings count) : Viable ts := by
  obtain ⟨es, hes⟩ := (ready (List.replicate count _)).tokens_begin_program
  rw [tokens_ready, ← openings_eq_openTokens, ← h] at hes
  exact ⟨⟨es, none⟩, hes⟩

theorem unclosed_openings (count : Nat) : unclosed (openings count) = count := by
  simp [unclosed, openings, List.countP_flatten, Token.isOpen, Token.isClose]

end Reader

namespace Source

variable {room : Nat} {s : Source} {f : Fault} {ts : List Token} {i : Nat}

theorem compile_eq_error_iff : s.compile room = .error f ↔
    s.tokens = .error f ∨ ∃ ts, s.tokens = .ok ts ∧ (Program.parse room ts = .error f ∨
      ∃ p, Program.parse room ts = .ok p ∧ p.emit room = .error f) := by
  rw [compile_eq_bind, program_eq_bind]
  cases s.tokens with
  | error g => simp [Except.bind]
  | ok ts =>
    cases hp : Program.parse room ts with
    | error g => simp [Except.bind, hp]
    | ok p => simp [Except.bind, hp]

theorem compile_of_parse_error (hs : s.tokens = .ok ts) (hp : Program.parse room ts = .error f) :
    s.compile room = .error f :=
  compile_eq_error_iff.mpr (.inr ⟨ts, hs, .inl hp⟩)

theorem compile_error_code (h : s.compile room = .error f) :
    f.cause.code ∈ ["E001", "E101", "E102", "E301"] := by
  rcases compile_eq_error_iff.mp h with hs | ⟨ts, -, hp | ⟨p, -, hp⟩⟩
  · obtain ⟨before, ch, after, -, -, -, rfl⟩ := exists_of_tokens_error hs
    simp [strayFault, Cause.code]
  · rcases Reader.parse_error_code hp with hc | hc | hc
    · simp [hc, Cause.code]
    · simp [hc]
    · simp [hc]
  · obtain ⟨stage, rfl⟩ := Program.emit_error hp
    simp [Cause.code]

theorem compile_of_shallow (stack : Allowance) (hs : s.tokens = .ok ts)
    (h : Reader.SoundUpTo ts i)
    (hn : ∀ j ≤ i, Reader.unclosed (ts.take j) ≤ assuredNesting) :
    (Reader.Whole ts → ∃ code, s.compile stack.room = .ok code) ∧
      (¬ Reader.Whole ts → ∃ f, Program.parse stack.room ts = .error f ∧
        s.compile stack.room = .error f ∧ (f.cause.code = "E101" ∨ f.cause.code = "E102")) := by
  have hlow : ∀ j ≤ i, Reader.unclosed (ts.take j) < Reader.capacity stack.room := by
    intro j hj
    have hle := hn j hj
    have hlt := Reader.capacity_gt stack
    omega
  rcases Reader.parse_of_shallow h hlow with ⟨p, hw, hp⟩ | ⟨hw, hp⟩
  · refine ⟨fun _ => ⟨Expr.code p.body, compile_eq_ok_iff.mpr ⟨ts, p, hs, hp, ?_⟩⟩, ?_⟩
    · exact Program.emit_assured stack (Reader.depth_le_of_unclosed h hn hp)
    · intro hnot
      exact absurd hw hnot
  · refine ⟨fun hw' => absurd hw' hw, fun _ => ?_⟩
    refine ⟨_, hp, compile_of_parse_error hs hp, ?_⟩
    exact (Reader.parse_error_code hp).resolve_left (Reader.cause_of_shallow h hlow hp)

theorem compile_of_deep (stack : Allowance) (hs : s.tokens = .ok ts) (h : Reader.SoundUpTo ts i)
    (hn : ∃ j ≤ i, (refusedNesting : Int) ≤ Reader.unclosed (ts.take j)) :
    ∃ span, s.compile stack.room = .error ⟨.nestingTooDeep Reader.stage, span, none⟩ := by
  obtain ⟨j, hj, hle⟩ := hn
  have hlt := Reader.capacity_lt stack
  have hdeep : (Reader.capacity stack.room : Int) + 1 < Reader.unclosed (ts.take j) := by omega
  obtain ⟨span, hp⟩ := Reader.parse_of_deep h hj hdeep
  exact ⟨span, compile_of_parse_error hs hp⟩

def openCalls (count : Nat) : Source :=
  ⟨String.ofList (List.replicate count ['(', 'f']).flatten, none⟩

theorem layout_openCalls (count : Nat) : ∀ k : Option Token.Kind,
    Layout runsClash k (Reader.openings count) (openCalls count).text.toList := by
  induction count with
  | zero =>
    intro k
    exact .done (by simp [openCalls])
  | succ count ih =>
    intro k
    have hname : Layout runsClash (some .paren) (⟨.name, "f", none⟩ :: Reader.openings count)
        ("f".toList ++ (openCalls count).text.toList) :=
      .touching (ih (some .name)) (by simp [runsClash])
    have hopen : Layout runsClash k
        (⟨.paren, "(", none⟩ :: ⟨.name, "f", none⟩ :: Reader.openings count)
        ("(".toList ++ ("f".toList ++ (openCalls count).text.toList)) :=
      .touching hname (by simp [runsClash])
    simpa [Reader.openings, openCalls, List.replicate_succ] using hopen

theorem tokens_openCalls (count : Nat) (file : Option String) :
    ∃ ts, tokens ⟨(openCalls count).text, file⟩ = .ok ts ∧ Reader.Viable ts ∧
      Reader.unclosed ts = count := by
  have hlexeme : ∀ t ∈ Reader.openings count, t.Lexeme := by
    intro t ht
    rcases Reader.mem_openings ht with rfl | rfl
    · exact Token.lexeme_paren (.inl rfl)
    · exact Token.lexeme_run (by simp) (by simp) (by simp [Token.Kind.admits])
  obtain ⟨ts, hts, hbare⟩ := tokens_of_layout ⟨_, file⟩ (layout_openCalls count none) hlexeme
  rw [Reader.map_bare_openings] at hbare
  refine ⟨ts, hts, Reader.viable_openings hbare, ?_⟩
  rw [← Reader.unclosed_map_bare, hbare, Reader.unclosed_openings]

theorem recognized_openCalls (count : Nat) :
    ∀ ch ∈ (openCalls count).text.toList, recognized ch = true := by
  intro ch hch
  simp only [openCalls, String.toList_ofList] at hch
  obtain ⟨call, hcall, hmem⟩ := List.mem_flatten.mp hch
  obtain rfl := List.eq_of_mem_replicate hcall
  simp only [List.mem_cons, List.not_mem_nil, or_false] at hmem
  rcases hmem with rfl | rfl <;> rfl

theorem compile_outcomes :
    (∀ (room : Nat) (s : Source) (before after : List Char) (ch : Char),
      s.text.toList = before ++ ch :: after → (∀ x ∈ before, recognized x = true) →
      recognized ch = false → s.compile room = .error (s.strayFault before.length ch)) ∧
    (∀ (stack : Allowance) (s : Source), (∀ ch ∈ s.text.toList, recognized ch = true) →
      ∃ ts, s.tokens = .ok ts ∧ (∃! i, Reader.SoundUpTo ts i) ∧
        ∀ i, Reader.SoundUpTo ts i →
          ((∀ j ≤ i, Reader.unclosed (ts.take j) ≤ assuredNesting) →
            (Reader.Whole ts → ∃ code, s.compile stack.room = .ok code) ∧
            (¬ Reader.Whole ts → ∃ f, Program.parse stack.room ts = .error f ∧
              s.compile stack.room = .error f ∧
              (f.cause.code = "E101" ∨ f.cause.code = "E102"))) ∧
          ((∃ j ≤ i, (refusedNesting : Int) ≤ Reader.unclosed (ts.take j)) →
            ∃ span, s.compile stack.room = .error ⟨.nestingTooDeep Reader.stage, span, none⟩)) ∧
    (∀ (room : Nat) (s : Source) (f : Fault), s.compile room = .error f →
      f.cause.code ∈ ["E001", "E101", "E102", "E301"] ∧
        ∀ stage value, f.cause ≠ .unknownNode stage value) ∧
    (∀ (room : Nat) (ts : List Token) (p : Program), Program.parse room ts = .ok p →
      (∀ levels, ¬ Lowering.Refuses levels .root p.toTree) ∧
        ∃ target code,
          ReturnsUnlessDeep (p.toTree.lower room fun _ => none) target Lowering.stage ∧
          (∀ levels, ¬ Rendering.Refuses levels target) ∧
          ReturnsUnlessDeep (target.render room fun _ => none) code Rendering.stage ∧
          ∀ stack : Allowance, p.depth ≤ assuredNesting →
            p.toTree.lower stack.room (fun _ => none) = .ok target ∧
              target.render stack.room (fun _ => none) = .ok code) := by
  refine ⟨?_, ?_, ?_, ?_⟩
  · intro room s before after ch htext hbefore hch
    exact compile_eq_error_iff.mpr (.inl (tokens_eq_error (stray?_eq_some htext hbefore hch)))
  · intro stack s hs
    obtain ⟨ts, hts⟩ := exists_tokens (stray?_eq_none_iff.mpr hs)
    obtain ⟨i, hi⟩ := Reader.exists_soundUpTo ts
    refine ⟨ts, hts, ⟨i, hi, fun j hj => hi.unique hj⟩, fun j hj => ⟨?_, ?_⟩⟩
    · exact compile_of_shallow stack hts hj
    · exact compile_of_deep stack hts hj
  · intro room s f h
    have hcode := compile_error_code h
    refine ⟨hcode, ?_⟩
    intro stage value hc
    simp [hc, Cause.code] at hcode
  · intro room ts p _
    exact ⟨Lowering.not_refuses_toTree p, p.lowered, Expr.code p.body, p.lower_unless_deep room,
      Rendering.not_refuses_lowered p, p.render_unless_deep room,
      fun stack h => Program.stages_assured stack h⟩

theorem compile_outcomes_of_open_calls :
    compile 10 ⟨"((f %", none⟩ = .error (strayFault ⟨"((f %", none⟩ 4 '%') ∧
    (∃ f, compile Allowance.usual.room ⟨"(f 1", none⟩ = .error f ∧
      (f.cause.code = "E101" ∨ f.cause.code = "E102")) ∧
    (∃ span, (openCalls 5000).compile Allowance.usual.room =
      .error ⟨.nestingTooDeep "parser", span, none⟩) ∧
    (∀ levels, ¬ Lowering.Refuses levels .root (Program.toTree ⟨[.number "x" none], none⟩)) := by
  obtain ⟨hstray, hclean, -, htrees⟩ := compile_outcomes
  refine ⟨?_, ?_, ?_, ?_⟩
  · exact hstray 10 ⟨"((f %", none⟩ ['(', '(', 'f', ' '] [] '%' rfl (List.all_eq_true.mp rfl) rfl
  · obtain ⟨ts, hts, ⟨i, hi, -⟩, hboth⟩ :=
      hclean .usual ⟨"(f 1", none⟩ (List.all_eq_true.mp rfl)
    have hthree : tokens ⟨"(f 1", none⟩ = .ok
      [⟨.paren, "(", some ⟨⟨1, 1, 0, none⟩, ⟨1, 2, 1, none⟩⟩⟩,
        ⟨.name, "f", some ⟨⟨1, 2, 1, none⟩, ⟨1, 3, 2, none⟩⟩⟩,
        ⟨.number, "1", some ⟨⟨1, 4, 3, none⟩, ⟨1, 5, 4, none⟩⟩⟩] := by
      rw [tokens_eq_within]
      rfl
    have heq := Except.ok.inj (hts.symm.trans hthree)
    have hfault : ∃ f, Program.parse 10 ts = .error f ∧
        f.cause ≠ .nestingTooDeep Reader.stage := by
      rw [heq]
      refine ⟨_, rfl, ?_⟩
      intro hdeep
      cases hdeep
    have hlow : ∀ j ≤ i, Reader.unclosed (ts.take j) ≤ assuredNesting := by
      rw [heq]
      rintro (_ | _ | _ | j) - <;>
        simp [Reader.unclosed, assuredNesting, Token.isOpen, Token.isClose]
    obtain ⟨f, hparse, hcause⟩ := hfault
    obtain ⟨k, hk, -⟩ := Reader.failsFirstAt_of_parse_error hparse hcause
    obtain ⟨g, -, hg⟩ := ((hboth i hi).1 hlow).2 hk.not_whole
    exact ⟨g, hg⟩
  · obtain ⟨ts, hts, ⟨i, hi, -⟩, hboth⟩ :=
      hclean .usual (openCalls 5000) (recognized_openCalls 5000)
    obtain ⟨us, hus, hviable, hdeep⟩ := tokens_openCalls 5000 none
    obtain rfl := Except.ok.inj (hus.symm.trans hts)
    refine (hboth i hi).2 ⟨us.length, hi.length_le (List.append_nil us).symm hviable, ?_⟩
    rw [List.take_length, hdeep]
    exact Int.le_refl _
  · exact (htrees 10 [⟨.number, "x", none⟩] _ rfl).1

end Source

end CallForms
