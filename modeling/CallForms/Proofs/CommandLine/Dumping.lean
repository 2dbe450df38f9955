import CallForms.CommandLine.Command
import CallForms.Proofs.CommandLine.Checking
import CallForms.Proofs.Compilation.Conservation
import CallForms.Proofs.Tree.Equality
import Mathlib.Tactic.TFAE

namespace CallForms

namespace Token

theorem same_toJson (t u : Token) : t.toJson.same u.toJson = t.same u := by
  have hword : (t.kind.word == u.kind.word) = (t.kind == u.kind) := by
    cases t.kind <;> cases u.kind <;> rfl
  simp [toJson, Json.same_tagged, Json.sameFields, Json.same, List.lookup_cons, same, hword]

theorem same_toJson_map_iff {ts us : List Token} :
    Json.sameItems (ts.map toJson) (us.map toJson) = true ↔ ts.map bare = us.map bare := by
  induction ts generalizing us with
  | nil => cases us <;> simp [Json.sameItems]
  | cons t ts ih =>
    cases us with
    | nil => simp [Json.sameItems]
    | cons u us =>
      simp only [List.map_cons, Json.sameItems, Bool.and_eq_true, same_toJson, same_iff, ih,
        List.cons.injEq]

end Token

namespace Source

structure Produces (s : Source) (room : Nat) (c : Compilation) : Prop where
  tokens : s.tokens = .ok c.tokens
  program : Program.parse room c.tokens = .ok c.program
  target : c.target = c.program.lowered
  code : c.code = Expr.code c.program.body

variable {room room' : Nat} {s s' : Source} {c c' : Compilation}

theorem produces_of_stages (h : s.stages room = .ok c) : s.Produces room c := by
  have hcompiles : s.compile room = .ok c.code := by
    rw [compile_eq_map_stages, h]
    rfl
  obtain ⟨ts, p, hts, hp, hemit⟩ := compile_eq_ok_iff.mp hcompiles
  obtain ⟨hsource, -, hcode⟩ := Program.emit_eq_ok_iff.mp hemit
  simp only [stages, bind, Except.bind, pure, Except.pure, hts, hp,
    Program.lower_toTree hsource] at h
  split at h
  · cases h
  · cases h
    exact ⟨hts, hp, rfl, hcode⟩

namespace Produces

theorem map_bare_tokens (h : s.Produces room c) :
    c.tokens.map Token.bare = Expr.tokensAll c.program.body :=
  (Reader.tokens_of_parse_ok h.program).symm

theorem map_bare_tokens_iff (h : s.Produces room c) (h' : s'.Produces room' c') :
    c.tokens.map Token.bare = c'.tokens.map Token.bare ↔
      Expr.bareAll c.program.body = Expr.bareAll c'.program.body := by
  rw [h.map_bare_tokens, h'.map_bare_tokens]
  constructor
  · exact Expr.tokensAll_inj
  · intro hbare
    rw [← Expr.tokensAll_bareAll, hbare, Expr.tokensAll_bareAll]

theorem code_eq_iff (h : s.Produces room c) (h' : s'.Produces room' c') :
    c.code = c'.code ↔ c.tokens.map Token.bare = c'.tokens.map Token.bare := by
  rw [h.code, h'.code, h.map_bare_tokens, h'.map_bare_tokens]
  exact Expr.code_eq_iff (lexeme_of_parse h.tokens h.program)
    (lexeme_of_parse h'.tokens h'.program)

end Produces

end Source

namespace CommandLine

theorem dumping_loses_only_layout :
    (∀ (room room' : Nat) (s s' : Source) (c c' : Compilation), s.stages room = .ok c →
      s'.stages room' = .ok c' → List.TFAE [
        c.tokens.map Token.bare = c'.tokens.map Token.bare,
        (Stage.tokens.json c).same (Stage.tokens.json c') = true,
        (Stage.source.json c).same (Stage.source.json c') = true,
        (Stage.target.json c).same (Stage.target.json c') = true,
        c.code = c'.code]) ∧
    ∀ (family : Family) (a b : Tree), a.Closed family → b.Closed family →
      (a.toJson.same b.toJson = true ↔ a.same b = true) := by
  constructor
  · intro room room' s s' c c' h h'
    have hc := Source.produces_of_stages h
    have hc' := Source.produces_of_stages h'
    tfae_have 1 ↔ 2 := by
      rw [Stage.json, Stage.json, Json.same]
      exact Token.same_toJson_map_iff.symm
    tfae_have 1 ↔ 3 := by
      rw [hc.map_bare_tokens_iff hc']
      exact Program.same_toJson_iff.symm
    tfae_have 1 ↔ 4 := by
      rw [hc.map_bare_tokens_iff hc', Stage.json, Stage.json, hc.target, hc'.target,
        Program.lowered, Program.lowered]
      exact Program.same_toJson_lowered_iff.symm
    tfae_have 1 ↔ 5 := (hc.code_eq_iff hc').symm
    tfae_finish
  · intro family a b ha hb
    rw [Tree.same_toJson ha hb]

theorem dumping_loses_only_layout_of_nested_call :
    (∃ c c', Source.stages Allowance.usual.room ⟨"(f 1(g))2", none⟩ = .ok c ∧
      Source.stages (Allowance.usual.room - 1) ⟨" (f 1 (g ) ) 2", none⟩ = .ok c' ∧
      (Stage.tokens.json c).same (Stage.tokens.json c') = true ∧
      (Stage.source.json c).same (Stage.source.json c') = true ∧
      (Stage.target.json c).same (Stage.target.json c') = true) ∧
    ((Tree.invoke (.identifier "" none) [.number .target "x" none] none).toJson.same
        (Tree.invoke (.identifier "" none) [.statement (.number .target "x" none) none]
          none).toJson = true ↔
      (Tree.invoke (.identifier "" none) [.number .target "x" none] none).same
        (.invoke (.identifier "" none) [.statement (.number .target "x" none) none] none) =
          true) := by
  obtain ⟨hstages, htrees⟩ := dumping_loses_only_layout
  have h : Source.compile Allowance.usual.room ⟨"(f 1(g))2", none⟩ = .ok "f(1, g());\n2" :=
    Source.compile_eq_ok_of_within (by decide +kernel)
  have h' : Source.compile (Allowance.usual.room - 1) ⟨" (f 1 (g ) ) 2", none⟩ =
    .ok "f(1, g());\n2" :=
    Source.compile_eq_ok_of_within (by decide +kernel)
  constructor
  · obtain ⟨c, hc⟩ := Source.stages_of_compile_ok h
    obtain ⟨c', hc'⟩ := Source.stages_of_compile_ok h'
    rw [Source.compile_eq_map_stages, hc] at h
    rw [Source.compile_eq_map_stages, hc'] at h'
    have hcode : c.code = c'.code := (Except.ok.inj h).trans (Except.ok.inj h').symm
    have hviews := hstages _ _ _ _ c c' hc hc'
    exact ⟨c, c', hc, hc', (hviews.out 4 1).mp hcode, (hviews.out 4 2).mp hcode,
      (hviews.out 4 3).mp hcode⟩
  · refine htrees .target _ _ (.invoke .identifier ?_) (.invoke .identifier ?_)
    · rw [List.forall_mem_singleton]
      exact .number
    · rw [List.forall_mem_singleton]
      exact .statement .number

end CommandLine

end CallForms
