import CallForms.Proofs.Compilation.Code
import CallForms.Proofs.Source.Layout

namespace CallForms

namespace Expr

inductive Proper : Expr → Prop
  | number {digits : String} (hne : digits ≠ "") (hd : ∀ c ∈ digits.toList, c.isDigit = true) :
      Proper (.number digits none)
  | call {name : String} {params : List Expr} (hne : name ≠ "")
      (ha : ∀ c ∈ name.toList, c.isAlpha = true) (hp : ∀ e ∈ params, Proper e) :
      Proper (.call name params none)

variable {e : Expr} {es : List Expr}

theorem bareAll_eq_self (h : ∀ e ∈ es, e.bare = e) : bareAll es = es := by
  rw [bareAll_eq_map, List.map_congr_left h]
  exact List.map_id' es

theorem Proper.bare_eq (h : e.Proper) : e.bare = e := by
  induction h with
  | number hne hd => rfl
  | call hne ha hp ih => rw [bare, bareAll_eq_self ih]

theorem Proper.lexeme (h : e.Proper) : ∀ t ∈ e.tokens, t.Lexeme := by
  induction h with
  | number hne hd =>
    intro t ht
    obtain rfl := List.mem_singleton.mp ht
    exact Token.lexeme_run (by decide) hne hd
  | call hne ha hp ih =>
    refine forall_mem_tokens_call.mpr ⟨?_, ?_, ih, ?_⟩
    · exact Token.lexeme_paren (.inl rfl)
    · exact Token.lexeme_run (by decide) hne ha
    · exact Token.lexeme_paren (.inr rfl)

theorem proper_bare (e : Expr) (h : ∀ t ∈ e.tokens, t.Lexeme) : e.bare.Proper := by
  induction e with
  | number digits span =>
    have ht := h _ (List.mem_singleton.mpr rfl)
    exact .number (by simpa using ht.nonempty) ht.admitted
  | call name params span ih =>
    obtain ⟨-, ht, hparams, -⟩ := forall_mem_tokens_call.mp h
    rw [bare, bareAll_eq_map]
    refine .call (by simpa using ht.nonempty) ht.admitted ?_
    intro d hd
    obtain ⟨e, he, rfl⟩ := List.mem_map.mp hd
    exact ih e he (hparams e he)

structure NamesApart (ts : List Token) : Prop where
  chain : ts.IsChain fun t u => u.kind = .name → t.kind = .paren
  head : ∀ t ∈ ts.head?, t.kind ≠ .name

theorem NamesApart.nil : NamesApart [] :=
  ⟨.nil, by simp⟩

theorem NamesApart.append {ts us : List Token} (h : NamesApart ts) (h' : NamesApart us) :
    NamesApart (ts ++ us) := by
  constructor
  · refine h.chain.append h'.chain ?_
    intro t _ u hu hname
    exact absurd hname (h'.head u hu)
  · intro t ht
    cases ts with
    | nil => exact h'.head t ht
    | cons u ts => exact h.head t ht

theorem namesApart_tokens (e : Expr) : NamesApart e.tokens := by
  induction e with
  | number digits span => exact ⟨.singleton _, by simp [tokens]⟩
  | call name params span ih =>
    have hclose : NamesApart [⟨.paren, ")", none⟩] := ⟨.singleton _, by simp⟩
    have hparams := tokensAll_of_append .nil NamesApart.append ih
    obtain ⟨hchain, hhead⟩ := hparams.append hclose
    refine ⟨?_, by simp [tokens]⟩
    simp only [tokens, List.cons_append, List.nil_append]
    refine .cons_cons (fun _ => rfl) (hchain.cons ?_)
    intro t ht hname
    exact absurd hname (hhead t ht)

theorem namesApart_tokensAll (es : List Expr) : NamesApart (tokensAll es) :=
  tokensAll_of_append .nil .append fun e _ => namesApart_tokens e

end Expr

namespace Source

structure Spells (s : Source) (es : List Expr) : Prop where
  proper : ∀ e ∈ es, e.Proper
  layout : Layout numbersClash none (Expr.tokensAll es) s.text.toList

variable {room : Nat} {s : Source} {es es' : List Expr}

theorem Spells.tokens (h : s.Spells es) :
    ∃ us, s.tokens = .ok us ∧ us.map Token.bare = Expr.tokensAll es := by
  have hlexeme := Expr.forall_mem_tokensAll.mpr fun e he => (h.proper e he).lexeme
  have hlayout := h.layout.of_chain (Expr.namesApart_tokensAll es).chain (by simp)
  obtain ⟨us, hus, hbare⟩ := tokens_of_layout s hlayout hlexeme
  exact ⟨us, hus, by rw [hbare, Expr.map_bare_tokensAll]⟩

theorem Spells.unique (h : s.Spells es) (h' : s.Spells es') : es' = es := by
  obtain ⟨us, hus, hbare⟩ := h.tokens
  obtain ⟨us', hus', hbare'⟩ := h'.tokens
  obtain rfl : us = us' := Except.ok.inj (hus.symm.trans hus')
  have hinj := Expr.tokensAll_inj (hbare'.symm.trans hbare)
  rwa [Expr.bareAll_eq_self fun e he => (h'.proper e he).bare_eq,
    Expr.bareAll_eq_self fun e he => (h.proper e he).bare_eq] at hinj

theorem lexeme_of_parse {ts : List Token} {p : Program} (hts : s.tokens = .ok ts)
    (hp : Program.parse room ts = .ok p) : ∀ t ∈ Expr.tokensAll p.body, t.Lexeme := by
  have hbare : Expr.tokensAll p.body = ts.map Token.bare := Reader.tokens_of_parse_ok hp
  rw [hbare]
  intro t ht
  obtain ⟨u, hu, rfl⟩ := List.mem_map.mp ht
  exact ((layout_of_tokens hts).2 u hu).bare

theorem tokensAll_of_compile {code : String} (h : s.compile room = .ok code) :
    ∃ ts es, s.tokens = .ok ts ∧ ts.map Token.bare = Expr.tokensAll es ∧
      (∀ t ∈ Expr.tokensAll es, t.Lexeme) ∧ code = Expr.code es := by
  obtain ⟨ts, p, hts, hp, hcode⟩ := compile_eq_ok_iff.mp h
  exact ⟨ts, p.body, hts, (Reader.tokens_of_parse_ok hp).symm, lexeme_of_parse hts hp,
    Program.code_of_emit hcode⟩

theorem spells_of_compile {code : String} (h : s.compile room = .ok code) :
    ∃ es, s.Spells es ∧ code = Expr.code es := by
  obtain ⟨ts, es, hts, hbare, hlexeme, rfl⟩ := tokensAll_of_compile h
  refine ⟨Expr.bareAll es, ⟨?_, ?_⟩, (Expr.code_bareAll es).symm⟩
  · rw [Expr.bareAll_eq_map]
    intro e he
    obtain ⟨d, hd, rfl⟩ := List.mem_map.mp he
    exact Expr.proper_bare d (Expr.forall_mem_tokensAll.mp hlexeme d hd)
  · rw [Expr.tokensAll_bareAll, ← hbare]
    refine (layout_of_tokens hts).1.map_bare.mono ?_
    rintro k k' ⟨rfl, rfl⟩
    exact ⟨rfl, by decide⟩

theorem Spells.compile (h : s.Spells es) (stack : Allowance)
    (hd : Expr.depthAll es ≤ assuredNesting) : s.compile stack.room = .ok (Expr.code es) := by
  obtain ⟨ts, hts, hbare⟩ := h.tokens
  obtain ⟨p, hp, hbody⟩ := Reader.parse_of_bare_eq_tokens (p := ⟨es, none⟩) hbare
    (Nat.le_trans hd (Reader.capacity_ge stack))
  have hsame : Expr.bareAll p.body = Expr.bareAll es := congrArg Program.body hbody
  have hdepth : p.depth ≤ assuredNesting := by
    rw [Program.depth, ← Expr.depthAll_bareAll, hsame, Expr.depthAll_bareAll]
    exact hd
  refine compile_eq_ok_iff.mpr ⟨ts, p, hts, hp, ?_⟩
  rw [Program.emit_assured stack hdepth, ← Expr.code_bareAll p.body, hsame, Expr.code_bareAll]

theorem compile_accepts_layouts :
    (∀ (stack : Allowance) (s : Source) (es : List Expr), s.Spells es →
      Expr.depthAll es ≤ assuredNesting → s.compile stack.room = .ok (Expr.code es)) ∧
    (∀ (room : Nat) (s : Source) (code : String), s.compile room = .ok code →
      ∃ es, s.Spells es ∧ (∀ es', s.Spells es' → es' = es) ∧ code = Expr.code es) := by
  constructor
  · intro stack s es h hd
    exact h.compile stack hd
  · intro room s code h
    obtain ⟨es, hes, hcode⟩ := spells_of_compile h
    refine ⟨es, hes, ?_, hcode⟩
    intro es' hes'
    exact hes.unique hes'

theorem compile_accepts_touching_tokens :
    compile Allowance.usual.room ⟨"(f1)2 3", none⟩ = .ok "f(1);\n2\n3" ∧
    ∀ es, Spells ⟨"(f1)2 3", none⟩ es →
      es = [.call "f" [.number "1" none] none, .number "2" none, .number "3" none] := by
  have hspace : ∀ ch ∈ [' '], Text.isBlank ch = true := List.forall_mem_singleton.mpr rfl
  have hthree : Layout numbersClash none [⟨.number, "3", none⟩] "3".toList :=
    .touching (.done (by simp)) (by simp)
  have htwo : Layout numbersClash (some .paren) [⟨.number, "2", none⟩, ⟨.number, "3", none⟩]
      "2 3".toList :=
    .touching (hthree.behind hspace (by simp) _) (by simp [numbersClash])
  have hargument : Layout numbersClash (some .name) [⟨.number, "1", none⟩, ⟨.paren, ")", none⟩,
      ⟨.number, "2", none⟩, ⟨.number, "3", none⟩] "1)2 3".toList :=
    .touching (.touching htwo (by simp [numbersClash])) (by simp [numbersClash])
  have hlayout : Layout numbersClash none (Expr.tokensAll [.call "f" [.number "1" none] none,
      .number "2" none, .number "3" none]) "(f1)2 3".toList :=
    .touching (.touching hargument (by simp [numbersClash])) (by simp)
  have hproper : ∀ e ∈ [Expr.call "f" [.number "1" none] none, .number "2" none,
      .number "3" none], e.Proper := by
    have hone : Expr.Proper (.number "1" none) := .number (by simp) (by simp)
    intro e he
    simp only [List.mem_cons, List.not_mem_nil, or_false] at he
    rcases he with rfl | rfl | rfl
    · exact .call (by simp) (by simp) (by simp [hone])
    · exact .number (by simp) (by simp)
    · exact .number (by simp) (by simp)
  have hspells : Spells ⟨"(f1)2 3", none⟩ _ := ⟨hproper, hlayout⟩
  have hcompile := compile_accepts_layouts.1 .usual _ _ hspells (by decide)
  obtain ⟨es, -, hunique, -⟩ := compile_accepts_layouts.2 _ _ _ hcompile
  refine ⟨hcompile, ?_⟩
  intro es' hes'
  exact (hunique es' hes').trans (hunique _ hspells).symm

end Source

end CallForms
