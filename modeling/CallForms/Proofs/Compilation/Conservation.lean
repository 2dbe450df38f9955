import CallForms.Proofs.Compilation.Meaning
import Mathlib.Data.List.Basic
import Mathlib.Data.Option.Basic

namespace CallForms

namespace Token

def isName (t : Token) : Bool :=
  t.kind == .name

def exchange (p q : Token → Bool) : List Token → List Token
  | [] => []
  | [t] => [t]
  | t :: u :: rest =>
    if p t && q u then u :: t :: exchange p q rest else t :: exchange p q (u :: rest)

variable {p q : Token → Bool} {t u : Token}

theorem exchange_cons (h : p t = false) (rest : List Token) :
    exchange p q (t :: rest) = t :: exchange p q rest := by
  cases rest with
  | nil => rfl
  | cons u rest => simp [exchange, h]

theorem exchange_cons_cons (hp : p t = true) (hq : q u = true) (rest : List Token) :
    exchange p q (t :: u :: rest) = u :: t :: exchange p q rest := by
  simp [exchange, hp, hq]

theorem perm_exchange (p q : Token → Bool) (ts : List Token) : (exchange p q ts).Perm ts := by
  fun_induction exchange p q ts with
  | case1 => exact .nil
  | case2 t => exact .refl [t]
  | case3 t u rest h ih => exact ((ih.cons t).cons u).trans (.swap t u rest)
  | case4 t u rest h ih => exact ih.cons t

theorem map_bare_exchange (hp : ∀ t : Token, p t.bare = p t) (hq : ∀ t : Token, q t.bare = q t)
    (ts : List Token) : (exchange p q ts).map bare = exchange p q (ts.map bare) := by
  fun_induction exchange p q ts with
  | case1 => rfl
  | case2 t => rfl
  | case3 t u rest h ih => simp [exchange, hp, hq, h, ih]
  | case4 t u rest h ih =>
    rw [List.map_cons] at ih
    simp [exchange, hp, hq, h, ih]

def OpensNames (ts : List Token) : Prop :=
  ∀ us t vs, ts = us ++ t :: vs → t.isOpen = true → ∃ u ∈ vs.head?, u.isName = true

variable {ts us : List Token}

theorem OpensNames.nil : OpensNames [] := by
  intro us t vs heq
  simp at heq

theorem OpensNames.cons (h : OpensNames ts)
    (ht : t.isOpen = true → ∃ u ∈ ts.head?, u.isName = true) : OpensNames (t :: ts) := by
  intro us t' vs heq hopen
  cases us with
  | nil =>
    obtain ⟨rfl, rfl⟩ := List.cons.inj heq
    exact ht hopen
  | cons u us => exact h us t' vs (List.cons.inj heq).2 hopen

theorem OpensNames.append (h : OpensNames ts) (h' : OpensNames us) : OpensNames (ts ++ us) := by
  intro xs t vs heq hopen
  rcases List.append_eq_append_iff.mp heq with ⟨ys, -, hus⟩ | ⟨ys, hts, hvs⟩
  · exact h' ys t vs hus hopen
  · cases ys with
    | nil => exact h' [] t vs hvs.symm hopen
    | cons y ys =>
      rw [List.cons_append] at hvs
      obtain ⟨rfl, rfl⟩ := List.cons.inj hvs
      obtain ⟨u, hu, hname⟩ := h xs t ys hts hopen
      refine ⟨u, ?_, hname⟩
      rw [List.head?_append, Option.mem_def.mp hu]
      rfl

theorem OpensNames.of_map_bare (h : OpensNames (ts.map bare)) : OpensNames ts := by
  rintro us t vs rfl hopen
  obtain ⟨u, hu, hname⟩ := h (us.map bare) t.bare (vs.map bare) (by simp) hopen
  rw [List.head?_map, Option.mem_map] at hu
  obtain ⟨v, hv, rfl⟩ := hu
  exact ⟨v, hv, hname⟩

end Token

namespace Expr

mutual

def spread (front : String → List Token) : Expr → List Token
  | .number digits _ => [⟨.number, digits, none⟩]
  | .call name params _ => front name ++ spreadAll front params ++ [⟨.paren, ")", none⟩]

def spreadAll (front : String → List Token) : List Expr → List Token
  | [] => []
  | e :: rest => spread front e ++ spreadAll front rest

end

def nameInside (name : String) : List Token :=
  [⟨.paren, "(", none⟩, ⟨.name, name, none⟩]

def nameAhead (name : String) : List Token :=
  [⟨.name, name, none⟩, ⟨.paren, "(", none⟩]

variable {p q : Token → Bool} {front front' : String → List Token} {e : Expr} {es : List Expr}

theorem spreadAll_eq_flatMap (front : String → List Token) (es : List Expr) :
    spreadAll front es = es.flatMap (spread front) := by
  induction es with
  | nil => rfl
  | cons e rest ih => rw [spreadAll, ih, List.flatMap_cons]

theorem spread_nameInside (e : Expr) : spread nameInside e = e.tokens := by
  induction e with
  | number digits span => rfl
  | call name params span ih =>
    have hparams : spreadAll nameInside params = tokensAll params := by
      rw [spreadAll_eq_flatMap, tokensAll_eq_flatMap]
      exact List.flatMap_congr ih
    rw [spread, hparams, tokens, nameInside]

theorem spreadAll_nameInside (es : List Expr) : spreadAll nameInside es = tokensAll es := by
  rw [spreadAll_eq_flatMap, tokensAll_eq_flatMap]
  exact List.flatMap_congr fun e _ => spread_nameInside e

theorem opensNames_tokens (e : Expr) : Token.OpensNames e.tokens := by
  induction e with
  | number digits span => exact .cons .nil (fun hopen => nomatch hopen)
  | call name params span ih =>
    have hclose : Token.OpensNames [⟨.paren, ")", none⟩] := .cons .nil (by decide)
    have hparams := tokensAll_of_append .nil Token.OpensNames.append ih
    have hrest := hparams.append hclose
    have hname : Token.OpensNames (⟨.name, name, none⟩ :: _) :=
      hrest.cons (fun hopen => nomatch hopen)
    exact hname.cons fun _ => ⟨_, rfl, rfl⟩

theorem exchange_spreadAll_of
    (h : ∀ e ∈ es, ∀ rest, Token.exchange p q (spread front e ++ rest) =
      spread front' e ++ Token.exchange p q rest) (rest : List Token) :
    Token.exchange p q (spreadAll front es ++ rest) =
      spreadAll front' es ++ Token.exchange p q rest := by
  induction es with
  | nil => rfl
  | cons e es ih =>
    have hes := ih fun d hd => h d (by simp [hd])
    rw [spreadAll, spreadAll, List.append_assoc, h e (by simp), hes, List.append_assoc]

theorem exchange_spread (hnumber : ∀ digits, p ⟨.number, digits, none⟩ = false)
    (hclose : p ⟨.paren, ")", none⟩ = false)
    (hfront : ∀ name rest, Token.exchange p q (front name ++ rest) =
      front' name ++ Token.exchange p q rest) (e : Expr) : ∀ rest,
    Token.exchange p q (spread front e ++ rest) = spread front' e ++ Token.exchange p q rest := by
  induction e with
  | number digits span =>
    intro rest
    exact Token.exchange_cons (hnumber digits) rest
  | call name params span ih =>
    intro rest
    simp only [spread, List.append_assoc, List.cons_append, List.nil_append]
    rw [hfront, exchange_spreadAll_of ih, Token.exchange_cons hclose]

theorem exchange_spreadAll (hnumber : ∀ digits, p ⟨.number, digits, none⟩ = false)
    (hclose : p ⟨.paren, ")", none⟩ = false)
    (hfront : ∀ name rest, Token.exchange p q (front name ++ rest) =
      front' name ++ Token.exchange p q rest) (es : List Expr) :
    Token.exchange p q (spreadAll front es) = spreadAll front' es := by
  have h : Token.exchange p q (spreadAll front es ++ []) = spreadAll front' es ++ [] :=
    exchange_spreadAll_of (fun e _ => exchange_spread hnumber hclose hfront e) []
  rwa [List.append_nil, List.append_nil] at h

theorem exchange_tokensAll (es : List Expr) :
    Token.exchange Token.isOpen Token.isName (tokensAll es) = spreadAll nameAhead es := by
  rw [← spreadAll_nameInside]
  exact exchange_spreadAll (fun _ => rfl) rfl
    (fun _ rest => Token.exchange_cons_cons rfl rfl rest) es

theorem exchange_spreadAll_nameAhead (es : List Expr) :
    Token.exchange Token.isName Token.isOpen (spreadAll nameAhead es) = tokensAll es := by
  rw [← spreadAll_nameInside]
  exact exchange_spreadAll (fun _ => rfl) rfl
    (fun _ rest => Token.exchange_cons_cons rfl rfl rest) es

end Expr

def unseparated (text : String) : String :=
  text.map fun c => if c = ',' ∨ c = ';' then ' ' else c

theorem toList_unseparated_append (a b : String) :
    (unseparated (a ++ b)).toList = (unseparated a).toList ++ (unseparated b).toList := by
  simp [unseparated]

theorem Token.Lexeme.toList_unseparated {t : Token} (h : t.Lexeme) :
    (unseparated t.text).toList = t.text.toList := by
  rw [unseparated, String.toList_map]
  conv_rhs => rw [← List.map_id' t.text.toList]
  refine List.map_congr_left ?_
  intro c hc
  have ha := h.admitted c hc
  refine if_neg ?_
  rintro (rfl | rfl)
  · cases hk : t.kind <;> simp [hk, Kind.admits] at ha
  · cases hk : t.kind <;> simp [hk, Kind.admits] at ha

def Writes (ts : List Token) (text : String) : Prop :=
  Layout runsClash none ts (unseparated text).toList

namespace Writes

variable {ts us : List Token} {a b sep : String} {es : List Expr}

theorem append (ha : Writes ts a) (hb : ∀ k, Layout runsClash k us (unseparated b).toList) :
    Writes (ts ++ us) (a ++ b) := by
  rw [Writes, toList_unseparated_append]
  exact Layout.append ha hb

theorem intercalate {front : String → List Token} {text : Expr → String}
    (hsep : ∀ c ∈ (unseparated sep).toList, Text.isBlank c = true)
    (hne : (unseparated sep).toList ≠ [])
    (h : ∀ e ∈ es, Writes (Expr.spread front e) (text e)) :
    Writes (Expr.spreadAll front es) (sep.intercalate (es.map text)) := by
  induction es with
  | nil => exact .done (by simp [unseparated])
  | cons e rest ih =>
    have he := h e (by simp)
    have hrest := ih fun d hd => h d (by simp [hd])
    cases rest with
    | nil => simpa [Expr.spreadAll] using he
    | cons d rest =>
      rw [List.map_cons, List.map_cons, String.intercalate_cons_cons, String.append_assoc]
      refine he.append ?_
      intro k
      rw [toList_unseparated_append]
      exact hrest.behind hsep hne k

theorem word {k : Option Token.Kind} {t : Token} (ht : t.Lexeme)
    (h : Layout runsClash (some t.kind) ts (unseparated b).toList)
    (hfree : ∀ k' ∈ k, ¬ runsClash k' t.kind) :
    Layout runsClash k (t :: ts) (unseparated (t.text ++ b)).toList := by
  rw [toList_unseparated_append, ht.toList_unseparated]
  exact h.touching hfree

theorem closing (k : Option Token.Kind) :
    Layout runsClash k [⟨.paren, ")", none⟩] (unseparated ")").toList := by
  have hdone : Layout runsClash (some .paren) [] (unseparated "").toList :=
    .done (by simp [unseparated])
  have hfree : ∀ k' ∈ k, ¬ runsClash k' .paren := by
    rintro k' - ⟨rfl, hp⟩
    exact hp rfl
  have hword := word (Token.lexeme_paren (.inr rfl)) hdone hfree
  rwa [String.append_empty] at hword

theorem rendering (e : Expr) (h : ∀ t ∈ e.tokens, t.Lexeme) :
    Writes (Expr.spread Expr.nameAhead e) e.rendering := by
  induction e with
  | number digits span =>
    have ht : Token.Lexeme ⟨.number, digits, none⟩ := h _ (by simp [Expr.tokens])
    have hdone : Layout runsClash (some .number) [] (unseparated "").toList :=
      .done (by simp [unseparated])
    have hword : Writes [⟨.number, digits, none⟩] (digits ++ "") := word ht hdone (by simp)
    rwa [String.append_empty] at hword
  | call name params span ih =>
    obtain ⟨-, ht, hparams, -⟩ := Expr.forall_mem_tokens_call.mp h
    have hcomma : (unseparated ", ").toList = [' ', ' '] := by simp [unseparated]
    have hargs : Writes (Expr.spreadAll Expr.nameAhead params)
        (", ".intercalate (params.map Expr.rendering)) := by
      refine intercalate ?_ ?_ ?_
      · rw [hcomma, List.forall_mem_cons, List.forall_mem_singleton]
        exact ⟨rfl, rfl⟩
      · simp [hcomma]
      · intro e he
        exact ih e he (hparams e he)
    have hbody := (hargs.append closing).after_paren
    have hopen : Layout runsClash (some .name) _ _ :=
      word (Token.lexeme_paren (.inl rfl)) hbody (by simp [runsClash])
    have hcall : Writes _ _ := word ht hopen (by simp)
    simpa [Expr.spread, Expr.rendering, Expr.renderings_eq_map, Expr.nameAhead,
      String.append_assoc] using hcall

theorem statement (e : Expr) (h : ∀ t ∈ e.tokens, t.Lexeme) :
    Writes (Expr.spread Expr.nameAhead e) e.statement := by
  cases e with
  | number digits span => exact rendering (.number digits span) h
  | call name params span =>
    have hsemicolon : (unseparated ";").toList = [' '] := by simp [unseparated]
    have hblank : ∀ k, Layout runsClash k [] (unseparated ";").toList := by
      intro k
      refine .done ?_
      rw [hsemicolon, List.forall_mem_singleton]
      rfl
    have hcall := (rendering (.call name params span) h).append hblank
    rwa [List.append_nil] at hcall

theorem code (es : List Expr) (h : ∀ t ∈ Expr.tokensAll es, t.Lexeme) :
    Writes (Expr.spreadAll Expr.nameAhead es) (Expr.code es) := by
  have hline : (unseparated "\n").toList = ['\n'] := by simp [unseparated]
  refine intercalate ?_ ?_ ?_
  · rw [hline, List.forall_mem_singleton]
    rfl
  · simp [hline]
  · intro e he
    exact statement e (Expr.forall_mem_tokensAll.mp h e he)

end Writes

namespace Expr

variable {es es' : List Expr}

theorem tokens_unseparated_code (h : ∀ t ∈ tokensAll es, t.Lexeme) (file : Option String) :
    ∃ us, Source.tokens ⟨unseparated (code es), file⟩ = .ok us ∧
      us.map Token.bare = Token.exchange Token.isOpen Token.isName (tokensAll es) := by
  have hperm := Token.perm_exchange Token.isOpen Token.isName (tokensAll es)
  rw [exchange_tokensAll] at hperm
  have hlexeme : ∀ t ∈ spreadAll nameAhead es, t.Lexeme := by
    intro t ht
    exact h t (hperm.mem_iff.mp ht)
  obtain ⟨us, hus, hbare⟩ :=
    Source.tokens_of_layout ⟨unseparated (code es), file⟩ (Writes.code es h) hlexeme
  refine ⟨us, hus, ?_⟩
  rw [hbare, ← exchange_tokensAll, Token.map_bare_exchange (fun _ => rfl) (fun _ => rfl),
    map_bare_tokensAll]

theorem code_eq_iff (h : ∀ t ∈ tokensAll es, t.Lexeme) (h' : ∀ t ∈ tokensAll es', t.Lexeme) :
    code es = code es' ↔ tokensAll es = tokensAll es' := by
  constructor
  · intro hcode
    obtain ⟨us, hus, hbare⟩ := tokens_unseparated_code h none
    obtain ⟨us', hus', hbare'⟩ := tokens_unseparated_code h' none
    rw [hcode] at hus
    obtain rfl : us = us' := Except.ok.inj (hus.symm.trans hus')
    have hsame := hbare.symm.trans hbare'
    rw [exchange_tokensAll, exchange_tokensAll] at hsame
    rw [← exchange_spreadAll_nameAhead es, hsame, exchange_spreadAll_nameAhead]
  · intro hts
    rw [← code_bareAll es, tokensAll_inj hts, code_bareAll]

end Expr

namespace Source

theorem compile_conserves_tokens :
    (∀ (room : Nat) (s : Source) (code : String) (file : Option String),
      s.compile room = .ok code →
      ∃ ts us, s.tokens = .ok ts ∧ tokens ⟨unseparated code, file⟩ = .ok us ∧
        Token.OpensNames ts ∧
        us.map Token.bare = (Token.exchange Token.isOpen Token.isName ts).map Token.bare ∧
        (us.map Token.bare).Perm (ts.map Token.bare)) ∧
    (∀ (room room' : Nat) (s s' : Source) (code code' : String),
      s.compile room = .ok code → s'.compile room' = .ok code' →
      ∃ ts ts', s.tokens = .ok ts ∧ s'.tokens = .ok ts' ∧
        (code = code' ↔ ts.map Token.bare = ts'.map Token.bare)) := by
  constructor
  · intro room s code file h
    obtain ⟨ts, es, hts, hbare, hlexeme, rfl⟩ := tokensAll_of_compile h
    obtain ⟨us, hus, hexchange⟩ := Expr.tokens_unseparated_code hlexeme file
    have hnames : Token.OpensNames (ts.map Token.bare) := by
      rw [hbare]
      exact Expr.tokensAll_of_append .nil .append fun e _ => Expr.opensNames_tokens e
    refine ⟨ts, us, hts, hus, hnames.of_map_bare, ?_, ?_⟩
    · rw [hexchange, Token.map_bare_exchange (fun _ => rfl) (fun _ => rfl), hbare]
    · rw [hexchange, hbare]
      exact Token.perm_exchange _ _ _
  · intro room room' s s' code code' h h'
    obtain ⟨ts, es, hts, hbare, hlexeme, rfl⟩ := tokensAll_of_compile h
    obtain ⟨ts', es', hts', hbare', hlexeme', rfl⟩ := tokensAll_of_compile h'
    refine ⟨ts, ts', hts, hts', ?_⟩
    rw [hbare, hbare']
    exact Expr.code_eq_iff hlexeme hlexeme'

theorem compile_conserves_tokens_of_nested_call :
    (∃ ts us, tokens ⟨"(f 1(g))2", none⟩ = .ok ts ∧
      tokens ⟨unseparated "f(1, g());\n2", none⟩ = .ok us ∧ Token.OpensNames ts ∧
        us.map Token.bare = (Token.exchange Token.isOpen Token.isName ts).map Token.bare ∧
        (us.map Token.bare).Perm (ts.map Token.bare)) ∧
    (∃ ts ts', tokens ⟨"(f 1(g))2", none⟩ = .ok ts ∧ tokens ⟨" (f 1 (g ) ) 2", none⟩ = .ok ts' ∧
      ("f(1, g());\n2" = "f(1, g());\n2" ↔ ts.map Token.bare = ts'.map Token.bare)) := by
  have h : compile 10 ⟨"(f 1(g))2", none⟩ = .ok "f(1, g());\n2" :=
    compile_eq_ok_of_within (by decide +kernel)
  have h' : compile 12 ⟨" (f 1 (g ) ) 2", none⟩ = .ok "f(1, g());\n2" :=
    compile_eq_ok_of_within (by decide +kernel)
  exact ⟨compile_conserves_tokens.1 _ _ _ none h, compile_conserves_tokens.2 _ _ _ _ _ _ h h'⟩

end Source

end CallForms
