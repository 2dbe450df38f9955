import CallForms.Proofs.Source.Scan
import Mathlib.Data.List.Chain

namespace CallForms

-- Between two tokens whose kinds clash there is at least one blank; `before` is the kind of the
-- token in front of the text.
inductive Layout (clash : Token.Kind → Token.Kind → Prop) :
    Option Token.Kind → List Token → List Char → Prop
  | done {before : Option Token.Kind} {gap : List Char}
      (hgap : ∀ ch ∈ gap, Text.isBlank ch = true) : Layout clash before [] gap
  | token {before : Option Token.Kind} {t : Token} {ts : List Token} {gap rest : List Char}
      (hgap : ∀ ch ∈ gap, Text.isBlank ch = true)
      (hapart : ∀ k ∈ before, clash k t.kind → gap ≠ [])
      (h : Layout clash (some t.kind) ts rest) :
      Layout clash before (t :: ts) (gap ++ t.text.toList ++ rest)

def runsClash (k k' : Token.Kind) : Prop :=
  k = k' ∧ k ≠ .paren

def numbersClash (k k' : Token.Kind) : Prop :=
  k = .number ∧ k' = .number

namespace Layout

variable {clash clash' : Token.Kind → Token.Kind → Prop} {before : Option Token.Kind}
  {ts : List Token} {text : List Char}

theorem touching {t : Token} (h : Layout clash (some t.kind) ts text)
    (hfree : ∀ k ∈ before, ¬ clash k t.kind) :
    Layout clash before (t :: ts) (t.text.toList ++ text) := by
  refine @Layout.token _ _ _ _ [] text (by simp) ?_ h
  intro k hk hclash
  exact absurd hclash (hfree k hk)

theorem behind {gap : List Char} (h : Layout clash before ts text)
    (hgap : ∀ ch ∈ gap, Text.isBlank ch = true) (hne : gap ≠ []) (k : Option Token.Kind) :
    Layout clash k ts (gap ++ text) := by
  cases h with
  | done hrest => exact .done (List.forall_mem_append.mpr ⟨hgap, hrest⟩)
  | token hrest hapart h =>
    rw [← List.append_assoc, ← List.append_assoc]
    refine .token (List.forall_mem_append.mpr ⟨hgap, hrest⟩) ?_ h
    intro k' _ _ hnil
    exact hne (List.append_eq_nil_iff.mp hnil).1

theorem append {us : List Token} {rest : List Char} (h : Layout clash before ts text)
    (h' : ∀ k, Layout clash k us rest) : Layout clash before (ts ++ us) (text ++ rest) := by
  induction h with
  | @done before gap hgap =>
    by_cases hnil : gap = []
    · subst hnil
      exact h' before
    · exact (h' before).behind hgap hnil before
  | token hgap hapart _ ih =>
    rw [List.cons_append, List.append_assoc]
    exact .token hgap hapart ih

theorem mono (h : Layout clash before ts text) (hc : ∀ k k', clash' k k' → clash k k') :
    Layout clash' before ts text := by
  induction h with
  | done hgap => exact .done hgap
  | token hgap hapart _ ih =>
    exact .token hgap (fun k hk hclash => hapart k hk (hc _ _ hclash)) ih

theorem map_bare (h : Layout clash before ts text) :
    Layout clash before (ts.map Token.bare) text := by
  induction h with
  | done hgap => exact .done hgap
  | @token before t ts gap rest hgap hapart _ ih =>
    exact Layout.token (t := t.bare) hgap hapart ih

theorem after_paren (h : Layout runsClash before ts text) :
    Layout runsClash (some .paren) ts text := by
  cases h with
  | done hgap => exact .done hgap
  | token hgap hapart h =>
    refine .token hgap ?_ h
    rintro k hk ⟨-, hp⟩
    cases hk
    exact absurd rfl hp

theorem of_chain (h : Layout numbersClash before ts text)
    (hchain : ts.IsChain fun t u => u.kind = .name → t.kind = .paren)
    (hhead : ∀ k ∈ before, ∀ t ∈ ts.head?, t.kind = .name → k = .paren) :
    Layout runsClash before ts text := by
  induction h with
  | done hgap => exact .done hgap
  | @token before t ts gap rest hgap hapart _ ih =>
    refine .token hgap ?_ (ih hchain.tail ?_)
    · rintro k hk ⟨rfl, hp⟩
      cases ht : t.kind with
      | paren => exact absurd ht hp
      | name => exact absurd (hhead _ hk t rfl ht) hp
      | number => exact hapart _ hk ⟨ht, ht⟩
    · intro k hk u hu hname
      cases ts with
      | nil => cases hu
      | cons u' us =>
        cases hu
        cases hk
        exact (List.isChain_cons_cons.mp hchain).1 hname

theorem stops (h : Layout runsClash before ts text) (hl : ∀ t ∈ ts, t.Lexeme) :
    ∀ k ∈ before, Source.Stops k text := by
  intro k hk hp ch hch
  rw [← Bool.not_eq_true]
  intro hadmits
  have hnot := Token.Kind.isBlank_of_admits hadmits
  cases h with
  | done hgap =>
    have hblank := hgap ch (List.mem_of_mem_head? hch)
    simp [hblank] at hnot
  | @token _ t ts gap rest hgap hapart h =>
    cases gap with
    | cons g gap =>
      cases hch
      simp [hgap ch (by simp)] at hnot
    | nil =>
      have ht := hl t (by simp)
      obtain ⟨x, word, hword⟩ := List.exists_cons_of_ne_nil ht.nonempty
      simp only [List.nil_append, hword, List.cons_append, List.head?_cons, Option.mem_def,
        Option.some.injEq] at hch
      subst hch
      have hsame := Token.Kind.admits_unique hadmits (ht.admitted x (by simp [hword]))
      exact hapart k hk ⟨hsame, hp⟩ rfl

end Layout

namespace Source

variable {s : Source} {c : Cursor} {ts : List Token}

theorem tokensFrom_of_layout (s : Source) {before : Option Token.Kind} {text : List Char}
    (h : Layout runsClash before ts text) (hl : ∀ t ∈ ts, t.Lexeme) (hc : c.rest = text) :
    ∃ us, s.tokensFrom c = .ok us ∧ us.map Token.bare = ts.map Token.bare := by
  induction h generalizing c with
  | done hgap =>
    subst hc
    exact ⟨[], tokensFrom_done (scan_of_blank s hgap), rfl⟩
  | @token before t ts gap rest hgap hapart h ih =>
    have hrest : ∀ u ∈ ts, u.Lexeme := fun u hu => hl u (by simp [hu])
    obtain ⟨u, next, hscan, hu, hnext⟩ := scan_of_lexeme s (hl t (by simp)) hgap hc
      (h.stops hrest t.kind rfl)
    obtain ⟨us, hus, hmap⟩ := ih hrest hnext
    refine ⟨u :: us, ?_, by rw [List.map_cons, List.map_cons, hu, hmap]⟩
    rw [tokensFrom_token hscan, hus]
    rfl

theorem layout_of_tokensFrom {before : Option Token.Kind} (h : s.tokensFrom c = .ok ts)
    (hb : ∀ k ∈ before, Stops k c.rest) :
    Layout runsClash before ts c.rest ∧ ∀ t ∈ ts, t.Lexeme := by
  fun_induction s.tokensFrom c generalizing before ts with
  | case1 c next hscan =>
    cases h
    exact ⟨.done (blank_of_scan_done hscan), by simp⟩
  | case2 c f next hscan => cases h
  | case3 c t next hscan ih =>
    obtain ⟨ht, hstop, gap, hgap, hrest⟩ := lexeme_of_scan hscan
    cases hlater : s.tokensFrom next with
    | error f => simp [hlater, Except.map] at h
    | ok us =>
      simp only [hlater, Except.map, Except.ok.injEq] at h
      subst h
      have hnext : ∀ k ∈ some t.kind, Stops k next.rest := by simpa using hstop
      obtain ⟨hlayout, hlex⟩ := ih hlater hnext
      refine ⟨?_, List.forall_mem_cons.mpr ⟨ht, hlex⟩⟩
      rw [hrest]
      refine .token hgap ?_ hlayout
      rintro k hk ⟨rfl, hp⟩ rfl
      obtain ⟨ch, word, hword⟩ := List.exists_cons_of_ne_nil ht.nonempty
      have hadmits := ht.admitted ch (by simp [hword])
      have hnot := hb t.kind hk hp ch (by simp [hrest, hword])
      simp [hadmits] at hnot

theorem layout_of_tokens (h : s.tokens = .ok ts) :
    Layout runsClash none ts s.text.toList ∧ ∀ t ∈ ts, t.Lexeme :=
  layout_of_tokensFrom h (by simp)

theorem tokens_of_layout (s : Source) (h : Layout runsClash none ts s.text.toList)
    (hl : ∀ t ∈ ts, t.Lexeme) :
    ∃ us, s.tokens = .ok us ∧ us.map Token.bare = ts.map Token.bare :=
  tokensFrom_of_layout s h hl rfl

end Source

end CallForms
