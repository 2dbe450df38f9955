import CallForms.Expr.Basic
import Mathlib.Data.List.Basic

namespace CallForms

namespace Token

theorem isOpen_iff {t : Token} : t.isOpen = true ↔ t.bare = ⟨.paren, "(", none⟩ := by
  simp [isOpen, bare]

theorem isClose_iff {t : Token} : t.isClose = true ↔ t.bare = ⟨.paren, ")", none⟩ := by
  simp [isClose, bare]

end Token

namespace Expr

@[induction_eliminator]
theorem induction {P : Expr → Prop} (number : ∀ digits span, P (.number digits span))
    (call : ∀ name params span, (∀ e ∈ params, P e) → P (.call name params span)) :
    ∀ e, P e
  | .number digits span => number digits span
  | .call name params span => call name params span fun e _ => induction number call e

theorem tokensAll_eq_flatMap (es : List Expr) : tokensAll es = es.flatMap tokens := by
  induction es with
  | nil => rfl
  | cons e rest ih => simp [tokensAll, ih]

theorem forall_mem_tokensAll {es : List Expr} {P : Token → Prop} :
    (∀ t ∈ tokensAll es, P t) ↔ ∀ e ∈ es, ∀ t ∈ e.tokens, P t := by
  rw [tokensAll_eq_flatMap, List.forall_mem_flatMap]

theorem forall_mem_tokens_call {name : String} {params : List Expr} {span : Option Span}
    {P : Token → Prop} : (∀ t ∈ (Expr.call name params span).tokens, P t) ↔
      P ⟨.paren, "(", none⟩ ∧ P ⟨.name, name, none⟩ ∧ (∀ e ∈ params, ∀ t ∈ e.tokens, P t) ∧
        P ⟨.paren, ")", none⟩ := by
  rw [← forall_mem_tokensAll]
  simp [tokens, or_imp, forall_and]

theorem tokensAll_of_append {P : List Token → Prop} {es : List Expr} (hnil : P [])
    (happend : ∀ {ts us}, P ts → P us → P (ts ++ us)) (h : ∀ e ∈ es, P e.tokens) :
    P (tokensAll es) := by
  induction es with
  | nil => exact hnil
  | cons e rest ih => exact happend (h e (by simp)) (ih fun d hd => h d (by simp [hd]))

theorem bareAll_eq_map (es : List Expr) : bareAll es = es.map bare := by
  induction es with
  | nil => rfl
  | cons e rest ih => simp [bareAll, ih]

theorem depthAll_map_congr {f : Expr → Expr} {es : List Expr}
    (h : ∀ e ∈ es, (f e).depth = e.depth) : depthAll (es.map f) = depthAll es := by
  induction es with
  | nil => rfl
  | cons e rest ih =>
    rw [List.map_cons, depthAll, depthAll, h e (by simp), ih fun d hd => h d (by simp [hd])]

theorem depthAll_le_iff {es : List Expr} {n : Nat} : depthAll es ≤ n ↔ ∀ e ∈ es, depth e ≤ n := by
  induction es with
  | nil => simp [depthAll]
  | cons e rest ih => rw [depthAll, Nat.max_le, List.forall_mem_cons, ih]

theorem depth_bare (e : Expr) : e.bare.depth = e.depth := by
  induction e with
  | number digits span => rfl
  | call name params span ih =>
    rw [bare, depth, depth, bareAll_eq_map]
    congr 1
    exact depthAll_map_congr ih

theorem depthAll_bareAll (es : List Expr) : depthAll (bareAll es) = depthAll es := by
  rw [bareAll_eq_map]
  exact depthAll_map_congr fun e _ => e.depth_bare

theorem tokens_bare (e : Expr) : e.bare.tokens = e.tokens := by
  induction e with
  | number digits span => rfl
  | call name params span ih =>
    have hp : tokensAll (bareAll params) = tokensAll params := by
      rw [tokensAll_eq_flatMap, tokensAll_eq_flatMap, bareAll_eq_map, List.flatMap_map]
      exact List.flatMap_congr ih
    simp only [bare, tokens, hp]

theorem tokensAll_bareAll (es : List Expr) : tokensAll (bareAll es) = tokensAll es := by
  rw [tokensAll_eq_flatMap, tokensAll_eq_flatMap, bareAll_eq_map, List.flatMap_map]
  exact List.flatMap_congr fun e _ => tokens_bare e

theorem map_bare_tokens (e : Expr) : e.tokens.map Token.bare = e.tokens := by
  induction e with
  | number digits span => rfl
  | call name params span ih =>
    have hp : (tokensAll params).map Token.bare = tokensAll params := by
      rw [tokensAll_eq_flatMap, List.map_flatMap]
      exact List.flatMap_congr ih
    simp [tokens, hp, Token.bare]

theorem map_bare_tokensAll (es : List Expr) :
    (tokensAll es).map Token.bare = tokensAll es := by
  rw [tokensAll_eq_flatMap, List.map_flatMap]
  exact List.flatMap_congr fun e _ => map_bare_tokens e

theorem tokens_ne_nil (e : Expr) : e.tokens ≠ [] := by
  cases e <;> simp [tokens]

def Ended (rest : List Token) : Prop :=
  ∀ t ∈ rest.head?, t.isClose = true

theorem not_ended_tokens_append (e : Expr) (rest : List Token) : ¬ Ended (e.tokens ++ rest) := by
  intro h
  cases e <;> simp [Ended, tokens, Token.isClose] at h

def Decodable (e : Expr) : Prop :=
  ∀ {e' : Expr} {x y : List Token}, e.tokens ++ x = e'.tokens ++ y → e.bare = e'.bare ∧ x = y

theorem tokensAll_append_inj_of_decodable {es es' : List Expr} {x y : List Token}
    (ih : ∀ e ∈ es, Decodable e) (hx : Ended x) (hy : Ended y)
    (h : tokensAll es ++ x = tokensAll es' ++ y) : bareAll es = bareAll es' ∧ x = y := by
  induction es generalizing es' with
  | nil =>
    cases es' with
    | nil => exact ⟨rfl, h⟩
    | cons e' rest' =>
      simp only [tokensAll, List.nil_append, List.append_assoc] at h
      exact absurd (h ▸ hx) (not_ended_tokens_append e' _)
  | cons e rest ihrest =>
    cases es' with
    | nil =>
      simp only [tokensAll, List.nil_append, List.append_assoc] at h
      exact absurd (h ▸ hy) (not_ended_tokens_append e _)
    | cons e' rest' =>
      simp only [tokensAll, List.append_assoc] at h
      obtain ⟨he, hrest⟩ := ih e (by simp) h
      obtain ⟨hes, hxy⟩ := ihrest (fun d hd => ih d (by simp [hd])) hrest
      exact ⟨by rw [bareAll, bareAll, he, hes], hxy⟩

theorem decodable (e : Expr) : Decodable e := by
  induction e with
  | number digits span =>
    intro e' x y h
    cases e' with
    | number digits' span' =>
      simp only [tokens, List.cons_append, List.nil_append, List.cons.injEq, Token.mk.injEq] at h
      exact ⟨by rw [bare, bare, h.1.2.1], h.2⟩
    | call name params span' => simp [tokens] at h
  | call name params span ih =>
    intro e' x y h
    cases e' with
    | number digits' span' => simp [tokens] at h
    | call name' params' span' =>
      simp only [tokens, List.cons_append, List.nil_append, List.append_assoc, List.cons.injEq,
        Token.mk.injEq, true_and, and_true] at h
      obtain ⟨hp, hxy⟩ := tokensAll_append_inj_of_decodable ih (by simp [Ended, Token.isClose])
        (by simp [Ended, Token.isClose]) h.2
      exact ⟨by rw [bare, bare, h.1, hp], (List.cons.inj hxy).2⟩

theorem tokensAll_inj {es es' : List Expr} (h : tokensAll es = tokensAll es') :
    bareAll es = bareAll es' :=
  (tokensAll_append_inj_of_decodable (fun e _ => decodable e) (by simp [Ended]) (by simp [Ended])
    (congrArg (· ++ []) h)).1

end Expr

def Program.bare (p : Program) : Program :=
  ⟨Expr.bareAll p.body, none⟩

end CallForms
