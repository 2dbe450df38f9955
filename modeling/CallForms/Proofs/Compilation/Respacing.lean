import CallForms.Proofs.Source.Joining
import Mathlib.Logic.Relation

namespace CallForms

section Outcomes

variable {α : Type} {R : α → α → Prop} {x y z : Except Fault α}

theorem Fault.Alike.symm {f g : Fault} (h : f.Alike g) : g.Alike f :=
  ⟨h.cause.symm, h.code.symm, h.message.symm, h.hints.symm⟩

theorem Fault.Alike.trans {f g k : Fault} (h : f.Alike g) (h' : g.Alike k) : f.Alike k :=
  ⟨h.cause.trans h'.cause, h.code.trans h'.code, h.message.trans h'.message,
    h.hints.trans h'.hints⟩

theorem Agree.trans (hR : ∀ {a b c}, R a b → R b c → R a c) (h : Agree R x y)
    (h' : Agree R y z) : Agree R x z := by
  cases h with
  | ok hab =>
    cases h' with
    | ok hbc => exact .ok (hR hab hbc)
  | error hfg =>
    cases h' with
    | error hgk => exact .error (hfg.trans hgk)

end Outcomes

namespace Source

def Loose (a b : String) : Prop :=
  a = "" ∨ b = "" ∨ (∃ ch ∈ a.toList.getLast?, ch = '(' ∨ ch = ')') ∨
    ∃ ch ∈ b.toList.head?, ch = '(' ∨ ch = ')'

inductive Respacing : String → String → Prop
  | run (a b : String) {gap gap' : String} (hgap : ∀ ch ∈ gap.toList, Text.isBlank ch = true)
      (hgap' : ∀ ch ∈ gap'.toList, Text.isBlank ch = true) (hne : gap ≠ "") (hne' : gap' ≠ "") :
      Respacing (a ++ gap ++ b) (a ++ gap' ++ b)
  | loose (a b : String) {gap gap' : String} (hgap : ∀ ch ∈ gap.toList, Text.isBlank ch = true)
      (hgap' : ∀ ch ∈ gap'.toList, Text.isBlank ch = true) (h : Loose a b) :
      Respacing (a ++ gap ++ b) (a ++ gap' ++ b)

variable {a b gap gap' text text' : String}

theorem admits_paren {ch : Char} {k : Token.Kind} (h : ch = '(' ∨ ch = ')')
    (ha : k.admits ch = true) : k = .paren := by
  apply Token.Kind.admits_unique ha
  simpa [Token.Kind.admits] using h

theorem Loose.apart (h : Loose a b) : Apart a.toList b.toList := by
  intro ch hch k hk hne ch' hch'
  rw [← Bool.not_eq_true]
  intro hk'
  rcases h with rfl | rfl | ⟨x, hx, hparen⟩ | ⟨x, hx, hparen⟩
  · simp at hch
  · simp at hch'
  · obtain rfl := Option.mem_unique hx hch
    exact hne (admits_paren hparen hk)
  · obtain rfl := Option.mem_unique hx hch'
    exact hne (admits_paren hparen hk')

theorem Loose.apart_gap (h : Loose a b) (hgap : ∀ ch ∈ gap.toList, Text.isBlank ch = true) :
    Apart a.toList (gap.toList ++ b.toList) := by
  by_cases hne : gap.toList = []
  · rw [hne]
    exact h.apart
  · exact apart_of_blank _ _ hgap hne

theorem tokens_agree_of_apart (hgap : ∀ ch ∈ gap.toList, Text.isBlank ch = true)
    (hgap' : ∀ ch ∈ gap'.toList, Text.isBlank ch = true)
    (h : Apart a.toList (gap.toList ++ b.toList)) (h' : Apart a.toList (gap'.toList ++ b.toList))
    (file : Option String) :
    Agree (fun ts us => ts.map Token.bare = us.map Token.bare) (tokens ⟨a ++ gap ++ b, file⟩)
      (tokens ⟨a ++ gap' ++ b, file⟩) := by
  cases ha : tokens ⟨a, file⟩ with
  | error f =>
    obtain ⟨g, hg, halike⟩ := tokens_join_left ha (gap ++ b) file
    obtain ⟨g', hg', halike'⟩ := tokens_join_left ha (gap' ++ b) file
    rw [String.append_assoc, hg, String.append_assoc, hg']
    exact .error (halike.trans halike'.symm)
  | ok ts =>
    cases hb : tokens ⟨b, file⟩ with
    | error f =>
      obtain ⟨g, hg, halike⟩ := tokens_join_right ha hb hgap
      obtain ⟨g', hg', halike'⟩ := tokens_join_right ha hb hgap'
      rw [hg, hg']
      exact .error (halike.trans halike'.symm)
    | ok us =>
      obtain ⟨vs, hvs, hbare⟩ := tokens_join ha hb hgap h
      obtain ⟨vs', hvs', hbare'⟩ := tokens_join ha hb hgap' h'
      rw [hvs, hvs']
      apply Agree.ok
      rw [List.map_append, List.map_append, hbare, hbare']

theorem Respacing.tokens_agree (h : Respacing text text') (file : Option String) :
    Agree (fun ts us => ts.map Token.bare = us.map Token.bare) (tokens ⟨text, file⟩)
      (tokens ⟨text', file⟩) := by
  cases h with
  | run a b hgap hgap' hne hne' =>
    apply tokens_agree_of_apart hgap hgap'
    · exact apart_of_blank _ _ hgap (by simpa using hne)
    · exact apart_of_blank _ _ hgap' (by simpa using hne')
  | loose a b hgap hgap' h =>
    exact tokens_agree_of_apart hgap hgap' (h.apart_gap hgap) (h.apart_gap hgap') file

theorem tokens_agree_of_respaced (h : Relation.ReflTransGen Respacing text text')
    (file file' : Option String) :
    Agree (fun ts us => ts.map Token.bare = us.map Token.bare) (tokens ⟨text, file⟩)
      (tokens ⟨text', file'⟩) := by
  induction h with
  | refl => exact tokens_agree_of_text text file file'
  | tail _ hstep ih => exact ih.trans Eq.trans (hstep.tokens_agree file')

theorem compile_ignores_layout (room : Nat) (text text' : String) (file file' : Option String)
    (h : Relation.ReflTransGen Respacing text text') :
    Agree (fun a b => a = b) (compile room ⟨text, file⟩) (compile room ⟨text', file'⟩) :=
  compile_agree (tokens_agree_of_respaced h file file')

theorem compile_ignores_layout_of_open_call :
    ∃ f g, compile Allowance.usual.room ⟨"(f" ++ " " ++ "1", none⟩ = .error f ∧
      compile Allowance.usual.room ⟨"(" ++ "\t" ++ "f\n 1", none⟩ = .error g ∧ f.Alike g := by
  have hrun : Respacing ("(f" ++ " " ++ "1") ("(f" ++ "\n " ++ "1") :=
    .run _ _ (List.all_eq_true.mp rfl) (List.all_eq_true.mp rfl) (by decide) (by decide)
  have hloose : Respacing ("(" ++ "" ++ "f\n 1") ("(" ++ "\t" ++ "f\n 1") :=
    .loose _ _ (by simp) (List.all_eq_true.mp rfl) (.inr (.inr (.inl ⟨'(', rfl, .inl rfl⟩)))
  have hagree := compile_ignores_layout Allowance.usual.room _ _ none none
    (.tail (.single hrun) hloose)
  have hf : compile Allowance.usual.room ⟨"(f" ++ " " ++ "1", none⟩ =
    .error ⟨.unexpectedToken "expression or ')'" none,
      some ⟨⟨1, 5, 4, none⟩, ⟨1, 5, 4, none⟩⟩, none⟩ := by
    rw [compile_eq_within]
    rfl
  have hg : compile Allowance.usual.room ⟨"(" ++ "\t" ++ "f\n 1", none⟩ =
    .error ⟨.unexpectedToken "expression or ')'" none,
      some ⟨⟨2, 3, 6, none⟩, ⟨2, 3, 6, none⟩⟩, none⟩ := by
    rw [compile_eq_within]
    rfl
  rw [hf, hg] at hagree
  cases hagree with
  | error halike => exact ⟨_, _, hf, hg, halike⟩

end Source

end CallForms
