import CallForms.Proofs.Places.Independence

namespace CallForms

theorem Layout.blank_append {before : Option Token.Kind} {ts : List Token} {gap text : List Char}
    (h : Layout runsClash before ts text) (hgap : ∀ ch ∈ gap, Text.isBlank ch = true) :
    Layout runsClash before ts (gap ++ text) := by
  by_cases hne : gap = []
  · rw [hne]
    exact h
  · exact h.behind hgap hne before

namespace Source

def Apart (a b : List Char) : Prop :=
  ∀ ch ∈ a.getLast?, ∀ k : Token.Kind, k.admits ch = true → Stops k b

variable {s s' : Source} {c : Cursor} {ts us : List Token} {f? : Option Fault}
  {a b w gap rest : List Char} {k : Token.Kind} {file file' : Option String}

theorem Apart.of_append (h : Apart (w ++ a) b) : Apart a b := by
  intro ch hch
  apply h ch
  rw [List.getLast?_append, Option.mem_def.mp hch]
  rfl

theorem apart_of_blank (a b : List Char) (hw : ∀ ch ∈ w, Text.isBlank ch = true) (hne : w ≠ []) :
    Apart a (w ++ b) := by
  intro _ _ k _ _ ch hch
  obtain ⟨x, w, rfl⟩ := List.exists_cons_of_ne_nil hne
  cases hch
  rw [← Bool.not_eq_true]
  intro hadmits
  have hblank := hw ch (by simp)
  simp [Token.Kind.isBlank_of_admits hadmits] at hblank

theorem Stops.append (h : Stops k a) (hb : a = [] → Stops k b) : Stops k (a ++ b) := by
  cases a with
  | nil => exact hb rfl
  | cons ch a => exact h

theorem scan_blank_append (s : Source) (spot : Spot) (hgap : ∀ ch ∈ gap, Text.isBlank ch = true) :
    s.scan ⟨spot, gap ++ rest⟩ = s.scan ⟨spot.after gap, rest⟩ := by
  simp only [scan, Cursor.skip, Cursor.run, List.takeWhile_append_of_pos hgap,
    List.dropWhile_append_of_pos hgap, Spot.after_append]

theorem Scans.congr {c' : Cursor} (h : s.Scans c ts f?) (hc : s.scan c' = s.scan c) :
    s.Scans c' ts f? := by
  cases h with
  | done h => exact .done (hc.trans h)
  | fault h => exact .fault (hc.trans h)
  | token h hr => exact .token (hc.trans h) hr

theorem Scans.append (h : s.Scans c ts none) (hfile : s'.file = s.file)
    (hapart : Apart c.rest rest) (hrest : s'.Scans ⟨c.spot.after c.rest, rest⟩ us f?) :
    s'.Scans ⟨c.spot, c.rest ++ rest⟩ (ts ++ us) f? := by
  generalize hnone : (none : Option Fault) = g? at h
  induction h with
  | done h => exact hrest.congr (scan_blank_append s' _ (blank_of_scan_done h))
  | fault h => cases hnone
  | @token c next t ts g? h _ ih =>
    obtain ⟨gap, hm⟩ := meets_of_scan h
    have hnext : Apart next.rest rest := by
      rw [hm.rest] at hapart
      exact hapart.of_append
    have hspot : next.spot.after next.rest = c.spot.after c.rest := by
      rw [hm.rest, hm.spot, ← Spot.after_append]
    -- Only the last token of the first text can reach the seam, and there the texts are apart.
    have hstops : Stops t.kind (next.rest ++ rest) := by
      apply hm.stops.append
      intro hnil
      have hlast : Apart t.text.toList rest := by
        rw [hm.rest, hnil, List.append_nil] at hapart
        exact hapart.of_append
      obtain ⟨ch, hch⟩ :=
        Option.isSome_iff_exists.mp (List.getLast?_isSome.mpr hm.lexeme.nonempty)
      exact hlast ch hch t.kind (hm.lexeme.admitted ch (List.mem_of_getLast? hch))
    have hm' : s'.Meets ⟨c.spot, c.rest ++ rest⟩ gap t ⟨next.spot, next.rest ++ rest⟩ :=
      ⟨hm.blank, hm.lexeme, hstops, by rw [hm.rest, List.append_assoc], hm.spot,
        by rw [hfile, hm.span]⟩
    rw [List.cons_append]
    exact .token hm'.scan_eq (ih hnext (hspot ▸ hrest) hnone)

theorem scans_of_tokensFrom (h : s.tokensFrom c = .ok ts) : s.Scans c ts none := by
  obtain ⟨us, f?, hscans⟩ := exists_scans s c
  have heq := hscans.tokensFrom_eq
  rw [h] at heq
  cases f? with
  | none =>
    cases heq
    exact hscans
  | some f => cases heq

theorem tokens_join {a w b : String} (ha : tokens ⟨a, file⟩ = .ok ts)
    (hb : tokens ⟨b, file'⟩ = .ok us) (hw : ∀ ch ∈ w.toList, Text.isBlank ch = true)
    (hapart : Apart a.toList (w.toList ++ b.toList)) :
    ∃ vs, tokens ⟨a ++ w ++ b, file⟩ = .ok (ts ++ vs) ∧
      vs.map Token.bare = us.map Token.bare := by
  obtain ⟨hlayout, hlexeme⟩ := layout_of_tokens hb
  obtain ⟨vs, hvs, hbare⟩ := tokensFrom_of_layout ⟨a ++ w ++ b, file⟩
    (hlayout.blank_append hw) hlexeme
    (c := ⟨Spot.start.after a.toList, w.toList ++ b.toList⟩) rfl
  have hscans : Scans ⟨a ++ w ++ b, file⟩ ⟨Spot.start, a.toList ++ (w.toList ++ b.toList)⟩
      (ts ++ vs) none :=
    (scans_of_tokensFrom ha).append rfl hapart (scans_of_tokensFrom hvs)
  refine ⟨vs, ?_, hbare⟩
  have htext : (a ++ w ++ b).toList = a.toList ++ (w.toList ++ b.toList) := by simp
  rw [tokens, Cursor.ofText, htext]
  exact hscans.tokensFrom_eq

theorem tokens_join_blank {a w b : String} (ha : tokens ⟨a, file⟩ = .ok ts)
    (hb : tokens ⟨b, file'⟩ = .ok us) (hw : ∀ ch ∈ w.toList, Text.isBlank ch = true)
    (hne : w ≠ "") :
    ∃ vs, tokens ⟨a ++ w ++ b, file⟩ = .ok (ts ++ vs) ∧
      vs.map Token.bare = us.map Token.bare := by
  apply tokens_join ha hb hw
  exact apart_of_blank _ _ hw (by simpa using hne)

theorem recognized_of_tokens (h : s.tokens = .ok ts) :
    ∀ ch ∈ s.text.toList, recognized ch = true := by
  rw [← stray?_eq_none_iff]
  cases hstray : s.stray? with
  | none => rfl
  | some f =>
    rw [tokens_eq_error hstray] at h
    cases h

theorem tokens_join_left {a : String} {f : Fault} (ha : tokens ⟨a, file⟩ = .error f)
    (more : String) (file' : Option String) :
    ∃ g, tokens ⟨a ++ more, file'⟩ = .error g ∧ g.Alike f := by
  obtain ⟨before, ch, after, htext, hbefore, hch, rfl⟩ := exists_of_tokens_error ha
  have hsplit : (a ++ more).toList = before ++ ch :: (after ++ more.toList) := by
    rw [String.toList_append, htext, List.append_assoc, List.cons_append]
  exact ⟨_, tokens_eq_error (stray?_eq_some hsplit hbefore hch), alike_strayFault _ _ _ _ _⟩

theorem tokens_join_right {a w b : String} {f : Fault} (ha : tokens ⟨a, file⟩ = .ok ts)
    (hb : tokens ⟨b, file'⟩ = .error f) (hw : ∀ ch ∈ w.toList, Text.isBlank ch = true) :
    ∃ g, tokens ⟨a ++ w ++ b, file⟩ = .error g ∧ g.Alike f := by
  obtain ⟨before, ch, after, htext, hbefore, hch, rfl⟩ := exists_of_tokens_error hb
  have hsplit : (a ++ w ++ b).toList = (a ++ w).toList ++ before ++ ch :: after := by
    rw [String.toList_append, htext, List.append_assoc]
  have hgood : ∀ x ∈ (a ++ w).toList ++ before, recognized x = true := by
    rw [String.toList_append, List.forall_mem_append, List.forall_mem_append]
    exact ⟨⟨recognized_of_tokens ha, fun x hx => recognized_of_blank (hw x hx)⟩, hbefore⟩
  exact ⟨_, tokens_eq_error (stray?_eq_some hsplit hgood hch), alike_strayFault _ _ _ _ _⟩

end Source

end CallForms
