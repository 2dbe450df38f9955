import CallForms.Proofs.Source.Place

namespace CallForms.Source

def recognized (ch : Char) : Bool :=
  Text.isBlank ch || ch == '(' || ch == ')' || ch.isAlpha || ch.isDigit

inductive Scans (s : Source) : Cursor → List Token → Option Fault → Prop
  | done {c next : Cursor} (h : s.scan c = .done next) : Scans s c [] none
  | fault {c next : Cursor} {f : Fault} (h : s.scan c = .fault f next) : Scans s c [] (some f)
  | token {c next : Cursor} {t : Token} {ts : List Token} {f? : Option Fault}
      (h : s.scan c = .token t next) (hr : Scans s next ts f?) : Scans s c (t :: ts) f?

variable {s : Source} {c next : Cursor} {t : Token} {ts : List Token} {f? : Option Fault}
  {before gap : List Char} {ch : Char}

theorem recognized_iff :
    recognized ch = true ↔ Text.isBlank ch = true ∨ ∃ k : Token.Kind, k.admits ch = true := by
  have hkinds : (∃ k : Token.Kind, k.admits ch = true) ↔
      (ch = '(' ∨ ch = ')') ∨ ch.isAlpha = true ∨ ch.isDigit = true := by
    constructor
    · rintro ⟨k, hk⟩
      cases k with
      | paren => exact .inl (by simpa [Token.Kind.admits] using hk)
      | name => exact .inr (.inl hk)
      | number => exact .inr (.inr hk)
    · rintro (hp | ha | hd)
      · exact ⟨.paren, by simpa [Token.Kind.admits] using hp⟩
      · exact ⟨.name, ha⟩
      · exact ⟨.number, hd⟩
  rw [hkinds]
  simp [recognized, or_assoc]

theorem recognized_of_blank (h : Text.isBlank ch = true) : recognized ch = true :=
  recognized_iff.mpr (.inl h)

theorem recognized_of_lexeme (h : t.Lexeme) : ∀ ch ∈ t.text.toList, recognized ch = true :=
  fun ch hch => recognized_iff.mpr (.inr ⟨t.kind, h.admitted ch hch⟩)

theorem not_recognized (hb : Text.isBlank ch = false)
    (ha : ∀ k : Token.Kind, k.admits ch = false) : recognized ch = false := by
  rw [← Bool.not_eq_true, recognized_iff]
  rintro (h | ⟨k, h⟩)
  · simp [hb] at h
  · simp [ha] at h

theorem exists_scans (s : Source) (c : Cursor) : ∃ ts f?, s.Scans c ts f? := by
  fun_induction s.tokensFrom c with
  | case1 c next h => exact ⟨[], none, .done h⟩
  | case2 c f next h => exact ⟨[], some f, .fault h⟩
  | case3 c t next h ih =>
    obtain ⟨ts, f?, hr⟩ := ih
    exact ⟨t :: ts, f?, .token h hr⟩

theorem Scans.tokensFrom_eq (h : s.Scans c ts f?) :
    s.tokensFrom c = f?.elim (.ok ts) .error := by
  induction h with
  | done h => exact tokensFrom_done h
  | fault h => exact tokensFrom_fault h
  | @token c next t ts f? h _ ih =>
    rw [tokensFrom_token h, ih]
    cases f? <;> rfl

theorem Stops.of_append {k : Token.Kind} {good rest : List Char} (h : Stops k (good ++ rest)) :
    Stops k good := by
  intro hk ch hch
  exact h hk ch (by rw [List.head?_append, Option.mem_def.mp hch]; rfl)

theorem Scans.parts (h : s.Scans c ts f?) (hc : s.Passed before c) :
    ∃ good rest, c.rest = good ++ rest ∧ (∀ ch ∈ good, recognized ch = true) ∧
      (∀ ch ∈ rest.head?, recognized ch = false) ∧
      f? = rest.head?.map (s.strayFault (before ++ good).length) ∧
      ∀ s' : Source, s'.file = s.file → s'.Scans ⟨c.spot, good⟩ ts none := by
  induction h generalizing before with
  | @done c next h =>
    have hblank := blank_of_scan_done h
    refine ⟨c.rest, [], by simp, fun ch hch => recognized_of_blank (hblank ch hch), by simp,
      rfl, ?_⟩
    intro s' _
    exact .done (scan_of_blank s' hblank)
  | @fault c next f h =>
    obtain ⟨gap, ch, hgap, hrest, -, hb, ha, rfl⟩ := hc.scan_fault h
    refine ⟨gap, ch :: next.rest, hrest, fun x hx => recognized_of_blank (hgap x hx), ?_, rfl, ?_⟩
    · intro x hx
      cases hx
      exact not_recognized hb ha
    · intro s' _
      exact .done (scan_of_blank s' hgap)
  | @token c next t ts f? h _ ih =>
    obtain ⟨gap, hm⟩ := meets_of_scan h
    obtain ⟨good, rest, hnext, hgood, hhead, hf, hclean⟩ := ih (hm.passed hc).2
    refine ⟨gap ++ t.text.toList ++ good, rest, ?_, ?_, hhead, ?_, ?_⟩
    · rw [hm.rest, hnext, List.append_assoc _ good rest]
    · rw [List.forall_mem_append, List.forall_mem_append]
      exact ⟨⟨fun x hx => recognized_of_blank (hm.blank x hx), recognized_of_lexeme hm.lexeme⟩,
        hgood⟩
    · rw [hf]
      simp only [List.append_assoc]
    · intro s' hs'
      -- Taken by itself, `good` may end inside what the token looked at, so it has to stop again.
      have hm' : s'.Meets ⟨c.spot, gap ++ t.text.toList ++ good⟩ gap t ⟨next.spot, good⟩ :=
        ⟨hm.blank, hm.lexeme, (hnext ▸ hm.stops).of_append, rfl, hm.spot, by rw [hs', hm.span]⟩
      exact .token hm'.scan_eq (hclean s' hs')

def clean (s : Source) : Source :=
  ⟨String.ofList (s.text.toList.takeWhile recognized), s.file⟩

def stray? (s : Source) : Option Fault :=
  match s.text.toList.dropWhile recognized with
  | [] => none
  | ch :: _ => some (s.strayFault (s.text.toList.takeWhile recognized).length ch)

theorem exists_tokens_clean (s : Source) :
    ∃ ts, s.clean.tokens = .ok ts ∧ s.Scans (.ofText s.text) ts s.stray? := by
  obtain ⟨ts, f?, h⟩ := exists_scans s (.ofText s.text)
  obtain ⟨good, rest, hrest, hgood, hhead, hf, hclean⟩ := h.parts (.ofText s)
  have htext : s.text.toList = good ++ rest := hrest
  have htake : s.text.toList.takeWhile recognized = good := by
    rw [htext, List.takeWhile_append_of_pos hgood]
    cases rest with
    | nil => simp
    | cons ch rest => simp [hhead ch rfl]
  have hdrop : s.text.toList.dropWhile recognized = rest := by
    rw [htext, List.dropWhile_append_of_pos hgood]
    cases rest with
    | nil => simp
    | cons ch rest => simp [hhead ch rfl]
  have hstray : s.stray? = f? := by
    rw [stray?, htake, hdrop, hf]
    cases rest <;> rfl
  refine ⟨ts, ?_, hstray ▸ h⟩
  have hcursor : Cursor.ofText s.clean.text = ⟨.start, good⟩ := by
    simp [Cursor.ofText, clean, htake]
  rw [tokens, hcursor]
  exact (hclean s.clean rfl).tokensFrom_eq

theorem stray?_eq_none_iff :
    s.stray? = none ↔ ∀ ch ∈ s.text.toList, recognized ch = true := by
  rw [← List.dropWhile_eq_nil_iff, stray?]
  split <;> simp_all

theorem stray?_eq_some (h : s.text.toList = before ++ ch :: gap)
    (hbefore : ∀ x ∈ before, recognized x = true) (hch : recognized ch = false) :
    s.stray? = some (s.strayFault before.length ch) := by
  simp [stray?, h, List.takeWhile_append_of_pos hbefore, List.dropWhile_append_of_pos hbefore, hch]

theorem tokens_eq_error {f : Fault} (h : s.stray? = some f) : s.tokens = .error f := by
  obtain ⟨ts, -, hscans⟩ := exists_tokens_clean s
  rw [h] at hscans
  exact hscans.tokensFrom_eq

theorem exists_tokens (h : s.stray? = none) : ∃ ts, s.tokens = .ok ts := by
  obtain ⟨ts, -, hscans⟩ := exists_tokens_clean s
  rw [h] at hscans
  exact ⟨ts, hscans.tokensFrom_eq⟩

theorem exists_of_tokens_error {f : Fault} (h : s.tokens = .error f) :
    ∃ before ch after, s.text.toList = before ++ ch :: after ∧
      (∀ x ∈ before, recognized x = true) ∧ recognized ch = false ∧
      f = s.strayFault before.length ch := by
  obtain ⟨ts, -, hscans⟩ := exists_tokens_clean s
  have heq : s.tokens = s.stray?.elim (.ok ts) .error := hscans.tokensFrom_eq
  have hsplit := List.takeWhile_append_dropWhile (p := recognized) (l := s.text.toList)
  rw [h, stray?] at heq
  split at heq
  · cases heq
  · next ch after hdrop =>
    have hch := List.head_dropWhile_not recognized (hdrop ▸ List.cons_ne_nil ch after)
    rw [hdrop] at hsplit
    refine ⟨_, ch, after, hsplit.symm, fun x hx => List.mem_takeWhile_imp hx, ?_, ?_⟩
    · simpa [hdrop] using hch
    · exact Except.error.inj heq

end CallForms.Source
