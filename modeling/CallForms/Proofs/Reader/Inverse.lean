import CallForms.Allowance
import CallForms.Expr.Session
import CallForms.Proofs.Expr.Tokens
import CallForms.Proofs.Reader.Nesting

namespace CallForms.Reader

def openTokens : List Frame → List Token
  | [] => []
  | frame :: outer => openTokens outer ++ [⟨.paren, "(", none⟩, ⟨.name, frame.name, none⟩] ++
      Expr.tokensAll frame.params.toList

def State.tokens : State → List Token
  | .fresh => []
  | .opened _ outer => openTokens outer ++ [⟨.paren, "(", none⟩]
  | .within frame outer => openTokens (frame :: outer)

variable {room : Nat} {s s' : State} {t : Token} {r : Step} {ts us rest : List Token} {e : Expr}
  {es : List Expr} {stack : List Frame}

theorem tokens_ready (stack : List Frame) : (ready stack).tokens = openTokens stack := by
  cases stack <;> rfl

theorem tokens_resume (stack : List Frame) (e : Expr) :
    Expr.tokensAll (resume stack e).made ++ (resume stack e).next.tokens =
      openTokens stack ++ e.tokens := by
  cases stack with
  | nil => simp [resume, State.tokens, Expr.tokensAll, openTokens]
  | cons frame outer =>
    simp [resume, State.tokens, Expr.tokensAll, openTokens, Frame.push, Expr.tokensAll_append]

theorem Move.tokens (h : Move room s t r) :
    Expr.tokensAll r.made ++ r.next.tokens = s.tokens ++ [t.bare] := by
  cases h with
  | number hk => rw [tokens_resume, tokens_ready, Expr.tokens, Token.bare, hk]
  | enter ho _ =>
    rw [tokens_ready, Token.isOpen_iff.mp ho]
    rfl
  | name hk _ =>
    simp [State.tokens, openTokens, Expr.tokensAll, Token.bare, hk]
  | leave hc =>
    rw [tokens_resume, Token.isClose_iff.mp hc]
    simp [Frame.close, Expr.tokens, State.tokens, openTokens]

theorem Run.tokens (h : Run room s ts es s') :
    Expr.tokensAll es ++ s'.tokens = s.tokens ++ ts.map Token.bare := by
  induction h with
  | refl s => simp [Expr.tokensAll]
  | step hs _ ih =>
    rw [Expr.tokensAll_append, List.append_assoc, ih, ← List.append_assoc,
      (move_of_step hs).tokens, List.append_assoc, List.map_cons, List.singleton_append]

theorem Run.nil_of_silent (h : Run room .fresh ts [] .fresh) : ts = [] := by
  have ht := h.tokens
  simpa [State.tokens, Expr.tokensAll] using ht.symm

theorem readExpr_of_run (h : Run room s ts [e] .fresh) (rest : List Token) :
    readExpr room s (ts ++ rest) = ⟨.ok e, rest⟩ := by
  obtain ⟨us, vs, rfl, hvs, hread⟩ := readExpr_run h
  rw [hvs.nil_of_silent, List.append_nil]
  exact hread rest

def hand : List Frame → Expr → List Frame
  | [], _ => []
  | frame :: outer, e => frame.push e :: outer

def kept : List Frame → List Expr → List Expr
  | [], es => es
  | _ :: _, _ => []

theorem made_resume (stack : List Frame) (e : Expr) : (resume stack e).made = kept stack [e] := by
  cases stack <;> rfl

theorem next_resume (stack : List Frame) (e : Expr) :
    (resume stack e).next = ready (hand stack e) := by
  cases stack <;> rfl

@[simp] theorem length_hand (stack : List Frame) (e : Expr) :
    (hand stack e).length = stack.length := by
  cases stack <;> rfl

@[simp] theorem kept_nil (stack : List Frame) : kept stack [] = [] := by
  cases stack <;> rfl

theorem kept_append_hand (stack : List Frame) (e : Expr) (es : List Expr) :
    kept stack [e] ++ kept (hand stack e) es = kept stack (e :: es) := by
  cases stack <;> rfl

theorem foldl_hand_nil (es : List Expr) : es.foldl hand [] = [] := by
  induction es with
  | nil => rfl
  | cons e rest ih => exact ih

theorem foldl_hand_cons (frame : Frame) (outer : List Frame) (es : List Expr) :
    es.foldl hand (frame :: outer) =
      ⟨frame.opening, frame.name, frame.params ++ es.toArray⟩ :: outer := by
  induction es generalizing frame with
  | nil => simp
  | cons e rest ih =>
    have hp : frame.params.push e ++ rest.toArray = frame.params ++ (e :: rest).toArray :=
      Array.ext' (by simp)
    rw [← hp]
    exact ih (frame.push e)

theorem exists_of_bareAll_singleton {fs : List Expr} (h : Expr.bareAll fs = Expr.bareAll [e]) :
    ∃ e', fs = [e'] := by
  rw [Expr.bareAll_eq_map, Expr.bareAll_eq_map] at h
  exact List.length_eq_one_iff.mp (by simpa using congrArg List.length h)

def Reads (room : Nat) (stack : List Frame) (ts : List Token) (es : List Expr) : Prop :=
  ∃ fs, Expr.bareAll fs = Expr.bareAll es ∧
    Run room (ready stack) ts (kept stack fs) (ready (fs.foldl hand stack))

def Overflows (room : Nat) (s : State) (ts : List Token) : Prop :=
  ∃ us t vs es s', ts = us ++ t :: vs ∧ Run room s us es s' ∧
    s'.step room t = .error (.nestingTooDeep stage)

theorem Overflows.after (h : Run room s ts es s') (h' : Overflows room s' us) :
    Overflows room s (ts ++ us) := by
  obtain ⟨vs, t, ws, fs, s'', rfl, hrun, ht⟩ := h'
  exact ⟨ts ++ vs, t, ws, es ++ fs, s'', by simp, h.append hrun, ht⟩

theorem Overflows.append (h : Overflows room s ts) (us : List Token) :
    Overflows room s (ts ++ us) := by
  obtain ⟨vs, t, ws, fs, s'', rfl, hrun, ht⟩ := h
  exact ⟨vs, t, ws ++ us, fs, s'', by simp, hrun, ht⟩

theorem step_overflow (ho : t.isOpen = true) (hl : room < 2 * stack.length + 3) :
    (ready stack).step room t = .error (.nestingTooDeep stage) := by
  have ht : t.kind = .paren ∧ t.text = "(" := by simpa [Token.isOpen] using ho
  rw [step_ready_of_not_close (by simp [Token.isClose, ht])]
  simp [begin, ht.1, ho, hl]

def Readable (room : Nat) (e : Expr) : Prop :=
  ∀ (stack : List Frame) {ts : List Token}, ts.map Token.bare = e.tokens →
    Reads room stack ts [e] ∨
      (capacity room < stack.length + e.depth ∧ Overflows room (ready stack) ts)

theorem reads_of_readable {es : List Expr} (ih : ∀ e ∈ es, Readable room e) (stack : List Frame)
    {ts : List Token} (h : ts.map Token.bare = Expr.tokensAll es) :
    Reads room stack ts es ∨
      (capacity room < stack.length + Expr.depthAll es ∧ Overflows room (ready stack) ts) := by
  induction es generalizing stack ts with
  | nil =>
    obtain rfl : ts = [] := List.map_eq_nil_iff.mp h
    exact .inl ⟨[], rfl, by simpa using Run.refl (ready stack)⟩
  | cons e rest ihrest =>
    obtain ⟨us, vs, rfl, hus, hvs⟩ := List.map_eq_append_iff.mp h
    rcases ih e (by simp) stack hus with ⟨ds, hds, hrun⟩ | ⟨hd, hov⟩
    · obtain ⟨d, rfl⟩ := exists_of_bareAll_singleton hds
      rcases ihrest (fun e he => ih e (by simp [he])) (hand stack d) hvs with
        ⟨fs, hfs, hrun'⟩ | ⟨hd, hov⟩
      · refine .inl ⟨d :: fs, ?_, ?_⟩
        · simp only [Expr.bareAll, List.cons.injEq, and_true] at hds ⊢
          exact ⟨hds, hfs⟩
        · rw [← kept_append_hand]
          exact hrun.append hrun'
      · refine .inr ⟨?_, Overflows.after hrun hov⟩
        rw [length_hand] at hd
        simp only [Expr.depthAll]
        omega
    · refine .inr ⟨?_, hov.append vs⟩
      simp only [Expr.depthAll]
      omega

theorem run_opening {opening called : Token} (ho : opening.isOpen = true)
    (hk : called.kind = .name) (hl : 2 * stack.length + 4 ≤ room) :
    Run room (ready stack) [opening, called] [] (ready (⟨opening, called.text, #[]⟩ :: stack)) :=
  .step (Move.enter ho (Nat.le_of_succ_le hl)).step_eq (.step (Move.name hk hl).step_eq (.refl _))

theorem overflows_opening {opening called : Token} {rest : List Token}
    (ho : opening.isOpen = true) (hl : ¬ 2 * stack.length + 4 ≤ room) :
    Overflows room (ready stack) (opening :: called :: rest) := by
  -- With one frame too few the parenthesis is consumed, and the name is not looked at.
  by_cases hopen : 2 * stack.length + 3 ≤ room
  · refine ⟨[opening], called, rest, _, _, rfl, .single (Move.enter ho hopen).step_eq, ?_⟩
    simp [State.step, Nat.lt_of_not_le hl]
  · exact ⟨[], opening, _, [], _, rfl, .refl _, step_overflow ho (Nat.lt_of_not_le hopen)⟩

theorem run_closing {frame : Frame} (hc : t.isClose = true) :
    Run room (ready (frame :: stack)) [t] (kept stack [frame.close t])
      (ready (hand stack (frame.close t))) := by
  rw [← made_resume, ← next_resume]
  exact .single (Move.leave hc).step_eq

theorem readable (e : Expr) : Readable room e := by
  induction e with
  | number digits span =>
    intro stack ts h
    obtain ⟨t, us, rfl, ht, hus⟩ := List.map_eq_cons_iff.mp h
    obtain rfl : us = [] := List.map_eq_nil_iff.mp hus
    simp only [Token.bare, Token.mk.injEq, and_true] at ht
    have hmove : Move room (ready stack) t (resume stack (.number t.text t.span)) := .number ht.1
    have hrun := Run.single hmove.step_eq
    rw [made_resume, next_resume] at hrun
    exact .inl ⟨[.number t.text t.span], by rw [ht.2]; rfl, hrun⟩
  | call name params span ih =>
    intro stack ts h
    simp only [Expr.tokens, List.cons_append, List.nil_append] at h
    obtain ⟨opening, us, rfl, ho, hus⟩ := List.map_eq_cons_iff.mp h
    obtain ⟨called, vs, rfl, hn, hvs⟩ := List.map_eq_cons_iff.mp hus
    obtain ⟨ws, xs, rfl, hws, hxs⟩ := List.map_eq_append_iff.mp hvs
    obtain ⟨closing, ys, rfl, hc, hys⟩ := List.map_eq_cons_iff.mp hxs
    obtain rfl : ys = [] := List.map_eq_nil_iff.mp hys
    rw [← Token.isOpen_iff] at ho
    rw [← Token.isClose_iff] at hc
    simp only [Token.bare, Token.mk.injEq, and_true] at hn
    by_cases hl : 2 * stack.length + 4 ≤ room
    · have hopen := run_opening ho hn.1 hl
      rcases reads_of_readable ih (⟨opening, called.text, #[]⟩ :: stack) hws with
        ⟨fs, hfs, hrun⟩ | ⟨hd, hov⟩
      · rw [foldl_hand_cons] at hrun
        refine .inl ⟨_, ?_, hopen.append (hrun.append (run_closing hc))⟩
        simp [Frame.close, Expr.bareAll, Expr.bare, hn.2, hfs]
      · refine .inr ⟨?_, Overflows.after hopen (hov.append [closing])⟩
        simp only [List.length_cons, Expr.depth] at hd ⊢
        omega
    · refine .inr ⟨?_, overflows_opening ho hl⟩
      simp only [Expr.depth, capacity]
      omega

theorem run_or_overflow (room : Nat) {es : List Expr} (h : ts.map Token.bare = Expr.tokensAll es) :
    (∃ fs, Expr.bareAll fs = Expr.bareAll es ∧ Run room .fresh ts fs .fresh) ∨
      (capacity room < Expr.depthAll es ∧ Overflows room .fresh ts) := by
  rcases reads_of_readable (fun e _ => readable e) [] h with ⟨fs, hfs, hrun⟩ | ⟨hd, hov⟩
  · rw [foldl_hand_nil] at hrun
    exact .inl ⟨fs, hfs, hrun⟩
  · rw [List.length_nil, Nat.zero_add] at hd
    exact .inr ⟨hd, hov⟩

theorem run_of_bare_eq_tokensAll {es : List Expr} (h : ts.map Token.bare = Expr.tokensAll es)
    (hd : Expr.depthAll es ≤ capacity room) :
    ∃ fs, Expr.bareAll fs = Expr.bareAll es ∧ Run room .fresh ts fs .fresh := by
  rcases run_or_overflow room h with hrun | ⟨hlt, _⟩
  · exact hrun
  · omega

theorem run_of_parse_ok {p : Program} (h : Program.parse room ts = .ok p) :
    Run room .fresh ts p.body .fresh := by
  simp only [Program.parse] at h
  split at h
  · next body hb =>
    cases h
    exact run_of_readBody_ok hb
  · cases h

theorem parse_of_run (h : Run room .fresh ts es .fresh) :
    Program.parse room ts = .ok ⟨es, programSpan ts⟩ := by
  have hb := readBody_run h []
  simp only [List.append_nil] at hb
  simp [Program.parse, hb, readBody, Except.map]

theorem tokens_of_parse_ok {p : Program} (h : Program.parse room ts = .ok p) :
    p.tokens = ts.map Token.bare := by
  have ht := (run_of_parse_ok h).tokens
  simpa [Program.tokens, State.tokens] using ht

theorem depth_le_of_parse_ok {p : Program} (h : Program.parse room ts = .ok p) :
    p.depth ≤ capacity room :=
  ((run_of_parse_ok h).depth_le (Nat.zero_le _)).1

theorem parse_of_bare_eq_tokens {p : Program} (h : ts.map Token.bare = p.tokens)
    (hd : p.depth ≤ capacity room) : ∃ q, Program.parse room ts = .ok q ∧ q.bare = p.bare := by
  obtain ⟨fs, hfs, hrun⟩ := run_of_bare_eq_tokensAll h hd
  exact ⟨_, parse_of_run hrun, by rw [Program.bare, Program.bare, hfs]⟩

namespace Session

theorem extract_of_answer_expr {i : Nat} {after : Session}
    (h : (Session.mk ts i).answer room .expr = (.expr e, after)) :
    after.tokens = ts ∧ i < after.taken ∧
      (ts.extract i after.taken).map Token.bare = e.tokens := by
  simp only [answer, ofReading, ahead, moveTo, Prod.mk.injEq] at h
  obtain ⟨hreply, rfl⟩ := h
  split at hreply
  · next e' hr =>
    cases hreply
    obtain ⟨us, hts, hrun⟩ := run_of_readExpr_ok hr
    have hus : us.map Token.bare = e.tokens := by
      simpa [State.tokens, Expr.tokensAll] using hrun.tokens.symm
    have hne : us ≠ [] := by
      rintro rfl
      exact Expr.tokens_ne_nil e hus.symm
    have hlen := congrArg List.length hts
    have hpos := List.length_pos_iff.mpr hne
    simp only [List.length_drop, List.length_append] at hlen
    have htaken : ts.length - (readExpr room .fresh (ts.drop i)).rest.length - i = us.length := by
      omega
    refine ⟨rfl, ?_, ?_⟩
    · show i < ts.length - (readExpr room .fresh (ts.drop i)).rest.length
      omega
    · rw [List.extract_eq_take_drop, htaken, hts, List.take_left, hus]
  · cases hreply
  · cases hreply

theorem answer_expr_of_extract {i j : Nat} (hj : j ≤ ts.length)
    (h : (ts.extract i j).map Token.bare = e.tokens) (hd : e.depth ≤ capacity room) :
    ∃ e', (Session.mk ts i).answer room .expr = (.expr e', ⟨ts, j⟩) ∧ e'.bare = e.bare := by
  have hall : (ts.extract i j).map Token.bare = Expr.tokensAll [e] := by
    simpa [Expr.tokensAll] using h
  obtain ⟨fs, hfs, hrun⟩ := run_of_bare_eq_tokensAll hall (by simpa [Expr.depthAll] using hd)
  obtain ⟨e', rfl⟩ := exists_of_bareAll_singleton hfs
  have hij : i ≤ j := by
    by_contra hlt
    have hz : j - i = 0 := by omega
    rw [List.extract_eq_take_drop, hz] at h
    exact Expr.tokens_ne_nil e h.symm
  have hsplit : ts.drop i = ts.extract i j ++ ts.drop j := by
    have hdrop : (ts.drop i).drop (j - i) = ts.drop j := by
      rw [List.drop_drop, Nat.add_sub_cancel' hij]
    rw [List.extract_eq_take_drop, ← hdrop, List.take_append_drop]
  refine ⟨e', ?_, by simpa [Expr.bareAll] using hfs⟩
  simp only [answer, ofReading, ahead, moveTo, hsplit, readExpr_of_run hrun, List.length_drop]
  rw [Nat.sub_sub_self hj]

end Session

theorem capacity_gt (stack : Allowance) : assuredNesting < capacity stack.room := by
  have h := stack.assured
  simp only [assuredNesting, capacity] at h ⊢
  omega

theorem capacity_lt (stack : Allowance) : capacity stack.room + 1 < refusedNesting := by
  have h := stack.limited
  simp only [refusedNesting, capacity] at h ⊢
  omega

theorem capacity_ge (stack : Allowance) : assuredNesting ≤ capacity stack.room :=
  Nat.le_of_lt (capacity_gt stack)

theorem parse_inverts_tokens :
    (∀ (room : Nat) (ts : List Token) (p : Program), Program.parse room ts = .ok p →
      p.tokens = ts.map Token.bare) ∧
    (∀ (stack : Allowance) (ts : List Token) (p : Program), p.depth ≤ assuredNesting →
      ts.map Token.bare = p.tokens → ∃ q, Program.parse stack.room ts = .ok q ∧ q.bare = p.bare) ∧
    (∀ (room : Nat) (ts : List Token) (i : Nat) (e : Expr) (after : Session),
      (Session.mk ts i).answer room .expr = (.expr e, after) →
        after.tokens = ts ∧ i < after.taken ∧
          (ts.extract i after.taken).map Token.bare = e.tokens) ∧
    (∀ (stack : Allowance) (ts : List Token) (i j : Nat) (e : Expr), e.depth ≤ assuredNesting →
      j ≤ ts.length → (ts.extract i j).map Token.bare = e.tokens →
        ∃ e', (Session.mk ts i).answer stack.room .expr = (.expr e', ⟨ts, j⟩) ∧
          e'.bare = e.bare) := by
  refine ⟨?_, ?_, ?_, ?_⟩
  · intro room ts p h
    exact tokens_of_parse_ok h
  · intro stack ts p hd h
    exact parse_of_bare_eq_tokens h (Nat.le_trans hd (capacity_ge stack))
  · intro room ts i e after h
    exact Session.extract_of_answer_expr h
  · intro stack ts i j e hd hj h
    exact Session.answer_expr_of_extract hj h (Nat.le_trans hd (capacity_ge stack))

theorem parse_inverts_tokens_of_nested_call :
    (∃ q, Program.parse Allowance.usual.room
        [⟨.paren, "(", none⟩, ⟨.name, "add", none⟩, ⟨.number, "2", none⟩, ⟨.paren, "(", none⟩,
          ⟨.name, "", none⟩, ⟨.paren, ")", none⟩, ⟨.paren, ")", none⟩] = .ok q ∧
      q.bare = ⟨[.call "add" [.number "2" none, .call "" [] none] none], none⟩) ∧
    (∃ e, (Session.mk [⟨.paren, ")", none⟩, ⟨.number, "(", none⟩, ⟨.name, ")", none⟩] 1).answer
        Allowance.usual.room .expr =
          (.expr e, ⟨[⟨.paren, ")", none⟩, ⟨.number, "(", none⟩, ⟨.name, ")", none⟩], 2⟩) ∧
      e.bare = .number "(" none) :=
  ⟨parse_inverts_tokens.2.1 .usual _
      ⟨[.call "add" [.number "2" none, .call "" [] none] none], none⟩ (by decide) rfl,
    parse_inverts_tokens.2.2.2 .usual _ 1 2 (.number "(" none) (by decide) (by decide) rfl⟩

end CallForms.Reader
