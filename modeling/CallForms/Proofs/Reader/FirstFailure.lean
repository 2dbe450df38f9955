import CallForms.Proofs.Reader.Inverse

namespace CallForms.Reader

def Viable (ts : List Token) : Prop :=
  ∃ p : Program, ts.map Token.bare <+: p.tokens

def Whole (ts : List Token) : Prop :=
  ∃ p : Program, ts.map Token.bare = p.tokens

-- The first `i` tokens can begin a program, and with the next token, or without one, none is left.
def FailsFirstAt (ts : List Token) (i : Nat) : Prop :=
  Viable (ts.take i) ∧
    ((i < ts.length ∧ ¬ Viable (ts.take (i + 1))) ∨ (i = ts.length ∧ ¬ Whole ts))

def causeAt (ts : List Token) (i : Nat) : Cause :=
  if 0 < i ∧ ts[i - 1]?.any Token.isOpen = true then .missingCallName ts[i]?
  else .unexpectedToken (if i < ts.length then "number or '('" else "expression or ')'") ts[i]?

def spanAt (ts : List Token) (i : Nat) : Option Span :=
  match ts[i]? with
  | some t => t.span
  | none => (ts.getLast?.bind (·.span)).map fun span => ⟨span.stop, span.stop⟩

variable {room : Nat} {s s' : State} {t : Token} {r : Step} {c : Cause} {ts us rest : List Token}
  {es : List Expr} {i j : Nat}

theorem Viable.shorten (h : Viable ts) (hp : us <+: ts) : Viable us := by
  obtain ⟨p, hts⟩ := h
  exact ⟨p, (hp.map Token.bare).trans hts⟩

theorem FailsFirstAt.le_length (h : FailsFirstAt ts i) : i ≤ ts.length := by
  rcases h.2 with ⟨hlt, _⟩ | ⟨heq, _⟩
  · exact Nat.le_of_lt hlt
  · exact Nat.le_of_eq heq

theorem FailsFirstAt.not_lt (hi : FailsFirstAt ts i) (hj : FailsFirstAt ts j) : ¬ i < j := by
  intro hlt
  have hjl := hj.le_length
  rcases hi.2 with ⟨_, hnot⟩ | ⟨heq, _⟩
  · exact hnot (hj.1.shorten (List.take_prefix_take_left hlt))
  · omega

theorem FailsFirstAt.unique (hi : FailsFirstAt ts i) (hj : FailsFirstAt ts j) : j = i := by
  have hij := hi.not_lt hj
  have hji := hj.not_lt hi
  omega

theorem openTokens_append_tokens_begin (stack : List Frame) (e : Expr) :
    ∃ es, openTokens stack ++ e.tokens <+: Expr.tokensAll es := by
  induction stack generalizing e with
  | nil => exact ⟨[e], by simp [openTokens, Expr.tokensAll]⟩
  | cons frame outer ih =>
    obtain ⟨es, hes⟩ := ih (.call frame.name (frame.params.toList ++ [e]) none)
    refine ⟨es, List.IsPrefix.trans ⟨[⟨.paren, ")", none⟩], ?_⟩ hes⟩
    simp [openTokens, Expr.tokens, Expr.tokensAll, Expr.tokensAll_append]

theorem State.tokens_begin_program (s : State) : ∃ es, s.tokens <+: Expr.tokensAll es := by
  cases s with
  | fresh => exact ⟨[], List.prefix_rfl⟩
  | opened opening outer =>
    obtain ⟨es, hes⟩ := openTokens_append_tokens_begin outer (.call "" [] none)
    refine ⟨es, List.IsPrefix.trans ⟨[⟨.name, "", none⟩, ⟨.paren, ")", none⟩], ?_⟩ hes⟩
    simp [State.tokens, Expr.tokens, Expr.tokensAll]
  | within frame outer =>
    obtain ⟨es, hes⟩ := openTokens_append_tokens_begin outer
      (.call frame.name frame.params.toList none)
    refine ⟨es, List.IsPrefix.trans ⟨[⟨.paren, ")", none⟩], ?_⟩ hes⟩
    simp [State.tokens, openTokens, Expr.tokens]

theorem viable_of_run (h : Run room .fresh us es s) : Viable us := by
  obtain ⟨fs, hfs⟩ := s.tokens_begin_program
  refine ⟨⟨es ++ fs, none⟩, ?_⟩
  have ht := h.tokens
  rw [show State.fresh.tokens = [] from rfl, List.nil_append] at ht
  rw [← ht, Program.tokens, Expr.tokensAll_append]
  exact (List.prefix_append_right_inj _).mpr hfs

theorem readBody_result_of_bare_eq (h : ts.map Token.bare = Expr.tokensAll es)
    (hc : (readBody room .fresh ts).result = .error c) : c = .nestingTooDeep stage := by
  rcases run_or_overflow room h with ⟨fs, _, hrun⟩ | ⟨_, us, t, vs, fs, s', rfl, hrun, ht⟩
  · have hb := readBody_run hrun []
    rw [List.append_nil] at hb
    rw [hb] at hc
    cases hc
  · rw [readBody_run hrun, readBody_refused (.token ht)] at hc
    cases hc
    rfl

theorem not_viable_of_refused (h : Run room .fresh us es s) (ht : s.step room t = .error c)
    (hc : c ≠ .nestingTooDeep stage) : ¬ Viable (us ++ [t]) := by
  rintro ⟨p, ws, hws⟩
  have hbare : ws.map Token.bare = ws := by
    have hp := Expr.map_bare_tokensAll p.body
    rw [← Program.tokens, ← hws, List.map_append, List.map_map] at hp
    exact List.append_cancel_left hp
  have hall : (us ++ t :: ws).map Token.bare = Expr.tokensAll p.body := by
    rw [← Program.tokens, ← hws]
    simp [hbare]
  have hread := readBody_run h (t :: ws)
  rw [readBody_refused (.token ht)] at hread
  exact hc (readBody_result_of_bare_eq hall (by rw [hread]; rfl))

theorem not_whole_of_error (h : (readBody room .fresh ts).result = .error c)
    (hc : c ≠ .nestingTooDeep stage) : ¬ Whole ts := by
  rintro ⟨p, hp⟩
  exact hc (readBody_result_of_bare_eq hp h)

def State.isOpened : State → Bool
  | .opened _ _ => true
  | _ => false

theorem isOpened_resume (stack : List Frame) (e : Expr) :
    (resume stack e).next.isOpened = false := by
  cases stack <;> rfl

theorem Move.isOpened_next (h : Move room s t r) : r.next.isOpened = t.isOpen := by
  cases h with
  | number hk => rw [isOpened_resume, Token.isOpen, hk]; rfl
  | enter ho _ => exact ho.symm
  | name hk _ => rw [Token.isOpen, hk]; rfl
  | leave hc =>
    have ht : t.text = ")" := (by simpa [Token.isClose] using hc : t.kind = .paren ∧ t.text = ")").2
    rw [isOpened_resume, Token.isOpen, ht]
    simp

theorem Run.isOpened_iff (h : Run room .fresh us es s) (rest : List Token) :
    s.isOpened = true ↔
      0 < us.length ∧ (us ++ rest)[us.length - 1]?.any Token.isOpen = true := by
  rcases List.eq_nil_or_concat' us with rfl | ⟨vs, t, rfl⟩
  · cases h
    simp [State.isOpened]
  · obtain ⟨s', fs, gs, -, -, hlast⟩ := h.split
    cases hlast with
    | step hs hr =>
      cases hr
      rw [(move_of_step hs).isOpened_next]
      simp

theorem causeAt_of_refused (h : Run room .fresh us es s) (href : Refused room s rest c)
    (hc : c ≠ .nestingTooDeep stage) : c = causeAt (us ++ rest) us.length := by
  have hopen := h.isOpened_iff rest
  unfold causeAt
  cases href with
  | atEnd hs =>
    cases s with
    | fresh => exact absurd rfl hs
    | opened opening outer =>
      simp only [State.atEnd] at hc ⊢
      split at hc
      · exact absurd rfl hc
      · next hl =>
        rw [if_pos (hopen.mp rfl), if_neg hl]
        simp
    | within frame outer =>
      rw [if_neg (fun hif => nomatch hopen.mpr hif)]
      simp [State.atEnd]
  | token ht =>
    have hcause := (step_error ht).resolve_left hc
    cases s with
    | opened opening outer =>
      rw [if_pos (hopen.mp rfl), hcause]
      simp [State.complaint]
    | fresh =>
      rw [if_neg (fun hif => nomatch hopen.mpr hif), hcause]
      simp [State.complaint]
    | within frame outer =>
      rw [if_neg (fun hif => nomatch hopen.mpr hif), hcause]
      simp [State.complaint]

theorem spanAt_eq_faultSpan (us rest : List Token) :
    spanAt (us ++ rest) us.length = faultSpan (us ++ rest) rest := by
  cases rest with
  | nil =>
    rw [spanAt, List.append_nil, List.getElem?_eq_none (Nat.le_refl _)]
    rfl
  | cons t rest => simp [spanAt, faultSpan]

theorem failsFirstAt_of_refused (h : Run room .fresh us es s) (href : Refused room s rest c)
    (hc : c ≠ .nestingTooDeep stage) : FailsFirstAt (us ++ rest) us.length := by
  have hread : (readBody room .fresh (us ++ rest)).result = .error c := by
    rw [readBody_run h, readBody_refused href]
    rfl
  refine ⟨by simpa using viable_of_run h, ?_⟩
  cases href with
  | atEnd hs => exact .inr ⟨by simp, not_whole_of_error hread hc⟩
  | token ht =>
    refine .inl ⟨by simp, ?_⟩
    rw [List.take_length_add_append]
    exact not_viable_of_refused h ht hc

theorem refused_of_parse_error {f : Fault} (h : Program.parse room ts = .error f) :
    ∃ us es s c, ts = us ++ (readBody room .fresh ts).rest ∧ Run room .fresh us es s ∧
      Refused room s (readBody room .fresh ts).rest c ∧
      f = fault ts (readBody room .fresh ts).rest c := by
  simp only [Program.parse] at h
  split at h
  · cases h
  · next c hc =>
    cases h
    obtain ⟨us, es, s, hts, hrun, href⟩ := run_of_readBody_error hc
    exact ⟨us, es, s, c, hts, hrun, href, rfl⟩

theorem code_causeAt (ts : List Token) (i : Nat) : (causeAt ts i).code =
    if 0 < i ∧ ts[i - 1]?.any Token.isOpen = true then "E102" else "E101" := by
  unfold causeAt
  split <;> rfl

theorem parse_fails_first {f : Fault} (h : Program.parse room ts = .error f) :
    ((Session.start ts).answer room .program).1 = .fault f ∧
    (f.cause = .nestingTooDeep stage ∨
      ∃ i, FailsFirstAt ts i ∧ (∀ j, FailsFirstAt ts j → j = i) ∧
        ((Session.start ts).answer room .program).2 = ⟨ts, i⟩ ∧
        f = ⟨causeAt ts i, spanAt ts i, none⟩ ∧
        f.cause.code = if 0 < i ∧ ts[i - 1]?.any Token.isOpen = true then "E102" else "E101") := by
  have hreply : ((Session.start ts).answer room .program).1 = .fault f := by
    simp [Session.answer, Session.start, h]
  refine ⟨hreply, ?_⟩
  obtain ⟨us, es, s, c, hts, hrun, href, hf⟩ := refused_of_parse_error h
  by_cases hc : c = .nestingTooDeep stage
  · left
    rw [hf, hc]
    rfl
  · right
    have hfails := failsFirstAt_of_refused hrun href hc
    have hcause := causeAt_of_refused hrun href hc
    have hspan := spanAt_eq_faultSpan us (readBody room .fresh ts).rest
    have hlen := congrArg List.length hts
    rw [List.length_append] at hlen
    rw [← hts] at hfails hcause hspan
    rw [hcause, fault, ← hspan] at hf
    refine ⟨us.length, hfails, fun j hj => hfails.unique hj, ?_, hf, ?_⟩
    · simp only [Session.answer, Session.start, Session.moveTo, Session.mk.injEq, true_and]
      omega
    · rw [hf, code_causeAt]

theorem parse_fails_first_inside_call :
    Program.parse 8 [⟨.paren, "(", none⟩, ⟨.name, "f", none⟩, ⟨.number, "1", none⟩] =
      .error ⟨.unexpectedToken "expression or ')'" none, none, none⟩ ∧
    FailsFirstAt [⟨.paren, "(", none⟩, ⟨.name, "f", none⟩, ⟨.number, "1", none⟩] 3 := by
  have h : Program.parse 8 [⟨.paren, "(", none⟩, ⟨.name, "f", none⟩, ⟨.number, "1", none⟩] =
      .error ⟨.unexpectedToken "expression or ')'" none, none, none⟩ := rfl
  obtain ⟨i, hi, -, hafter, -⟩ := (parse_fails_first h).2.resolve_left (fun hn => nomatch hn)
  have hthree : i = 3 := (congrArg Session.taken hafter).symm
  exact ⟨h, hthree ▸ hi⟩

end CallForms.Reader
