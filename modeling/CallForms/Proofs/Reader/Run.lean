import CallForms.Expr.Reader

namespace CallForms.Reader

namespace Step

def made : Step → List Expr
  | .more _ => []
  | .complete e => [e]

def next : Step → State
  | .more state => state
  | .complete _ => .fresh

@[simp] theorem made_more (s : State) : (Step.more s).made = [] := rfl

@[simp] theorem made_complete (e : Expr) : (Step.complete e).made = [e] := rfl

@[simp] theorem next_more (s : State) : (Step.more s).next = s := rfl

@[simp] theorem next_complete (e : Expr) : (Step.complete e).next = .fresh := rfl

end Step

def ready : List Frame → State
  | [] => .fresh
  | frame :: outer => .within frame outer

inductive Move (room : Nat) : State → Token → Step → Prop
  | number {stack : List Frame} {t : Token} (hk : t.kind = .number) :
      Move room (ready stack) t (resume stack (.number t.text t.span))
  | enter {stack : List Frame} {t : Token} (ho : t.isOpen = true)
      (hl : 2 * stack.length + 3 ≤ room) : Move room (ready stack) t (.more (.opened t stack))
  | name {opening t : Token} {outer : List Frame} (hk : t.kind = .name)
      (hl : 2 * outer.length + 4 ≤ room) :
      Move room (.opened opening outer) t (.more (.within ⟨opening, t.text, #[]⟩ outer))
  | leave {frame : Frame} {outer : List Frame} {t : Token} (hc : t.isClose = true) :
      Move room (.within frame outer) t (resume outer (frame.close t))

variable {room : Nat} {s s' s'' : State} {t : Token} {r : Step} {c : Cause}
  {ts us rest : List Token} {e : Expr} {es fs : List Expr} {stack : List Frame}

theorem step_ready_of_not_close (h : t.isClose = false) :
    (ready stack).step room t = begin room stack t := by
  cases stack with
  | nil => rfl
  | cons frame outer => simp [ready, State.step, h]

theorem Move.step_eq (h : Move room s t r) : s.step room t = .ok r := by
  cases h with
  | number hk =>
    rw [step_ready_of_not_close (by simp [Token.isClose, hk])]
    simp [begin, hk]
  | enter ho hl =>
    have ht : t.kind = .paren ∧ t.text = "(" := by simpa [Token.isOpen] using ho
    rw [step_ready_of_not_close (by simp [Token.isClose, ht])]
    simp [begin, ht.1, ho, hl]
  | name hk hl => simp [State.step, hk, Nat.not_lt.mpr hl]
  | leave hc => simp [State.step, hc]

theorem move_of_begin (stack : List Frame) (h : begin room stack t = .ok r) :
    Move room (ready stack) t r := by
  unfold begin at h
  split at h
  · next hk =>
    cases h
    exact .number hk
  · split at h
    · next ho =>
      split at h
      · next hl =>
        cases h
        exact .enter ho hl
      · cases h
    · cases h

theorem move_of_step (h : s.step room t = .ok r) : Move room s t r := by
  cases s with
  | fresh => exact move_of_begin [] h
  | opened opening outer =>
    simp only [State.step] at h
    split at h
    · cases h
    · next hl =>
      split at h
      · next hk =>
        cases h
        exact .name hk (Nat.not_lt.mp hl)
      · cases h
  | within frame outer =>
    simp only [State.step] at h
    split at h
    · next hc =>
      cases h
      exact .leave hc
    · exact move_of_begin (frame :: outer) h

def State.complaint : State → Token → Cause
  | .opened _ _, t => .missingCallName (some t)
  | _, t => .unexpectedToken "number or '('" (some t)

theorem begin_error (h : begin room stack t = .error c) :
    c = .nestingTooDeep stage ∨ c = .unexpectedToken "number or '('" (some t) := by
  unfold begin at h
  split at h
  · cases h
  · split at h
    · split at h <;> cases h
      exact .inl rfl
    · cases h
      exact .inr rfl

theorem step_error (h : s.step room t = .error c) :
    c = .nestingTooDeep stage ∨ c = s.complaint t := by
  cases s with
  | fresh => exact begin_error h
  | opened opening outer =>
    simp only [State.step] at h
    split at h
    · cases h
      exact .inl rfl
    · split at h <;> cases h
      exact .inr rfl
  | within frame outer =>
    simp only [State.step] at h
    split at h
    · cases h
    · exact begin_error h

inductive Run (room : Nat) : State → List Token → List Expr → State → Prop
  | refl (s : State) : Run room s [] [] s
  | step {s s' : State} {t : Token} {r : Step} {ts : List Token} {es : List Expr}
      (h : s.step room t = .ok r) (hr : Run room r.next ts es s') :
      Run room s (t :: ts) (r.made ++ es) s'

namespace Run

theorem append (h : Run room s ts es s') (h' : Run room s' us fs s'') :
    Run room s (ts ++ us) (es ++ fs) s'' := by
  induction h with
  | refl s => exact h'
  | step hs _ ih =>
    rw [List.append_assoc]
    exact .step hs (ih h')

theorem single (h : s.step room t = .ok r) : Run room s [t] r.made r.next := by
  simpa using Run.step h (.refl r.next)

theorem split (h : Run room s (ts ++ us) es s'') :
    ∃ s' fs gs, es = fs ++ gs ∧ Run room s ts fs s' ∧ Run room s' us gs s'' := by
  induction ts generalizing s es with
  | nil => exact ⟨s, [], es, rfl, .refl s, h⟩
  | cons t ts ih =>
    cases h with
    | step hs hr =>
      obtain ⟨s', fs, gs, rfl, hts, hus⟩ := ih hr
      exact ⟨s', _, gs, (List.append_assoc _ fs gs).symm, .step hs hts, hus⟩

end Run

inductive Refused (room : Nat) : State → List Token → Cause → Prop
  | atEnd {s : State} (h : s ≠ .fresh) : Refused room s [] (s.atEnd room)
  | token {s : State} {t : Token} {rest : List Token} {c : Cause} (h : s.step room t = .error c) :
      Refused room s (t :: rest) c

theorem readBody_step (h : s.step room t = .ok r) (rest : List Token) :
    readBody room s (t :: rest) = ⟨(readBody room r.next rest).result.map (r.made ++ ·),
      (readBody room r.next rest).rest⟩ := by
  cases r with
  | more state =>
    have hid : ∀ x : Except Cause (List Expr), x.map (fun es => es) = x := by
      intro x
      cases x <;> rfl
    simp [readBody, h, hid]
  | complete e => simp [readBody, h]

theorem readBody_run (h : Run room s ts es s') (rest : List Token) :
    readBody room s (ts ++ rest) = ⟨(readBody room s' rest).result.map (es ++ ·),
      (readBody room s' rest).rest⟩ := by
  induction h with
  | refl s => cases hr : (readBody room s rest).result <;> simp [Except.map, ← hr]
  | @step s s' t r ts es hs _ ih =>
    rw [List.cons_append, readBody_step hs, ih]
    cases (readBody room s' rest).result <;> simp [Except.map]

theorem readBody_refused (h : Refused room s rest c) : readBody room s rest = ⟨.error c, rest⟩ := by
  cases h with
  | atEnd hs => cases s <;> first | exact absurd rfl hs | rfl
  | token ht => simp [readBody, ht]

theorem run_of_readBody_ok (h : (readBody room s ts).result = .ok es) :
    Run room s ts es .fresh := by
  induction ts generalizing s es with
  | nil =>
    cases s <;> simp [readBody] at h
    subst h
    exact .refl _
  | cons t rest ih =>
    cases hs : s.step room t with
    | error c => simp [readBody, hs] at h
    | ok r =>
      rw [readBody_step hs] at h
      cases hl : (readBody room r.next rest).result with
      | error c => simp [hl, Except.map] at h
      | ok later =>
        simp only [hl, Except.map, Except.ok.injEq] at h
        subst h
        exact .step hs (ih hl)

theorem run_of_readBody_error (h : (readBody room s ts).result = .error c) :
    ∃ us es s', ts = us ++ (readBody room s ts).rest ∧ Run room s us es s' ∧
      Refused room s' (readBody room s ts).rest c := by
  induction ts generalizing s with
  | nil =>
    cases s with
    | fresh => simp [readBody] at h
    | opened opening outer =>
      cases h
      exact ⟨[], [], _, rfl, .refl _, .atEnd (by simp)⟩
    | within frame outer =>
      cases h
      exact ⟨[], [], _, rfl, .refl _, .atEnd (by simp)⟩
  | cons t rest ih =>
    cases hs : s.step room t with
    | error c' =>
      have hb : readBody room s (t :: rest) = ⟨.error c', t :: rest⟩ := by simp [readBody, hs]
      rw [hb] at h ⊢
      cases h
      exact ⟨[], [], s, rfl, .refl s, .token hs⟩
    | ok r =>
      rw [readBody_step hs] at h ⊢
      cases hl : (readBody room r.next rest).result with
      | ok later => simp [hl, Except.map] at h
      | error c' =>
        simp only [hl, Except.map, Except.error.injEq] at h
        subst h
        obtain ⟨us, es, s', hrest, hrun, href⟩ := ih hl
        refine ⟨t :: us, r.made ++ es, s', ?_, .step hs hrun, href⟩
        rw [List.cons_append, ← hrest]

theorem readExpr_more (h : s.step room t = .ok (.more s')) (rest : List Token) :
    readExpr room s (t :: rest) = readExpr room s' rest := by
  simp [readExpr, h]

theorem readExpr_complete (h : s.step room t = .ok (.complete e)) (rest : List Token) :
    readExpr room s (t :: rest) = ⟨.ok e, rest⟩ := by
  simp [readExpr, h]

theorem readExpr_run (h : Run room s ts (e :: es) s') :
    ∃ us vs, ts = us ++ vs ∧ Run room .fresh vs es s' ∧
      ∀ rest, readExpr room s (us ++ rest) = ⟨.ok e, rest⟩ := by
  induction ts generalizing s with
  | nil => cases h
  | cons t ts ih =>
    generalize hes : e :: es = fs at h
    cases h with
    | @step _ _ _ r _ gs hs hr =>
      cases r with
      | more state =>
        simp only [Step.made_more, List.nil_append] at hes
        subst hes
        obtain ⟨us, vs, rfl, hvs, hread⟩ := ih hr
        refine ⟨t :: us, vs, rfl, hvs, fun rest => ?_⟩
        rw [List.cons_append, readExpr_more hs]
        exact hread rest
      | complete d =>
        simp only [Step.made_complete, List.singleton_append, List.cons.injEq] at hes
        obtain ⟨rfl, rfl⟩ := hes
        exact ⟨[t], ts, rfl, hr, readExpr_complete hs⟩

theorem run_of_readExpr_ok (h : (readExpr room s ts).result = .ok e) :
    ∃ us, ts = us ++ (readExpr room s ts).rest ∧ Run room s us [e] .fresh := by
  induction ts generalizing s with
  | nil => cases h
  | cons t rest ih =>
    cases hs : s.step room t with
    | error c => simp [readExpr, hs] at h
    | ok r =>
      cases r with
      | more state =>
        rw [readExpr_more hs] at h ⊢
        obtain ⟨us, hrest, hrun⟩ := ih h
        exact ⟨t :: us, by rw [List.cons_append, ← hrest], .step hs hrun⟩
      | complete d =>
        rw [readExpr_complete hs] at h ⊢
        cases h
        exact ⟨[t], rfl, .single hs⟩

end CallForms.Reader
