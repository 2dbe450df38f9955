import CallForms.Proofs.Reader.Inverse

namespace CallForms.Reader

variable {room : Nat} {s : State} {ts : List Token} {e : Expr}

theorem rest_readExpr_suffix (s : State) (ts : List Token) : (readExpr room s ts).rest <:+ ts := by
  induction ts generalizing s with
  | nil => exact List.suffix_rfl
  | cons t rest ih =>
    cases hs : s.step room t with
    | error c => simp [readExpr, hs]
    | ok r =>
      cases r with
      | more state =>
        rw [readExpr_more hs]
        exact (ih state).trans (List.suffix_cons t rest)
      | complete e =>
        rw [readExpr_complete hs]
        exact List.suffix_cons t rest

theorem length_rest_lt_of_readExpr_ok (h : (readExpr room s ts).result = .ok e) :
    (readExpr room s ts).rest.length < ts.length := by
  obtain ⟨us, hts, hrun⟩ := run_of_readExpr_ok h
  have hlength := congrArg List.length hts
  cases us with
  | nil => cases hrun
  | cons t us =>
    rw [List.length_append, List.length_cons] at hlength
    omega

theorem rest_of_parse_ok {p : Program} (h : Program.parse room ts = .ok p) :
    (readBody room .fresh ts).rest = [] := by
  have hread := readBody_run (run_of_parse_ok h) []
  rw [List.append_nil] at hread
  rw [hread]
  rfl

namespace Session

def Request.looks : Request → Bool
  | .current | .isKind _ | .isClose | .isEnd | .faultSpan => true
  | _ => false

def Reply.shows : Reply → Bool
  | .token _ | .flag _ | .span _ => true
  | _ => false

structure Inside (ts : List Token) (session : Session) : Prop where
  tokens : session.tokens = ts
  taken_le : session.taken ≤ ts.length

inductive Turn (room : Nat) (ts : List Token) (i : Nat) : Request → Reply → Nat → Prop
  | parsed {p : Program} (h : Program.parse room ts = .ok p) :
      Turn room ts i .program (.program p) ts.length
  | refused {f : Fault} {j : Nat} (h : Program.parse room ts = .error f) (hj : j ≤ ts.length) :
      Turn room ts i .program (.fault f) j
  | read {request : Request} {e : Expr} {j : Nat} (hr : request = .expr ∨ request = .call)
      (hi : i < j) (hj : j ≤ ts.length) : Turn room ts i request (.expr e) j
  | broken {request : Request} {f : Fault} {j : Nat} (hr : request = .expr ∨ request = .call)
      (hi : i ≤ j) (hj : j ≤ ts.length) : Turn room ts i request (.fault f) j
  | overran {request : Request} {j : Nat} (hr : request = .expr ∨ request = .call)
      (hi : i ≤ j) (hj : j ≤ ts.length) : Turn room ts i request .overrun j
  | took {t : Token} (ht : ts[i]? = some t) : Turn room ts i .advance (.token (some t)) (i + 1)
  | pastEnd {request : Request} (hr : request = .advance ∨ request = .call) (hi : i = ts.length) :
      Turn room ts i request .pastEnd i
  | looked {request : Request} {reply : Reply} (hr : request.looks = true)
      (hs : reply.shows = true) : Turn room ts i request reply i

variable {session : Session} {request : Request} {reply : Reply} {i j : Nat}

theorem Inside.length_ahead (h : Inside ts session) :
    session.ahead.length = ts.length - session.taken := by
  rw [ahead, List.length_drop, h.tokens]

theorem Inside.ahead_eq_nil_iff (h : Inside ts session) :
    session.ahead = [] ↔ session.taken = ts.length := by
  have hle := h.taken_le
  rw [← List.length_eq_zero_iff, h.length_ahead]
  omega

theorem Inside.answer_of_end (h : Inside ts session) (hr : request = .advance ∨ request = .call)
    (hend : session.taken = ts.length) : session.answer room request = (.pastEnd, session) := by
  have hahead := h.ahead_eq_nil_iff.mpr hend
  rcases hr with rfl | rfl
  · simp [answer, hahead]
  · simp [answer, hahead]

theorem Inside.turn_ofReading (h : Inside ts session) {reading : Reading Expr}
    (hr : request = .expr ∨ request = .call) (hle : reading.rest.length ≤ session.ahead.length)
    (hlt : ∀ e, reading.result = .ok e → reading.rest.length < session.ahead.length) :
    Turn room ts session.taken request (session.ofReading reading).1
      (session.ofReading reading).2.taken := by
  have htaken := h.taken_le
  rw [h.length_ahead] at hle hlt
  simp only [ofReading, moveTo, h.tokens]
  cases hresult : reading.result with
  | ok e =>
    have hrest := hlt e hresult
    exact .read hr (by omega) (by omega)
  | error cause =>
    cases cause with
    | nestingTooDeep stage => exact .overran hr (by omega) (by omega)
    | _ => exact .broken hr (by omega) (by omega)

theorem Inside.turn_program (h : Inside ts session) :
    Turn room ts session.taken .program (session.answer room .program).1
      (session.answer room .program).2.taken := by
  simp only [answer, moveTo, h.tokens]
  cases hparse : Program.parse room ts with
  | ok p =>
    rw [rest_of_parse_ok hparse]
    exact .parsed hparse
  | error f => exact .refused hparse (Nat.sub_le _ _)

theorem Inside.turn_call (h : Inside ts session) :
    Turn room ts session.taken .call (session.answer room .call).1
      (session.answer room .call).2.taken := by
  cases hahead : session.ahead with
  | nil =>
    have hend := h.ahead_eq_nil_iff.mp hahead
    rw [h.answer_of_end (.inr rfl) hend]
    exact .pastEnd (.inr rfl) hend
  | cons opening rest =>
    -- The token at hand is taken whatever it is, so that the reader begins behind it.
    have hlt : (readExpr (room + 1) (.opened opening []) rest).rest.length <
        session.ahead.length := by
      rw [hahead, List.length_cons]
      exact Nat.lt_succ_of_le (rest_readExpr_suffix _ _).length_le
    simp only [answer, hahead]
    exact h.turn_ofReading (.inr rfl) (Nat.le_of_lt hlt) (fun _ _ => hlt)

theorem Inside.turn_advance (h : Inside ts session) :
    Turn room ts session.taken .advance (session.answer room .advance).1
      (session.answer room .advance).2.taken := by
  cases hahead : session.ahead with
  | nil =>
    have hend := h.ahead_eq_nil_iff.mp hahead
    rw [h.answer_of_end (.inl rfl) hend]
    exact .pastEnd (.inl rfl) hend
  | cons t rest =>
    have hlength := h.length_ahead
    rw [hahead, List.length_cons] at hlength
    have hnext : ts.length - rest.length = session.taken + 1 := by
      have hle := h.taken_le
      omega
    have ht : ts[session.taken]? = some t := by
      rw [← List.head?_drop, ← h.tokens, ← ahead, hahead]
      rfl
    simp only [answer, hahead, moveTo, h.tokens, hnext]
    exact .took ht

theorem Inside.turn (h : Inside ts session) (request : Request) :
    Turn room ts session.taken request (session.answer room request).1
      (session.answer room request).2.taken := by
  cases request with
  | program => exact h.turn_program
  | expr =>
    exact h.turn_ofReading (.inl rfl) (rest_readExpr_suffix _ _).length_le
      (fun _ => length_rest_lt_of_readExpr_ok)
  | call => exact h.turn_call
  | advance => exact h.turn_advance
  | current => exact .looked rfl rfl
  | isKind kind => exact .looked rfl rfl
  | isClose => exact .looked rfl rfl
  | isEnd => exact .looked rfl rfl
  | faultSpan => exact .looked rfl rfl

theorem tokens_answer (session : Session) (request : Request) :
    (session.answer room request).2.tokens = session.tokens := by
  cases request with
  | call =>
    simp only [answer]
    split <;> rfl
  | advance =>
    simp only [answer]
    split <;> rfl
  | _ => rfl

namespace Turn

theorem le_length (h : Turn room ts i request reply j) (hi : i ≤ ts.length) : j ≤ ts.length := by
  cases h with
  | parsed => exact Nat.le_refl _
  | refused _ hj => exact hj
  | read _ _ hj => exact hj
  | broken _ _ hj => exact hj
  | overran _ _ hj => exact hj
  | took ht => exact (List.getElem?_eq_some_iff.mp ht).1
  | pastEnd => exact hi
  | looked => exact hi

end Turn

theorem Inside.answer (h : Inside ts session) (request : Request) :
    Inside ts (session.answer room request).2 :=
  ⟨(tokens_answer session request).trans h.tokens, (h.turn request).le_length h.taken_le⟩

theorem Inside.run (h : Inside ts session) (requests : List Request) :
    ∀ now ∈ session :: (session.run room requests).map Prod.snd, Inside ts now := by
  induction requests generalizing session with
  | nil => simpa [Session.run] using h
  | cons request rest ih =>
    rw [List.forall_mem_cons]
    exact ⟨h, ih (h.answer request)⟩

end Session

end CallForms.Reader
