import CallForms.Proofs.Places.Relocation
import CallForms.Proofs.Reader.Run

namespace CallForms

namespace Relocation

variable (m : Relocation) (room : Nat)

def frame (f : Frame) : Frame :=
  ⟨m.token f.opening, f.name, f.params.map m.expr⟩

def state : Reader.State → Reader.State
  | .fresh => .fresh
  | .opened opening outer => .opened (m.token opening) (outer.map m.frame)
  | .within frame outer => .within (m.frame frame) (outer.map m.frame)

def step : Reader.Step → Reader.Step
  | .more state => .more (m.state state)
  | .complete e => .complete (m.expr e)

theorem close_frame (f : Frame) (t : Token) :
    (m.frame f).close (m.token t) = m.expr (f.close t) := by
  simp only [Frame.close, frame, token, expr, span?_cover, exprs_eq_map, Array.toList_map]

theorem push_frame (f : Frame) (e : Expr) : (m.frame f).push (m.expr e) = m.frame (f.push e) := by
  simp [Frame.push, frame]

theorem resume_step (stack : List Frame) (e : Expr) :
    Reader.resume (stack.map m.frame) (m.expr e) = m.step (Reader.resume stack e) := by
  cases stack with
  | nil => rfl
  | cons frame outer => simp only [List.map_cons, Reader.resume, push_frame, step, state]

theorem begin_step (stack : List Frame) (t : Token) :
    Reader.begin room (stack.map m.frame) (m.token t) =
      mapBoth m.step m.cause (Reader.begin room stack t) := by
  have hnumber : Expr.number (m.token t).text (m.token t).span =
      m.expr (.number t.text t.span) := by
    rw [expr]
    rfl
  simp only [Reader.begin, kind_token, isOpen_token, List.length_map, hnumber, resume_step]
  split
  · rfl
  · split
    · split <;> rfl
    · rfl

theorem step_state (s : Reader.State) (t : Token) :
    (m.state s).step room (m.token t) = mapBoth m.step m.cause (s.step room t) := by
  cases s with
  | fresh => exact m.begin_step room [] t
  | opened opening outer =>
    simp only [state, Reader.State.step, List.length_map, kind_token, text_token]
    split
    · rfl
    · by_cases hname : t.kind = .name
      · simp [hname, step, state, frame]
      · simp [hname, cause]
  | within f outer =>
    simp only [state, Reader.State.step, isClose_token, close_frame, resume_step]
    split
    · rfl
    · exact m.begin_step room (f :: outer) t

theorem atEnd_state (s : Reader.State) : (m.state s).atEnd room = m.cause (s.atEnd room) := by
  cases s with
  | fresh => rfl
  | opened opening outer =>
    simp only [state, Reader.State.atEnd, List.length_map]
    split <;> rfl
  | within f outer => rfl

theorem made_step (r : Reader.Step) : (m.step r).made = m.exprs r.made := by
  cases r <;> simp [step, Reader.Step.made, exprs]

theorem next_step (r : Reader.Step) : (m.step r).next = m.state r.next := by
  cases r <;> rfl

theorem readBody_relocated (ts : List Token) (s : Reader.State) :
    Reader.readBody room (m.state s) (ts.map m.token) =
      ⟨mapBoth m.exprs m.cause (Reader.readBody room s ts).result,
        (Reader.readBody room s ts).rest.map m.token⟩ := by
  induction ts generalizing s with
  | nil =>
    have hend := m.atEnd_state room s
    cases s with
    | fresh => simp [Reader.readBody, state, exprs]
    | opened opening outer => simpa [Reader.readBody, state] using hend
    | within f outer => simpa [Reader.readBody, state] using hend
  | cons t rest ih =>
    have hstep := m.step_state room s t
    cases hs : s.step room t with
    | error c =>
      rw [hs, mapBoth_error] at hstep
      rw [List.map_cons, Reader.readBody_refused (.token hs),
        Reader.readBody_refused (.token hstep)]
      rfl
    | ok r =>
      rw [hs, mapBoth_ok] at hstep
      rw [List.map_cons, Reader.readBody_step hs, Reader.readBody_step hstep, next_step, ih,
        made_step]
      cases (Reader.readBody room r.next rest).result with
      | error c => rfl
      | ok es => simp [Except.map, exprs_eq_map]

theorem head?_span (ts : List Token) :
    (ts.map m.token).head?.bind (·.span) = m.span? (ts.head?.bind (·.span)) := by
  cases ts <;> rfl

theorem getLast?_span (ts : List Token) :
    (ts.map m.token).getLast?.bind (·.span) = m.span? (ts.getLast?.bind (·.span)) := by
  rw [List.getLast?_map]
  cases ts.getLast? <;> rfl

theorem faultSpan_relocated (ts rest : List Token) :
    Reader.faultSpan (ts.map m.token) (rest.map m.token) =
      m.span? (Reader.faultSpan ts rest) := by
  cases rest with
  | nil => rw [List.map_nil, Reader.faultSpan, Reader.faultSpan, getLast?_span, span?_map_behind]
  | cons t rest => rfl

theorem fault_relocated (ts rest : List Token) (c : Cause) :
    Reader.fault (ts.map m.token) (rest.map m.token) (m.cause c) =
      m.fault (Reader.fault ts rest c) := by
  rw [Reader.fault, Reader.fault, faultSpan_relocated]
  rfl

theorem programSpan_relocated (ts : List Token) :
    Reader.programSpan (ts.map m.token) = m.span? (Reader.programSpan ts) := by
  rw [Reader.programSpan, head?_span, getLast?_span, span?_cover]
  rfl

theorem parse_relocated (ts : List Token) :
    Program.parse room (ts.map m.token) = mapBoth m.program m.fault (Program.parse room ts) := by
  have hread := m.readBody_relocated room ts .fresh
  simp only [state] at hread
  simp only [Program.parse, hread, programSpan_relocated]
  cases (Reader.readBody room .fresh ts).result with
  | ok body => rfl
  | error c => exact congrArg Except.error (m.fault_relocated ts _ c)

end Relocation

theorem Program.parse_agree (room : Nat) {ts us : List Token}
    (h : ts.map Token.bare = us.map Token.bare) :
    Agree (fun p q => p.bare = q.bare) (Program.parse room ts) (Program.parse room us) := by
  -- Both runs are compared with the one run on tokens without places.
  have hts := Relocation.forget.parse_relocated room ts
  have hus := Relocation.forget.parse_relocated room us
  rw [Relocation.forget_token] at hts hus
  have hagree := Agree.of_mapBoth (hts.symm.trans ((congrArg (Program.parse room) h).trans hus))
  simpa only [Relocation.forget_program] using hagree

end CallForms
