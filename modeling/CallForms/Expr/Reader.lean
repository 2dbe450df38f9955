import CallForms.Fault

namespace CallForms

structure Frame where
  opening : Token
  name : String
  params : Array Expr

namespace Frame

def push (f : Frame) (e : Expr) : Frame :=
  ⟨f.opening, f.name, f.params.push e⟩

def close (f : Frame) (closing : Token) : Expr :=
  .call f.name f.params.toList (Span.cover? f.opening.span closing.span)

end Frame

namespace Reader

inductive State where
  | fresh
  | opened (opening : Token) (outer : List Frame)
  | within (frame : Frame) (outer : List Frame)

inductive Step where
  | more (state : State)
  | complete (e : Expr)

def stage : String :=
  "parser"

def resume : List Frame → Expr → Step
  | [], e => .complete e
  | frame :: outer, e => .more (.within (frame.push e) outer)

-- An open call takes two frames of the stack, consuming its parenthesis one more, and looking at
-- the token behind that yet another.
def begin (room : Nat) (stack : List Frame) (t : Token) : Except Cause Step :=
  if t.kind = .number then .ok (resume stack (.number t.text t.span))
  else if t.isOpen then
    if 2 * stack.length + 3 ≤ room then .ok (.more (.opened t stack))
    else .error (.nestingTooDeep stage)
  else .error (.unexpectedToken "number or '('" (some t))

def State.step (room : Nat) : State → Token → Except Cause Step
  | .fresh, t => begin room [] t
  | .opened opening outer, t =>
    if room < 2 * outer.length + 4 then .error (.nestingTooDeep stage)
    else if t.kind = .name then .ok (.more (.within ⟨opening, t.text, #[]⟩ outer))
    else .error (.missingCallName (some t))
  | .within frame outer, t =>
    if t.isClose then .ok (resume outer (frame.close t)) else begin room (frame :: outer) t

def State.atEnd (room : Nat) : State → Cause
  | .fresh => .unexpectedToken "number or '('" none
  | .opened _ outer =>
    if room < 2 * outer.length + 4 then .nestingTooDeep stage else .missingCallName none
  | .within _ _ => .unexpectedToken "expression or ')'" none

structure Reading (α : Type) where
  result : Except Cause α
  rest : List Token

def readExpr (room : Nat) : State → List Token → Reading Expr
  | state, [] => ⟨.error (state.atEnd room), []⟩
  | state, t :: rest =>
    match state.step room t with
    | .error cause => ⟨.error cause, t :: rest⟩
    | .ok (.complete e) => ⟨.ok e, rest⟩
    | .ok (.more state') => readExpr room state' rest

def readBody (room : Nat) : State → List Token → Reading (List Expr)
  | .fresh, [] => ⟨.ok [], []⟩
  | state, [] => ⟨.error (state.atEnd room), []⟩
  | state, t :: rest =>
    match state.step room t with
    | .error cause => ⟨.error cause, t :: rest⟩
    | .ok (.complete e) =>
      let later := readBody room .fresh rest
      ⟨later.result.map (e :: ·), later.rest⟩
    | .ok (.more state') => readBody room state' rest

def faultSpan (tokens rest : List Token) : Option Span :=
  match rest with
  | t :: _ => t.span
  | [] => (tokens.getLast?.bind (·.span)).map Span.behind

def fault (tokens rest : List Token) (cause : Cause) : Fault :=
  ⟨cause, faultSpan tokens rest, none⟩

def programSpan (tokens : List Token) : Option Span :=
  Span.cover? (tokens.head?.bind (·.span)) (tokens.getLast?.bind (·.span))

end Reader

namespace Program

def parse (room : Nat) (tokens : List Token) : Except Fault Program :=
  let reading := Reader.readBody room .fresh tokens
  match reading.result with
  | .ok body => .ok ⟨body, Reader.programSpan tokens⟩
  | .error cause => .error (Reader.fault tokens reading.rest cause)

end Program

end CallForms
