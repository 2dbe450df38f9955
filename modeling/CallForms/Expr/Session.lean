import CallForms.Expr.Reader

namespace CallForms.Reader

structure Session where
  tokens : List Token
  taken : Nat

namespace Session

inductive Request where
  | program
  | expr
  | call
  | current
  | advance
  | isKind (kind : Token.Kind)
  | isClose
  | isEnd
  | faultSpan

inductive Reply where
  | program (program : Program)
  | expr (e : Expr)
  | token (token : Option Token)
  | flag (value : Bool)
  | span (span : Option Span)
  | fault (fault : Fault)
  | pastEnd
  | overrun

def start (tokens : List Token) : Session :=
  ⟨tokens, 0⟩

def ahead (session : Session) : List Token :=
  session.tokens.drop session.taken

def moveTo (session : Session) (rest : List Token) : Session :=
  ⟨session.tokens, session.tokens.length - rest.length⟩

-- Only the reading of a whole program turns a stack that overflows into a fault.
def ofReading (session : Session) (reading : Reading Expr) : Reply × Session :=
  let reply := match reading.result with
    | .ok e => .expr e
    | .error (.nestingTooDeep _) => .overrun
    | .error cause => .fault (fault session.tokens reading.rest cause)
  (reply, session.moveTo reading.rest)

def pastEndMessage : String :=
  "list index out of range"

def answer (room : Nat) (session : Session) : Request → Reply × Session
  | .program =>
    let reply := match Program.parse room session.tokens with
      | .ok program => .program program
      | .error fault => .fault fault
    (reply, session.moveTo (readBody room .fresh session.tokens).rest)
  | .expr => session.ofReading (readExpr room .fresh session.ahead)
  | .call =>
    match session.ahead with
    | [] => (.pastEnd, session)
    -- Entered directly, a call takes one frame less than below an expression.
    | opening :: rest => session.ofReading (readExpr (room + 1) (.opened opening []) rest)
  | .current => (.token session.ahead.head?, session)
  | .advance =>
    match session.ahead with
    | [] => (.pastEnd, session)
    | t :: rest => (.token (some t), session.moveTo rest)
  | .isKind kind => (.flag (session.ahead.head?.any (·.kind == kind)), session)
  | .isClose => (.flag (session.ahead.head?.any Token.isClose), session)
  | .isEnd => (.flag session.ahead.isEmpty, session)
  | .faultSpan => (.span (Reader.faultSpan session.tokens session.ahead), session)

def run (room : Nat) (session : Session) : List Request → List (Reply × Session)
  | [] => []
  | request :: rest =>
    let reply := session.answer room request
    reply :: run room reply.2 rest

end Session

end CallForms.Reader
