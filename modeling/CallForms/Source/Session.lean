import CallForms.Source.Lexer

namespace CallForms.Source

abbrev Feed := Option Cursor

namespace Feed

inductive Item where
  | token (token : Token)
  | fault (fault : Fault)
  | stop

def start (s : Source) : Feed :=
  some (.ofText s.text)

def next (s : Source) : Feed → Item × Feed
  | none => (.stop, none)
  | some c =>
    match s.scan c with
    | .token t c' => (.token t, some c')
    | .fault fault _ => (.fault fault, none)
    | .done _ => (.stop, none)

def rest (s : Source) : Feed → Except Fault (List Token)
  | none => .ok []
  | some c => s.tokensFrom c

end Feed

structure Session where
  cursor : Cursor
  feeds : String → Feed

namespace Session

inductive Request where
  | feed (id : String)
  | next (id : String)
  | rest (id : String)
  | tokens
  | line (number : Int)
  | lines
  | scan
  | peek
  | advance
  | skip

inductive Reply where
  | nothing
  | stop
  | token (token : Token)
  | tokens (tokens : List Token)
  | line (line : Option String)
  | lines (lines : List String)
  | char (char : Char)
  | fault (fault : Fault)
  | pastEnd

def start (s : Source) : Session :=
  ⟨.ofText s.text, fun _ => none⟩

def set (session : Session) (id : String) (feed : Feed) : Session :=
  ⟨session.cursor, fun other => if other = id then feed else session.feeds other⟩

def Reply.ofItem : Feed.Item → Reply
  | .token t => .token t
  | .fault f => .fault f
  | .stop => .stop

def Reply.ofTokens : Except Fault (List Token) → Reply
  | .ok ts => .tokens ts
  | .error f => .fault f

def pastEndMessage : String :=
  "string index out of range"

def answer (s : Source) (session : Session) : Request → Reply × Session
  | .feed id => (.nothing, session.set id (.start s))
  | .next id =>
    let (item, feed) := (session.feeds id).next s
    (.ofItem item, session.set id feed)
  | .rest id => (.ofTokens ((session.feeds id).rest s), session.set id none)
  | .tokens => (.ofTokens s.tokens, session)
  | .line number => (.line (s.line? number), session)
  | .lines => (.lines s.lines, session)
  | .scan =>
    match s.scan session.cursor with
    | .token t next => (.token t, ⟨next, session.feeds⟩)
    | .fault fault next => (.fault fault, ⟨next, session.feeds⟩)
    | .done next => (.nothing, ⟨next, session.feeds⟩)
  | .peek => (.char (session.cursor.rest.headD (Char.ofNat 0)), session)
  | .advance =>
    match session.cursor.next? with
    | some (char, next) => (.char char, ⟨next, session.feeds⟩)
    | none => (.pastEnd, session)
  | .skip => (.nothing, ⟨session.cursor.skip Text.isBlank, session.feeds⟩)

def run (s : Source) (session : Session) : List Request → List (Reply × Session)
  | [] => []
  | request :: rest =>
    let reply := session.answer s request
    reply :: run s reply.2 rest

end Session

end CallForms.Source
