import CallForms.Lowering
import CallForms.Proofs.Expr.Tokens

namespace CallForms

def Location.unfiled (l : Location) : Location :=
  ⟨l.line, l.column, l.offset, none⟩

def Span.unfiled (s : Span) : Span :=
  ⟨s.start.unfiled, s.stop.unfiled⟩

structure Relocation where
  span : Span → Option Span
  location : Location → Option Location
  cover : ∀ a b, Span.cover? (span a) (span b) = span (a.cover b)
  behind : ∀ a, (span a).map Span.behind = span a.behind

namespace Relocation

def forget : Relocation :=
  ⟨fun _ => none, fun _ => none, fun _ _ => rfl, fun _ => rfl⟩

def unfile : Relocation :=
  ⟨fun s => some s.unfiled, fun l => some l.unfiled, fun _ _ => rfl, fun _ => rfl⟩

variable (m : Relocation)

def span? (span : Option Span) : Option Span :=
  span.bind m.span

def token (t : Token) : Token :=
  ⟨t.kind, t.text, m.span? t.span⟩

mutual

def expr : Expr → Expr
  | .number digits span => .number digits (m.span? span)
  | .call name params span => .call name (exprs params) (m.span? span)

def exprs : List Expr → List Expr
  | [] => []
  | e :: rest => expr e :: exprs rest

end

def program (p : Program) : Program :=
  ⟨m.exprs p.body, m.span? p.span⟩

mutual

def tree : Tree → Tree
  | .number family digits span => .number family digits (m.span? span)
  | .call name params span => .call name (trees params) (m.span? span)
  | .program family body span => .program family (trees body) (m.span? span)
  | .identifier name span => .identifier name (m.span? span)
  | .invoke callee arguments span => .invoke (tree callee) (trees arguments) (m.span? span)
  | .statement expression span => .statement (tree expression) (m.span? span)
  | .custom kind span => .custom kind (m.span? span)
  | .token t => .token (m.token t)
  | .list items => .list (trees items)
  | .plain value => .plain value
  | .foreign value => .foreign ⟨value.typeName, value.tag?, m.span? value.span⟩

def trees : List Tree → List Tree
  | [] => []
  | value :: rest => tree value :: trees rest

end

def cause : Cause → Cause
  | .unrecognizedCharacter char location => .unrecognizedCharacter char (location.bind m.location)
  | .unexpectedToken expected found => .unexpectedToken expected (found.map m.token)
  | .missingCallName found => .missingCallName (found.map m.token)
  | .unknownNode stage value => .unknownNode stage (m.tree value)
  | .nestingTooDeep stage => .nestingTooDeep stage

def fault (f : Fault) : Fault :=
  ⟨m.cause f.cause, m.span? f.span, f.sourceLine⟩

def stop : Stop → Stop
  | .unknown value => .unknown (m.tree value)
  | .tooDeep => .tooDeep

theorem exprs_eq_map (es : List Expr) : m.exprs es = es.map m.expr := by
  induction es with
  | nil => simp [exprs]
  | cons e rest ih => rw [exprs, ih, List.map_cons]

theorem span?_cover (a b : Option Span) :
    Span.cover? (m.span? a) (m.span? b) = m.span? (Span.cover? a b) := by
  cases a with
  | none => rfl
  | some a =>
    cases b with
    | none => cases h : m.span a <;> simp [span?, Span.cover?, h]
    | some b => exact m.cover a b

theorem span?_map_behind (a : Option Span) :
    (m.span? a).map Span.behind = m.span? (a.map Span.behind) := by
  cases a with
  | none => rfl
  | some a => exact m.behind a

@[simp] theorem kind_token (t : Token) : (m.token t).kind = t.kind := rfl

@[simp] theorem text_token (t : Token) : (m.token t).text = t.text := rfl

@[simp] theorem isOpen_token (t : Token) : (m.token t).isOpen = t.isOpen := rfl

@[simp] theorem isClose_token (t : Token) : (m.token t).isClose = t.isClose := rfl

theorem describe_token (found : Option Token) :
    Token.describe (found.map m.token) = Token.describe found := by
  cases found <;> rfl

theorem tag_tree (value : Tree) : (m.tree value).tag = value.tag := by
  cases value <;> rfl

theorem span_tree (value : Tree) : (m.tree value).span = m.span? value.span := by
  cases value <;> rfl

theorem code_cause (c : Cause) : (m.cause c).code = c.code := by
  cases c <;> rfl

theorem hints_cause (c : Cause) : (m.cause c).hints = c.hints := by
  cases c <;> rfl

theorem message_cause (c : Cause) : (m.cause c).message = c.message := by
  cases c with
  | unrecognizedCharacter char location => rfl
  | unexpectedToken expected found =>
    exact congrArg (fun text => s!"expected {expected}, found {text}") (m.describe_token found)
  | missingCallName found =>
    exact congrArg (fun text => s!"expected call name after '(', found {text}")
      (m.describe_token found)
  | unknownNode stage value =>
    exact congrArg (fun text => s!"{stage}: unknown node type '{text}'") (m.tag_tree value)
  | nestingTooDeep stage => rfl

theorem fault_unknownNode (stage : String) (value : Tree) :
    m.fault (.unknownNode stage value) = .unknownNode stage (m.tree value) := by
  rw [Fault.unknownNode, Fault.unknownNode, span_tree]
  rfl

@[simp] theorem forget_span? (span : Option Span) : forget.span? span = none := by
  cases span <;> rfl

theorem forget_expr (e : Expr) : forget.expr e = e.bare := by
  induction e with
  | number digits span => simp [expr, Expr.bare]
  | call name params span ih =>
    have hparams : forget.exprs params = Expr.bareAll params := by
      rw [Expr.bareAll_eq_map, exprs_eq_map]
      exact List.map_congr_left ih
    simp [expr, Expr.bare, hparams]

theorem forget_token : forget.token = Token.bare := by
  funext t
  simp [token, Token.bare]

theorem forget_program (p : Program) : forget.program p = p.bare := by
  rw [program, Program.bare, exprs_eq_map, Expr.bareAll_eq_map,
    List.map_congr_left fun e _ => forget_expr e, forget_span?]

end Relocation

section Outcomes

variable {α β γ δ ε : Type}

def mapBoth (onResult : α → β) (onError : ε → δ) : Except ε α → Except δ β
  | .ok a => .ok (onResult a)
  | .error e => .error (onError e)

@[simp] theorem mapBoth_ok (f : α → β) (g : ε → δ) (a : α) :
    mapBoth f g (.ok a) = .ok (f a) := rfl

@[simp] theorem mapBoth_error (f : α → β) (g : ε → δ) (e : ε) :
    mapBoth f g (.error e) = .error (g e) := rfl

structure Fault.Alike (f g : Fault) : Prop where
  cause : Relocation.forget.cause f.cause = Relocation.forget.cause g.cause
  code : f.diagnostic.code = g.diagnostic.code
  message : f.diagnostic.message = g.diagnostic.message
  hints : f.diagnostic.hints = g.diagnostic.hints

theorem Fault.alike_of_cause {f g : Fault}
    (h : Relocation.forget.cause f.cause = Relocation.forget.cause g.cause) : f.Alike g := by
  refine ⟨h, ?_, ?_, ?_⟩
  · show f.cause.code = g.cause.code
    rw [← Relocation.forget.code_cause f.cause, h, Relocation.code_cause]
  · show f.cause.message = g.cause.message
    rw [← Relocation.forget.message_cause f.cause, h, Relocation.message_cause]
  · show f.cause.hints = g.cause.hints
    rw [← Relocation.forget.hints_cause f.cause, h, Relocation.hints_cause]

inductive Agree (R : α → α → Prop) : Except Fault α → Except Fault α → Prop
  | ok {a b : α} (h : R a b) : Agree R (.ok a) (.ok b)
  | error {f g : Fault} (h : f.Alike g) : Agree R (.error f) (.error g)

theorem Agree.of_mapBoth {f : α → β} {x y : Except Fault α}
    (h : mapBoth f Relocation.forget.fault x = mapBoth f Relocation.forget.fault y) :
    Agree (fun a b => f a = f b) x y := by
  cases x with
  | ok a =>
    cases y with
    | ok b => exact .ok (Except.ok.inj h)
    | error g => cases h
  | error f =>
    cases y with
    | ok b => cases h
    | error g => exact .error (Fault.alike_of_cause (congrArg Fault.cause (Except.error.inj h)))

end Outcomes

end CallForms
