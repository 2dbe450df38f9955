import CallForms.Expr.Reader

namespace CallForms

abbrev Overrides := String → Option String

inductive Stop where
  | unknown (value : Tree)
  | tooDeep

def Stop.fault (stage : String) (span : Option Span) : Stop → Fault
  | .unknown value => .unknownNode stage value
  | .tooDeep => ⟨.nestingTooDeep stage, span, none⟩

-- Each level of a tree takes two frames of the stack.
def levelsIn (room : Nat) : Nat :=
  room / 2

namespace Lowering

def stage : String :=
  "transformer"

inductive Site where
  | root
  | body
  | nested
  deriving DecidableEq, Repr

def Site.below : Option Tree → Site
  | none => .root
  | some (.plain .null) => .root
  | some (.program .source _ _) => .body
  | some _ => .nested

def Site.place (site : Site) (invocation : Tree) (span : Option Span) : Tree :=
  match site with
  | .body => .statement invocation span
  | _ => invocation

structure Visit where
  context : List Tree
  stop : Option Stop

def append (context : List Tree) (value : Tree) : Visit :=
  ⟨context ++ [value], none⟩

def refuse (context : List Tree) (value : Tree) : Visit :=
  ⟨context, some (.unknown value)⟩

mutual

def visit (overrides : Overrides) : Nat → Site → Tree → List Tree → Visit
  | 0, _, _, context => ⟨context, some .tooDeep⟩
  | levels + 1, site, .program .source body span, context =>
    match overrides "Program" with
    | some name => append context (.identifier name span)
    | none =>
      if site = .root then visitAll overrides levels .body body context
      else refuse context (.program .source body span)
  | _ + 1, _, .number .source digits span, context =>
    match overrides "NumberLiteral" with
    | some name => append context (.identifier name span)
    | none => append context (.number .target digits span)
  | levels + 1, site, .call name params span, context =>
    match overrides "CallExpression" with
    | some name => append context (.identifier name span)
    | none =>
      -- The arguments have a context of their own, in the call that is appended to this one.
      let arguments := visitAll overrides levels .nested params []
      ⟨context ++ [site.place (.invoke (.identifier name span) arguments.context span) span],
        arguments.stop⟩
  | _ + 1, _, .custom ⟨some .source, tag, other⟩ span, context =>
    match overrides tag with
    | some name => append context (.identifier name span)
    | none => refuse context (.custom ⟨some .source, tag, other⟩ span)
  | _ + 1, _, value, context => refuse context value

def visitAll (overrides : Overrides) : Nat → Site → List Tree → List Tree → Visit
  | _, _, [], context => ⟨context, none⟩
  | levels, site, value :: rest, context =>
    let first := visit overrides levels site value context
    match first.stop with
    | none => visitAll overrides levels site rest first.context
    | some _ => first

end

-- Only the lowering of a whole program turns a stack that overflows into a fault.
inductive Interruption where
  | fault (fault : Fault)
  | overrun

def Interruption.ofStop : Stop → Interruption
  | .unknown value => .fault (.unknownNode stage value)
  | .tooDeep => .overrun

def traverse (room : Nat) (value : Tree) (parent : Option Tree) (context : List Tree) :
    List Tree × Option Interruption :=
  let walk := visit (fun _ => none) (levelsIn room) (.below parent) value context
  (walk.context, walk.stop.map Interruption.ofStop)

end Lowering

def Tree.lower (room : Nat) (overrides : Overrides) (root : Tree) : Except Fault Tree :=
  match root with
  | .program .source body span =>
    let walk := Lowering.visit overrides (levelsIn room) .root (.program .source body span) []
    match walk.stop with
    | none => .ok (.program .target walk.context span)
    | some stop => .error (stop.fault Lowering.stage span)
  | value => .error (.unknownNode Lowering.stage value)

end CallForms
