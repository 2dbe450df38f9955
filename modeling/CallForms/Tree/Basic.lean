import CallForms.Expr.Basic

namespace CallForms

inductive Family where
  | source
  | target
  deriving DecidableEq, Repr

def Family.tags : Family → List String
  | .source => ["NumberLiteral", "CallExpression", "Program"]
  | .target => ["NumberLiteral", "Identifier", "CallExpression", "ExpressionStatement", "Program"]

-- A stage tells the nodes of its family apart by their tags alone, so a node with one of these tags
-- is the tree of that tag, whatever its class, and a class of its own needs another tag.
structure NodeClass where
  family : Option Family
  tag : String
  other : ∀ f ∈ family, tag ∉ f.tags
  deriving DecidableEq

structure Foreign where
  typeName : String
  tag? : Option String
  span : Option Span
  deriving DecidableEq, Repr

def Foreign.written (value : Foreign) : String :=
  s!"<{value.typeName} object>"

inductive Tree where
  | number (family : Family) (digits : String) (span : Option Span)
  | call (name : String) (params : List Tree) (span : Option Span)
  | program (family : Family) (body : List Tree) (span : Option Span)
  | identifier (name : String) (span : Option Span)
  | invoke (callee : Tree) (arguments : List Tree) (span : Option Span)
  | statement (expression : Tree) (span : Option Span)
  | custom (kind : NodeClass) (span : Option Span)
  | token (token : Token)
  | list (items : List Tree)
  | plain (value : Json)
  | foreign (value : Foreign)
  deriving Inhabited

namespace Tree

mutual

def ofJson : Json → Tree
  | .array items => .list (ofItems items)
  | value => .plain value

def ofItems : List Json → List Tree
  | [] => []
  | item :: rest => ofJson item :: ofItems rest

end

def isNode : Tree → Bool
  | .token _ => false
  | .list _ => false
  | .plain _ => false
  | .foreign _ => false
  | _ => true

def tag : Tree → String
  | .number _ _ _ => "NumberLiteral"
  | .call _ _ _ => "CallExpression"
  | .program _ _ _ => "Program"
  | .identifier _ _ => "Identifier"
  | .invoke _ _ _ => "CallExpression"
  | .statement _ _ => "ExpressionStatement"
  | .custom kind _ => kind.tag
  | .token _ => "Token"
  | .list _ => "list"
  | .plain .null => "NoneType"
  | .plain (.bool _) => "bool"
  | .plain (.number _ 0) => "int"
  | .plain (.number _ _) => "float"
  | .plain (.text _) => "str"
  | .plain (.array _) => "list"
  | .plain (.object _) => "dict"
  | .foreign value => value.tag?.getD value.typeName

def span : Tree → Option Span
  | .number _ _ span => span
  | .call _ _ span => span
  | .program _ _ span => span
  | .identifier _ span => span
  | .invoke _ _ span => span
  | .statement _ span => span
  | .custom _ span => span
  | .token t => t.span
  | .list _ => none
  | .plain _ => none
  | .foreign value => value.span

def inField : Tree → List Tree
  | .list items => items.filter isNode
  | value => [value].filter isNode

def children : Tree → List Tree
  | .call _ params _ => params.filter isNode
  | .program _ body _ => body.filter isNode
  | .invoke callee arguments _ => callee.inField ++ arguments.filter isNode
  | .statement expression _ => expression.inField
  | _ => []

mutual

def nodes : Tree → List Tree
  | .number family digits span => [.number family digits span]
  | .call name params span => .call name params span :: nodesAll params
  | .program family body span => .program family body span :: nodesAll body
  | .identifier name span => [.identifier name span]
  | .invoke callee arguments span =>
    .invoke callee arguments span :: (nodes callee ++ nodesAll arguments)
  | .statement expression span => .statement expression span :: nodes expression
  | .custom kind span => [.custom kind span]
  | .list items => nodesAll items
  | _ => []

def nodesAll : List Tree → List Tree
  | [] => []
  | value :: rest => (if value.isNode then nodes value else []) ++ nodesAll rest

end

mutual

def depth : Tree → Nat
  | .call _ params _ => depthAll params + 1
  | .program _ body _ => depthAll body
  | .invoke callee arguments _ => max (depth callee) (depthAll arguments) + 1
  | .statement expression _ => depth expression
  | .custom kind _ => if kind.tag = "CallExpression" then 1 else 0
  | .list items => depthAll items
  | _ => 0

def depthAll : List Tree → Nat
  | [] => 0
  | value :: rest => max (if value.isNode then depth value else 0) (depthAll rest)

end

def nest (family : Family) (name : String) : Nat → Tree → Tree
  | 0, inner => inner
  | count + 1, inner =>
    match family with
    | .source => nest family name count (.call name [inner] none)
    | .target => nest family name count (.invoke (.identifier name none) [inner] none)

end Tree

mutual

def Expr.toTree : Expr → Tree
  | .number digits span => .number .source digits span
  | .call name params span => .call name (Expr.toTrees params) span

def Expr.toTrees : List Expr → List Tree
  | [] => []
  | e :: rest => Expr.toTree e :: Expr.toTrees rest

end

def Program.toTree (p : Program) : Tree :=
  .program .source (Expr.toTrees p.body) p.span

end CallForms
