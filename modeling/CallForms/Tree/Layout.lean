import CallForms.Text.Repeated
import CallForms.Tree.Basic

namespace CallForms.Tree

mutual

def toJson : Tree → Json
  | .number _ digits _ => .object [("type", .text "NumberLiteral"), ("value", .text digits)]
  | .call name params _ =>
    .object [("type", .text "CallExpression"), ("name", .text name),
      ("params", .array (toJsonAll params))]
  | .program _ body _ => .object [("type", .text "Program"), ("body", .array (toJsonAll body))]
  | .identifier name _ => .object [("type", .text "Identifier"), ("name", .text name)]
  | .invoke callee arguments _ =>
    .object [("type", .text "CallExpression"), ("callee", toJson callee),
      ("arguments", .array (toJsonAll arguments))]
  | .statement expression _ =>
    .object [("type", .text "ExpressionStatement"), ("expression", toJson expression)]
  | .custom kind _ => .object [("type", .text kind.tag)]
  | .token t => t.toJson
  | .list items => .array (toJsonAll items)
  | .plain value => value
  | .foreign value => .text value.written

def toJsonAll : List Tree → List Json
  | [] => []
  | value :: rest => toJson value :: toJsonAll rest

end

mutual

def written : Tree → String
  | .number _ digits _ => s!"NumberLiteral(value={Text.quote digits})"
  | .call name params _ => s!"CallExpression(name={Text.quote name}, params={writtenList params})"
  | .program _ body _ => s!"Program(body={writtenList body})"
  | .identifier name _ => s!"Identifier(name={Text.quote name})"
  | .invoke callee arguments _ =>
    s!"CallExpression(callee={written callee}, arguments={writtenList arguments})"
  | .statement expression _ => s!"ExpressionStatement(expression={written expression})"
  | .custom kind _ => s!"{kind.tag}()"
  | .token t => t.written
  | .list items => writtenList items
  | .plain value => value.written
  | .foreign value => value.written

def writtenList : List Tree → String
  | [] => "[]"
  | value :: rest => "[" ++ written value ++ writtenRest rest

def writtenRest : List Tree → String
  | [] => "]"
  | value :: rest => ", " ++ written value ++ writtenRest rest

end

def outlineLine (level : Int) (inside : Nat) (text : String) : String :=
  "".pushn ' ' (2 * level.toNat + 2 * inside) ++ text

def outlineField (level : Int) (name : String) (inner : List String) (value : Tree) : List String :=
  match value with
  | .list _ => outlineLine level 1 s!"{name}: [" :: (inner ++ [outlineLine level 1 "]"])
  | .token t => [outlineLine level 1 s!"{name}: {t.written}"]
  | .plain json => [outlineLine level 1 s!"{name}: {json.written}"]
  | .foreign object => [outlineLine level 1 s!"{name}: {object.written}"]
  | _ => outlineLine level 1 s!"{name}:" :: inner

mutual

def outline (level : Int) : Tree → List String
  | .number _ digits _ =>
    [outlineLine level 0 "NumberLiteral", outlineLine level 1 s!"value: {Text.quote digits}"]
  | .call name params _ =>
    outlineLine level 0 "CallExpression" :: outlineLine level 1 s!"name: {Text.quote name}" ::
      outlineField level "params" (outlineAll level params) (.list params)
  | .program _ body _ =>
    outlineLine level 0 "Program" :: outlineField level "body" (outlineAll level body) (.list body)
  | .identifier name _ =>
    [outlineLine level 0 "Identifier", outlineLine level 1 s!"name: {Text.quote name}"]
  | .invoke callee arguments _ =>
    outlineLine level 0 "CallExpression" ::
      (outlineField level "callee" (outline (level + 2) callee) callee ++
        outlineField level "arguments" (outlineAll level arguments) (.list arguments))
  | .statement expression _ =>
    outlineLine level 0 "ExpressionStatement" ::
      outlineField level "expression" (outline (level + 2) expression) expression
  | .custom kind _ => [outlineLine level 0 kind.tag]
  | .list items => outlineAll (level - 2) items
  | _ => []

def outlineAll (level : Int) : List Tree → List String
  | [] => []
  | value :: rest =>
    (if value.isNode then outline (level + 2) value else [outlineLine level 2 value.written]) ++
      outlineAll level rest

end

def outline? (level : Int) (root : Tree) : Except Text.Oversize (List String) :=
  match Text.Oversize.check 2 level with
  | some oversize => .error oversize
  | none => .ok (root.outline level)

end CallForms.Tree
