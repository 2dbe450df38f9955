import CallForms.Lowering

namespace CallForms

namespace Rendering

def stage : String :=
  "code generator"

mutual

def render (overrides : Overrides) : Nat → Tree → Except Stop String
  | 0, _ => .error .tooDeep
  | levels + 1, .program .target body _ =>
    match overrides "Program" with
    | some given => .ok given
    | none => (renderAll overrides levels body).map "\n".intercalate
  | levels + 1, .statement expression _ =>
    match overrides "ExpressionStatement" with
    | some given => .ok given
    | none => (render overrides levels expression).map (· ++ ";")
  | levels + 1, .invoke callee arguments _ =>
    match overrides "CallExpression" with
    | some given => .ok given
    | none => do
      -- The arguments come first, so a stop among them comes before one in the callee.
      let arguments ← renderAll overrides levels arguments
      let callee ← render overrides levels callee
      return callee ++ "(" ++ ", ".intercalate arguments ++ ")"
  | _ + 1, .identifier name _ => .ok ((overrides "Identifier").getD name)
  | _ + 1, .number .target digits _ => .ok ((overrides "NumberLiteral").getD digits)
  | _ + 1, .custom ⟨some .target, tag, other⟩ span =>
    match overrides tag with
    | some given => .ok given
    | none => .error (.unknown (.custom ⟨some .target, tag, other⟩ span))
  | _ + 1, value => .error (.unknown value)

def renderAll (overrides : Overrides) : Nat → List Tree → Except Stop (List String)
  | _, [] => .ok []
  | levels, value :: rest => do
    let first ← render overrides levels value
    let later ← renderAll overrides levels rest
    return first :: later

end

end Rendering

def Tree.render (room : Nat) (overrides : Overrides) (root : Tree) : Except Fault String :=
  (Rendering.render overrides (levelsIn room) root).mapError
    (Stop.fault Rendering.stage root.span)

end CallForms
