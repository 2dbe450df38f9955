import CallForms.Tree.Basic

namespace CallForms.Tree

mutual

def same : Tree → Tree → Bool
  | .number family digits _, .number family' digits' _ => family == family' && digits == digits'
  | .call name params _, .call name' params' _ => name == name' && sameAll params params'
  | .program family body _, .program family' body' _ => family == family' && sameAll body body'
  | .identifier name _, .identifier name' _ => name == name'
  | .invoke callee arguments _, .invoke callee' arguments' _ =>
    same callee callee' && sameAll arguments arguments'
  | .statement expression _, .statement expression' _ => same expression expression'
  | .custom kind _, .custom kind' _ => kind == kind'
  | .token t, .token t' => t.same t'
  | .list items, .list items' => sameAll items items'
  | .plain value, .plain value' => value.same value'
  | .foreign value, .foreign value' => value == value'
  | _, _ => false

def sameAll : List Tree → List Tree → Bool
  | [], [] => true
  | value :: rest, value' :: rest' => same value value' && sameAll rest rest'
  | _, _ => false

end

end CallForms.Tree
