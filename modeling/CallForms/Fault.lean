import CallForms.Diagnostic.Basic
import CallForms.Tree.Basic

namespace CallForms

inductive Cause where
  | unrecognizedCharacter (char : String) (location : Option Location)
  | unexpectedToken (expected : String) (found : Option Token)
  | missingCallName (found : Option Token)
  | unknownNode (stage : String) (value : Tree)
  | nestingTooDeep (stage : String)

namespace Cause

def code : Cause → String
  | .unrecognizedCharacter _ _ => "E001"
  | .unexpectedToken _ _ => "E101"
  | .missingCallName _ => "E102"
  | .unknownNode _ _ => "E201"
  | .nestingTooDeep _ => "E301"

def message : Cause → String
  | .unrecognizedCharacter char _ => s!"unrecognized character '{char}'"
  | .unexpectedToken expected found => s!"expected {expected}, found {Token.describe found}"
  | .missingCallName found => s!"expected call name after '(', found {Token.describe found}"
  | .unknownNode stage value => s!"{stage}: unknown node type '{value.tag}'"
  | .nestingTooDeep stage => s!"{stage}: calls nested too deeply"

def hints : Cause → List String
  | .unrecognizedCharacter _ _ =>
    ["only parentheses, ASCII letters, ASCII digits and whitespace are allowed"]
  | .missingCallName _ => ["a call is written as (name arg ...)"]
  | .nestingTooDeep _ => ["split the expression into several top-level calls"]
  | _ => []

end Cause

structure Fault where
  cause : Cause
  span : Option Span
  sourceLine : Option String := none

namespace Fault

def unknownNode (stage : String) (value : Tree) : Fault :=
  ⟨.unknownNode stage value, value.span, none⟩

def diagnostic (f : Fault) : Diagnostic :=
  ⟨f.cause.code, f.cause.message, .error, f.span, f.sourceLine, f.cause.hints⟩

end Fault

end CallForms
