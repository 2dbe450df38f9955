import CallForms.Rendering
import CallForms.Source.Lexer
import CallForms.Tree.Layout

namespace CallForms

structure Compilation where
  tokens : List Token
  program : Program
  target : Tree
  code : String

namespace Source

def program (room : Nat) (s : Source) : Except Fault Program := do
  Program.parse room (← s.tokens)

def stages (room : Nat) (s : Source) : Except Fault Compilation := do
  let tokens ← s.tokens
  let program ← Program.parse room tokens
  let target ← program.toTree.lower room fun _ => none
  let code ← target.render room fun _ => none
  return ⟨tokens, program, target, code⟩

def compile (room : Nat) (s : Source) : Except Fault String := do
  let target ← (← s.program room).toTree.lower room fun _ => none
  target.render room fun _ => none

end Source

end CallForms
