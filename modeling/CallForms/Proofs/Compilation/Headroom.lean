import CallForms.Proofs.Compilation.Delimiting
import CallForms.Proofs.Compilation.Outcome
import CallForms.Proofs.Places.Independence
import CallForms.Proofs.Reader.Headroom

namespace CallForms

def Overflows {α : Type} (x : Except Fault α) : Prop :=
  ∃ f, x = .error f ∧ f.TooDeep

variable {room room' : Nat}

namespace Source

variable {s : Source} {ps : List Piece} {i j : Nat} {f : Fault}

end Source

end CallForms
