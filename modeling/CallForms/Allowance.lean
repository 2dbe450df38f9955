namespace CallForms

def assuredNesting : Nat :=
  200

def refusedNesting : Nat :=
  5000

-- The frames of the stack that a stage may count on, and those that it cannot have.
structure Allowance where
  room : Nat
  assured : 4 * assuredNesting + 8 ≤ room
  limited : room < 2 * refusedNesting

def Allowance.usual : Allowance :=
  ⟨990, by decide, by decide⟩

end CallForms
