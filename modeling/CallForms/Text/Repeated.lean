namespace CallForms.Text

inductive Oversize where
  | count
  | length
  | memory
  deriving DecidableEq, Repr

namespace Oversize

def message : Oversize → String
  | .count => "cannot fit 'int' into an index-sized integer"
  | .length => "repeated string is too long"
  | .memory => ""

def indexLimit : Int :=
  .pow 2 63

def memoryLimit : Int :=
  .pow 2 32

def check (width : Nat) (count : Int) : Option Oversize :=
  if count < -indexLimit ∨ indexLimit ≤ count then some .count
  else if indexLimit ≤ width * count then some .length
  else if memoryLimit < width * count then some .memory
  else none

end Oversize

end CallForms.Text
