namespace CallForms

structure Path where
  root : String
  names : List String
  deriving DecidableEq, Repr

namespace Path

def rootOf (text : List Char) : String :=
  match (text.takeWhile (· == '/')).length with
  | 0 => ""
  | 2 => "//"
  | _ => "/"

def ofString (text : String) : Path :=
  let names := (text.toList.splitOn '/').map String.ofList
  ⟨rootOf text.toList, names.filter fun name => name ≠ "" ∧ name ≠ "."⟩

def text (p : Path) : String :=
  if p.root = "" ∧ p.names = [] then "." else p.root ++ "/".intercalate p.names

end Path

end CallForms
