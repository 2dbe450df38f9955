import CallForms.Text.Quoted

namespace CallForms

-- A number is its digits and how many of them stand behind the point.
inductive Json where
  | null
  | bool (value : Bool)
  | number (digits : Int) (places : Nat)
  | text (value : String)
  | array (items : List Json)
  | object (fields : List (String × Json))
  deriving Inhabited

namespace Json

def int (value : Int) : Json :=
  .number value 0

def numeral (digits : Int) (places : Nat) : String :=
  if places = 0 then toString digits
  else
    let spelled := List.leftpad (places + 1) '0' (Nat.toDigits 10 digits.natAbs)
    let whole := spelled.take (spelled.length - places)
    let fraction := spelled.drop (spelled.length - places)
    (if digits < 0 then "-" else "") ++ String.ofList whole ++ "." ++ String.ofList fraction

def numeric? : Json → Option (Int × Nat)
  | .number digits places => some (digits, places)
  | .bool value => some (if value then 1 else 0, 0)
  | _ => none

def sameNumber (a b : Json) : Bool :=
  match a.numeric?, b.numeric? with
  | some (m, p), some (n, q) => m * Int.pow 10 q == n * Int.pow 10 p
  | _, _ => false

mutual

def same : Json → Json → Bool
  | .null, .null => true
  | .text a, .text b => a == b
  | .array a, .array b => sameItems a b
  | .object a, .object b => a.length == b.length && sameFields a b
  | a, b => a.sameNumber b

def sameItems : List Json → List Json → Bool
  | [], [] => true
  | a :: as, b :: bs => same a b && sameItems as bs
  | _, _ => false

def sameFields : List (String × Json) → List (String × Json) → Bool
  | [], _ => true
  | (name, a) :: rest, fields =>
    (match fields.lookup name with
      | some b => same a b
      | none => false) && sameFields rest fields

end

mutual

def written : Json → String
  | .null => "None"
  | .bool value => if value then "True" else "False"
  | .number digits places => numeral digits places
  | .text value => Text.quote value
  | .array items => "[" ++ ", ".intercalate (writtenItems items) ++ "]"
  | .object fields => "\x7b" ++ ", ".intercalate (writtenFields fields) ++ "\x7d"

def writtenItems : List Json → List String
  | [] => []
  | item :: rest => written item :: writtenItems rest

def writtenFields : List (String × Json) → List String
  | [] => []
  | (name, value) :: rest => (Text.quote name ++ ": " ++ written value) :: writtenFields rest

end

end Json

end CallForms
