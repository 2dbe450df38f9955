import CallForms.Fault
import CallForms.Source.Cursor
import CallForms.Text.Blank
import CallForms.Text.Lines

namespace CallForms

structure Source where
  text : String
  file : Option String := none
  deriving DecidableEq, Repr

namespace Source

inductive Scan where
  | token (token : Token) (next : Cursor)
  | fault (fault : Fault) (next : Cursor)
  | done (next : Cursor)

def lines (s : Source) : List String :=
  Text.lines s.text

def line? (s : Source) (number : Int) : Option String :=
  Text.line? s.text number

def span (s : Source) (start stop : Cursor) : Span :=
  ⟨start.spot.location s.file, stop.spot.location s.file⟩

def runToken (s : Source) (kind : Token.Kind) (p : Char → Bool) (c : Cursor) : Scan :=
  .token ⟨kind, String.ofList (c.run p), some (s.span c (c.skip p))⟩ (c.skip p)

def unrecognized (s : Source) (char : Char) (start stop : Cursor) : Fault :=
  ⟨.unrecognizedCharacter char.toString (some (start.spot.location s.file)),
    some (s.span start stop), s.line? start.spot.line⟩

def scanHere (s : Source) (c : Cursor) : Scan :=
  match c.rest with
  | [] => .done c
  | char :: rest =>
    let next : Cursor := ⟨c.spot.past char, rest⟩
    if char = '(' ∨ char = ')' then .token ⟨.paren, char.toString, some (s.span c next)⟩ next
    else if char.isDigit then s.runToken .number Char.isDigit c
    else if char.isAlpha then s.runToken .name Char.isAlpha c
    else .fault (s.unrecognized char c next) next

def scan (s : Source) (c : Cursor) : Scan :=
  s.scanHere (c.skip Text.isBlank)

theorem length_rest_lt_of_scanHere {s : Source} {c next : Cursor} {t : Token}
    (h : s.scanHere c = .token t next) : next.rest.length < c.rest.length := by
  unfold scanHere at h
  split at h
  · cases h
  · rename_i char rest hrest
    simp only at h
    split at h
    · cases h
      simp [hrest]
    · split at h
      · rename_i hd
        cases h
        exact Cursor.length_rest_skip_lt hrest hd
      · split at h
        · rename_i ha
          cases h
          exact Cursor.length_rest_skip_lt hrest ha
        · cases h

theorem length_rest_lt_of_scan {s : Source} {c next : Cursor} {t : Token}
    (h : s.scan c = .token t next) : next.rest.length < c.rest.length :=
  Nat.lt_of_lt_of_le (length_rest_lt_of_scanHere h) (Cursor.length_rest_skip_le c _)

def tokensFrom (s : Source) (c : Cursor) : Except Fault (List Token) :=
  match _h : s.scan c with
  | .done _ => .ok []
  | .fault fault _ => .error fault
  | .token t next => (s.tokensFrom next).map (t :: ·)
termination_by c.rest.length
decreasing_by exact length_rest_lt_of_scan _h

def tokens (s : Source) : Except Fault (List Token) :=
  s.tokensFrom (.ofText s.text)

end Source

end CallForms
