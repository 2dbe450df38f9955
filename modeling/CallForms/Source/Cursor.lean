import CallForms.Position

namespace CallForms

structure Spot where
  offset : Nat
  line : Nat
  column : Nat
  deriving DecidableEq, Repr

namespace Spot

def start : Spot :=
  ⟨0, 1, 1⟩

def past (s : Spot) (c : Char) : Spot :=
  if c = '\n' then ⟨s.offset + 1, s.line + 1, 1⟩ else ⟨s.offset + 1, s.line, s.column + 1⟩

def after (s : Spot) (text : List Char) : Spot :=
  text.foldl past s

def location (s : Spot) (file : Option String) : Location :=
  ⟨s.line, s.column, s.offset, file⟩

theorem after_append (s : Spot) (a b : List Char) : s.after (a ++ b) = (s.after a).after b := by
  simp [after]

end Spot

structure Cursor where
  spot : Spot
  rest : List Char
  deriving DecidableEq, Repr

namespace Cursor

def ofText (text : String) : Cursor :=
  ⟨.start, text.toList⟩

def next? (c : Cursor) : Option (Char × Cursor) :=
  match c.rest with
  | [] => none
  | char :: rest => some (char, ⟨c.spot.past char, rest⟩)

def run (c : Cursor) (p : Char → Bool) : List Char :=
  c.rest.takeWhile p

def skip (c : Cursor) (p : Char → Bool) : Cursor :=
  ⟨c.spot.after (c.run p), c.rest.dropWhile p⟩

theorem run_append_rest (c : Cursor) (p : Char → Bool) : c.run p ++ (c.skip p).rest = c.rest :=
  List.takeWhile_append_dropWhile

theorem length_rest_skip_le (c : Cursor) (p : Char → Bool) :
    (c.skip p).rest.length ≤ c.rest.length := by
  rw [← run_append_rest c p, List.length_append]
  omega

theorem length_rest_skip_lt {c : Cursor} {p : Char → Bool} {char : Char} {rest : List Char}
    (h : c.rest = char :: rest) (hp : p char = true) :
    (c.skip p).rest.length < c.rest.length := by
  have hle : (rest.dropWhile p).length ≤ rest.length := (List.dropWhile_suffix p).length_le
  simp only [skip, h, List.dropWhile_cons, hp, if_true, List.length_cons]
  omega

end Cursor

end CallForms
