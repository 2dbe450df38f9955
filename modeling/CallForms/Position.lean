import CallForms.Text.Quoted

namespace CallForms

-- Line and column count from one, the offset counts characters from zero.
structure Location where
  line : Int
  column : Int
  offset : Int
  file : Option String := none
  deriving DecidableEq, Repr

structure Span where
  start : Location
  stop : Location
  deriving DecidableEq, Repr

namespace Location

def fileName? (l : Location) : Option String :=
  l.file.filter (· ≠ "")

def describe (l : Location) : String :=
  match l.fileName? with
  | some name => s!"{name}:{l.line}:{l.column}"
  | none => s!"{l.line}:{l.column}"

def written (l : Location) : String :=
  let file := match l.file with
    | some name => Text.quote name
    | none => "None"
  s!"SourceLocation(line={l.line}, column={l.column}, offset={l.offset}, filename={file})"

end Location

namespace Span

def cover (first last : Span) : Span :=
  ⟨first.start, last.stop⟩

def cover? : Option Span → Option Span → Option Span
  | some first, some last => some (first.cover last)
  | _, _ => none

def behind (s : Span) : Span :=
  ⟨s.stop, s.stop⟩

def describe (s : Span) : String :=
  s!"{s.start.describe}-{s.stop.line}:{s.stop.column}"

def written (s : Span) : String :=
  s!"SourceSpan(start={s.start.written}, end={s.stop.written})"

end Span

end CallForms
