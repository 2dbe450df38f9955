import CallForms.Json.Basic
import CallForms.Position
import CallForms.Text.Repeated

namespace CallForms

inductive Severity where
  | error
  | warning
  | info
  | hint
  deriving DecidableEq, Repr

namespace Severity

def word : Severity → String
  | .error => "error"
  | .warning => "warning"
  | .info => "info"
  | .hint => "hint"

def all : List Severity :=
  [.error, .warning, .info, .hint]

def ofJson? : Json → Option Severity
  | .text word => all.find? (·.word == word)
  | _ => none

def refusal (value : Json) : String :=
  s!"{value.written} is not a valid ErrorSeverity"

end Severity

structure Diagnostic where
  code : String
  message : String
  severity : Severity
  span : Option Span := none
  sourceLine : Option String := none
  hints : List String := []
  deriving DecidableEq, Repr

namespace Diagnostic

def header (d : Diagnostic) : String :=
  let body := s!"{d.severity.word}[{d.code}]: {d.message}"
  match d.span with
  | some span => s!"{span.start.describe}: {body}"
  | none => body

def endColumn (span : Span) (line : String) : Int :=
  if span.start.line = span.stop.line then span.stop.column else line.length + 1

def indent (span : Span) : Int :=
  span.start.column - 1

def width (span : Span) (line : String) : Int :=
  max 1 (endColumn span line - span.start.column)

def carets (span : Span) (line : String) : String :=
  "".pushn ' ' (indent span).toNat ++ "".pushn '^' (width span line).toNat

def gutter (span : Span) : String :=
  String.ofList (List.leftpad 3 ' ' (toString span.start.line).toList) ++ " | "

def excerpt (span : Span) (line : String) : List String :=
  ["  |", gutter span ++ line, "    | " ++ carets span line]

def advice (d : Diagnostic) : List String :=
  d.hints.map ("    = hint: " ++ ·)

def shown? (d : Diagnostic) (showSource : Bool) : Option (Span × String) :=
  match showSource, d.span, d.sourceLine with
  | true, some span, some line => some (span, line)
  | _, _, _ => none

def lines (d : Diagnostic) (showSource : Bool) : List String :=
  let excerpts := match d.shown? showSource with
    | some (span, line) => excerpt span line
    | none => []
  d.header :: (excerpts ++ d.advice)

def format (d : Diagnostic) (showSource : Bool := true) : String :=
  "\n".intercalate (d.lines showSource)

def oversize? (d : Diagnostic) (showSource : Bool) : Option Text.Oversize :=
  match d.shown? showSource with
  | some (span, line) =>
    (Text.Oversize.check 1 (indent span)).or (Text.Oversize.check 1 (width span line))
  | none => none

def format? (d : Diagnostic) (showSource : Bool := true) : Except Text.Oversize String :=
  match d.oversize? showSource with
  | some oversize => .error oversize
  | none => .ok (d.format showSource)

def locationJson (l : Location) : Json :=
  .object [("line", .int l.line), ("column", .int l.column), ("offset", .int l.offset)]

def rangeJson : Option Span → Json
  | none => .null
  | some span => .object [("start", locationJson span.start), ("end", locationJson span.stop)]

def toJson (d : Diagnostic) : Json :=
  let file := match d.span.bind (·.start.fileName?) with
    | some name => [("file", Json.text name)]
    | none => []
  .object ([("code", .text d.code), ("message", .text d.message),
    ("severity", .text d.severity.word), ("range", rangeJson d.span),
    ("hints", .array (d.hints.map .text))] ++ file)

end Diagnostic

end CallForms
