import CallForms.Json.Basic
import CallForms.Position

namespace CallForms

inductive Token.Kind where
  | paren
  | name
  | number
  deriving DecidableEq, Repr

structure Token where
  kind : Token.Kind
  text : String
  span : Option Span := none
  deriving DecidableEq, Repr

namespace Token

def Kind.word : Kind → String
  | .paren => "paren"
  | .name => "name"
  | .number => "number"

def Kind.label : Kind → String
  | .paren => "PAREN"
  | .name => "NAME"
  | .number => "NUMBER"

def Kind.rank : Kind → Nat
  | .paren => 1
  | .name => 2
  | .number => 3

def Kind.all : List Kind :=
  [.paren, .name, .number]

def Kind.ofLabel? (label : String) : Option Kind :=
  Kind.all.find? (·.label == label)

def isOpen (t : Token) : Bool :=
  t.kind == .paren && t.text == "("

def isClose (t : Token) : Bool :=
  t.kind == .paren && t.text == ")"

def same (a b : Token) : Bool :=
  a.kind == b.kind && a.text == b.text

def bare (t : Token) : Token :=
  ⟨t.kind, t.text, none⟩

theorem same_iff {a b : Token} : a.same b = true ↔ a.bare = b.bare := by
  simp [same, bare]

def brief (t : Token) : String :=
  s!"{t.kind.label}({Text.quote t.text})"

def written (t : Token) : String :=
  s!"Token(type=<TokenType.{t.kind.label}: {t.kind.rank}>, value={Text.quote t.text})"

def describe : Option Token → String
  | none => "end of input"
  | some t => s!"{t.kind.word} '{t.text}'"

def toJson (t : Token) : Json :=
  .object [("type", .text t.kind.word), ("value", .text t.text)]

end Token

end CallForms
