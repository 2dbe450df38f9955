import CallForms.Token

namespace CallForms

inductive Expr where
  | number (digits : String) (span : Option Span)
  | call (name : String) (params : List Expr) (span : Option Span)
  deriving Inhabited

structure Program where
  body : List Expr
  span : Option Span

namespace Expr

def span : Expr → Option Span
  | .number _ span => span
  | .call _ _ span => span

mutual

def tokens : Expr → List Token
  | .number digits _ => [⟨.number, digits, none⟩]
  | .call name params _ =>
    [⟨.paren, "(", none⟩, ⟨.name, name, none⟩] ++ tokensAll params ++ [⟨.paren, ")", none⟩]

def tokensAll : List Expr → List Token
  | [] => []
  | e :: rest => tokens e ++ tokensAll rest

end

mutual

def depth : Expr → Nat
  | .number _ _ => 0
  | .call _ params _ => depthAll params + 1

def depthAll : List Expr → Nat
  | [] => 0
  | e :: rest => max (depth e) (depthAll rest)

end

mutual

def bare : Expr → Expr
  | .number digits _ => .number digits none
  | .call name params _ => .call name (bareAll params) none

def bareAll : List Expr → List Expr
  | [] => []
  | e :: rest => bare e :: bareAll rest

end

theorem tokensAll_append (as bs : List Expr) :
    tokensAll (as ++ bs) = tokensAll as ++ tokensAll bs := by
  induction as with
  | nil => rfl
  | cons e rest ih => simp [tokensAll, ih]

theorem depthAll_append (as bs : List Expr) :
    depthAll (as ++ bs) = max (depthAll as) (depthAll bs) := by
  induction as with
  | nil => simp [depthAll]
  | cons e rest ih => simp [depthAll, ih, Nat.max_assoc]

end Expr

namespace Program

def tokens (p : Program) : List Token :=
  Expr.tokensAll p.body

def depth (p : Program) : Nat :=
  Expr.depthAll p.body

end Program

end CallForms
