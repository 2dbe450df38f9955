namespace CallForms.Text

def lines (text : String) : List String :=
  (text.toList.splitOn '\n').map String.ofList

def line? (text : String) (number : Int) : Option String :=
  if 1 ≤ number then (lines text)[(number - 1).toNat]? else none

def unifyLineEnds : List Char → List Char
  | [] => []
  | '\r' :: '\n' :: rest => '\n' :: unifyLineEnds rest
  | c :: rest => (if c = '\r' then '\n' else c) :: unifyLineEnds rest

theorem unifyLineEnds_eq_self {text : List Char} (h : '\r' ∉ text) : unifyLineEnds text = text := by
  induction text with
  | nil => rfl
  | cons c rest ih =>
    simp only [List.mem_cons, not_or] at h
    have hc : c ≠ '\r' := fun e => h.1 e.symm
    unfold unifyLineEnds
    split <;> simp_all

end CallForms.Text
