import CallForms.Json.Printer
import Mathlib.Data.List.TakeWhile

namespace CallForms

namespace Text

def hexValue (digits : List Char) : Nat :=
  digits.foldl (fun n c => 16 * n + if c.isDigit then c.toNat - 48 else c.toNat - 87) 0

theorem hexValue_append_digit {n : Nat} (hn : n < 16) (digits : List Char) :
    hexValue (digits ++ [Nat.digitChar n]) = 16 * hexValue digits + n := by
  have hdigit : ∀ n < 16, (if (Nat.digitChar n).isDigit then (Nat.digitChar n).toNat - 48
      else (Nat.digitChar n).toNat - 87) = n := by decide
  rw [hexValue, List.foldl_append, List.foldl_cons, List.foldl_nil, hdigit n hn]
  rfl

theorem hexValue_toDigits (n : Nat) : hexValue (Nat.toDigits 16 n) = n := by
  induction n using Nat.strongRecOn with
  | ind n ih =>
    by_cases hn : n < 16
    · rw [Nat.toDigits_of_lt_base hn]
      simpa [hexValue] using hexValue_append_digit hn []
    · have hle : 16 ≤ n := Nat.le_of_not_lt hn
      rw [Nat.toDigits_of_base_le (by decide) hle,
        hexValue_append_digit (Nat.mod_lt n (by decide)),
        ih (n / 16) (Nat.div_lt_self (Nat.zero_lt_of_lt hle) (by decide))]
      exact Nat.div_add_mod n 16

theorem hexValue_hexDigits (width n : Nat) : hexValue (hexDigits width n).toList = n := by
  have hzeros : ∀ count, hexValue (List.replicate count '0' ++ Nat.toDigits 16 n) = n := by
    intro count
    induction count with
    | zero => exact hexValue_toDigits n
    | succ count ih => exact ih
  rw [hexDigits, String.toList_ofList]
  exact hzeros _

theorem exists_hexDigits_four {n : Nat} (hn : n < 0x10000) :
    ∃ a b c d, (hexDigits 4 n).toList = [a, b, c, d] ∧ hexValue [a, b, c, d] = n := by
  have hlength : (hexDigits 4 n).toList.length = 4 := by
    rw [hexDigits, String.toList_ofList, List.length_leftpad, Nat.max_eq_left]
    exact (Nat.length_toDigits_le_iff (by decide) (by decide)).mpr (by omega)
  have hvalue := hexValue_hexDigits 4 n
  generalize (hexDigits 4 n).toList = digits at hlength hvalue
  match digits, hlength with
  | [a, b, c, d], _ => exact ⟨a, b, c, d, rfl, hvalue⟩

end Text

namespace Json

def letter? : Char → Option Char
  | '"' => some '"'
  | '\\' => some '\\'
  | 'n' => some '\n'
  | 'r' => some '\r'
  | 't' => some '\t'
  | 'b' => some '\x08'
  | 'f' => some '\x0c'
  | _ => none

-- The first character that a text spells, and what is left of the text.
def unspell : List Char → Option (Char × List Char)
  | '\\' :: 'u' :: a :: b :: c :: d :: rest =>
    let n := Text.hexValue [a, b, c, d]
    if 0xD800 ≤ n ∧ n < 0xDC00 then
      match rest with
      | _ :: _ :: a :: b :: c :: d :: rest =>
        some (.ofNat (0x10000 + (n - 0xD800) * 0x400 + (Text.hexValue [a, b, c, d] - 0xDC00)), rest)
      | _ => none
    else some (.ofNat n, rest)
  | '\\' :: c :: rest => (letter? c).map (·, rest)
  | c :: rest => some (c, rest)
  | [] => none

theorem toList_unit {n : Nat} (hn : n < 0x10000) : ∃ a b c d,
    (unit n).toList = ['\\', 'u', a, b, c, d] ∧ Text.hexValue [a, b, c, d] = n := by
  obtain ⟨a, b, c, d, hdigits, hvalue⟩ := Text.exists_hexDigits_four hn
  refine ⟨a, b, c, d, ?_, hvalue⟩
  rw [unit, String.toList_append, hdigits]
  rfl

theorem unspell_spelled (c : Char) (rest : List Char) :
    unspell ((spelled c).toList ++ rest) = some (c, rest) := by
  have hscalar : c.toNat < 0xD800 ∨ 0xDFFF < c.toNat ∧ c.toNat < 0x110000 := c.valid
  unfold spelled
  split
  · next h => subst h; rfl
  split
  · next h => subst h; rfl
  split
  · next h => subst h; rfl
  split
  · next h => subst h; rfl
  split
  · next h => subst h; rfl
  split
  · next h =>
    obtain rfl : c = '\x08' := Char.toNat_inj.mp h
    rfl
  split
  · next h =>
    obtain rfl : c = '\x0c' := Char.toNat_inj.mp h
    rfl
  split
  · rw [Char.toString, String.toList_singleton, List.singleton_append]
    unfold unspell
    split <;> simp_all
  split
  · next hn =>
    obtain ⟨a, b, d, e, hunit, hvalue⟩ := toList_unit hn
    rw [hunit]
    simp only [List.cons_append, List.nil_append, unspell, hvalue]
    rw [if_neg (by omega), Char.ofNat_toNat]
  · next hn =>
    obtain ⟨a, b, d, e, hfirst, hvalue⟩ :=
      toList_unit (show 0xD800 + (c.toNat - 0x10000) / 0x400 < 0x10000 by omega)
    obtain ⟨a', b', d', e', hsecond, hvalue'⟩ :=
      toList_unit (show 0xDC00 + (c.toNat - 0x10000) % 0x400 < 0x10000 by omega)
    have hsum : 0x10000 + (0xD800 + (c.toNat - 0x10000) / 0x400 - 0xD800) * 0x400 +
        (0xDC00 + (c.toNat - 0x10000) % 0x400 - 0xDC00) = c.toNat := by omega
    rw [String.toList_append, hfirst, hsecond]
    simp only [List.cons_append, List.nil_append, unspell, hvalue, hvalue', hsum]
    rw [if_pos (by omega), Char.ofNat_toNat]

def spelling (text : List Char) : List Char :=
  text.flatMap fun c => (spelled c).toList

theorem toList_string (text : String) :
    (string text).toList = '"' :: (spelling text.toList ++ ['"']) := by
  simp [string, spelling, String.toList_join, List.flatMap_map]

theorem spelled_append_ne_quote (c : Char) (rest x : List Char) :
    (spelled c).toList ++ rest ≠ '"' :: x := by
  intro h
  have hread := (unspell_spelled c rest).symm.trans (congrArg unspell h)
  obtain ⟨rfl, -⟩ := Prod.mk.inj (Option.some.inj hread)
  cases h

theorem spelling_inj {cs ds x y : List Char}
    (h : spelling cs ++ '"' :: x = spelling ds ++ '"' :: y) : cs = ds ∧ x = y := by
  induction cs generalizing ds with
  | nil =>
    cases ds with
    | nil => exact ⟨rfl, List.tail_eq_of_cons_eq h⟩
    | cons d ds =>
      rw [spelling, spelling, List.flatMap_cons, List.append_assoc] at h
      exact absurd h.symm (spelled_append_ne_quote _ _ _)
  | cons c cs ih =>
    rw [spelling, List.flatMap_cons, List.append_assoc] at h
    cases ds with
    | nil => exact absurd h (spelled_append_ne_quote _ _ _)
    | cons d ds =>
      rw [spelling, List.flatMap_cons, List.append_assoc] at h
      have hread := congrArg unspell h
      rw [unspell_spelled, unspell_spelled] at hread
      obtain ⟨rfl, hrest⟩ := Prod.mk.inj (Option.some.inj hread)
      obtain ⟨rfl, hxy⟩ := ih hrest
      exact ⟨rfl, hxy⟩

theorem string_inj {text text' : String} {x y : List Char}
    (h : (string text).toList ++ x = (string text').toList ++ y) : text = text' ∧ x = y := by
  rw [toList_string, toList_string, List.cons_append, List.cons_append, List.append_assoc,
    List.append_assoc] at h
  obtain ⟨htext, hxy⟩ := spelling_inj (List.tail_eq_of_cons_eq h)
  exact ⟨String.toList_inj.mp htext, hxy⟩

def inNumeral (c : Char) : Bool :=
  c.isDigit || c == '-' || c == '.'

-- What may stand behind a value: nothing that would go on with a number.
def Ended (rest : List Char) : Prop :=
  ∀ c ∈ rest.head?, inNumeral c = false

def sign (digits : Int) : List Char :=
  if digits < 0 then ['-'] else []

structure Spells (digits : Int) (whole point fraction : List Char) : Prop where
  ne_nil : whole ≠ []
  isDigit : ∀ c ∈ whole ++ fraction, c.isDigit = true
  value : Nat.ofDigitChars 10 (whole ++ fraction) 0 = digits.natAbs
  point : point = [] ∧ fraction = [] ∨ point = '.' :: fraction

theorem toList_toString_int (n : Int) :
    (toString n).toList = sign n ++ Nat.toDigits 10 n.natAbs := by
  rw [Int.toString_eq_repr, Int.repr_eq_if, sign]
  split
  · next hn =>
    rw [if_neg (by omega), Nat.repr_eq_ofList_toDigits, String.toList_ofList]
    congr 1
    omega
  · next hn =>
    rw [if_pos (by omega), String.toList_append, Nat.repr_eq_ofList_toDigits,
      String.toList_ofList]
    have habs : (-n).toNat = n.natAbs := by omega
    rw [habs, String.toList_ofList]

theorem exists_spells (digits : Int) (places : Nat) : ∃ whole point fraction,
    (numeral digits places).toList = sign digits ++ (whole ++ point) ∧
      fraction.length = places ∧ Spells digits whole point fraction := by
  have hdigits : ∀ c ∈ Nat.toDigits 10 digits.natAbs, c.isDigit = true := fun c hc =>
    Nat.isDigit_of_mem_toDigits (by decide) (by decide) hc
  have hvalue : Nat.ofDigitChars 10 (Nat.toDigits 10 digits.natAbs) 0 = digits.natAbs :=
    Nat.ofDigitChars_toDigits (by decide) (by decide)
  unfold numeral
  split
  · next hplaces =>
    refine ⟨Nat.toDigits 10 digits.natAbs, [], [], ?_, hplaces.symm, ?_⟩
    · rw [toList_toString_int, List.append_nil]
    · exact ⟨Nat.toDigits_ne_nil, by simpa using hdigits, by simp [hvalue], .inl ⟨rfl, rfl⟩⟩
  · have hlength : places + 1 ≤
        (List.leftpad (places + 1) '0' (Nat.toDigits 10 digits.natAbs)).length := by
      rw [List.length_leftpad]
      exact Nat.le_max_left _ _
    have hpadded : ∀ c ∈ List.leftpad (places + 1) '0' (Nat.toDigits 10 digits.natAbs),
        c.isDigit = true := by
      intro c hc
      rcases List.mem_append.mp hc with hzero | hdigit
      · rw [List.eq_of_mem_replicate hzero]
        rfl
      · exact hdigits c hdigit
    have hsame : Nat.ofDigitChars 10
        (List.leftpad (places + 1) '0' (Nat.toDigits 10 digits.natAbs)) 0 = digits.natAbs := by
      rw [List.leftpad, Nat.ofDigitChars_append, Nat.ofDigitChars_replicate_zero, Nat.mul_zero,
        hvalue]
    generalize List.leftpad (places + 1) '0' (Nat.toDigits 10 digits.natAbs) = spelled at *
    have hback : spelled.take (spelled.length - places) ++
        spelled.drop (spelled.length - places) = spelled := List.take_append_drop _ _
    refine ⟨spelled.take (spelled.length - places),
      '.' :: spelled.drop (spelled.length - places),
      spelled.drop (spelled.length - places), ?_, ?_, ?_, ?_, ?_, .inr rfl⟩
    · simp only [String.toList_append, String.toList_ofList, sign, List.append_assoc]
      split <;> rfl
    · rw [List.length_drop]
      omega
    · intro hnil
      have hzero := congrArg List.length hnil
      rw [List.length_take, List.length_nil] at hzero
      omega
    · rwa [hback]
    · rwa [hback]

namespace Spells

variable {digits : Int} {whole point fraction : List Char}

theorem inNumeral (h : Spells digits whole point fraction) :
    ∀ c ∈ sign digits ++ (whole ++ point), inNumeral c = true := by
  have hsign : ∀ c ∈ sign digits, c = '-' := by
    unfold sign
    split <;> simp
  intro c hc
  rcases List.mem_append.mp hc with hc | hc
  · rw [hsign c hc]
    rfl
  · rcases List.mem_append.mp hc with hc | hc
    · simp [Json.inNumeral, h.isDigit c (List.mem_append_left _ hc)]
    · rcases h.point with ⟨rfl, rfl⟩ | rfl
      · cases hc
      · rcases List.mem_cons.mp hc with rfl | hc
        · rfl
        · simp [Json.inNumeral, h.isDigit c (List.mem_append_right _ hc)]

theorem filter_isDigit (h : Spells digits whole point fraction) :
    (sign digits ++ (whole ++ point)).filter Char.isDigit = whole ++ fraction := by
  have hsign : (sign digits).filter Char.isDigit = [] := by
    unfold sign
    split <;> rfl
  have hpoint : point.filter Char.isDigit = fraction.filter Char.isDigit := by
    rcases h.point with ⟨rfl, rfl⟩ | rfl
    · rfl
    · rfl
  rw [List.filter_append, List.filter_append, hsign, hpoint, List.nil_append,
    ← List.filter_append, List.filter_eq_self]
  exact h.isDigit

theorem head?_eq_iff (h : Spells digits whole point fraction) :
    (sign digits ++ (whole ++ point)).head? = some '-' ↔ digits < 0 := by
  unfold sign
  split
  · next hneg => simp [hneg]
  · next hneg =>
    obtain ⟨c, rest, rfl⟩ := List.exists_cons_of_ne_nil h.ne_nil
    have hdigit := h.isDigit c (by simp)
    refine iff_of_false ?_ hneg
    rintro ⟨⟩
    cases hdigit

theorem behind_point (h : Spells digits whole point fraction) :
    ((sign digits ++ (whole ++ point)).dropWhile (· ≠ '.')).tail = fraction := by
  have hfront : ∀ c ∈ sign digits ++ whole, decide (c ≠ '.') = true := by
    intro c hc
    rw [decide_eq_true_iff]
    rintro rfl
    rcases List.mem_append.mp hc with hc | hc
    · unfold sign at hc
      split at hc <;> simp at hc
    · cases h.isDigit '.' (List.mem_append_left _ hc)
  rw [← List.append_assoc, List.dropWhile_append_of_pos hfront]
  rcases h.point with ⟨rfl, rfl⟩ | rfl
  · rfl
  · rfl

end Spells

def readNumeral (text : List Char) : (Int × Nat) × List Char :=
  let spelled := text.takeWhile inNumeral
  let value : Int := Nat.ofDigitChars 10 (spelled.filter Char.isDigit) 0
  ((if spelled.head? = some '-' then -value else value,
    (spelled.dropWhile (· ≠ '.')).tail.length), text.dropWhile inNumeral)

theorem readNumeral_numeral (digits : Int) (places : Nat) {rest : List Char} (h : Ended rest) :
    readNumeral ((numeral digits places).toList ++ rest) = ((digits, places), rest) := by
  obtain ⟨whole, point, fraction, htext, hplaces, hspells⟩ := exists_spells digits places
  have hrest : rest.takeWhile inNumeral = [] ∧ rest.dropWhile inNumeral = rest := by
    cases rest with
    | nil => exact ⟨rfl, rfl⟩
    | cons c rest =>
      have hc : ¬ inNumeral c = true := by simp [h c rfl]
      exact ⟨List.takeWhile_cons_of_neg hc, List.dropWhile_cons_of_neg hc⟩
  have hvalue : (if digits < 0 then -(digits.natAbs : Int) else digits.natAbs) = digits := by
    omega
  simp only [readNumeral, htext, List.takeWhile_append_of_pos hspells.inNumeral,
    List.dropWhile_append_of_pos hspells.inNumeral, hrest, List.append_nil,
    hspells.filter_isDigit, hspells.value, hspells.head?_eq_iff, hspells.behind_point, hvalue,
    hplaces]

theorem numeral_inj {m n : Int} {p q : Nat} {x y : List Char} (hx : Ended x) (hy : Ended y)
    (h : (numeral m p).toList ++ x = (numeral n q).toList ++ y) : (m = n ∧ p = q) ∧ x = y := by
  have hread := congrArg readNumeral h
  rw [readNumeral_numeral m p hx, readNumeral_numeral n q hy] at hread
  simpa using hread

end Json

end CallForms
