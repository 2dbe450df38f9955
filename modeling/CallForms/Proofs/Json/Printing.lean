import CallForms.Proofs.Json.Spelling

namespace CallForms

namespace Json

inductive Kind where
  | null
  | truth
  | falsity
  | number
  | text
  | array
  | object

def kind : Json → Kind
  | .null => .null
  | .bool true => .truth
  | .bool false => .falsity
  | .number _ _ => .number
  | .text _ => .text
  | .array _ => .array
  | .object _ => .object

def opens (c : Char) : Kind :=
  if inNumeral c then .number
  else if c = 'n' then .null
  else if c = 't' then .truth
  else if c = 'f' then .falsity
  else if c = '"' then .text
  else if c = '[' then .array
  else .object

def further (closing : List Char) (d : Nat) : List String → List Char
  | [] => (lineBreak d).toList ++ closing
  | entry :: rest =>
    ',' :: ((lineBreak (d + 1)).toList ++ (entry.toList ++ further closing d rest))

def listing (closing : List Char) (d : Nat) : List String → List Char
  | [] => closing
  | entry :: rest => (lineBreak (d + 1)).toList ++ (entry.toList ++ further closing d rest)

theorem toList_intercalate_further (closing : String) (d : Nat) (entry : String)
    (rest : List String) :
    (("," ++ lineBreak (d + 1)).intercalate (entry :: rest) ++ lineBreak d ++ closing).toList =
      entry.toList ++ further closing.toList d rest := by
  induction rest generalizing entry with
  | nil => simp [further]
  | cons next rest ih =>
    rw [further, ← ih next, String.intercalate_cons_cons]
    simp [List.append_assoc]

theorem toList_bracketed (opening closing : String) (d : Nat) (entries : List String) :
    (bracketed opening closing d entries).toList =
      opening.toList ++ listing closing.toList d entries := by
  cases entries with
  | nil => simp [bracketed, listing]
  | cons entry rest =>
    rw [listing, ← toList_intercalate_further]
    simp [bracketed, List.append_assoc]

theorem lineBreak_eq_cons (d : Nat) : ∃ rest, (lineBreak d).toList = '\n' :: rest := by
  simp [lineBreak]

section Entries

variable {α : Type} {text : α → String} {as bs : List α} {d : Nat} {x y closing : List Char}

def Fixes (text : α → String) (a : α) : Prop :=
  ∀ (b : α) (x y : List Char), Ended x → Ended y →
    (text a).toList ++ x = (text b).toList ++ y → a = b ∧ x = y

theorem ended_further (entries : List String) : Ended (further closing d entries ++ x) := by
  cases entries with
  | nil =>
    obtain ⟨rest, hrest⟩ := lineBreak_eq_cons d
    rw [further, hrest]
    rintro c ⟨⟩
    rfl
  | cons entry rest =>
    rintro c ⟨⟩
    rfl

theorem further_inj (hfixes : ∀ a ∈ as, Fixes text a)
    (h : further closing d (as.map text) ++ x = further closing d (bs.map text) ++ y) :
    as = bs ∧ x = y := by
  obtain ⟨rest, hrest⟩ := lineBreak_eq_cons d
  induction as generalizing bs with
  | nil =>
    cases bs with
    | nil => exact ⟨rfl, List.append_cancel_left h⟩
    | cons b bs =>
      rw [List.map_nil, further, hrest] at h
      cases h
  | cons a as ih =>
    cases bs with
    | nil =>
      rw [List.map_nil, List.map_cons, further, further, hrest] at h
      cases h
    | cons b bs =>
      rw [List.map_cons, List.map_cons, further, further, List.cons_append, List.cons_append] at h
      have hentries := List.tail_eq_of_cons_eq h
      rw [List.append_assoc, List.append_assoc, List.append_assoc, List.append_assoc] at hentries
      obtain ⟨rfl, hlater⟩ := hfixes a (by simp) b _ _ (ended_further _) (ended_further _)
        (List.append_cancel_left hentries)
      obtain ⟨rfl, hxy⟩ := ih (fun c hc => hfixes c (by simp [hc])) hlater
      exact ⟨rfl, hxy⟩

theorem listing_inj (hclosing : closing.head? ≠ some '\n') (hne : closing ≠ [])
    (hfixes : ∀ a ∈ as, Fixes text a)
    (h : listing closing d (as.map text) ++ x = listing closing d (bs.map text) ++ y) :
    as = bs ∧ x = y := by
  obtain ⟨rest, hrest⟩ := lineBreak_eq_cons (d + 1)
  obtain ⟨c, closing, rfl⟩ := List.exists_cons_of_ne_nil hne
  cases as with
  | nil =>
    cases bs with
    | nil => exact ⟨rfl, List.append_cancel_left h⟩
    | cons b bs =>
      rw [List.map_nil, listing, List.map_cons, listing, hrest] at h
      exact absurd (congrArg some (List.head_eq_of_cons_eq h)) hclosing
  | cons a as =>
    cases bs with
    | nil =>
      rw [List.map_nil, listing, List.map_cons, listing, hrest] at h
      exact absurd (congrArg some (List.head_eq_of_cons_eq h.symm)) hclosing
    | cons b bs =>
      rw [List.map_cons, List.map_cons, listing, listing] at h
      rw [List.append_assoc, List.append_assoc, List.append_assoc, List.append_assoc] at h
      obtain ⟨rfl, hlater⟩ := hfixes a (by simp) b _ _ (ended_further _) (ended_further _)
        (List.append_cancel_left h)
      obtain ⟨rfl, hxy⟩ := further_inj (fun c hc => hfixes c (by simp [hc])) hlater
      exact ⟨rfl, hxy⟩

end Entries

theorem prettyItems_eq_map (d : Nat) (items : List Json) :
    prettyItems d items = items.map (prettyAt d) := by
  induction items with
  | nil => simp [prettyItems]
  | cons item rest ih => rw [prettyItems, ih, List.map_cons]

def prettyField (d : Nat) (field : String × Json) : String :=
  string field.1 ++ ": " ++ prettyAt d field.2

theorem prettyFields_eq_map (d : Nat) (fields : List (String × Json)) :
    prettyFields d fields = fields.map (prettyField d) := by
  induction fields with
  | nil => simp [prettyFields]
  | cons field rest ih => rw [prettyFields, ih, List.map_cons, prettyField]

theorem prettyField_fixes {d : Nat} {name : String} {value : Json}
    (h : Fixes (prettyAt d) value) : Fixes (prettyField d) (name, value) := by
  rintro ⟨name', value'⟩ x y hx hy hxy
  rw [prettyField, prettyField] at hxy
  simp only [String.toList_append, List.append_assoc] at hxy
  obtain ⟨rfl, hvalue⟩ := string_inj hxy
  obtain ⟨rfl, hrest⟩ := h value' x y hx hy (List.append_cancel_left hvalue)
  exact ⟨rfl, hrest⟩

theorem prettyAt_eq_cons (d : Nat) (value : Json) :
    ∃ c rest, (prettyAt d value).toList = c :: rest ∧ opens c = value.kind := by
  cases value with
  | null => exact ⟨'n', "ull".toList, by rw [prettyAt]; rfl, rfl⟩
  | bool value =>
    cases value with
    | true => exact ⟨'t', "rue".toList, by rw [prettyAt]; rfl, rfl⟩
    | false => exact ⟨'f', "alse".toList, by rw [prettyAt]; rfl, rfl⟩
  | number digits places =>
    obtain ⟨whole, point, fraction, htext, -, hspells⟩ := exists_spells digits places
    obtain ⟨c, rest, hcons⟩ := List.exists_cons_of_ne_nil
      (List.append_ne_nil_of_right_ne_nil (sign digits)
        (List.append_ne_nil_of_left_ne_nil hspells.ne_nil point))
    refine ⟨c, rest, by rw [prettyAt, htext, hcons], ?_⟩
    rw [opens, if_pos (hspells.inNumeral c (by simp [hcons]))]
    rfl
  | text value => exact ⟨_, _, by rw [prettyAt, toList_string], rfl⟩
  | array items => exact ⟨_, _, by rw [prettyAt, toList_bracketed]; rfl, rfl⟩
  | object fields => exact ⟨_, _, by rw [prettyAt, toList_bracketed]; rfl, rfl⟩

inductive OfOneKind : Json → Json → Prop
  | null : OfOneKind .null .null
  | bool (value : Bool) : OfOneKind (.bool value) (.bool value)
  | number (m n : Int) (p q : Nat) : OfOneKind (.number m p) (.number n q)
  | text (value value' : String) : OfOneKind (.text value) (.text value')
  | array (items items' : List Json) : OfOneKind (.array items) (.array items')
  | object (fields fields' : List (String × Json)) : OfOneKind (.object fields) (.object fields')

theorem ofOneKind_of_kind_eq {a b : Json} (h : a.kind = b.kind) : OfOneKind a b := by
  rcases a with _ | (_ | _) | _ | _ | _ | _ <;> rcases b with _ | (_ | _) | _ | _ | _ | _ <;>
    first | constructor | cases h

theorem ofOneKind_of_prettyAt {d : Nat} {a b : Json} {x y : List Char}
    (h : (prettyAt d a).toList ++ x = (prettyAt d b).toList ++ y) : OfOneKind a b := by
  obtain ⟨c, rest, ha, hc⟩ := prettyAt_eq_cons d a
  obtain ⟨c', rest', hb, hc'⟩ := prettyAt_eq_cons d b
  rw [ha, hb] at h
  obtain rfl := List.head_eq_of_cons_eq h
  exact ofOneKind_of_kind_eq (hc.symm.trans hc')

@[induction_eliminator]
theorem induction {P : Json → Prop} (null : P .null) (bool : ∀ value, P (.bool value))
    (number : ∀ digits places, P (.number digits places)) (text : ∀ value, P (.text value))
    (array : ∀ items, (∀ item ∈ items, P item) → P (.array items))
    (object : ∀ fields, (∀ field ∈ fields, P field.2) → P (.object fields)) : ∀ value, P value
  | .null => null
  | .bool value => bool value
  | .number digits places => number digits places
  | .text value => text value
  | .array items => array items fun item _ => induction null bool number text array object item
  | .object fields =>
    object fields fun (name, value) hfield =>
      have hsmaller : sizeOf value < 1 + sizeOf fields := by
        have hmem := List.sizeOf_lt_of_mem hfield
        rw [Prod.mk.sizeOf_spec] at hmem
        omega
      induction null bool number text array object value

-- The first character of a value's text tells its kind, so only values of one kind are compared.
theorem prettyAt_fixes (value : Json) : ∀ d, Fixes (prettyAt d) value := by
  induction value with
  | null =>
    intro d b x y _ _ h
    cases ofOneKind_of_prettyAt h
    exact ⟨rfl, List.append_cancel_left h⟩
  | bool value =>
    intro d b x y _ _ h
    cases ofOneKind_of_prettyAt h
    exact ⟨rfl, List.append_cancel_left h⟩
  | number m p =>
    intro d b x y hx hy h
    cases ofOneKind_of_prettyAt h
    rw [prettyAt, prettyAt] at h
    obtain ⟨⟨rfl, rfl⟩, hxy⟩ := numeral_inj hx hy h
    exact ⟨rfl, hxy⟩
  | text value =>
    intro d b x y _ _ h
    cases ofOneKind_of_prettyAt h
    rw [prettyAt, prettyAt] at h
    obtain ⟨rfl, hxy⟩ := string_inj h
    exact ⟨rfl, hxy⟩
  | array items ih =>
    intro d b x y _ _ h
    cases ofOneKind_of_prettyAt h
    rw [prettyAt, prettyAt, toList_bracketed, toList_bracketed, List.append_assoc,
      List.append_assoc, prettyItems_eq_map, prettyItems_eq_map] at h
    obtain ⟨rfl, hxy⟩ := listing_inj (by decide) (by decide) (fun item hitem => ih item hitem _)
      (List.append_cancel_left h)
    exact ⟨rfl, hxy⟩
  | object fields ih =>
    intro d b x y _ _ h
    cases ofOneKind_of_prettyAt h
    rw [prettyAt, prettyAt, toList_bracketed, toList_bracketed, List.append_assoc,
      List.append_assoc, prettyFields_eq_map, prettyFields_eq_map] at h
    obtain ⟨rfl, hxy⟩ := listing_inj (by decide) (by decide)
      (fun field hfield => prettyField_fixes (ih field hfield _)) (List.append_cancel_left h)
    exact ⟨rfl, hxy⟩

theorem pretty_injective : Function.Injective pretty := by
  intro a b h
  have hended : Ended [] := by
    rintro c ⟨⟩
  have htext : (prettyAt 0 a).toList ++ [] = (prettyAt 0 b).toList ++ [] :=
    congrArg (·.toList ++ []) h
  exact (prettyAt_fixes a 0 b [] [] hended hended htext).1

end Json

end CallForms
