import CallForms.Source.Lexer
import Mathlib.Data.List.TakeWhile

namespace CallForms

namespace Token

def Kind.admits : Kind → Char → Bool
  | .paren, c => c == '(' || c == ')'
  | .name, c => c.isAlpha
  | .number, c => c.isDigit

def Kind.codes : Kind → Nat → Prop
  | .paren, n => n = 40 ∨ n = 41
  | .name, n => (65 ≤ n ∧ n ≤ 90) ∨ (97 ≤ n ∧ n ≤ 122)
  | .number, n => 48 ≤ n ∧ n ≤ 57

structure Lexeme (t : Token) : Prop where
  nonempty : t.text.toList ≠ []
  admitted : ∀ c ∈ t.text.toList, t.kind.admits c = true
  single : t.kind = .paren → t.text.toList.length = 1

theorem Lexeme.bare {t : Token} (h : t.Lexeme) : t.bare.Lexeme :=
  ⟨h.nonempty, h.admitted, h.single⟩

theorem lexeme_paren {text : String} (h : text = "(" ∨ text = ")") :
    Lexeme ⟨.paren, text, none⟩ := by
  rcases h with rfl | rfl
  · exact ⟨by simp, by simp [Kind.admits], by simp⟩
  · exact ⟨by simp, by simp [Kind.admits], by simp⟩

theorem lexeme_run {k : Kind} {text : String} (hk : k ≠ .paren) (hne : text ≠ "")
    (h : ∀ c ∈ text.toList, k.admits c = true) : Lexeme ⟨k, text, none⟩ := by
  refine ⟨?_, h, ?_⟩
  · simpa using hne
  · intro hp
    exact absurd hp hk

namespace Kind

variable {k k' : Kind} {c : Char}

theorem codes_of_admits (h : k.admits c = true) : k.codes c.toNat := by
  cases k with
  | paren =>
    simp only [admits, Bool.or_eq_true, beq_iff_eq] at h
    rcases h with rfl | rfl
    · exact .inl rfl
    · exact .inr rfl
  | name =>
    change (decide ('A'.val ≤ c.val ∧ c.val ≤ 'Z'.val) ||
      (decide ('a'.val ≤ c.val) && decide (c.val ≤ 'z'.val))) = true at h
    simp only [Bool.or_eq_true, Bool.and_eq_true, decide_eq_true_eq,
      UInt32.le_iff_toNat_le] at h
    exact h
  | number =>
    change (decide ('0'.val ≤ c.val) && decide (c.val ≤ '9'.val)) = true at h
    simp only [Bool.and_eq_true, decide_eq_true_eq, UInt32.le_iff_toNat_le] at h
    exact h

theorem admits_unique (h : k.admits c = true) (h' : k'.admits c = true) : k = k' := by
  have hc := codes_of_admits h
  have hc' := codes_of_admits h'
  cases k <;> cases k' <;> simp only [codes] at hc hc' <;> first | rfl | omega

theorem isBlank_of_admits (h : k.admits c = true) : Text.isBlank c = false := by
  have hc := codes_of_admits h
  have hr : 40 ≤ c.toNat ∧ c.toNat ≤ 122 := by
    cases k <;> simp only [codes] at hc <;> omega
  simp only [Text.isBlank, Text.blankRanges, Text.Ranges.holds, List.any_cons, List.any_nil,
    Bool.or_eq_false_iff, Bool.and_eq_false_iff, decide_eq_false_iff_not, and_true]
  omega

end Kind

end Token

namespace Source

variable {s : Source} {c next : Cursor} {t : Token} {k : Token.Kind} {ch : Char}
  {rest : List Char}

inductive Stands (s : Source) (c : Cursor) : Scan → Prop
  | done (h : c.rest = []) : Stands s c (.done c)
  | paren {ch : Char} {rest : List Char} (h : c.rest = ch :: rest)
      (ha : Token.Kind.paren.admits ch = true) :
      Stands s c (.token ⟨.paren, ch.toString, some (s.span c ⟨c.spot.past ch, rest⟩)⟩
        ⟨c.spot.past ch, rest⟩)
  | run {k : Token.Kind} {ch : Char} {rest : List Char} (hk : k ≠ .paren)
      (h : c.rest = ch :: rest) (ha : k.admits ch = true) : Stands s c (s.runToken k k.admits c)
  | fault {ch : Char} {rest : List Char} (h : c.rest = ch :: rest)
      (ha : ∀ k : Token.Kind, k.admits ch = false) :
      Stands s c (.fault (s.unrecognized ch c ⟨c.spot.past ch, rest⟩) ⟨c.spot.past ch, rest⟩)

theorem stands_scanHere (s : Source) (c : Cursor) : Stands s c (s.scanHere c) := by
  unfold scanHere
  split
  · next h => exact .done h
  · next ch rest h =>
    simp only
    split
    · next hp => exact .paren h (by simpa [Token.Kind.admits] using hp)
    · next hp =>
      split
      · next hd => exact .run (by simp) h (show Token.Kind.number.admits ch = true from hd)
      · next hd =>
        split
        · next ha => exact .run (by simp) h (show Token.Kind.name.admits ch = true from ha)
        · next ha =>
          refine .fault h ?_
          intro k
          cases k with
          | paren => simpa [Token.Kind.admits] using hp
          | name => simpa [Token.Kind.admits] using ha
          | number => simpa [Token.Kind.admits] using hd

def Stops (k : Token.Kind) (rest : List Char) : Prop :=
  k ≠ .paren → ∀ ch ∈ rest.head?, k.admits ch = false

theorem stops_dropWhile (k : Token.Kind) (text : List Char) :
    Stops k (text.dropWhile k.admits) := by
  intro _ ch hch
  obtain ⟨rest, hrest⟩ := List.head?_eq_some_iff.mp hch
  have hne : text.dropWhile k.admits ≠ [] := by simp [hrest]
  have hnot := List.head_dropWhile_not k.admits hne
  simpa [hrest] using hnot

theorem Stops.takeWhile_eq_nil (hk : k ≠ .paren) (h : Stops k rest) :
    rest.takeWhile k.admits = [] := by
  cases rest with
  | nil => rfl
  | cons ch rest => simp [h hk ch rfl]

theorem Stops.dropWhile_eq_self (hk : k ≠ .paren) (h : Stops k rest) :
    rest.dropWhile k.admits = rest := by
  cases rest with
  | nil => rfl
  | cons ch rest => simp [h hk ch rfl]

theorem lexeme_of_scanHere (hscan : s.scanHere c = .token t next) :
    t.Lexeme ∧ c.rest = t.text.toList ++ next.rest ∧ Stops t.kind next.rest := by
  have hst := stands_scanHere s c
  rw [hscan] at hst
  generalize hr : Scan.token t next = r at hst
  cases hst with
  | done h => cases hr
  | fault h ha => cases hr
  | @paren ch rest h ha =>
    cases hr
    refine ⟨⟨by simp, by simpa using ha, by simp⟩, by simpa using h, ?_⟩
    intro hk
    exact absurd rfl hk
  | @run k ch rest hk h ha =>
    simp only [runToken, Scan.token.injEq] at hr
    obtain ⟨rfl, rfl⟩ := hr
    refine ⟨⟨?_, ?_, ?_⟩, ?_, ?_⟩
    · simp [Cursor.run, h, ha]
    · intro x hx
      exact List.mem_takeWhile_imp (by simpa [Cursor.run] using hx)
    · intro hp
      exact absurd hp hk
    · simp [Cursor.run, Cursor.skip]
    · exact stops_dropWhile k c.rest

theorem scanHere_of_lexeme (s : Source) (ht : t.Lexeme) (h : c.rest = t.text.toList ++ rest)
    (hstop : Stops t.kind rest) :
    ∃ u next, s.scanHere c = .token u next ∧ u.bare = t.bare ∧ next.rest = rest := by
  obtain ⟨ch, text, htext⟩ := List.exists_cons_of_ne_nil ht.nonempty
  have hch : t.kind.admits ch = true := ht.admitted ch (by simp [htext])
  have hcons : c.rest = ch :: (text ++ rest) := by rw [h, htext, List.cons_append]
  have hst := stands_scanHere s c
  generalize s.scanHere c = r at hst
  cases hst with
  | done h' => simp [hcons] at h'
  | @fault ch' rest' h' ha =>
    obtain ⟨rfl, -⟩ := List.cons.inj (hcons.symm.trans h')
    simp [ha] at hch
  | @paren ch' rest' h' ha =>
    obtain ⟨rfl, rfl⟩ := List.cons.inj (hcons.symm.trans h')
    have hk : t.kind = .paren := Token.Kind.admits_unique hch ha
    have hone := ht.single hk
    rw [htext, List.length_cons, Nat.add_eq_right, List.length_eq_zero_iff] at hone
    subst hone
    have hstr : ch.toString = t.text := String.toList_inj.mp (by simp [htext])
    exact ⟨_, _, rfl, by rw [Token.bare, Token.bare, hstr, hk], rfl⟩
  | @run k ch' rest' hk h' ha =>
    obtain ⟨rfl, -⟩ := List.cons.inj (hcons.symm.trans h')
    obtain rfl : t.kind = k := Token.Kind.admits_unique hch ha
    have hrun : c.run t.kind.admits = t.text.toList := by
      rw [Cursor.run, h, List.takeWhile_append_of_pos ht.admitted, hstop.takeWhile_eq_nil hk,
        List.append_nil]
    refine ⟨_, _, rfl, ?_, ?_⟩
    · rw [Token.bare, Token.bare, hrun, String.ofList_toList]
    · show c.rest.dropWhile t.kind.admits = rest
      rw [h, List.dropWhile_append_of_pos ht.admitted, hstop.dropWhile_eq_self hk]

theorem rest_skip_blank (c : Cursor) :
    ∃ gap, (∀ ch ∈ gap, Text.isBlank ch = true) ∧
      c.rest = gap ++ (c.skip Text.isBlank).rest :=
  ⟨c.run Text.isBlank, fun _ h => List.mem_takeWhile_imp h, (Cursor.run_append_rest c _).symm⟩

theorem lexeme_of_scan (h : s.scan c = .token t next) :
    t.Lexeme ∧ Stops t.kind next.rest ∧
      ∃ gap, (∀ ch ∈ gap, Text.isBlank ch = true) ∧
        c.rest = gap ++ t.text.toList ++ next.rest := by
  obtain ⟨gap, hgap, hrest⟩ := rest_skip_blank c
  obtain ⟨ht, hhere, hstop⟩ := lexeme_of_scanHere h
  exact ⟨ht, hstop, gap, hgap, by rw [hrest, hhere, List.append_assoc]⟩

theorem blank_of_scan_done (h : s.scan c = .done next) :
    ∀ ch ∈ c.rest, Text.isBlank ch = true := by
  have hst := stands_scanHere s (c.skip Text.isBlank)
  rw [← scan, h] at hst
  cases hst with
  | done hnil => exact List.dropWhile_eq_nil_iff.mp hnil

theorem scan_of_blank (s : Source) (h : ∀ ch ∈ c.rest, Text.isBlank ch = true) :
    s.scan c = .done (c.skip Text.isBlank) := by
  have hnil : (c.skip Text.isBlank).rest = [] := List.dropWhile_eq_nil_iff.mpr h
  rw [scan, scanHere, hnil]

theorem scan_of_lexeme (s : Source) (ht : t.Lexeme) {gap : List Char}
    (hgap : ∀ ch ∈ gap, Text.isBlank ch = true) (h : c.rest = gap ++ t.text.toList ++ rest)
    (hstop : Stops t.kind rest) :
    ∃ u next, s.scan c = .token u next ∧ u.bare = t.bare ∧ next.rest = rest := by
  refine scanHere_of_lexeme s ht ?_ hstop
  obtain ⟨ch, text, htext⟩ := List.exists_cons_of_ne_nil ht.nonempty
  have hblank := Token.Kind.isBlank_of_admits (ht.admitted ch (by simp [htext]))
  show c.rest.dropWhile Text.isBlank = _
  rw [h, List.append_assoc, List.dropWhile_append_of_pos hgap, htext, List.cons_append,
    List.dropWhile_cons_of_neg (by simp [hblank])]

theorem tokensFrom_done (h : s.scan c = .done next) : s.tokensFrom c = .ok [] := by
  rw [tokensFrom]
  split <;> simp_all

theorem tokensFrom_fault {f : Fault} (h : s.scan c = .fault f next) :
    s.tokensFrom c = .error f := by
  rw [tokensFrom]
  split <;> simp_all

theorem tokensFrom_token (h : s.scan c = .token t next) :
    s.tokensFrom c = (s.tokensFrom next).map (t :: ·) := by
  rw [tokensFrom]
  split <;> simp_all

-- The same tokens by recursion on a count, so that they can be evaluated.
def tokensWithin (s : Source) : Nat → Cursor → Except Fault (List Token)
  | 0, _ => .ok []
  | n + 1, c =>
    match s.scan c with
    | .done _ => .ok []
    | .fault f _ => .error f
    | .token t next => (s.tokensWithin n next).map (t :: ·)

theorem tokensFrom_eq_within {n : Nat} (h : c.rest.length < n) :
    s.tokensFrom c = s.tokensWithin n c := by
  induction n generalizing c with
  | zero => cases h
  | succ n ih =>
    rw [tokensWithin]
    cases hscan : s.scan c with
    | done next => exact tokensFrom_done hscan
    | fault f next => exact tokensFrom_fault hscan
    | token t next =>
      have hlt := length_rest_lt_of_scan hscan
      rw [tokensFrom_token hscan, ih (by omega)]

theorem tokens_eq_within (s : Source) :
    s.tokens = s.tokensWithin (s.text.toList.length + 1) (.ofText s.text) :=
  tokensFrom_eq_within (Nat.lt_succ_self _)

end Source

end CallForms
