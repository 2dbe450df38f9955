import CallForms.Text.Utf8
import Mathlib.Algebra.Ring.Nat

namespace CallForms.Text.Utf8

def share (value sixes : Nat) : Nat :=
  value / 64 ^ sixes % 64 + 0x80

def continuation (value : Nat) : Nat → List UInt8
  | 0 => []
  | owed + 1 => UInt8.ofNat (share value owed) :: continuation value owed

structure Partial.Awaits (p : Partial) (v n : Nat) : Prop where
  value : p.value = v / 64 ^ (n + 1)
  owed : p.owed = n + 1
  low : p.low ≤ share v n
  high : share v n ≤ p.high

variable {p : Partial} {position v n lead : Nat} {rest : List UInt8}

theorem toNat_share (v n : Nat) : (UInt8.ofNat (share v n)).toNat = share v n := by
  apply UInt8.toNat_ofNat_of_lt'
  have hmod : v / 64 ^ n % 64 < 64 := Nat.mod_lt _ (by decide)
  simp only [share, UInt8.size]
  omega

theorem Partial.Awaits.value_push (h : p.Awaits v n) : (p.push (share v n)).value = v / 64 ^ n := by
  have hdiv : v / 64 ^ (n + 1) = v / 64 ^ n / 64 := by rw [Nat.pow_succ, Nat.div_div_eq_div_mul]
  have hsum := Nat.div_add_mod (v / 64 ^ n) 64
  simp only [push, share, h.value, hdiv]
  omega

theorem Partial.Awaits.push (h : p.Awaits v (n + 1)) : (p.push (share v (n + 1))).Awaits v n := by
  have hmod : v / 64 ^ n % 64 < 64 := Nat.mod_lt _ (by decide)
  refine ⟨h.value_push, ?_, ?_, ?_⟩
  · simp [Partial.push, h.owed]
  · simp [Partial.push, share]
  · simp only [Partial.push, share]
    omega

theorem decodeFrom_continuation (h : p.Awaits v n) :
    decodeFrom (some p) position (continuation v (n + 1) ++ rest) =
      (decodeFrom none (position + (n + 1)) rest).map (Char.ofNat v :: ·) := by
  induction n generalizing p position with
  | zero =>
    have hvalue := h.value_push
    rw [Nat.pow_zero, Nat.div_one] at hvalue
    rw [continuation, List.cons_append, decodeFrom, toNat_share, if_pos ⟨h.low, h.high⟩,
      if_pos h.owed, hvalue]
    rfl
  | succ n ih =>
    have hmore : n + 1 + 1 ≠ 1 := by omega
    rw [continuation, List.cons_append, decodeFrom, toNat_share, if_pos ⟨h.low, h.high⟩, h.owed,
      if_neg hmore, ih h.push, Nat.add_assoc, Nat.add_comm 1]

structure Leads (octets : List UInt8) (v lead n : Nat) : Prop where
  octets : octets = UInt8.ofNat lead :: continuation v (n + 1)
  large : 0x80 ≤ lead
  small : lead < 256
  awaits : ∀ position, ∃ p, Partial.ofLead? position lead = some p ∧ p.Awaits v n

theorem Leads.decodeFrom_eq {octets : List UInt8} (h : Leads octets v lead n) (position : Nat)
    (rest : List UInt8) : decodeFrom none position (octets ++ rest) =
      (decodeFrom none (position + (n + 2)) rest).map (Char.ofNat v :: ·) := by
  obtain ⟨p, hp, hawaits⟩ := h.awaits position
  have hlead : (UInt8.ofNat lead).toNat = lead := UInt8.toNat_ofNat_of_lt' h.small
  have hlarge : ¬ lead < 0x80 := Nat.not_lt.mpr h.large
  rw [h.octets, List.cons_append, decodeFrom, hlead, if_neg hlarge, hp]
  dsimp only
  rw [decodeFrom_continuation hawaits, Nat.add_assoc, Nat.add_comm 1]

theorem exists_awaits {start value low high : Nat} (hvalue : value = v / 64 ^ (n + 1))
    (hlow : low ≤ v / 64 ^ n % 64 + 0x80) (hhigh : v / 64 ^ n % 64 + 0x80 ≤ high) :
    ∃ p, some (Partial.mk start lead value (n + 1) low high) = some p ∧ p.Awaits v n :=
  ⟨_, rfl, hvalue, rfl, hlow, hhigh⟩

theorem utf8EncodeChar_eq (c : Char) : String.utf8EncodeChar c =
    if c.toNat ≤ 0x7F then [UInt8.ofNat c.toNat]
    else if c.toNat ≤ 0x7FF then
      UInt8.ofNat (c.toNat / 64 % 32 + 0xC0) :: continuation c.toNat 1
    else if c.toNat ≤ 0xFFFF then
      UInt8.ofNat (c.toNat / 4096 % 16 + 0xE0) :: continuation c.toNat 2
    else UInt8.ofNat (c.toNat / 262144 % 8 + 0xF0) :: continuation c.toNat 3 := by
  simp [String.utf8EncodeChar, continuation, share]

variable {c : Char}

theorem leads_two (h : 0x7F < c.toNat) (h' : c.toNat ≤ 0x7FF) :
    Leads (String.utf8EncodeChar c) c.toNat (c.toNat / 64 % 32 + 0xC0) 0 := by
  refine ⟨?_, by omega, by omega, ?_⟩
  · rw [utf8EncodeChar_eq, if_neg (by omega), if_pos h']
  · intro position
    rw [Partial.ofLead?, if_neg (by omega), if_pos (by omega)]
    exact exists_awaits (by omega) (by omega) (by omega)

theorem leads_three (h : 0x7FF < c.toNat) (h' : c.toNat ≤ 0xFFFF) :
    Leads (String.utf8EncodeChar c) c.toNat (c.toNat / 4096 % 16 + 0xE0) 1 := by
  have hvalid : c.toNat < 0xD800 ∨ (0xDFFF < c.toNat ∧ c.toNat < 0x110000) := c.valid
  refine ⟨?_, by omega, by omega, ?_⟩
  · rw [utf8EncodeChar_eq, if_neg (by omega), if_neg (by omega), if_pos h']
  · intro position
    rw [Partial.ofLead?, if_neg (by omega), if_neg (by omega)]
    -- The two narrowed leads: no value below two octets, and no surrogate.
    by_cases hfirst : c.toNat / 4096 % 16 + 0xE0 = 0xE0
    · rw [if_pos hfirst]
      exact exists_awaits (by omega) (by omega) (by omega)
    · rw [if_neg hfirst]
      by_cases hsurrogate : c.toNat / 4096 % 16 + 0xE0 = 0xED
      · rw [if_pos hsurrogate]
        exact exists_awaits (by omega) (by omega) (by omega)
      · rw [if_neg hsurrogate, if_pos (by omega)]
        exact exists_awaits (by omega) (by omega) (by omega)

theorem leads_four (h : 0xFFFF < c.toNat) :
    Leads (String.utf8EncodeChar c) c.toNat (c.toNat / 262144 % 8 + 0xF0) 2 := by
  have hvalid : c.toNat < 0xD800 ∨ (0xDFFF < c.toNat ∧ c.toNat < 0x110000) := c.valid
  refine ⟨?_, by omega, by omega, ?_⟩
  · rw [utf8EncodeChar_eq, if_neg (by omega), if_neg (by omega), if_neg (by omega)]
  · intro position
    rw [Partial.ofLead?, if_neg (by omega), if_neg (by omega), if_neg (by omega), if_neg (by omega),
      if_neg (by omega)]
    by_cases hfirst : c.toNat / 262144 % 8 + 0xF0 = 0xF0
    · rw [if_pos hfirst]
      exact exists_awaits (by omega) (by omega) (by omega)
    · rw [if_neg hfirst]
      by_cases hlast : c.toNat / 262144 % 8 + 0xF0 < 0xF4
      · rw [if_pos hlast]
        exact exists_awaits (by omega) (by omega) (by omega)
      · rw [if_neg hlast, if_pos (by omega)]
        exact exists_awaits (by omega) (by omega) (by omega)

theorem exists_leads (h : 0x7F < c.toNat) :
    ∃ lead n, Leads (String.utf8EncodeChar c) c.toNat lead n := by
  by_cases htwo : c.toNat ≤ 0x7FF
  · exact ⟨_, _, leads_two h htwo⟩
  · by_cases hthree : c.toNat ≤ 0xFFFF
    · exact ⟨_, _, leads_three (by omega) hthree⟩
    · exact ⟨_, _, leads_four (by omega)⟩

theorem decodeFrom_char (c : Char) (position : Nat) (rest : List UInt8) :
    ∃ next, decodeFrom none position (String.utf8EncodeChar c ++ rest) =
      (decodeFrom none next rest).map (c :: ·) := by
  by_cases hone : c.toNat ≤ 0x7F
  · have hoctet : (UInt8.ofNat c.toNat).toNat = c.toNat :=
      UInt8.toNat_ofNat_of_lt' (Nat.lt_of_le_of_lt hone (by decide))
    refine ⟨position + 1, ?_⟩
    rw [utf8EncodeChar_eq, if_pos hone, List.cons_append, decodeFrom, hoctet,
      if_pos (Nat.lt_succ_of_le hone), Char.ofNat_toNat]
    rfl
  · obtain ⟨lead, n, h⟩ := exists_leads (Nat.lt_of_not_le hone)
    refine ⟨position + (n + 2), ?_⟩
    rw [h.decodeFrom_eq, Char.ofNat_toNat]

theorem decodeFrom_chars (text : List Char) (position : Nat) :
    decodeFrom none position (text.flatMap String.utf8EncodeChar) = .ok text := by
  induction text generalizing position with
  | nil => simp [decodeFrom]
  | cons c text ih =>
    obtain ⟨next, hnext⟩ := decodeFrom_char c position (text.flatMap String.utf8EncodeChar)
    rw [List.flatMap_cons, hnext, ih]
    rfl

theorem toList_loop (octets : ByteArray) (i : Nat) (front : List UInt8) :
    ByteArray.toList.loop octets i front = front.reverse ++ octets.data.toList.drop i := by
  fun_induction ByteArray.toList.loop octets i front with
  | case1 i front h ih =>
    have hi : i < octets.data.toList.length := by simpa using h
    rw [ih, List.drop_eq_getElem_cons hi]
    simp [ByteArray.get!, h]
  | case2 i front h =>
    rw [List.drop_eq_nil_of_le (by simpa using Nat.le_of_not_lt h)]
    simp

theorem encode_eq_flatMap (text : String) :
    encode text = text.toList.flatMap String.utf8EncodeChar := by
  have hbytes : text.toByteArray = text.toList.utf8Encode := String.utf8Encode_toList.symm
  rw [encode, String.toUTF8, hbytes, ByteArray.toList, toList_loop]
  simp [List.utf8Encode]

theorem decode_encode (text : String) : decode (encode text) = .ok text := by
  rw [decode, encode_eq_flatMap, decodeFrom_chars]
  exact congrArg Except.ok String.ofList_toList

end CallForms.Text.Utf8
