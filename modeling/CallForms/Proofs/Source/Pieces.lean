import CallForms.Proofs.Source.Layout
import CallForms.Proofs.Source.Stray
import Mathlib.Data.List.Basic
import Mathlib.Logic.ExistsUnique

namespace CallForms.Source

structure Piece where
  kind : Token.Kind
  start : Nat
  stop : Nat
  deriving DecidableEq, Repr

def Piece.Covers (p : Piece) (i : Nat) : Prop :=
  p.start ≤ i ∧ i < p.stop

-- From offset `n` on, the pieces cover what is not blank and nothing else, and none is cut short.
structure Cut (text : List Char) (n : Nat) (ps : List Piece) : Prop where
  proper : ∀ p ∈ ps, n ≤ p.start ∧ p.start < p.stop ∧ p.stop ≤ text.length
  ordered : ps.IsChain fun p q => p.stop ≤ q.start
  covers : ∀ i ch, n ≤ i → text[i]? = some ch →
    ((∃ p ∈ ps, p.Covers i) ↔ Text.isBlank ch = false)
  admitted : ∀ p ∈ ps, ∀ i ch, p.Covers i → text[i]? = some ch → p.kind.admits ch = true
  single : ∀ p ∈ ps, p.kind = .paren → p.stop = p.start + 1
  apart : ps.IsChain fun p q => p.stop = q.start → ¬ runsClash p.kind q.kind

def pieceToken (s : Source) (p : Piece) : Token :=
  ⟨p.kind, String.ofList (s.text.toList.extract p.start p.stop),
    some ⟨s.place p.start, s.place p.stop⟩⟩

variable {s : Source} {c next : Cursor} {t : Token} {ts : List Token} {text before : List Char}
  {n i : Nat} {ch : Char} {p : Piece} {ps qs : List Piece}

theorem Piece.covers_cons (ps : List Piece) (h : p.stop ≤ i) :
    (∃ q ∈ p :: ps, q.Covers i) ↔ ∃ q ∈ ps, q.Covers i := by
  constructor
  · rintro ⟨q, hq, hcovers⟩
    rcases List.mem_cons.mp hq with rfl | hq
    · have := hcovers.2
      omega
    · exact ⟨q, hq, hcovers⟩
  · rintro ⟨q, hq, hcovers⟩
    exact ⟨q, by simp [hq], hcovers⟩

namespace Cut

theorem stop_le_start (h : Cut text n (p :: ps)) : ∀ q ∈ ps, p.stop ≤ q.start := by
  have hproper := h.proper
  have hordered := h.ordered
  clear h
  induction ps generalizing p with
  | nil => simp
  | cons r ps ih =>
    obtain ⟨hpr, htail⟩ := List.isChain_cons_cons.mp hordered
    have hr := hproper r (by simp)
    have hlater := ih (fun q hq => hproper q (by simp [hq])) htail
    intro q hq
    rcases List.mem_cons.mp hq with rfl | hq
    · exact hpr
    · have := hlater q hq
      omega

theorem tail (h : Cut text n (p :: ps)) : Cut text p.stop ps := by
  have hp := h.proper p (by simp)
  refine ⟨?_, h.ordered.tail, ?_, ?_, ?_, h.apart.tail⟩
  · intro q hq
    exact ⟨h.stop_le_start q hq, (h.proper q (by simp [hq])).2⟩
  · intro i ch hi hch
    rw [← Piece.covers_cons ps hi]
    exact h.covers i ch (by omega) hch
  · intro q hq
    exact h.admitted q (by simp [hq])
  · intro q hq
    exact h.single q (by simp [hq])

theorem blank_before (h : Cut text n (p :: ps)) (hn : n ≤ i) (hi : i < p.start)
    (hch : text[i]? = some ch) : Text.isBlank ch = true := by
  have hp := h.proper p (by simp)
  rw [← Bool.not_eq_false, ← h.covers i ch hn hch]
  rintro ⟨q, hq, hcovers⟩
  have hstart := hcovers.1
  rcases List.mem_cons.mp hq with rfl | hq
  · omega
  · have := h.stop_le_start q hq
    omega

theorem stops (h : Cut text n (p :: ps)) : Stops p.kind (text.drop p.stop) := by
  intro hk ch hch
  rw [List.head?_drop] at hch
  have hp := h.proper p (by simp)
  rw [← Bool.not_eq_true]
  intro hadmits
  have hblank := Token.Kind.isBlank_of_admits hadmits
  obtain ⟨q, hq, hcovers⟩ := (h.tail.covers p.stop ch (by omega) hch).mpr hblank
  have hsame := Token.Kind.admits_unique hadmits (h.tail.admitted q hq p.stop ch hcovers hch)
  cases ps with
  | nil => cases hq
  | cons r ps =>
    have hr := h.tail.proper r (by simp)
    have hstart := hcovers.1
    rcases List.mem_cons.mp hq with rfl | hq
    · exact (List.isChain_cons_cons.mp h.apart).1 (by omega) ⟨hsame, hk⟩
    · have := h.tail.stop_le_start q hq
      omega

theorem cons (h : Cut text p.stop ps) (hp : n ≤ p.start ∧ p.start < p.stop ∧ p.stop ≤ text.length)
    (hblank : ∀ i ch, n ≤ i → i < p.start → text[i]? = some ch → Text.isBlank ch = true)
    (hadmits : ∀ i ch, p.Covers i → text[i]? = some ch → p.kind.admits ch = true)
    (hsingle : p.kind = .paren → p.stop = p.start + 1)
    (hstops : Stops p.kind (text.drop p.stop)) : Cut text n (p :: ps) := by
  refine ⟨?_, ?_, ?_, ?_, ?_, ?_⟩
  · refine List.forall_mem_cons.mpr ⟨hp, ?_⟩
    intro q hq
    have hq := h.proper q hq
    omega
  · refine h.ordered.cons ?_
    intro q hq
    exact (h.proper q (List.mem_of_mem_head? hq)).1
  · intro i ch hn hch
    rcases Nat.lt_or_ge i p.stop with hlt | hge
    · rcases Nat.lt_or_ge i p.start with hbefore | hstart
      · have hb := hblank i ch hn hbefore hch
        simp only [hb, Bool.true_eq_false, iff_false, not_exists, not_and]
        intro q hq hcovers
        have hle := hcovers.1
        rcases List.mem_cons.mp hq with rfl | hq
        · omega
        · have := h.proper q hq
          omega
      · have hcovers : p.Covers i := ⟨hstart, hlt⟩
        have hb := Token.Kind.isBlank_of_admits (hadmits i ch hcovers hch)
        exact ⟨fun _ => hb, fun _ => ⟨p, by simp, hcovers⟩⟩
    · rw [Piece.covers_cons ps hge]
      exact h.covers i ch hge hch
  · exact List.forall_mem_cons.mpr ⟨hadmits, h.admitted⟩
  · exact List.forall_mem_cons.mpr ⟨hsingle, h.single⟩
  · refine h.apart.cons ?_
    rintro q hq hstart ⟨hkind, hk⟩
    have hq := List.mem_of_mem_head? hq
    have hproper := h.proper q hq
    have hlt : q.start < text.length := by omega
    have hch := List.getElem?_eq_getElem hlt
    have hnot := hstops hk text[q.start] (by rw [List.head?_drop, hstart]; exact hch)
    have hyes := h.admitted q hq q.start _ ⟨by omega, by omega⟩ hch
    rw [← hkind, hnot] at hyes
    cases hyes

theorem nil (h : ∀ i ch, n ≤ i → text[i]? = some ch → Text.isBlank ch = true) : Cut text n [] := by
  refine ⟨by simp, .nil, ?_, by simp, by simp, .nil⟩
  intro i ch hn hch
  simp [h i ch hn hch]

theorem blank_of_nil (h : Cut text n []) (hn : n ≤ i) (hch : text[i]? = some ch) :
    Text.isBlank ch = true := by
  simpa using h.covers i ch hn hch

theorem blank_behind (h : Cut text n ps) (hp : ps.getLast? = some p) (hi : p.stop ≤ i)
    (hch : text[i]? = some ch) : Text.isBlank ch = true := by
  induction ps generalizing n with
  | nil => cases hp
  | cons q ps ih =>
    cases ps with
    | nil =>
      cases hp
      exact h.tail.blank_of_nil hi hch
    | cons r ps => exact ih h.tail (by simpa using hp)

end Cut

theorem mem_middle {a b r : List Char} (h : (a ++ b ++ r)[i]? = some ch) (hi : a.length ≤ i)
    (hj : i < (a ++ b).length) : ch ∈ b := by
  rw [List.length_append] at hj
  rw [List.append_assoc, List.getElem?_append_right hi, List.getElem?_append_left (by omega)] at h
  exact List.mem_of_getElem? h

theorem getElem?_of_mem_extract {a b : Nat} (h : ch ∈ text.extract a b) :
    ∃ i, a ≤ i ∧ i < b ∧ text[i]? = some ch := by
  obtain ⟨i, hi⟩ := List.mem_iff_getElem?.mp h
  rw [List.extract_eq_take_drop, List.getElem?_take] at hi
  split at hi
  · next hlt => exact ⟨a + i, by omega, by omega, by rw [← List.getElem?_drop]; exact hi⟩
  · cases hi

theorem drop_eq_extract_append {a b : Nat} (h : a ≤ b) :
    text.drop a = text.extract a b ++ text.drop b := by
  have hdrop : text.drop b = (text.drop a).drop (b - a) := by
    rw [List.drop_drop, Nat.add_sub_cancel' h]
  rw [List.extract_eq_take_drop, hdrop, List.take_append_drop]

theorem length_extract {a b : Nat} (h : b ≤ text.length) : (text.extract a b).length = b - a := by
  rw [List.extract_eq_take_drop, List.length_take, List.length_drop]
  omega

@[simp] theorem toList_pieceToken (s : Source) (p : Piece) :
    (s.pieceToken p).text.toList = s.text.toList.extract p.start p.stop := by
  simp [pieceToken]

theorem Cut.lexeme (h : Cut s.text.toList n (p :: ps)) : (s.pieceToken p).Lexeme := by
  have hp := h.proper p (by simp)
  have hlen := length_extract (a := p.start) hp.2.2
  refine ⟨?_, ?_, ?_⟩
  · rw [toList_pieceToken, ← List.length_pos_iff]
    omega
  · rw [toList_pieceToken]
    intro ch hch
    obtain ⟨i, hi, hj, hget⟩ := getElem?_of_mem_extract hch
    exact h.admitted p (by simp) i ch ⟨hi, hj⟩ hget
  · intro hk
    have := h.single p (by simp) hk
    rw [toList_pieceToken]
    omega

theorem Cut.meets (h : Cut s.text.toList before.length (p :: ps)) (hc : s.Passed before c) :
    ∃ gap next, s.Meets c gap (s.pieceToken p) next ∧
      (before ++ gap ++ (s.pieceToken p).text.toList).length = p.stop := by
  have hp := h.proper p (by simp)
  obtain ⟨gap, hgap⟩ : ∃ gap, gap = s.text.toList.extract before.length p.start := ⟨_, rfl⟩
  have hrest : c.rest = gap ++ ((s.pieceToken p).text.toList ++ s.text.toList.drop p.stop) := by
    rw [toList_pieceToken, ← drop_eq_extract_append (by omega), hgap,
      ← drop_eq_extract_append hp.1, hc.text, List.drop_left]
  have hstart : (before ++ gap).length = p.start := by
    rw [List.length_append, hgap, length_extract (by omega)]
    omega
  have hstop : (before ++ gap ++ (s.pieceToken p).text.toList).length = p.stop := by
    rw [List.length_append, hstart, toList_pieceToken, length_extract hp.2.2]
    omega
  have hcursor : s.Passed (before ++ gap)
      ⟨c.spot.after gap, (s.pieceToken p).text.toList ++ s.text.toList.drop p.stop⟩ :=
    hc.move hrest rfl
  have hnext : s.Passed (before ++ gap ++ (s.pieceToken p).text.toList)
      ⟨c.spot.after (gap ++ (s.pieceToken p).text.toList), s.text.toList.drop p.stop⟩ :=
    hcursor.move rfl (Spot.after_append _ _ _)
  refine ⟨gap, ⟨c.spot.after (gap ++ (s.pieceToken p).text.toList), s.text.toList.drop p.stop⟩,
    ⟨?_, h.lexeme, h.stops, ?_, rfl, ?_⟩, hstop⟩
  · rw [hgap]
    intro ch hch
    obtain ⟨i, hi, hj, hget⟩ := getElem?_of_mem_extract hch
    exact h.blank_before hi hj hget
  · rw [hrest, List.append_assoc]
  · rw [hnext.location, hcursor.location, hstart, hstop]
    rfl

theorem Cut.tokensFrom_eq (h : Cut s.text.toList before.length ps) (hc : s.Passed before c) :
    s.tokensFrom c = .ok (ps.map s.pieceToken) := by
  induction ps generalizing before c with
  | nil =>
    refine tokensFrom_done (scan_of_blank s ?_)
    intro ch hch
    obtain ⟨i, hi⟩ := List.mem_iff_getElem?.mp hch
    have hget : s.text.toList[before.length + i]? = some ch := by
      rw [hc.text, List.getElem?_append_right (by omega), Nat.add_sub_cancel_left, hi]
    exact h.blank_of_nil (by omega) hget
  | cons p ps ih =>
    obtain ⟨gap, next, hm, hlen⟩ := h.meets hc
    have htail := h.tail
    rw [← hlen] at htail
    rw [tokensFrom_token hm.scan_eq, ih htail (hm.passed hc).2]
    rfl

theorem Meets.eq_pieceToken {gap : List Char} (h : s.Meets c gap t next) (hc : s.Passed before c) :
    t = s.pieceToken ⟨t.kind, (before ++ gap).length, (before ++ gap ++ t.text.toList).length⟩ := by
  have htext : s.text.toList = before ++ gap ++ t.text.toList ++ next.rest := (h.passed hc).2.text
  have hextract : s.text.toList.extract (before ++ gap).length
      (before ++ gap ++ t.text.toList).length = t.text.toList := by
    have hlen : (before ++ gap ++ t.text.toList).length - (before ++ gap).length =
        t.text.toList.length := by
      rw [List.length_append, Nat.add_sub_cancel_left]
    rw [List.extract_eq_take_drop, hlen, htext, List.append_assoc (before ++ gap), List.drop_left,
      List.take_left]
  rw [pieceToken, hextract, ← h.span_eq hc, String.ofList_toList]

theorem cut_of_scans {f? : Option Fault} (h : s.Scans c ts f?) (hf : f? = none)
    (hc : s.Passed before c) :
    ∃ ps, Cut s.text.toList before.length ps ∧ ts = ps.map s.pieceToken := by
  induction h generalizing before with
  | fault h => cases hf
  | done h =>
    refine ⟨[], .nil ?_, rfl⟩
    intro i ch hi hch
    rw [hc.text, List.getElem?_append_right hi] at hch
    exact blank_of_scan_done h ch (List.mem_of_getElem? hch)
  | @token c next t ts f? h _ ih =>
    obtain ⟨gap, hm⟩ := meets_of_scan h
    obtain ⟨-, hnext⟩ := hm.passed hc
    obtain ⟨ps, hps, rfl⟩ := ih hf hnext
    have htext : s.text.toList = before ++ gap ++ t.text.toList ++ next.rest := hnext.text
    have hne := List.length_pos_iff.mpr hm.lexeme.nonempty
    have hpiece := hm.eq_pieceToken hc
    refine ⟨⟨t.kind, (before ++ gap).length, (before ++ gap ++ t.text.toList).length⟩ :: ps,
      hps.cons ⟨?_, ?_, hnext.length_le⟩ ?_ ?_ ?_ ?_, by rw [List.map_cons, ← hpiece]⟩
    · simp
    · simpa using hne
    · intro i ch hi hj hch
      rw [htext, List.append_assoc (before ++ gap)] at hch
      exact hm.blank ch (mem_middle hch hi hj)
    · rintro i ch ⟨hi, hj⟩ hch
      rw [htext] at hch
      exact hm.lexeme.admitted ch (mem_middle hch hi hj)
    · intro hk
      simp [hm.lexeme.single hk, Nat.add_assoc]
    · have hdrop : s.text.toList.drop (before ++ gap ++ t.text.toList).length = next.rest := by
        rw [htext, List.drop_left]
      simpa only [hdrop] using hm.stops

theorem tokens_eq_ok_iff : s.tokens = .ok ts ↔
    ∃ ps, Cut s.text.toList 0 ps ∧ ts = ps.map s.pieceToken := by
  constructor
  · intro h
    obtain ⟨us, f?, hscans⟩ := exists_scans s (.ofText s.text)
    have hus := hscans.tokensFrom_eq
    rw [← tokens, h] at hus
    cases f? with
    | none =>
      cases hus
      exact cut_of_scans hscans rfl (.ofText s)
    | some f => cases hus
  · rintro ⟨ps, hps, rfl⟩
    exact hps.tokensFrom_eq (.ofText s)

theorem pieceToken_injective (s : Source) : Function.Injective s.pieceToken := by
  rintro ⟨k, i, j⟩ ⟨k', i', j'⟩ h
  simp only [pieceToken, place, Token.mk.injEq, Option.some.injEq, Span.mk.injEq,
    Location.mk.injEq, Int.natCast_inj] at h
  simp [h]

theorem Cut.unique (h : Cut s.text.toList 0 ps) (h' : Cut s.text.toList 0 qs) : qs = ps := by
  have hps := tokens_eq_ok_iff.mpr ⟨ps, h, rfl⟩
  have hqs := tokens_eq_ok_iff.mpr ⟨qs, h', rfl⟩
  exact List.map_injective_iff.mpr s.pieceToken_injective (Except.ok.inj (hqs.symm.trans hps))

theorem join_of_layout {clash : Token.Kind → Token.Kind → Prop} {k? : Option Token.Kind}
    (h : Layout clash k? ts text) (hl : ∀ t ∈ ts, t.Lexeme) :
    (String.join (ts.map Token.text)).toList = text.filter fun ch => !Text.isBlank ch := by
  induction h with
  | @done k? gap hgap =>
    have hnone : gap.filter (fun ch => !Text.isBlank ch) = [] := by simpa using hgap
    rw [hnone]
    rfl
  | @token k? t ts gap rest hgap hapart _ ih =>
    have hword : t.text.toList.filter (fun ch => !Text.isBlank ch) = t.text.toList := by
      rw [List.filter_eq_self]
      intro ch hch
      have hadmits := (hl t (by simp)).admitted ch hch
      rw [Token.Kind.isBlank_of_admits hadmits]
      rfl
    have hnone : gap.filter (fun ch => !Text.isBlank ch) = [] := by simpa using hgap
    rw [List.map_cons, String.join_cons, String.toList_append, ih fun u hu => hl u (by simp [hu]),
      List.filter_append, List.filter_append, hnone, hword, List.nil_append]

theorem tokens_are_maximal_pieces (s : Source) :
    ((∃ ts, s.tokens = .ok ts) ↔ ∀ ch ∈ s.text.toList, recognized ch = true) ∧
    ∀ ts, s.tokens = .ok ts →
      (∃ ps, Cut s.text.toList 0 ps ∧ (∀ qs, Cut s.text.toList 0 qs → qs = ps) ∧
        ts = ps.map s.pieceToken) ∧
      String.join (ts.map Token.text) =
        String.ofList (s.text.toList.filter fun ch => !Text.isBlank ch) := by
  refine ⟨?_, ?_⟩
  · rw [← stray?_eq_none_iff]
    constructor
    · rintro ⟨ts, hts⟩
      cases hstray : s.stray? with
      | none => rfl
      | some f => rw [tokens_eq_error hstray] at hts; cases hts
    · exact exists_tokens
  · intro ts hts
    obtain ⟨ps, hps, hmap⟩ := tokens_eq_ok_iff.mp hts
    refine ⟨⟨ps, hps, fun qs hqs => hps.unique hqs, hmap⟩, ?_⟩
    obtain ⟨hlayout, hlexeme⟩ := layout_of_tokens hts
    rw [← join_of_layout hlayout hlexeme, String.ofList_toList]

theorem tokens_are_maximal_pieces_of_touching_words :
    (∀ ps, Cut "ab12 3\t(".toList 0 ps ↔
      ps = [⟨.name, 0, 2⟩, ⟨.number, 2, 4⟩, ⟨.number, 5, 6⟩, ⟨.paren, 7, 8⟩]) ∧
    ¬ ∃ ts, tokens ⟨"ab\x00", none⟩ = .ok ts := by
  constructor
  · have htokens : tokens ⟨"ab12 3\t(", none⟩ = .ok (List.map (pieceToken ⟨"ab12 3\t(", none⟩)
        [⟨.name, 0, 2⟩, ⟨.number, 2, 4⟩, ⟨.number, 5, 6⟩, ⟨.paren, 7, 8⟩]) := by
      rw [tokens_eq_within]
      rfl
    obtain ⟨⟨ps, hps, hunique, hmap⟩, -⟩ := (tokens_are_maximal_pieces _).2 _ htokens
    obtain rfl := List.map_injective_iff.mpr (pieceToken_injective _) hmap
    intro qs
    constructor
    · exact hunique qs
    · rintro rfl
      exact hps
  · rw [(tokens_are_maximal_pieces _).1]
    intro h
    have hzero := h '\x00' (by simp)
    cases hzero

end CallForms.Source
