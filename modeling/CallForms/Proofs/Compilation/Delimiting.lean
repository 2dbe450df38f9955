import CallForms.Proofs.Compilation.Code
import CallForms.Proofs.Reader.Extent
import CallForms.Proofs.Source.Pieces

namespace CallForms

namespace Span

def Before : Option Span → Option Span → Prop
  | some a, some b => a.stop.offset ≤ b.start.offset
  | _, _ => False

def Within : Option Span → Option Span → Prop
  | some a, some b => b.start.offset ≤ a.start.offset ∧ a.stop.offset ≤ b.stop.offset
  | _, _ => False

def StrictlyWithin : Option Span → Option Span → Prop
  | some a, some b => b.start.offset < a.start.offset ∧ a.stop.offset < b.stop.offset
  | _, _ => False

end Span

namespace Source

variable {s : Source} {text : List Char} {ps qs rs xs ys : List Piece} {p a b : Piece} {n i j : Nat}
  {e d : Expr} {es : List Expr}

structure InOrder (ps : List Piece) : Prop where
  proper : ∀ p ∈ ps, p.start < p.stop
  pairwise : ps.Pairwise fun p q => p.stop ≤ q.start

namespace InOrder

theorem sublist (h : InOrder ps) (hq : qs.Sublist ps) : InOrder qs :=
  ⟨fun p hp => h.proper p (hq.subset hp), h.pairwise.sublist hq⟩

theorem start_le (h : InOrder ps) (ha : ps.head? = some a) (hp : p ∈ ps) : a.start ≤ p.start := by
  obtain ⟨ps, rfl⟩ := List.head?_eq_some_iff.mp ha
  have hproper := h.proper a (by simp)
  rcases List.mem_cons.mp hp with rfl | hp
  · exact Nat.le_refl _
  · have := List.rel_of_pairwise_cons h.pairwise hp
    omega

theorem le_stop (h : InOrder ps) (hb : ps.getLast? = some b) (hp : p ∈ ps) : p.stop ≤ b.stop := by
  obtain ⟨ps, rfl⟩ := List.getLast?_eq_some_iff.mp hb
  have hproper := h.proper b (by simp)
  rcases List.mem_append.mp hp with hp | hp
  · have := (List.pairwise_append.mp h.pairwise).2.2 p hp b (by simp)
    omega
  · rw [List.mem_singleton.mp hp]

end InOrder

theorem Cut.inOrder (h : Cut text n ps) : InOrder ps := by
  constructor
  · intro p hp
    exact (h.proper p hp).2.1
  · induction ps generalizing n with
    | nil => exact .nil
    | cons p ps ih => exact .cons h.stop_le_start (ih h.tail)

def Piece.back (i : Nat) (p : Piece) : Piece :=
  ⟨p.kind, p.start - i, p.stop - i⟩

theorem getElem?_extract {k : Nat} {ch : Char} (h : (text.extract i j)[k]? = some ch) :
    k < j - i ∧ text[i + k]? = some ch := by
  rw [List.extract_eq_take_drop, List.getElem?_take] at h
  split at h
  · next hlt => exact ⟨hlt, by rw [← List.getElem?_drop]; exact h⟩
  · cases h

theorem extract_extract {a b : Nat} (ha : i ≤ a) (hb : b ≤ j) :
    (text.extract i j).extract (a - i) (b - i) = text.extract a b := by
  simp only [List.extract_eq_take_drop, List.drop_take, List.drop_drop, List.take_take]
  rw [Nat.add_sub_cancel' ha]
  congr 1
  omega

theorem Cut.extract (h : Cut text n (xs ++ qs ++ ys)) (hn : n ≤ i) (hj : j ≤ text.length)
    (hxs : ∀ p ∈ xs, p.stop ≤ i) (hqs : ∀ p ∈ qs, i ≤ p.start ∧ p.stop ≤ j)
    (hys : ∀ p ∈ ys, j ≤ p.start) : Cut (text.extract i j) 0 (qs.map (Piece.back i)) := by
  have hpart : qs <:+: xs ++ qs ++ ys := ⟨xs, ys, rfl⟩
  have hmem : ∀ p ∈ qs, p ∈ xs ++ qs ++ ys := fun p hp => hpart.subset hp
  have hordered := List.IsChain.infix h.ordered hpart
  have hapart := List.IsChain.infix h.apart hpart
  refine ⟨?_, ?_, ?_, ?_, ?_, ?_⟩
  · intro p hp
    obtain ⟨q, hq, rfl⟩ := List.mem_map.mp hp
    have hproper := h.proper q (hmem q hq)
    have hbounds := hqs q hq
    rw [length_extract hj]
    simp only [Piece.back]
    omega
  · refine (List.isChain_map _).mpr (hordered.imp ?_)
    intro p q hpq
    simp only [Piece.back]
    omega
  · intro k ch _ hch
    obtain ⟨hk, hget⟩ := getElem?_extract hch
    rw [← h.covers (i + k) ch (by omega) hget]
    constructor
    · rintro ⟨p, hp, hstart, hstop⟩
      obtain ⟨q, hq, rfl⟩ := List.mem_map.mp hp
      have hbounds := hqs q hq
      simp only [Piece.back] at hstart hstop
      exact ⟨q, hmem q hq, by omega, by omega⟩
    · rintro ⟨p, hp, hstart, hstop⟩
      rcases List.mem_append.mp hp with hp | hp
      · rcases List.mem_append.mp hp with hp | hp
        · have := hxs p hp
          omega
        · refine ⟨p.back i, List.mem_map_of_mem hp, ?_, ?_⟩
          · simp only [Piece.back]
            omega
          · simp only [Piece.back]
            omega
      · have := hys p hp
        omega
  · rintro p hp k ch ⟨hstart, hstop⟩ hch
    obtain ⟨q, hq, rfl⟩ := List.mem_map.mp hp
    obtain ⟨hk, hget⟩ := getElem?_extract hch
    have hbounds := hqs q hq
    simp only [Piece.back] at hstart hstop
    exact h.admitted q (hmem q hq) (i + k) ch ⟨by omega, by omega⟩ hget
  · intro p hp hk
    obtain ⟨q, hq, rfl⟩ := List.mem_map.mp hp
    have hsingle := h.single q (hmem q hq) hk
    have hbounds := hqs q hq
    simp only [Piece.back]
    omega
  · refine (List.isChain_map _).mpr (hapart.imp_of_mem_imp ?_)
    intro p q hp hq hpq hmeet
    have hleft := hqs p hp
    have hright := hqs q hq
    have hproper := h.proper p (hmem p hp)
    simp only [Piece.back] at hmeet
    exact hpq (by omega)

theorem Cut.slice (h : Cut text 0 ps) (hqs : qs <:+: ps) (ha : qs.head? = some a)
    (hb : qs.getLast? = some b) :
    Cut (text.extract a.start b.stop) 0 (qs.map (Piece.back a.start)) := by
  obtain ⟨xs, ys, rfl⟩ := hqs
  have hinside := h.inOrder.sublist (List.infix_append xs qs ys).sublist
  obtain ⟨hleft, -, hright⟩ := List.pairwise_append.mp h.inOrder.pairwise
  have hleft := (List.pairwise_append.mp hleft).2.2
  have hamem := List.mem_of_head? ha
  have hbmem := List.mem_of_getLast? hb
  refine h.extract (Nat.zero_le _) (h.proper b (by simp [hbmem])).2.2 ?_ ?_ ?_
  · intro p hp
    exact hleft p hp a hamem
  · intro p hp
    exact ⟨hinside.start_le ha hp, hinside.le_stop hb hp⟩
  · intro p hp
    exact hright b (by simp [hbmem]) p hp

theorem bare_pieceToken_back {file : Option String} (hi : i ≤ p.start) (hj : p.stop ≤ j) :
    (pieceToken ⟨String.ofList (s.text.toList.extract i j), file⟩ (p.back i)).bare =
      (s.pieceToken p).bare := by
  rw [pieceToken, pieceToken, Token.bare, Token.bare, String.toList_ofList, Piece.back,
    extract_extract hi hj]

theorem tokens_slice (h : Cut s.text.toList 0 ps) (hqs : qs <:+: ps) (ha : qs.head? = some a)
    (hb : qs.getLast? = some b) (file : Option String) :
    ∃ ts, tokens ⟨String.ofList (s.text.toList.extract a.start b.stop), file⟩ = .ok ts ∧
      ts.map Token.bare = (qs.map s.pieceToken).map Token.bare := by
  have hslice := h.slice hqs ha hb
  rw [← String.toList_ofList (l := s.text.toList.extract a.start b.stop)] at hslice
  have hinside := h.inOrder.sublist hqs.sublist
  refine ⟨_, tokens_eq_ok_iff.mpr ⟨_, hslice, rfl⟩, ?_⟩
  rw [List.map_map, List.map_map, List.map_map]
  refine List.map_congr_left ?_
  intro p hp
  exact bare_pieceToken_back (hinside.start_le ha hp) (hinside.le_stop hb hp)

theorem programSpan_pieces (s : Source) (h : qs ≠ []) :
    ∃ a b, qs.head? = some a ∧ qs.getLast? = some b ∧
      Reader.programSpan (qs.map s.pieceToken) = some ⟨s.place a.start, s.place b.stop⟩ := by
  obtain ⟨a, ha⟩ := Option.isSome_iff_exists.mp (List.isSome_head?.mpr h)
  obtain ⟨b, hb⟩ := Option.isSome_iff_exists.mp (List.getLast?_isSome.mpr h)
  refine ⟨a, b, ha, hb, ?_⟩
  rw [Reader.programSpan, List.head?_map, List.getLast?_map, ha, hb]
  rfl

def Holds (s : Source) (qs : List Piece) (e : Expr) : Prop :=
  Reader.Extent (qs.map s.pieceToken) [e]

theorem Holds.span (h : s.Holds qs e) :
    ∃ a b, qs.head? = some a ∧ qs.getLast? = some b ∧
      e.span = some ⟨s.place a.start, s.place b.stop⟩ := by
  have hne : qs ≠ [] := by simpa using h.ne_nil
  obtain ⟨a, b, ha, hb, hspan⟩ := s.programSpan_pieces hne
  exact ⟨a, b, ha, hb, h.span_eq.trans hspan⟩

theorem exists_holds_cons (h : Reader.Extent (ps.map s.pieceToken) (e :: es)) :
    ∃ qs rs, ps = qs ++ rs ∧ s.Holds qs e ∧ Reader.Extent (rs.map s.pieceToken) es := by
  obtain ⟨us, vs, hsplit, hus, hvs⟩ := h.exists_cons
  obtain ⟨qs, rs, rfl, rfl, rfl⟩ := List.map_eq_append_iff.mp hsplit
  exact ⟨qs, rs, rfl, hus, hvs⟩

theorem exists_holds_of_mem (h : Reader.Extent (ps.map s.pieceToken) es) (he : e ∈ es) :
    ∃ qs, qs <:+: ps ∧ s.Holds qs e := by
  induction es generalizing ps with
  | nil => cases he
  | cons d es ih =>
    obtain ⟨qs, rs, rfl, hqs, hrs⟩ := exists_holds_cons h
    rcases List.mem_cons.mp he with rfl | he
    · exact ⟨qs, List.prefix_append qs rs |>.isInfix, hqs⟩
    · obtain ⟨qs', hpart, hholds⟩ := ih hrs he
      exact ⟨qs', hpart.trans (List.suffix_append qs rs).isInfix, hholds⟩

theorem Holds.params {name : String} {params : List Expr} {span : Option Span}
    (h : s.Holds qs (.call name params span)) :
    ∃ a called rs b, qs = a :: called :: (rs ++ [b]) ∧
      Reader.Extent (rs.map s.pieceToken) params := by
  obtain ⟨opening, called, us, closing, hsplit, hus⟩ := Reader.Extent.params h
  obtain ⟨a, qs, rfl, -, hsplit⟩ := List.map_eq_cons_iff.mp hsplit
  obtain ⟨c, qs, rfl, -, hsplit⟩ := List.map_eq_cons_iff.mp hsplit
  obtain ⟨rs, qs, rfl, rfl, hlast⟩ := List.map_eq_append_iff.mp hsplit
  obtain ⟨b, rfl, -⟩ := List.map_eq_singleton_iff.mp hlast
  exact ⟨a, c, rs, b, rfl, hus⟩

theorem exists_holds_of_occurs (h : Reader.Extent (ps.map s.pieceToken) es) (he : e.Occurs es) :
    ∃ qs, qs <:+: ps ∧ s.Holds qs e := by
  induction he generalizing ps with
  | here he => exact exists_holds_of_mem h he
  | inside hcall _ ih =>
    obtain ⟨qs, hqs, hholds⟩ := exists_holds_of_mem h hcall
    obtain ⟨a, called, rs, b, rfl, hrs⟩ := hholds.params
    obtain ⟨qs', hqs', hholds'⟩ := ih hrs
    exact ⟨qs', hqs'.trans (List.IsInfix.trans ⟨[a, called], [b], by simp⟩ hqs), hholds'⟩

theorem before_of_holds (hd : s.Holds qs d) (he : s.Holds rs e)
    (h : ∀ p ∈ qs, ∀ q ∈ rs, p.stop ≤ q.start) : Span.Before d.span e.span := by
  obtain ⟨_, b, _, hb, hspan⟩ := hd.span
  obtain ⟨a, _, ha, _, hspan'⟩ := he.span
  have hle := h b (List.mem_of_getLast? hb) a (List.mem_of_head? ha)
  rw [hspan, hspan']
  exact Int.ofNat_le.mpr hle

theorem pairwise_before (h : Reader.Extent (ps.map s.pieceToken) es) (hps : InOrder ps) :
    es.Pairwise fun d e => Span.Before d.span e.span := by
  induction es generalizing ps with
  | nil => exact .nil
  | cons d es ih =>
    obtain ⟨qs, rs, rfl, hqs, hrs⟩ := exists_holds_cons h
    refine .cons ?_ (ih hrs (hps.sublist (List.sublist_append_right qs rs)))
    intro e he
    obtain ⟨qs', hpart, hholds⟩ := exists_holds_of_mem hrs he
    apply before_of_holds hqs hholds
    intro p hp q hq
    exact (List.pairwise_append.mp hps.pairwise).2.2 p hp q (hpart.subset hq)

theorem Holds.strictlyWithin {name : String} {params : List Expr} {span : Option Span}
    (h : s.Holds qs (.call name params span)) (hqs : InOrder qs) (he : e ∈ params) :
    Span.StrictlyWithin e.span span := by
  obtain ⟨first, last, hfirst, hlast, hspan⟩ := h.span
  obtain ⟨x, called, rs, y, rfl, hrs⟩ := h.params
  obtain rfl : x = first := Option.some.inj hfirst
  rw [← List.cons_append, ← List.cons_append, List.getLast?_concat] at hlast
  obtain rfl : y = last := Option.some.inj hlast
  obtain ⟨qs', hpart, hholds⟩ := exists_holds_of_mem hrs he
  obtain ⟨a, b, ha, hb, hinner⟩ := hholds.span
  have hmem : ∀ p ∈ qs', p ∈ rs := fun p hp => hpart.subset hp
  have hopen := hqs.proper x (by simp)
  have hclose := hqs.proper y (by simp)
  have hstart : x.stop ≤ a.start :=
    List.rel_of_pairwise_cons hqs.pairwise (by simp [hmem a (List.mem_of_head? ha)])
  have hstop : b.stop ≤ y.start := by
    have hrest := List.pairwise_append.mp (List.pairwise_cons.mp (List.pairwise_cons.mp
      hqs.pairwise).2).2
    exact hrest.2.2 b (hmem b (List.mem_of_getLast? hb)) y (by simp)
  have houter : span = some ⟨s.place x.start, s.place y.stop⟩ := hspan
  rw [hinner, houter]
  simp only [Span.StrictlyWithin, place]
  omega

theorem Holds.within (h : s.Holds qs e) (hqs : qs <:+: ps) (hps : InOrder ps) :
    Span.Within e.span (Reader.programSpan (ps.map s.pieceToken)) := by
  obtain ⟨a, b, ha, hb, hspan⟩ := h.span
  have hamem := hqs.subset (List.mem_of_head? ha)
  have hbmem := hqs.subset (List.mem_of_getLast? hb)
  obtain ⟨first, last, hfirst, hlast, houter⟩ := s.programSpan_pieces (List.ne_nil_of_mem hamem)
  have hstart := hps.start_le hfirst hamem
  have hstop := hps.le_stop hlast hbmem
  rw [hspan, houter]
  simp only [Span.Within, place]
  omega

structure Delimits (s : Source) (room : Nat) (e : Expr) (i j : Nat) : Prop where
  span : e.span = some ⟨s.place i, s.place j⟩
  lt : i < j
  le : j ≤ s.text.toList.length
  reads : ∀ file, ∃ q, program room ⟨String.ofList (s.text.toList.extract i j), file⟩ = .ok q ∧
    Expr.bareAll q.body = [e.bare]

variable {room : Nat}

theorem Holds.delimits (h : s.Holds qs e) (hps : Cut s.text.toList 0 ps) (hqs : qs <:+: ps)
    (hd : e.depth ≤ Reader.capacity room) : ∃ i j, s.Delimits room e i j := by
  obtain ⟨a, b, ha, hb, hspan⟩ := h.span
  have hamem := hqs.subset (List.mem_of_head? ha)
  have hbmem := hqs.subset (List.mem_of_getLast? hb)
  have hinside := hps.inOrder.sublist hqs.sublist
  have hstop := hinside.le_stop hb (List.mem_of_head? ha)
  have hproper := hps.proper a hamem
  refine ⟨a.start, b.stop, hspan, by omega, (hps.proper b hbmem).2.2, ?_⟩
  intro file
  obtain ⟨ts, hts, hbare⟩ := tokens_slice hps hqs ha hb file
  have htokens : ts.map Token.bare = (Program.mk [e] none).tokens := hbare.trans h.bare
  have hdepth : (Program.mk [e] none).depth ≤ Reader.capacity room := by
    rw [Program.depth, Expr.depthAll, Expr.depthAll, Nat.max_zero]
    exact hd
  obtain ⟨q, hq, hsame⟩ := Reader.parse_of_bare_eq_tokens htokens hdepth
  refine ⟨q, ?_, congrArg Program.body hsame⟩
  rw [program_eq_bind, hts]
  exact hq

theorem span_of_parse_ok {ts : List Token} {p : Program}
    (h : Program.parse room ts = .ok p) : p.span = Reader.programSpan ts := by
  have hparse := Reader.parse_of_run (Reader.run_of_parse_ok h)
  rw [h] at hparse
  exact congrArg Program.span (Except.ok.inj hparse)

theorem exists_pieces_of_program {p : Program} (h : s.program room = .ok p) :
    ∃ ps, Cut s.text.toList 0 ps ∧ s.tokens = .ok (ps.map s.pieceToken) ∧
      Reader.Extent (ps.map s.pieceToken) p.body ∧ p.depth ≤ Reader.capacity room ∧
      p.span = Reader.programSpan (ps.map s.pieceToken) := by
  rw [program_eq_bind] at h
  cases hts : s.tokens with
  | error f => simp [hts, Except.bind] at h
  | ok ts =>
    rw [hts] at h
    obtain ⟨ps, hps, rfl⟩ := tokens_eq_ok_iff.mp hts
    exact ⟨ps, hps, rfl, Reader.extent_of_parse_ok h, Reader.depth_le_of_parse_ok h,
      span_of_parse_ok h⟩

theorem nodes_delimit_their_text (room : Nat) (s : Source) (p : Program)
    (h : s.program room = .ok p) :
    (∀ e : Expr, e.Occurs p.body → ∃ i j, s.Delimits room e i j) ∧
    (∀ name params span, (Expr.call name params span).Occurs p.body →
      (params.Pairwise fun d e => Span.Before d.span e.span) ∧
        ∀ e ∈ params, Span.StrictlyWithin e.span span) ∧
    (p.body.Pairwise fun d e => Span.Before d.span e.span) ∧
    (∀ e ∈ p.body, Span.Within e.span p.span) ∧
    ∃ ts, s.tokens = .ok ts ∧ (p.span = none ↔ ts = []) ∧
      ∀ first last, ts.head? = some first → ts.getLast? = some last →
        ∃ a b, first.span = some a ∧ last.span = some b ∧ p.span = some ⟨a.start, b.stop⟩ := by
  obtain ⟨ps, hps, hts, hextent, hdepth, hspan⟩ := exists_pieces_of_program h
  refine ⟨?_, ?_, pairwise_before hextent hps.inOrder, ?_, _, hts, ?_, ?_⟩
  · intro e he
    obtain ⟨qs, hqs, hholds⟩ := exists_holds_of_occurs hextent he
    exact hholds.delimits hps hqs (Nat.le_trans he.depth_le hdepth)
  · intro name params span hcall
    obtain ⟨qs, hqs, hholds⟩ := exists_holds_of_occurs hextent hcall
    have hinside := hps.inOrder.sublist hqs.sublist
    obtain ⟨a, called, rs, b, rfl, hrs⟩ := hholds.params
    have hrest : rs.Sublist (a :: called :: (rs ++ [b])) :=
      ((List.sublist_append_left rs [b]).cons called).cons a
    exact ⟨pairwise_before hrs (hinside.sublist hrest),
      fun e he => hholds.strictlyWithin hinside he⟩
  · intro e he
    obtain ⟨qs, hqs, hholds⟩ := exists_holds_of_mem hextent he
    rw [hspan]
    exact hholds.within hqs hps.inOrder
  · rw [hspan]
    constructor
    · intro hnone
      by_contra hne
      obtain ⟨a, b, -, -, hsome⟩ := s.programSpan_pieces (by simpa using hne)
      rw [hsome] at hnone
      cases hnone
    · intro hnil
      rw [hnil]
      rfl
  · intro first last hfirst hlast
    rw [hspan, Reader.programSpan, hfirst, hlast]
    rw [List.head?_map, Option.map_eq_some_iff] at hfirst
    rw [List.getLast?_map, Option.map_eq_some_iff] at hlast
    obtain ⟨a, -, rfl⟩ := hfirst
    obtain ⟨b, -, rfl⟩ := hlast
    exact ⟨_, _, rfl, rfl, rfl⟩

theorem nodes_delimit_their_text_of_nested_call :
    ∃ p e, program Allowance.usual.room ⟨"(f 1\n(g 2))3", none⟩ = .ok p ∧ e.Occurs p.body ∧
      e.bare = .call "g" [.number "2" none] none ∧
      Delimits ⟨"(f 1\n(g 2))3", none⟩ Allowance.usual.room e 5 10 := by
  have hprogram : program Allowance.usual.room ⟨"(f 1\n(g 2))3", none⟩ = .ok ⟨
    [.call "f" [.number "1" (some ⟨⟨1, 4, 3, none⟩, ⟨1, 5, 4, none⟩⟩),
      .call "g" [.number "2" (some ⟨⟨2, 4, 8, none⟩, ⟨2, 5, 9, none⟩⟩)]
        (some ⟨⟨2, 1, 5, none⟩, ⟨2, 6, 10, none⟩⟩)]
      (some ⟨⟨1, 1, 0, none⟩, ⟨2, 7, 11, none⟩⟩),
      .number "3" (some ⟨⟨2, 7, 11, none⟩, ⟨2, 8, 12, none⟩⟩)],
    some ⟨⟨1, 1, 0, none⟩, ⟨2, 8, 12, none⟩⟩⟩ := by
    rw [program_eq_bind, tokens_eq_within]
    rfl
  have hnodes := (nodes_delimit_their_text _ _ _ hprogram).1
  obtain ⟨i, j, hdelimits⟩ := hnodes _ (.inside (.head _) (.here (.tail _ (.head _))))
  have hspan := Option.some.inj hdelimits.span
  have hi : (5 : Int) = i := congrArg (fun span => span.start.offset) hspan
  have hj : (10 : Int) = j := congrArg (fun span => span.stop.offset) hspan
  obtain rfl : 5 = i := by omega
  obtain rfl : 10 = j := by omega
  exact ⟨_, _, hprogram, .inside (.head _) (.here (.tail _ (.head _))), rfl, hdelimits⟩

end Source

end CallForms
