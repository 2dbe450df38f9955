import CallForms.Proofs.Source.Joining
import CallForms.Source.Session

namespace CallForms.Source

def blankOut (ch : Char) : Char :=
  if recognized ch then ch else ' '

def blanked (s : Source) : Source :=
  ⟨s.text.map blankOut, s.file⟩

def straysFrom (offset : Nat) (text : List Char) : List (Char × Nat) :=
  (text.zipIdx offset).filter fun x => !recognized x.1

def strays (s : Source) : List (Char × Nat) :=
  straysFrom 0 s.text.toList

structure Successive (offset : Int) (spans : List Span) : Prop where
  proper : ∀ a ∈ spans, offset ≤ a.start.offset ∧ a.start.offset < a.stop.offset
  ordered : spans.Pairwise fun a b => a.stop.offset ≤ b.start.offset

inductive Resumes (s : Source) : Cursor → List (Token ⊕ Fault) → Prop
  | done {c next : Cursor} (h : s.scan c = .done next) : Resumes s c []
  | token {c next : Cursor} {t : Token} {found : List (Token ⊕ Fault)}
      (h : s.scan c = .token t next) (hr : Resumes s next found) : Resumes s c (.inl t :: found)
  | fault {c next : Cursor} {f : Fault} {found : List (Token ⊕ Fault)}
      (h : s.scan c = .fault f next) (hr : Resumes s next found) : Resumes s c (.inr f :: found)

variable {s : Source} {c next : Cursor} {t : Token} {f : Fault} {found : List (Token ⊕ Fault)}
  {before gap text : List Char} {ch : Char}

theorem Successive.cons {a : Span} {offset : Int} {spans : List Span}
    (h : Successive a.stop.offset spans) (hstart : offset ≤ a.start.offset)
    (hproper : a.start.offset < a.stop.offset) : Successive offset (a :: spans) := by
  constructor
  · refine List.forall_mem_cons.mpr ⟨⟨hstart, hproper⟩, ?_⟩
    intro b hb
    obtain ⟨hfrom, hb⟩ := h.proper b hb
    exact ⟨by omega, hb⟩
  · exact h.ordered.cons fun b hb => (h.proper b hb).1

theorem recognized_of_gap (h : ∀ ch ∈ gap, Text.isBlank ch = true) :
    ∀ ch ∈ gap, recognized ch = true := by
  intro ch hch
  exact recognized_of_blank (h ch hch)

theorem map_blankOut (h : ∀ ch ∈ text, recognized ch = true) : text.map blankOut = text := by
  conv_rhs => rw [← List.map_id' text]
  exact List.map_congr_left fun ch hch => if_pos (h ch hch)

theorem straysFrom_append (h : ∀ ch ∈ text, recognized ch = true) (offset : Nat)
    (rest : List Char) :
    straysFrom offset (text ++ rest) = straysFrom (offset + text.length) rest := by
  have hnone : ((text.zipIdx offset).filter fun x => !recognized x.1) = [] := by
    rw [List.filter_eq_nil_iff]
    intro x hx
    simp [h x.1 (List.fst_mem_of_mem_zipIdx hx)]
  rw [straysFrom, List.zipIdx_append, List.filter_append, hnone, List.nil_append, straysFrom]

theorem straysFrom_cons (h : recognized ch = false) (offset : Nat) (rest : List Char) :
    straysFrom offset (ch :: rest) = (ch, offset) :: straysFrom (offset + 1) rest := by
  rw [straysFrom, List.zipIdx_cons, List.filter_cons_of_pos (by simp [h]), straysFrom]

theorem blankOut_stray (h : recognized ch = false) : blankOut ch = ' ' := by
  simp [blankOut, h]

theorem Stops.blankOut {k : Token.Kind} (h : Stops k text) : Stops k (text.map blankOut) := by
  intro hk ch hch
  rw [List.head?_map, Option.mem_map] at hch
  obtain ⟨x, hx, rfl⟩ := hch
  cases hr : recognized x with
  | true =>
    rw [Source.blankOut, if_pos hr]
    exact h hk x hx
  | false =>
    rw [blankOut_stray hr]
    cases k <;> rfl

theorem Meets.blanked (h : s.Meets c gap t next) :
    s.blanked.Meets ⟨c.spot, c.rest.map blankOut⟩ gap t ⟨next.spot, next.rest.map blankOut⟩ := by
  have hgap : gap.map blankOut = gap := map_blankOut (recognized_of_gap h.blank)
  have hword : t.text.toList.map blankOut = t.text.toList :=
    map_blankOut (recognized_of_lexeme h.lexeme)
  refine ⟨h.blank, h.lexeme, h.stops.blankOut, ?_, h.spot, h.span⟩
  rw [h.rest, List.map_append, List.map_append, hgap, hword]

theorem Passed.scan_blanked_of_fault (hc : s.Passed before c) (h : s.scan c = .fault f next) :
    s.blanked.scan ⟨c.spot, c.rest.map blankOut⟩ =
      s.blanked.scan ⟨next.spot, next.rest.map blankOut⟩ := by
  obtain ⟨gap, ch, hgap, hrest, hnext, hb, ha, -⟩ := hc.scan_fault h
  have hstray := not_recognized hb ha
  have hgap' : gap.map blankOut = gap := map_blankOut (recognized_of_gap hgap)
  have hblank : ∀ x ∈ gap ++ [' '], Text.isBlank x = true := by
    rw [List.forall_mem_append, List.forall_mem_singleton]
    exact ⟨hgap, rfl⟩
  have hmap : c.rest.map blankOut = (gap ++ [' ']) ++ next.rest.map blankOut := by
    rw [hrest, List.map_append, List.map_cons, hgap', blankOut_stray hstray, List.append_assoc,
      List.singleton_append]
  -- No line feed is blanked out, so a blank in its place leads to the same spot.
  have hspot' : c.spot.after (gap ++ [' ']) = next.spot := by
    have hne : ch ≠ '\n' := by
      rintro rfl
      cases hstray
    rw [hnext.spot, Spot.after_append, Spot.after_append _ _ [ch], Spot.after_append _ before,
      ← hc.spot]
    simp [Spot.after, Spot.past, hne]
  rw [hmap, scan_blank_append _ _ hblank, hspot']

theorem Passed.exists_resumes (hc : s.Passed before c) : ∃ found, s.Resumes c found := by
  induction hn : c.rest.length using Nat.strongRecOn generalizing before c with
  | ind n ih =>
    cases hscan : s.scan c with
    | done next => exact ⟨[], .done hscan⟩
    | token t next =>
      obtain ⟨gap, hm⟩ := meets_of_scan hscan
      obtain ⟨found, hfound⟩ := ih _ (hn ▸ length_rest_lt_of_scan hscan) (hm.passed hc).2 rfl
      exact ⟨_, .token hscan hfound⟩
    | fault f next =>
      obtain ⟨gap, ch, -, hrest, hnext, -⟩ := hc.scan_fault hscan
      have hlt : next.rest.length < n := by
        rw [← hn, hrest, List.length_append, List.length_cons]
        omega
      obtain ⟨found, hfound⟩ := ih _ hlt hnext rfl
      exact ⟨_, .fault hscan hfound⟩

namespace Resumes

theorem replies (h : s.Resumes c found) (feeds : String → Feed) :
    (Session.run s ⟨c, feeds⟩ (.replicate (found.length + 1) .scan)).map Prod.fst =
      found.map (Sum.elim .token .fault) ++ [.nothing] := by
  induction h with
  | done h => simp [Session.run, Session.answer, h]
  | token h _ ih =>
    rw [List.length_cons, List.replicate_succ, Session.run, List.map_cons]
    simp only [Session.answer, h, ih]
    rfl
  | fault h _ ih =>
    rw [List.length_cons, List.replicate_succ, Session.run, List.map_cons]
    simp only [Session.answer, h, ih]
    rfl

theorem scans_blanked (h : s.Resumes c found) (hc : s.Passed before c) :
    s.blanked.Scans ⟨c.spot, c.rest.map blankOut⟩ (found.filterMap Sum.getLeft?) none := by
  induction h generalizing before with
  | done h =>
    have hblank := blank_of_scan_done h
    rw [map_blankOut (recognized_of_gap hblank)]
    exact .done (scan_of_blank s.blanked hblank)
  | token h _ ih =>
    obtain ⟨gap, hm⟩ := meets_of_scan h
    exact .token hm.blanked.scan_eq (ih (hm.passed hc).2)
  | fault h _ ih =>
    obtain ⟨gap, ch, -, -, hnext, -⟩ := hc.scan_fault h
    exact (ih hnext).congr (hc.scan_blanked_of_fault h)

theorem faults (h : s.Resumes c found) (hc : s.Passed before c) :
    found.filterMap Sum.getRight? =
      (straysFrom before.length c.rest).map fun x => s.strayFault x.2 x.1 := by
  induction h generalizing before with
  | done h =>
    have hnone := straysFrom_append (recognized_of_gap (blank_of_scan_done h)) before.length []
    rw [List.append_nil] at hnone
    rw [hnone]
    rfl
  | @token c next t found h _ ih =>
    obtain ⟨gap, hm⟩ := meets_of_scan h
    have hgood : ∀ ch ∈ gap ++ t.text.toList, recognized ch = true := by
      rw [List.forall_mem_append]
      exact ⟨recognized_of_gap hm.blank, recognized_of_lexeme hm.lexeme⟩
    rw [hm.rest, straysFrom_append hgood, ← List.length_append, ← List.append_assoc,
      ← ih (hm.passed hc).2]
    rfl
  | fault h _ ih =>
    obtain ⟨gap, ch, hgap, hrest, hnext, hb, ha, rfl⟩ := hc.scan_fault h
    have hlater := ih hnext
    rw [List.length_append, List.length_singleton] at hlater
    rw [hrest, straysFrom_append (recognized_of_gap hgap), straysFrom_cons (not_recognized hb ha),
      ← List.length_append, List.map_cons, ← hlater]
    rfl

theorem successive (h : s.Resumes c found) (hc : s.Passed before c) :
    ∃ spans, found.map (Sum.elim Token.span Fault.span) = spans.map some ∧
      Successive before.length spans := by
  induction h generalizing before with
  | done h => exact ⟨[], rfl, by simp, .nil⟩
  | @token c next t found h _ ih =>
    obtain ⟨gap, hm⟩ := meets_of_scan h
    obtain ⟨spans, hspans, hlater⟩ := ih (hm.passed hc).2
    have hne := List.length_pos_iff.mpr hm.lexeme.nonempty
    refine ⟨_ :: spans, ?_, hlater.cons (a := ⟨s.place (before ++ gap).length, s.place _⟩) ?_ ?_⟩
    · rw [List.map_cons, List.map_cons, hspans, Sum.elim_inl, hm.span_eq hc]
    · simp only [place, List.length_append]
      omega
    · simp only [place, List.length_append]
      omega
  | fault h _ ih =>
    obtain ⟨gap, ch, -, -, hnext, -, -, rfl⟩ := hc.scan_fault h
    obtain ⟨spans, hspans, hlater⟩ := ih hnext
    rw [List.length_append, List.length_singleton] at hlater
    refine ⟨_ :: spans, ?_, hlater.cons (a := ⟨s.place (before ++ gap).length, s.place _⟩) ?_ ?_⟩
    · rw [List.map_cons, List.map_cons, hspans]
      rfl
    · simp only [place, List.length_append]
      omega
    · simp only [place]
      omega

end Resumes

theorem length_eq_add {α β : Type} (found : List (α ⊕ β)) :
    found.length =
      (found.filterMap Sum.getLeft?).length + (found.filterMap Sum.getRight?).length := by
  induction found with
  | nil => rfl
  | cons x found ih =>
    cases x with
    | inl a =>
      simp only [List.filterMap_cons, Sum.getLeft?_inl, Sum.getRight?_inl, List.length_cons, ih]
      omega
    | inr b =>
      simp only [List.filterMap_cons, Sum.getLeft?_inr, Sum.getRight?_inr, List.length_cons, ih]
      omega

theorem scanning_resumes_behind_strays (s : Source) :
    ∃ (ts : List Token) (found : List (Token ⊕ Fault)), s.blanked.tokens = .ok ts ∧
      (Session.run s (Session.start s)
        (.replicate (ts.length + s.strays.length + 1) .scan)).map Prod.fst =
          found.map (Sum.elim .token .fault) ++ [.nothing] ∧
      found.filterMap Sum.getLeft? = ts ∧
      found.filterMap Sum.getRight? = s.strays.map (fun x => s.strayFault x.2 x.1) ∧
      ∃ spans, found.map (Sum.elim Token.span Fault.span) = spans.map some ∧
        Successive 0 spans := by
  obtain ⟨found, h⟩ := (Passed.ofText s).exists_resumes
  have hfaults : found.filterMap Sum.getRight? =
      s.strays.map fun x => s.strayFault x.2 x.1 := h.faults (.ofText s)
  have hlength := length_eq_add found
  rw [hfaults, List.length_map] at hlength
  refine ⟨_, found, ?_, ?_, rfl, hfaults, h.successive (.ofText s)⟩
  · have hcursor : Cursor.ofText s.blanked.text = ⟨.start, s.text.toList.map blankOut⟩ := by
      rw [Cursor.ofText, blanked, String.toList_map]
    rw [tokens, hcursor]
    exact (h.scans_blanked (.ofText s)).tokensFrom_eq
  · rw [← hlength]
    exact h.replies _

end CallForms.Source
