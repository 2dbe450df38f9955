import CallForms.Proofs.Source.Scan
import Mathlib.Data.List.DropRight

namespace CallForms

namespace Spot

theorem start_after (text : List Char) :
    start.after text =
      ⟨text.length, 1 + text.count '\n', 1 + (text.rtakeWhile (· ≠ '\n')).length⟩ := by
  induction text using List.reverseRecOn with
  | nil => rfl
  | append_singleton text c ih =>
    rw [after_append, ih]
    show past _ c = _
    by_cases hc : c = '\n'
    · subst hc
      simp [past, Nat.add_assoc]
    · simp [past, hc, Nat.add_assoc]

end Spot

namespace Source

def place (s : Source) (offset : Nat) : Location :=
  let before := s.text.toList.take offset
  ⟨1 + before.count '\n', 1 + (before.rtakeWhile (· ≠ '\n')).length, offset, s.file⟩

structure Passed (s : Source) (before : List Char) (c : Cursor) : Prop where
  text : s.text.toList = before ++ c.rest
  spot : c.spot = Spot.start.after before

variable {s : Source} {c next : Cursor} {t : Token} {before gap rest : List Char} {ch : Char}

namespace Passed

theorem ofText (s : Source) : s.Passed [] (.ofText s.text) :=
  ⟨rfl, rfl⟩

theorem move {word : List Char} (h : s.Passed before c) (hrest : c.rest = word ++ next.rest)
    (hspot : next.spot = c.spot.after word) : s.Passed (before ++ word) next := by
  constructor
  · rw [h.text, hrest, List.append_assoc]
  · rw [hspot, h.spot, Spot.after_append]

theorem skip (h : s.Passed before c) (p : Char → Bool) :
    s.Passed (before ++ c.run p) (c.skip p) :=
  h.move (Cursor.run_append_rest c p).symm rfl

theorem location (h : s.Passed before c) : c.spot.location s.file = s.place before.length := by
  have htake : s.text.toList.take before.length = before := by rw [h.text, List.take_left]
  simp [h.spot, Spot.location, Spot.start_after, place, htake]

theorem length_le (h : s.Passed before c) : before.length ≤ s.text.toList.length := by
  rw [h.text, List.length_append]
  omega

end Passed

theorem span_of_scanHere (h : s.scanHere c = .token t next) :
    t.span = some (s.span c next) ∧ next.spot = c.spot.after t.text.toList := by
  have hst := stands_scanHere s c
  rw [h] at hst
  generalize hr : Scan.token t next = r at hst
  cases hst with
  | done hrest => cases hr
  | fault hrest ha => cases hr
  | paren hrest ha =>
    cases hr
    exact ⟨rfl, by simp [Spot.after]⟩
  | run hk hrest ha =>
    simp only [runToken, Scan.token.injEq] at hr
    obtain ⟨rfl, rfl⟩ := hr
    exact ⟨rfl, by simp [Cursor.skip]⟩

structure Meets (s : Source) (c : Cursor) (gap : List Char) (t : Token) (next : Cursor) :
    Prop where
  blank : ∀ ch ∈ gap, Text.isBlank ch = true
  lexeme : t.Lexeme
  stops : Stops t.kind next.rest
  rest : c.rest = gap ++ t.text.toList ++ next.rest
  spot : next.spot = c.spot.after (gap ++ t.text.toList)
  span : t.span = some ⟨(c.spot.after gap).location s.file, next.spot.location s.file⟩

theorem meets_of_scan (h : s.scan c = .token t next) : ∃ gap, s.Meets c gap t next := by
  obtain ⟨ht, hhere, hstop⟩ := lexeme_of_scanHere h
  obtain ⟨hspan, hspot⟩ := span_of_scanHere h
  refine ⟨c.run Text.isBlank, ?_, ht, hstop, ?_, ?_, hspan⟩
  · intro ch hch
    exact List.mem_takeWhile_imp hch
  · rw [List.append_assoc, ← hhere, Cursor.run_append_rest]
  · rw [hspot, Spot.after_append]
    rfl

theorem Meets.scan_eq (h : s.Meets c gap t next) : s.scan c = .token t next := by
  obtain ⟨u, next', hscan, hbare, hrest⟩ := scan_of_lexeme s h.lexeme h.blank h.rest h.stops
  obtain ⟨gap', hu⟩ := meets_of_scan hscan
  obtain ⟨hkind, htext⟩ : u.kind = t.kind ∧ u.text = t.text := by
    simpa [Token.bare] using hbare
  obtain rfl : gap = gap' := by
    have hsame := h.rest.symm.trans hu.rest
    rw [hrest, htext] at hsame
    exact List.append_cancel_right (List.append_cancel_right hsame)
  have hspot : next'.spot = next.spot := by rw [hu.spot, h.spot, htext]
  have hnext : next' = next := by
    cases next
    cases next'
    simp_all
  have hspan : u.span = t.span := by rw [hu.span, h.span, hspot]
  have htoken : u = t := by
    cases u
    cases t
    simp_all
  rw [hscan, htoken, hnext]

theorem Meets.passed (h : s.Meets c gap t next) (hc : s.Passed before c) :
    s.Passed (before ++ gap) ⟨c.spot.after gap, t.text.toList ++ next.rest⟩ ∧
      s.Passed (before ++ gap ++ t.text.toList) next := by
  have hgap : s.Passed (before ++ gap) ⟨c.spot.after gap, t.text.toList ++ next.rest⟩ :=
    hc.move (by rw [h.rest, List.append_assoc]) rfl
  exact ⟨hgap, hgap.move rfl (by rw [h.spot, Spot.after_append])⟩

theorem Meets.span_eq (h : s.Meets c gap t next) (hc : s.Passed before c) :
    t.span = some ⟨s.place (before ++ gap).length,
      s.place (before ++ gap ++ t.text.toList).length⟩ := by
  obtain ⟨hgap, hnext⟩ := h.passed hc
  rw [h.span, ← hgap.location, ← hnext.location]

theorem not_blank_of_rest_skip (h : (c.skip Text.isBlank).rest = ch :: rest) :
    Text.isBlank ch = false := by
  have hdrop : c.rest.dropWhile Text.isBlank = ch :: rest := h
  have hnot := List.head_dropWhile_not Text.isBlank (hdrop ▸ List.cons_ne_nil ch rest)
  simpa [hdrop] using hnot

def strayFault (s : Source) (offset : Nat) (ch : Char) : Fault :=
  ⟨.unrecognizedCharacter ch.toString (some (s.place offset)),
    some ⟨s.place offset, s.place (offset + 1)⟩, s.line? (s.place offset).line⟩

theorem Passed.scan_fault {f : Fault} (hc : s.Passed before c) (h : s.scan c = .fault f next) :
    ∃ gap ch, (∀ x ∈ gap, Text.isBlank x = true) ∧ c.rest = gap ++ ch :: next.rest ∧
      s.Passed (before ++ gap ++ [ch]) next ∧ Text.isBlank ch = false ∧
      (∀ k : Token.Kind, k.admits ch = false) ∧ f = s.strayFault (before ++ gap).length ch := by
  have hskip := hc.skip Text.isBlank
  have hst := stands_scanHere s (c.skip Text.isBlank)
  rw [← scan, h] at hst
  cases hst with
  | @fault ch rest hrest ha =>
    have hnext : s.Passed (before ++ c.run Text.isBlank ++ [ch])
        ⟨(c.skip Text.isBlank).spot.past ch, rest⟩ := hskip.move hrest rfl
    refine ⟨c.run Text.isBlank, ch, fun x hx => List.mem_takeWhile_imp hx, ?_, hnext,
      not_blank_of_rest_skip hrest, ha, ?_⟩
    · rw [← hrest, Cursor.run_append_rest]
    · have hstart := hskip.location
      have hstop := hnext.location
      rw [List.length_append, List.length_singleton] at hstop
      rw [unrecognized, span, strayFault, hstart, hstop, ← hstart]
      rfl

end Source

end CallForms
