import CallForms.Proofs.Compilation.Composition

namespace CallForms

def Location.beneath (upper : String) (l : Location) : Location :=
  ⟨l.line + (1 + upper.toList.count '\n'), l.column, l.offset + (upper.length + 1), l.file⟩

def Span.beneath (upper : String) (s : Span) : Span :=
  ⟨s.start.beneath upper, s.stop.beneath upper⟩

def Token.beneath (upper : String) (t : Token) : Token :=
  ⟨t.kind, t.text, t.span.map (Span.beneath upper)⟩

theorem Token.Lexeme.beneath {t : Token} (h : t.Lexeme) (upper : String) :
    (t.beneath upper).Lexeme :=
  ⟨h.nonempty, h.admitted, h.single⟩

theorem Text.rtakeWhile_line (text more : List Char) :
    (text ++ '\n' :: more).rtakeWhile (· ≠ '\n') = more.rtakeWhile (· ≠ '\n') := by
  have hline := takeWhile_line more.reverse text.reverse
  simpa [List.rtakeWhile] using hline

theorem Text.length_line (text : String) (more : List Char) :
    (text.toList ++ '\n' :: more).length = text.length + 1 + more.length := by
  simp [← String.length_toList]
  omega

theorem Spot.location_beneath (upper : String) (text : List Char) (file : Option String) :
    (start.after (upper.toList ++ '\n' :: text)).location file =
      ((start.after text).location file).beneath upper := by
  rw [start_after, start_after, Text.rtakeWhile_line]
  simp [location, Location.beneath, ← String.length_toList]
  omega

namespace Source

variable {s s' : Source} {upper : String} {c next : Cursor} {t : Token} {ts us : List Token}
  {f : Fault} {f? : Option Fault} {before gap after : List Char} {ch : Char}
  {file : Option String}

theorem place_beneath (htext : s'.text.toList = upper.toList ++ '\n' :: s.text.toList)
    (hfile : s'.file = s.file) (i : Nat) :
    s'.place (upper.length + 1 + i) = (s.place i).beneath upper := by
  have htake : s'.text.toList.take (upper.length + 1 + i) =
      upper.toList ++ '\n' :: s.text.toList.take i := by
    rw [htext, ← String.length_toList, List.take_append]
    simp [Nat.add_assoc, Nat.add_comm 1 i]
  rw [place, place, htake, hfile, Text.rtakeWhile_line]
  simp [Location.beneath]
  omega

theorem strayFault_beneath (htext : s.text.toList = before ++ ch :: after)
    (htext' : s'.text.toList = upper.toList ++ '\n' :: s.text.toList) (hfile : s'.file = s.file)
    (hch : ch ≠ '\n') :
    s'.strayFault (upper.length + 1 + before.length) ch =
      ⟨.unrecognizedCharacter ch.toString (some ((s.place before.length).beneath upper)),
        some ⟨(s.place before.length).beneath upper, (s.place (before.length + 1)).beneath upper⟩,
        s.line? (s.place before.length).line⟩ := by
  have hstart := place_beneath htext' hfile before.length
  have hstop := place_beneath htext' hfile (before.length + 1)
  have hsplit : s'.text.toList = (upper.toList ++ '\n' :: before) ++ ch :: after := by
    simp [htext', htext]
  rw [strayFault, line?_place, ← Text.length_line, lines_place hsplit hch, Text.length_line, hstart,
    Nat.add_assoc, hstop, Text.rtakeWhile_line, line?_place, lines_place htext hch]

theorem Meets.beneath (h : s.Meets c gap t next) (hc : s.Passed before c)
    (hfile : s'.file = s.file) (upper : String) :
    s'.Meets ⟨Spot.start.after (upper.toList ++ '\n' :: before), c.rest⟩ gap (t.beneath upper)
      ⟨Spot.start.after (upper.toList ++ '\n' :: (before ++ gap ++ t.text.toList)), next.rest⟩ := by
  have hmove : ∀ word, (Spot.start.after (upper.toList ++ '\n' :: before)).after word =
      Spot.start.after (upper.toList ++ '\n' :: (before ++ word)) := by
    intro word
    rw [← Spot.after_append, List.append_assoc, List.cons_append]
  obtain ⟨hstart, hstop⟩ := h.passed hc
  refine ⟨h.blank, h.lexeme.beneath upper, h.stops, h.rest, ?_, ?_⟩
  · rw [hmove, ← List.append_assoc]
    rfl
  · rw [hmove, hfile, Spot.location_beneath, Spot.location_beneath, ← hstart.spot, ← hstop.spot,
      Token.beneath, h.span]
    rfl

theorem Scans.beneath (h : s.Scans c ts f?) (hf : f? = none) (hc : s.Passed before c)
    (hfile : s'.file = s.file) (upper : String) :
    s'.Scans ⟨Spot.start.after (upper.toList ++ '\n' :: before), c.rest⟩
      (ts.map (Token.beneath upper)) none := by
  induction h generalizing before with
  | fault h => cases hf
  | done h =>
    have hblank := blank_of_scan_done h
    exact .done (scan_of_blank s' hblank)
  | token h _ ih =>
    obtain ⟨gap, hm⟩ := meets_of_scan h
    rw [List.map_cons]
    exact .token (hm.beneath hc hfile upper).scan_eq (ih hf (hm.passed hc).2)

theorem tokens_join_line {a b : String} (ha : tokens ⟨a, file⟩ = .ok ts)
    (hb : tokens ⟨b, file⟩ = .ok us) :
    tokens ⟨a ++ "\n" ++ b, file⟩ = .ok (ts ++ us.map (Token.beneath a)) := by
  have hfeed : ∀ ch ∈ ['\n'], Text.isBlank ch = true := List.forall_mem_singleton.mpr rfl
  have hfile : (Source.mk (a ++ "\n" ++ b) file).file = (Source.mk b file).file := rfl
  have hlower : Scans ⟨a ++ "\n" ++ b, file⟩ ⟨Spot.start.after (a.toList ++ ['\n']), b.toList⟩
      (us.map (Token.beneath a)) none :=
    (scans_of_tokensFrom hb).beneath rfl (.ofText _) hfile a
  have hrest : Scans ⟨a ++ "\n" ++ b, file⟩ ⟨Spot.start.after a.toList, ['\n'] ++ b.toList⟩
      (us.map (Token.beneath a)) none := by
    apply hlower.congr
    rw [scan_blank_append _ _ hfeed, Spot.after_append]
  have hscans : Scans ⟨a ++ "\n" ++ b, file⟩ ⟨Spot.start, a.toList ++ (['\n'] ++ b.toList)⟩
      (ts ++ us.map (Token.beneath a)) none :=
    (scans_of_tokensFrom ha).append rfl (apart_of_blank _ _ hfeed (by simp)) hrest
  have htext : (a ++ "\n" ++ b).toList = a.toList ++ (['\n'] ++ b.toList) := by simp
  rw [tokens, Cursor.ofText, htext]
  exact hscans.tokensFrom_eq

theorem tokens_join_line_error {a b : String} (ha : tokens ⟨a, file⟩ = .ok ts)
    (hb : tokens ⟨b, file⟩ = .error f) :
    ∃ char location span line,
      f = ⟨.unrecognizedCharacter char (some location), some span, some line⟩ ∧
      tokens ⟨a ++ "\n" ++ b, file⟩ = .error ⟨.unrecognizedCharacter char
        (some (location.beneath a)), some (span.beneath a), some line⟩ := by
  obtain ⟨before, ch, after, htext, hbefore, hch, rfl⟩ := exists_of_tokens_error hb
  have hne : ch ≠ '\n' := by
    rintro rfl
    cases hch
  have hlines := lines_place htext hne
  rw [← line?_place] at hlines
  have hjoin : (a ++ "\n" ++ b).toList = a.toList ++ '\n' :: b.toList := by simp
  have hsplit : (a ++ "\n" ++ b).toList = (a.toList ++ '\n' :: before) ++ ch :: after := by
    rw [hjoin, htext, List.append_assoc, List.cons_append]
  have hgood : ∀ x ∈ a.toList ++ '\n' :: before, recognized x = true := by
    rw [List.forall_mem_append, List.forall_mem_cons]
    exact ⟨recognized_of_tokens ha, rfl, hbefore⟩
  refine ⟨ch.toString, _, _, _, congrArg _ hlines, ?_⟩
  have hfile : (Source.mk (a ++ "\n" ++ b) file).file = (Source.mk b file).file := rfl
  have hfault := strayFault_beneath htext hjoin hfile hne
  rw [tokens_eq_error (stray?_eq_some (s := ⟨a ++ "\n" ++ b, file⟩) hsplit hgood hch),
    Text.length_line, hfault, hlines]
  rfl

theorem lines_scan_independently (a b : String) (file : Option String) :
    (∀ f, tokens ⟨a, file⟩ = .error f → tokens ⟨a ++ "\n" ++ b, file⟩ = .error f) ∧
    (∀ ts us, tokens ⟨a, file⟩ = .ok ts → tokens ⟨b, file⟩ = .ok us →
      tokens ⟨a ++ "\n" ++ b, file⟩ = .ok (ts ++ us.map (Token.beneath a))) ∧
    (∀ ts f, tokens ⟨a, file⟩ = .ok ts → tokens ⟨b, file⟩ = .error f →
      ∃ char location span line,
        f = ⟨.unrecognizedCharacter char (some location), some span, some line⟩ ∧
        tokens ⟨a ++ "\n" ++ b, file⟩ = .error ⟨.unrecognizedCharacter char
          (some (location.beneath a)), some (span.beneath a), some line⟩) := by
  refine ⟨?_, ?_, ?_⟩
  · intro f ha
    exact tokens_join_of_stray ha rfl
  · intro ts us ha hb
    exact tokens_join_line ha hb
  · intro ts f ha hb
    exact tokens_join_line_error ha hb

theorem lines_scan_independently_below_two_lines :
    tokens ⟨"%" ++ "\n" ++ "1", none⟩ = .error (strayFault ⟨"%", none⟩ 0 '%') ∧
    tokens ⟨"(f\n1" ++ "\n" ++ "2\n)", some "a"⟩ = .ok
      [⟨.paren, "(", some ⟨⟨1, 1, 0, some "a"⟩, ⟨1, 2, 1, some "a"⟩⟩⟩,
        ⟨.name, "f", some ⟨⟨1, 2, 1, some "a"⟩, ⟨1, 3, 2, some "a"⟩⟩⟩,
        ⟨.number, "1", some ⟨⟨2, 1, 3, some "a"⟩, ⟨2, 2, 4, some "a"⟩⟩⟩,
        ⟨.number, "2", some ⟨⟨3, 1, 5, some "a"⟩, ⟨3, 2, 6, some "a"⟩⟩⟩,
        ⟨.paren, ")", some ⟨⟨4, 1, 7, some "a"⟩, ⟨4, 2, 8, some "a"⟩⟩⟩] ∧
    tokens ⟨"(f\n1" ++ "\n" ++ " %2", some "a"⟩ = .error ⟨.unrecognizedCharacter "%"
      (some ⟨3, 2, 6, some "a"⟩), some ⟨⟨3, 2, 6, some "a"⟩, ⟨3, 3, 7, some "a"⟩⟩, some " %2"⟩ := by
  have hupper : tokens ⟨"(f\n1", some "a"⟩ = .ok
    [⟨.paren, "(", some ⟨⟨1, 1, 0, some "a"⟩, ⟨1, 2, 1, some "a"⟩⟩⟩,
      ⟨.name, "f", some ⟨⟨1, 2, 1, some "a"⟩, ⟨1, 3, 2, some "a"⟩⟩⟩,
      ⟨.number, "1", some ⟨⟨2, 1, 3, some "a"⟩, ⟨2, 2, 4, some "a"⟩⟩⟩] := by
    rw [tokens_eq_within]
    rfl
  have hlower : tokens ⟨"2\n)", some "a"⟩ = .ok
    [⟨.number, "2", some ⟨⟨1, 1, 0, some "a"⟩, ⟨1, 2, 1, some "a"⟩⟩⟩,
      ⟨.paren, ")", some ⟨⟨2, 1, 2, some "a"⟩, ⟨2, 2, 3, some "a"⟩⟩⟩] := by
    rw [tokens_eq_within]
    rfl
  have hstray : tokens ⟨" %2", some "a"⟩ = .error ⟨.unrecognizedCharacter "%"
    (some ⟨1, 2, 1, some "a"⟩), some ⟨⟨1, 2, 1, some "a"⟩, ⟨1, 3, 2, some "a"⟩⟩, some " %2"⟩ := by
    rw [tokens_eq_within]
    rfl
  have hfirst : tokens ⟨"%", none⟩ = .error (strayFault ⟨"%", none⟩ 0 '%') := by
    have htext : "%".toList = [] ++ '%' :: [] := rfl
    exact tokens_eq_error (stray?_eq_some (s := ⟨"%", none⟩) htext (by simp) rfl)
  refine ⟨?_, ?_, ?_⟩
  · exact (lines_scan_independently _ _ _).1 _ hfirst
  · exact (lines_scan_independently _ _ _).2.1 _ _ hupper hlower
  · obtain ⟨char, location, span, line, hf, htokens⟩ :=
      (lines_scan_independently _ _ _).2.2 _ _ hupper hstray
    cases hf
    exact htokens

end Source

end CallForms
