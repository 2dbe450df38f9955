import CallForms.Proofs.Compilation.Pointing

namespace CallForms

namespace Text

theorem lines_append_line (text more : String) :
    lines (text ++ "\n" ++ more) = lines text ++ lines more := by
  simp [lines, List.splitOn_append_cons_self]

theorem lines_eq_singleton {text : String} (h : '\n' ∉ text.toList) : lines text = [text] := by
  rw [lines, List.splitOn_eq_singleton h, List.map_singleton, String.ofList_toList]

theorem lines_intercalate (first : String) {rest : List String}
    (h : ∀ line ∈ rest, '\n' ∉ line.toList) :
    lines ("\n".intercalate (first :: rest)) = lines first ++ rest := by
  induction rest generalizing first with
  | nil => simp
  | cons line rest ih =>
    obtain ⟨hline, hrest⟩ := List.forall_mem_cons.mp h
    rw [String.intercalate_cons_cons, lines_append_line, ih line hrest, lines_eq_singleton hline]
    rfl

theorem toList_spaces (c : Char) (n : Nat) : ("".pushn c n).toList = List.replicate n c := by
  induction n with
  | zero => rfl
  | succ n ih =>
    have hpush : "".pushn c (n + 1) = ("".pushn c n).push c := by
      rw [String.pushn_eq_repeat_push, String.pushn_eq_repeat_push]
      rfl
    rw [hpush, String.toList_push, ih, List.replicate_succ']

end Text

namespace Diagnostic

variable {d : Diagnostic} {span : Span} {line : String} {n : Nat}

structure Displays (d : Diagnostic) (gutter line carets : String) : Prop where
  shown : d.sourceLine = some line
  last : [gutter ++ line, carets] ++ d.advice <:+ Text.lines d.format

theorem Displays.unique {gutter gutter' line line' carets carets' : String}
    (h : d.Displays gutter line carets) (h' : d.Displays gutter' line' carets') :
    gutter' = gutter ∧ carets' = carets := by
  obtain rfl : line = line' := Option.some.inj (h.shown.symm.trans h'.shown)
  have hlast := List.suffix_of_suffix_length_le h'.last h.last (by simp)
  have hsame := hlast.eq_of_length (by simp)
  simpa using hsame

theorem lines_format (hspan : d.span = some span) (hline : d.sourceLine = some line)
    (h : ∀ l ∈ excerpt span line ++ d.advice, '\n' ∉ l.toList) :
    Text.lines d.format = Text.lines d.header ++ (excerpt span line ++ d.advice) := by
  have hshown : d.shown? true = some (span, line) := by simp [shown?, hspan, hline]
  rw [format, lines, hshown]
  exact Text.lines_intercalate d.header h

theorem displays_of_lines (hspan : d.span = some span) (hline : d.sourceLine = some line)
    (h : ∀ l ∈ excerpt span line ++ d.advice, '\n' ∉ l.toList) :
    d.Displays (gutter span) line ("    | " ++ carets span line) := by
  refine ⟨hline, ?_⟩
  rw [lines_format hspan hline h]
  exact ⟨Text.lines d.header ++ ["  |"], by simp [excerpt]⟩

theorem toList_gutter (h : span.start.line = n) :
    (gutter span).toList = List.leftpad 3 ' ' (Nat.toDigits 10 n) ++ [' ', '|', ' '] := by
  have hdigits : (toString span.start.line).toList = Nat.toDigits 10 n := by
    rw [h]
    exact Nat.toList_repr
  rw [gutter, String.toList_append, hdigits, String.toList_ofList]
  rfl

theorem length_gutter_eq_six_iff (h : span.start.line = n) :
    (gutter span).length = 6 ↔ n < 1000 := by
  have hdigits : (Nat.toDigits 10 n).length ≤ 3 ↔ n < 10 ^ 3 :=
    Nat.length_toDigits_le_iff (by decide) (by decide)
  rw [← String.length_toList, toList_gutter h, List.length_append, List.length_leftpad]
  simp only [List.length_cons, List.length_nil]
  omega

theorem not_mem_gutter (h : span.start.line = n) : '\n' ∉ (gutter span).toList := by
  rw [toList_gutter h, List.leftpad, List.mem_append, List.mem_append]
  rintro ((hpad | hdigit) | hbar)
  · simp at hpad
  · have hisDigit := Nat.isDigit_of_mem_toDigits (by decide) (by decide) hdigit
    cases hisDigit
  · simp at hbar

theorem carets_eq (hline : span.stop.line = span.start.line)
    (hcolumn : span.stop.column = span.start.column + 1) (line : String) :
    carets span line = String.ofList (List.replicate (indent span).toNat ' ' ++ ['^']) := by
  have hwidth : width span line = 1 := by
    rw [width, endColumn, if_pos hline.symm, hcolumn]
    omega
  apply String.toList_inj.mp
  simp [carets, hwidth, Text.toList_spaces]

def caretLine (columns : Nat) : String :=
  "    | " ++ String.ofList (List.replicate columns ' ' ++ ['^'])

theorem count_caretLine (columns : Nat) : (caretLine columns).toList.count '^' = 1 := by
  simp [caretLine, List.count_replicate]

theorem idxOf_caretLine (columns : Nat) : (caretLine columns).toList.idxOf '^' = 6 + columns := by
  have hlist : (caretLine columns).toList =
      [' ', ' ', ' ', ' ', '|', ' '] ++ (List.replicate columns ' ' ++ ['^']) := by
    simp [caretLine]
  rw [hlist, List.idxOf_append_of_notMem (by simp), List.idxOf_append_of_notMem (by simp)]
  simp

theorem not_mem_caretLine (columns : Nat) : '\n' ∉ (caretLine columns).toList := by
  simp [caretLine]

end Diagnostic

def Fault.CaretBelow (f : Fault) : Prop :=
  ∃ (ch : Char) (location : Location) (gutter line carets : String),
    f.cause = .unrecognizedCharacter ch.toString (some location) ∧
    f.diagnostic.Displays gutter line carets ∧ carets.toList.count '^' = 1 ∧
    carets.toList.idxOf '^' = gutter.length + (location.column - 1).toNat ∧
    (gutter ++ line).toList[carets.toList.idxOf '^']? = some ch

namespace Source

variable {s : Source} {before after : List Char} {ch : Char} {f : Fault}

theorem place_next (h : s.text.toList = before ++ ch :: after) (hch : ch ≠ '\n') :
    (s.place (before.length + 1)).line = (s.place before.length).line ∧
      (s.place (before.length + 1)).column = (s.place before.length).column + 1 := by
  have htake : s.text.toList.take (before.length + 1) = before ++ [ch] := by
    rw [h, List.append_cons, ← List.length_singleton, ← List.length_append, List.take_left]
  have hbefore : s.text.toList.take before.length = before := by rw [h, List.take_left]
  simp [place, htake, hbefore, hch]
  omega

theorem line_place (s : Source) (i : Nat) :
    (s.place i).line = (1 + (s.text.toList.take i).count '\n' : Nat) := by
  simp [place]

theorem displays_strayFault (h : s.text.toList = before ++ ch :: after) (hch : ch ≠ '\n') :
    (s.strayFault before.length ch).diagnostic.Displays
      (Diagnostic.gutter ⟨s.place before.length, s.place (before.length + 1)⟩)
      (String.ofList (before.rtakeWhile (· ≠ '\n') ++ ch :: after.takeWhile (· ≠ '\n')))
      (Diagnostic.caretLine (before.rtakeWhile (· ≠ '\n')).length) := by
  obtain ⟨hline, hcolumn⟩ := place_next h hch
  have hshown := lines_place h hch
  rw [← line?_place] at hshown
  have hcarets : ∀ line, "    | " ++ Diagnostic.carets
      ⟨s.place before.length, s.place (before.length + 1)⟩ line =
        Diagnostic.caretLine (before.rtakeWhile (· ≠ '\n')).length := by
    intro line
    rw [Diagnostic.carets_eq hline hcolumn, Diagnostic.indent, (place_length h).2]
    rfl
  rw [← hcarets]
  apply Diagnostic.displays_of_lines rfl hshown
  intro l hl
  simp only [Diagnostic.excerpt, hcarets, List.cons_append, List.nil_append, List.mem_cons] at hl
  rcases hl with rfl | rfl | rfl | hadvice
  · simp
  · have hgutter : '\n' ∉ (Diagnostic.gutter
        ⟨s.place before.length, s.place (before.length + 1)⟩).toList :=
      Diagnostic.not_mem_gutter (s.line_place before.length)
    rw [String.toList_append, String.toList_ofList, List.mem_append, List.mem_append,
      List.mem_cons]
    rintro (hmem | hmem | heq | hmem)
    · exact hgutter hmem
    · simpa using List.mem_rtakeWhile_imp hmem
    · exact hch heq.symm
    · simpa using List.mem_takeWhile_imp hmem
  · exact Diagnostic.not_mem_caretLine _
  · obtain rfl := List.mem_singleton.mp hadvice
    simp

theorem getElem?_shown (gutter : String) (line more : List Char) (ch : Char) :
    (gutter ++ String.ofList (line ++ ch :: more)).toList[gutter.length + line.length]? =
      some ch := by
  rw [String.toList_append, String.toList_ofList, ← String.length_toList,
    List.getElem?_append_right (Nat.le_add_right _ _), Nat.add_sub_cancel_left,
    List.getElem?_append_right (Nat.le_refl _), Nat.sub_self]
  rfl

theorem caretBelow_strayFault_iff (h : s.text.toList = before ++ ch :: after) (hch : ch ≠ '\n') :
    (s.strayFault before.length ch).CaretBelow ↔ (s.place before.length).line < 1000 := by
  have hshown := displays_strayFault h hch
  have hcolumn := (place_length h).2
  have hwide : (Diagnostic.gutter ⟨s.place before.length, s.place (before.length + 1)⟩).length = 6 ↔
      1 + (s.text.toList.take before.length).count '\n' < 1000 :=
    Diagnostic.length_gutter_eq_six_iff (s.line_place before.length)
  have hline : (s.place before.length).line < 1000 ↔
      1 + (s.text.toList.take before.length).count '\n' < 1000 := by
    rw [line_place]
    omega
  rw [hline, ← hwide]
  constructor
  · rintro ⟨ch', location, gutter, line, carets, hcause, hshown', -, hindex, -⟩
    obtain ⟨rfl, rfl⟩ := hshown.unique hshown'
    obtain ⟨-, hlocation⟩ := Cause.unrecognizedCharacter.inj hcause
    obtain rfl := Option.some.inj hlocation
    rw [Diagnostic.idxOf_caretLine, hcolumn] at hindex
    omega
  · intro hsix
    have hindex : (Diagnostic.caretLine (before.rtakeWhile (· ≠ '\n')).length).toList.idxOf '^' =
        (Diagnostic.gutter ⟨s.place before.length, s.place (before.length + 1)⟩).length +
          (before.rtakeWhile (· ≠ '\n')).length := by
      rw [Diagnostic.idxOf_caretLine, hsix]
    refine ⟨ch, _, _, _, _, rfl, hshown, Diagnostic.count_caretLine _, ?_, ?_⟩
    · rw [hindex, hcolumn]
    · rw [hindex]
      exact getElem?_shown _ _ _ ch

theorem caret_below_character_iff (s : Source) (f : Fault) (h : s.tokens = .error f) :
    ∃ (ch : Char) (i : Nat) (gutter line carets : String),
      f.cause = .unrecognizedCharacter ch.toString (some (s.place i)) ∧
      f.diagnostic.Displays gutter line carets ∧ carets.toList.count '^' = 1 ∧
      carets.toList.idxOf '^' = 6 + ((s.place i).column - 1).toNat ∧
      (gutter ++ line).toList[gutter.length + ((s.place i).column - 1).toNat]? = some ch ∧
      (f.CaretBelow ↔ (s.place i).line < 1000) := by
  obtain ⟨before, ch, after, htext, -, hch, rfl⟩ := exists_of_tokens_error h
  have hne : ch ≠ '\n' := by
    rintro rfl
    cases hch
  have hcolumn := (place_length htext).2
  refine ⟨ch, before.length, _, _, _, rfl, displays_strayFault htext hne,
    Diagnostic.count_caretLine _, ?_, ?_, caretBelow_strayFault_iff htext hne⟩
  · rw [Diagnostic.idxOf_caretLine, hcolumn]
  · rw [hcolumn]
    exact getElem?_shown _ _ _ ch

theorem caret_below_character_of_second_line :
    ∃ f, tokens ⟨"(f\r\n\t%", some "a"⟩ = .error f ∧ f.CaretBelow := by
  have htokens : tokens ⟨"(f\r\n\t%", some "a"⟩ =
    .error ⟨.unrecognizedCharacter "%" (some ⟨2, 2, 5, some "a"⟩),
      some ⟨⟨2, 2, 5, some "a"⟩, ⟨2, 3, 6, some "a"⟩⟩, some "\t%"⟩ := by
    rw [tokens_eq_within]
    rfl
  obtain ⟨ch, i, -, -, -, hcause, -, -, -, -, hiff⟩ := caret_below_character_iff _ _ htokens
  obtain ⟨-, hplace⟩ := Cause.unrecognizedCharacter.inj hcause
  refine ⟨_, htokens, hiff.mpr ?_⟩
  rw [← Option.some.inj hplace]
  decide

theorem caret_beside_character_on_line_thousand :
    ∃ f, tokens ⟨String.ofList (List.replicate 999 '\n' ++ ['$']), none⟩ = .error f ∧
      ¬ f.CaretBelow := by
  obtain ⟨s, hs⟩ : ∃ s : Source, s = ⟨String.ofList (List.replicate 999 '\n' ++ ['$']), none⟩ :=
    ⟨_, rfl⟩
  have htext : s.text.toList = List.replicate 999 '\n' ++ '$' :: [] := by
    rw [hs, String.toList_ofList]
  have hblank : ∀ x ∈ List.replicate 999 '\n', recognized x = true := by
    intro x hx
    rw [List.eq_of_mem_replicate hx]
    rfl
  have hline : (s.place (List.replicate 999 '\n').length).line = 1000 := by
    rw [line_place, htext, List.take_left, List.count_replicate_self]
    rfl
  rw [← hs]
  refine ⟨_, tokens_eq_error (stray?_eq_some htext hblank rfl), ?_⟩
  rw [caretBelow_strayFault_iff htext (by decide), hline]
  decide

end Source

end CallForms
