import CallForms.Proofs.Compilation.Outcome
import CallForms.Proofs.Source.Pieces

namespace CallForms

namespace Text

theorem length_splitOn (text : List Char) :
    (text.splitOn '\n').length = text.count '\n' + 1 := by
  induction text with
  | nil => rfl
  | cons c rest ih =>
    rw [List.splitOn_eq_splitOnP] at ih ⊢
    rw [List.splitOnP_cons_eq_if_modifyHead]
    by_cases hc : c = '\n'
    · simp [hc, ih]
    · simp [hc, ih]

theorem head?_splitOn (text : List Char) :
    (text.splitOn '\n').head? = some (text.takeWhile (· ≠ '\n')) := by
  induction text with
  | nil => rfl
  | cons c rest ih =>
    rw [List.splitOn_eq_splitOnP] at ih ⊢
    rw [List.splitOnP_cons_eq_if_modifyHead]
    by_cases hc : c = '\n'
    · simp [hc]
    · simp [hc, ih]

theorem getElem?_splitOn (before after : List Char) :
    ((before ++ after).splitOn '\n')[before.count '\n']? =
      some (before.rtakeWhile (· ≠ '\n') ++ after.takeWhile (· ≠ '\n')) := by
  induction before using List.reverseRecOn generalizing after with
  | nil =>
    rw [List.nil_append, List.count_nil, ← List.head?_eq_getElem?, head?_splitOn]
    rfl
  | append_singleton before c ih =>
    rw [List.append_assoc, List.singleton_append]
    by_cases hc : c = '\n'
    · subst hc
      have hcount : (before ++ ['\n']).count '\n' = (before.splitOn '\n').length := by
        rw [length_splitOn, List.count_append, List.count_singleton_self]
      rw [List.splitOn_append_cons_self, hcount, List.getElem?_append_right (Nat.le_refl _),
        Nat.sub_self, ← List.head?_eq_getElem?, head?_splitOn]
      simp
    · have hline := ih (c :: after)
      simpa [hc] using hline

end Text

namespace Source

variable {s : Source} {f : Fault} {ts : List Token} {before after : List Char} {ch : Char} {k : Nat}

def Marks (s : Source) (found : Option Token) (i j : Nat) : Prop :=
  match found with
  | some t => s.text.toList.extract i j = t.text.toList
  | none => i = j ∧ (∀ ch ∈ s.text.toList.drop j, Text.isBlank ch = true) ∧
      ∃ ts t start, s.tokens = .ok ts ∧ ts.getLast? = some t ∧ t.span = some ⟨start, s.place i⟩

def Shows (s : Source) (f : Fault) (i j : Nat) : Prop :=
  match f.cause with
  | .unrecognizedCharacter char location =>
    s.text.toList.extract i j = char.toList ∧ location = some (s.place i) ∧
      ∃ line, f.diagnostic.sourceLine = some line ∧
        s.lines[((s.place i).line - 1).toNat]? = some line ∧
        (line.toList[((s.place i).column - 1).toNat]?).map Char.toString = some char
  | .unexpectedToken _ found => s.Marks found i j
  | .missingCallName found => s.Marks found i j
  | .unknownNode _ _ => False
  | .nestingTooDeep _ => False

theorem place_length (h : s.text.toList = before ++ after) :
    ((s.place before.length).line - 1).toNat = before.count '\n' ∧
      ((s.place before.length).column - 1).toNat = (before.rtakeWhile (· ≠ '\n')).length := by
  have htake : s.text.toList.take before.length = before := by rw [h, List.take_left]
  simp only [place, htake]
  omega

theorem getElem?_lines (h : s.text.toList = before ++ after) :
    s.lines[before.count '\n']? =
      some (String.ofList (before.rtakeWhile (· ≠ '\n') ++ after.takeWhile (· ≠ '\n'))) := by
  rw [lines, Text.lines, List.getElem?_map, h, Text.getElem?_splitOn]
  rfl

theorem lines_place (h : s.text.toList = before ++ ch :: after) (hch : ch ≠ '\n') :
    s.lines[((s.place before.length).line - 1).toNat]? =
      some (String.ofList (before.rtakeWhile (· ≠ '\n') ++ ch :: after.takeWhile (· ≠ '\n'))) := by
  rw [(place_length h).1, getElem?_lines h, List.takeWhile_cons_of_pos (by simpa using hch)]

theorem line?_place (s : Source) (i : Nat) :
    s.line? (s.place i).line = s.lines[((s.place i).line - 1).toNat]? := by
  rw [line?, Text.line?, if_pos (by simp only [place]; omega), lines]

theorem shows_strayFault (h : s.text.toList = before ++ ch :: after)
    (hch : recognized ch = false) :
    s.Shows (s.strayFault before.length ch) before.length (before.length + 1) := by
  have hne : ch ≠ '\n' := by
    rintro rfl
    cases hch
  have hlines := lines_place h hne
  refine ⟨?_, rfl, _, ?_, hlines, ?_⟩
  · simp [h, List.extract_eq_take_drop]
  · rw [← hlines, ← line?_place]
    rfl
  · rw [(place_length h).2, String.toList_ofList, List.getElem?_append_right (Nat.le_refl _),
      Nat.sub_self]
    rfl

theorem exists_marks {ps : List Piece} (hps : Cut s.text.toList 0 ps)
    (h : Reader.FailsFirstAt (ps.map s.pieceToken) k) :
    ∃ i j, i ≤ j ∧ j ≤ s.text.toList.length ∧
      Reader.spanAt (ps.map s.pieceToken) k = some ⟨s.place i, s.place j⟩ ∧
      s.Marks (ps.map s.pieceToken)[k]? i j := by
  cases hk : ps[k]? with
  | some p =>
    have hp := hps.proper p (List.mem_of_getElem? hk)
    refine ⟨p.start, p.stop, by omega, hp.2.2, ?_, ?_⟩
    · rw [Reader.spanAt, List.getElem?_map, hk]
      rfl
    · rw [List.getElem?_map, hk]
      exact (s.toList_pieceToken p).symm
  | none =>
    cases hlast : ps.getLast? with
    | none =>
      obtain rfl := List.getLast?_eq_none_iff.mp hlast
      exact absurd ⟨⟨[], none⟩, rfl⟩ h.not_whole
    | some p =>
      have hp := hps.proper p (List.mem_of_getLast? hlast)
      refine ⟨p.stop, p.stop, Nat.le_refl _, hp.2.2, ?_, ?_⟩
      · rw [Reader.spanAt, List.getElem?_map, hk, List.getLast?_map, hlast]
        rfl
      · rw [List.getElem?_map, hk]
        refine ⟨rfl, ?_, _, s.pieceToken p, s.place p.start, tokens_eq_ok_iff.mpr ⟨ps, hps, rfl⟩,
          ?_, rfl⟩
        · intro ch hch
          obtain ⟨i, hi⟩ := List.mem_iff_getElem?.mp hch
          rw [List.getElem?_drop] at hi
          exact hps.blank_behind hlast (Nat.le_add_right _ _) hi
        · rw [List.getLast?_map, hlast]
          rfl

theorem Marks.shows {i j k : Nat} {span : Option Span} (h : s.Marks ts[k]? i j) :
    s.Shows ⟨Reader.causeAt ts k, span, none⟩ i j := by
  unfold Reader.causeAt
  split
  · exact h
  · exact h

theorem diagnostics_point_at_text (room : Nat) (s : Source) (f : Fault)
    (h : s.compile room = .error f) (hc : ∀ stage, f.cause ≠ .nestingTooDeep stage) :
    ∃ i j, i ≤ j ∧ j ≤ s.text.toList.length ∧
      f.diagnostic.span = some ⟨s.place i, s.place j⟩ ∧ s.Shows f i j := by
  rcases compile_eq_error_iff.mp h with hs | ⟨ts, hs, hp | ⟨p, -, hemit⟩⟩
  · obtain ⟨before, ch, after, htext, -, hch, rfl⟩ := exists_of_tokens_error hs
    refine ⟨before.length, before.length + 1, Nat.le_succ _, ?_, rfl, shows_strayFault htext hch⟩
    simp [htext]
  · obtain ⟨k, hk, rfl⟩ := Reader.failsFirstAt_of_parse_error hp (hc _)
    obtain ⟨ps, hps, rfl⟩ := tokens_eq_ok_iff.mp hs
    obtain ⟨i, j, hij, hj, hspan, hmarks⟩ := exists_marks hps hk
    exact ⟨i, j, hij, hj, hspan, hmarks.shows⟩
  · obtain ⟨stage, rfl⟩ := Program.emit_error hemit
    exact absurd rfl (hc stage)

theorem diagnostics_point_at_text_of_second_line :
    (∃ f i j, compile Allowance.usual.room ⟨"(f\r\n\t%", some "a"⟩ = .error f ∧
      f.cause.code = "E001" ∧
      place ⟨"(f\r\n\t%", some "a"⟩ i = ⟨2, 2, 5, some "a"⟩ ∧ Shows ⟨"(f\r\n\t%", some "a"⟩ f i j) ∧
    (∃ f i j, compile Allowance.usual.room ⟨"(f\n 12 ", none⟩ = .error f ∧ f.cause.code = "E101" ∧
      place ⟨"(f\n 12 ", none⟩ i = ⟨2, 4, 6, none⟩ ∧ Shows ⟨"(f\n 12 ", none⟩ f i j) := by
  have hstray : compile Allowance.usual.room ⟨"(f\r\n\t%", some "a"⟩ =
    .error ⟨.unrecognizedCharacter "%" (some ⟨2, 2, 5, some "a"⟩),
      some ⟨⟨2, 2, 5, some "a"⟩, ⟨2, 3, 6, some "a"⟩⟩, some "\t%"⟩ := by
    rw [compile_eq_within]
    rfl
  have hopen : compile Allowance.usual.room ⟨"(f\n 12 ", none⟩ =
    .error ⟨.unexpectedToken "expression or ')'" none,
      some ⟨⟨2, 4, 6, none⟩, ⟨2, 4, 6, none⟩⟩, none⟩ := by
    rw [compile_eq_within]
    rfl
  constructor
  · obtain ⟨i, j, -, -, hspan, hshows⟩ := diagnostics_point_at_text _ _ _ hstray (by simp)
    exact ⟨_, i, j, hstray, rfl, (congrArg Span.start (Option.some.inj hspan)).symm, hshows⟩
  · obtain ⟨i, j, -, -, hspan, hshows⟩ := diagnostics_point_at_text _ _ _ hopen (by simp)
    exact ⟨_, i, j, hopen, rfl, (congrArg Span.start (Option.some.inj hspan)).symm, hshows⟩

end Source

end CallForms
