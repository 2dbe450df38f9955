import CallForms.Proofs.Compilation.Pointing
import CallForms.Proofs.Source.Interleaving

namespace CallForms.Source

structure InLine (s : Source) (c : Cursor) (line : String) : Prop where
  offset_le : c.spot.offset ≤ s.text.toList.length
  rest_eq : c.rest = s.text.toList.drop c.spot.offset
  line_eq : c.spot.line = 1 + (s.text.toList.take c.spot.offset).count '\n'
  column_eq : c.spot.column =
    1 + ((s.text.toList.take c.spot.offset).rtakeWhile (· ≠ '\n')).length
  line_bounds : 1 ≤ c.spot.line ∧ c.spot.line ≤ s.lines.length
  lines_get : s.lines[c.spot.line - 1]? = some line
  line?_eq : s.line? c.spot.line = some line
  column_le : c.spot.column - 1 ≤ line.toList.length
  char_eq : ∀ ch, s.text.toList[c.spot.offset]? = some ch → ch ≠ '\n' →
    line.toList[c.spot.column - 1]? = some ch
  column_at_end : s.text.toList[c.spot.offset]? = some '\n' →
    c.spot.column - 1 = line.toList.length

def Scan.next : Scan → Cursor
  | .token _ next => next
  | .fault _ next => next
  | .done next => next

variable {s : Source} {c : Cursor} {before : List Char} {ch : Char}

namespace Passed

theorem offset_eq (h : s.Passed before c) : c.spot.offset = before.length := by
  rw [h.spot, Spot.start_after]

theorem line_eq (h : s.Passed before c) : c.spot.line = 1 + before.count '\n' := by
  rw [h.spot, Spot.start_after]

theorem column_eq (h : s.Passed before c) :
    c.spot.column = 1 + (before.rtakeWhile (· ≠ '\n')).length := by
  rw [h.spot, Spot.start_after]

theorem take_offset (h : s.Passed before c) : s.text.toList.take c.spot.offset = before := by
  rw [h.offset_eq, h.text, List.take_left]

theorem drop_offset (h : s.Passed before c) : s.text.toList.drop c.spot.offset = c.rest := by
  rw [h.offset_eq, h.text, List.drop_left]

theorem rest_of_getElem? (h : s.Passed before c) (hch : s.text.toList[c.spot.offset]? = some ch) :
    ∃ after, c.rest = ch :: after := by
  rw [← List.head?_drop, h.drop_offset] at hch
  exact List.head?_eq_some_iff.mp hch

theorem at_end_iff (h : s.Passed before c) :
    c.rest = [] ↔ c.spot.offset = s.text.toList.length := by
  rw [← h.drop_offset, List.drop_eq_nil_iff, h.offset_eq]
  have hle := h.length_le
  omega

theorem inLine (h : s.Passed before c) : s.InLine c
    (String.ofList (before.rtakeWhile (· ≠ '\n') ++ c.rest.takeWhile (· ≠ '\n'))) := by
  have hline := getElem?_lines h.text
  have hnumber : c.spot.line - 1 = before.count '\n' := by rw [h.line_eq, Nat.add_sub_cancel_left]
  have hcolumn : c.spot.column - 1 = (before.rtakeWhile (· ≠ '\n')).length := by
    rw [h.column_eq, Nat.add_sub_cancel_left]
  constructor
  case offset_le =>
    rw [h.offset_eq]
    exact h.length_le
  case rest_eq => exact h.drop_offset.symm
  case line_eq => rw [h.take_offset, h.line_eq]
  case column_eq => rw [h.take_offset, h.column_eq]
  case line_bounds =>
    obtain ⟨hlt, -⟩ := List.getElem?_eq_some_iff.mp hline
    rw [h.line_eq]
    omega
  case lines_get => rw [hnumber, hline]
  case line?_eq =>
    -- A line is asked for by an integer, which has to be brought back to the count.
    have hpos : (1 : Int) ≤ c.spot.line := by rw [h.line_eq]; omega
    have hindex : ((c.spot.line : Int) - 1).toNat = before.count '\n' := by omega
    rw [line?, Text.line?, if_pos hpos, hindex, ← hline, lines]
  case column_le =>
    rw [hcolumn, String.toList_ofList, List.length_append]
    exact Nat.le_add_right _ _
  case char_eq =>
    intro ch hch hne
    obtain ⟨after, hrest⟩ := h.rest_of_getElem? hch
    rw [hcolumn, hrest, List.takeWhile_cons_of_pos (by simpa using hne), String.toList_ofList,
      List.getElem?_append_right (Nat.le_refl _), Nat.sub_self]
    rfl
  case column_at_end =>
    intro hch
    obtain ⟨after, hrest⟩ := h.rest_of_getElem? hch
    rw [hcolumn, hrest, List.takeWhile_cons_of_neg (by simp), String.toList_ofList,
      List.append_nil]

theorem scan_next (h : s.Passed before c) :
    ∃ passed, s.Passed (before ++ passed) (s.scan c).next := by
  cases hscan : s.scan c with
  | token t next =>
    obtain ⟨gap, hmeets⟩ := meets_of_scan hscan
    refine ⟨gap ++ t.text.toList, ?_⟩
    rw [← List.append_assoc]
    exact (hmeets.passed h).2
  | fault f next =>
    obtain ⟨gap, ch, -, -, hnext, -⟩ := h.scan_fault hscan
    refine ⟨gap ++ [ch], ?_⟩
    rw [← List.append_assoc]
    exact hnext
  | done next =>
    have hskip := scan_of_blank s (blank_of_scan_done hscan)
    obtain rfl : next = c.skip Text.isBlank := by
      rw [hscan] at hskip
      exact Scan.done.inj hskip
    exact ⟨_, h.skip _⟩

end Passed

namespace Session

variable {session : Session}

theorem cursor_answer_scan (session : Session) :
    (session.answer s .scan).2.cursor = (s.scan session.cursor).next := by
  rw [answer]
  cases s.scan session.cursor <;> rfl

theorem answer_advance_of_end (h : session.cursor.rest = []) :
    session.answer s .advance = (.pastEnd, session) := by
  simp [answer, Cursor.next?, h]

theorem answer_advance_of_cons {after : List Char} (h : session.cursor.rest = ch :: after) :
    session.answer s .advance =
      (.char ch, ⟨⟨session.cursor.spot.past ch, after⟩, session.feeds⟩) := by
  simp [answer, Cursor.next?, h]

theorem passed_answer (h : s.Passed before session.cursor) (request : Request) :
    ∃ passed, s.Passed (before ++ passed) (session.answer s request).2.cursor := by
  cases hm : request.moves with
  | false =>
    rw [cursor_answer_of_not_moves hm]
    exact ⟨[], by rwa [List.append_nil]⟩
  | true =>
    cases request with
    | scan =>
      rw [cursor_answer_scan]
      exact h.scan_next
    | advance =>
      cases hrest : session.cursor.rest with
      | nil =>
        rw [answer_advance_of_end hrest]
        exact ⟨[], by rwa [List.append_nil]⟩
      | cons ch after =>
        rw [answer_advance_of_cons hrest]
        exact ⟨[ch], h.move hrest rfl⟩
    | skip => exact ⟨_, h.skip Text.isBlank⟩
    | _ => cases hm

theorem passed_run (h : s.Passed before session.cursor) (requests : List Request) :
    ∀ now ∈ session :: (run s session requests).map Prod.snd,
      ∃ passed, s.Passed (before ++ passed) now.cursor := by
  induction requests generalizing session before with
  | nil =>
    rw [run, List.map_nil, List.forall_mem_singleton]
    exact ⟨[], by rwa [List.append_nil]⟩
  | cons request rest ih =>
    obtain ⟨passed, hnext⟩ := passed_answer h request
    rw [List.forall_mem_cons]
    refine ⟨⟨[], by rwa [List.append_nil]⟩, ?_⟩
    intro now hnow
    obtain ⟨more, hmore⟩ := ih hnext now hnow
    exact ⟨passed ++ more, by rwa [← List.append_assoc]⟩

theorem cursor_keeps_bearings (s : Source) (requests : List Request) (session : Session)
    (h : session ∈ start s :: (run s (start s) requests).map Prod.snd) :
    (∃ line, s.InLine session.cursor line) ∧
      (session.answer s .advance = (.pastEnd, session) ↔
        session.cursor.spot.offset = s.text.toList.length) := by
  have hstart : s.Passed [] (start s).cursor := .ofText s
  obtain ⟨before, hpassed⟩ := passed_run hstart requests session h
  refine ⟨⟨_, hpassed.inLine⟩, ?_⟩
  rw [← hpassed.at_end_iff]
  constructor
  · intro hanswer
    cases hrest : session.cursor.rest with
    | nil => rfl
    | cons ch after =>
      rw [answer_advance_of_cons hrest] at hanswer
      cases hanswer
  · exact answer_advance_of_end

theorem cursor_keeps_bearings_behind_last_line :
    InLine ⟨"a\n%\n", none⟩ ⟨⟨4, 3, 1⟩, []⟩ "" ∧
      answer ⟨"a\n%\n", none⟩ ⟨⟨⟨4, 3, 1⟩, []⟩, fun _ => none⟩ .advance =
        (.pastEnd, ⟨⟨⟨4, 3, 1⟩, []⟩, fun _ => none⟩) := by
  have hlast : (start ⟨"a\n%\n", none⟩ :: (run ⟨"a\n%\n", none⟩ (start ⟨"a\n%\n", none⟩)
      [.scan, .scan, .peek, .advance, .advance, .line 3]).map Prod.snd)[6]? =
        some ⟨⟨⟨4, 3, 1⟩, []⟩, fun _ => none⟩ := rfl
  obtain ⟨⟨line, hline⟩, hadvance⟩ :=
    cursor_keeps_bearings ⟨"a\n%\n", none⟩ _ _ (List.mem_of_getElem? hlast)
  have hempty : (lines ⟨"a\n%\n", none⟩)[2]? = some "" := rfl
  obtain rfl : line = "" := Option.some.inj (hline.lines_get.symm.trans hempty)
  exact ⟨hline, hadvance.mpr rfl⟩

end Session

end CallForms.Source
