import CallForms.Proofs.Compilation.Conservation
import CallForms.Proofs.Source.Joining

namespace CallForms

namespace Expr

variable {es fs : List Expr}

theorem eq_nil_of_tokensAll (h : tokensAll es = []) : es = [] := by
  cases es with
  | nil => rfl
  | cons e rest => exact absurd (List.append_eq_nil_iff.mp h).1 e.tokens_ne_nil

theorem code_nil : code [] = "" := by
  simp [code]

theorem code_eq_empty_iff (h : ∀ t ∈ tokensAll es, t.Lexeme) : code es = "" ↔ es = [] := by
  constructor
  · intro hcode
    rw [← code_nil, code_eq_iff h (by simp [tokensAll])] at hcode
    exact eq_nil_of_tokensAll hcode
  · rintro rfl
    exact code_nil

def joined (code later : String) : String :=
  if code = "" then later else if later = "" then code else code ++ "\n" ++ later

theorem code_append (hes : ∀ t ∈ tokensAll es, t.Lexeme) (hfs : ∀ t ∈ tokensAll fs, t.Lexeme) :
    code (es ++ fs) = joined (code es) (code fs) := by
  rw [joined]
  split
  · next hempty =>
    rw [(code_eq_empty_iff hes).mp hempty]
    rfl
  · next hne =>
    split
    · next hempty => rw [(code_eq_empty_iff hfs).mp hempty, List.append_nil]
    · next hne' =>
      rw [code_eq_empty_iff hes] at hne
      rw [code_eq_empty_iff hfs] at hne'
      rw [code, List.map_append]
      exact String.intercalate_append_of_ne_nil (by simpa using hne) (by simpa using hne')

end Expr

def Cause.token? : Cause → Option Token
  | .unexpectedToken _ found => found
  | .missingCallName found => found
  | _ => none

namespace Program

variable {p q r : Program} {room : Nat} {code : String} {f : Fault}

theorem levels_toTree_append (h : r.body = p.body ++ q.body) :
    r.toTree.levels = max p.toTree.levels q.toTree.levels := by
  simp only [toTree, Tree.levels, h, Expr.toTrees_eq_map, List.map_append,
    Tree.levelsAll_append, Nat.add_max_add_right]

theorem levels_lowered_append (h : r.body = p.body ++ q.body) :
    r.lowered.levels = max p.lowered.levels q.lowered.levels := by
  simp only [lowered, Tree.levels, h, List.map_append, Tree.levelsAll_append,
    Nat.add_max_add_right]

theorem emit_append_ok {later : String} (h : r.body = p.body ++ q.body)
    (hp : p.emit room = .ok code) (hq : q.emit room = .ok later) :
    r.emit room = .ok (Expr.code r.body) := by
  obtain ⟨hpsource, hptarget, -⟩ := emit_eq_ok_iff.mp hp
  obtain ⟨hqsource, hqtarget, -⟩ := emit_eq_ok_iff.mp hq
  rw [emit_eq_ok_iff, levels_toTree_append h, levels_lowered_append h]
  exact ⟨Nat.max_le.mpr ⟨hpsource, hqsource⟩, Nat.max_le.mpr ⟨hptarget, hqtarget⟩, rfl⟩

theorem emit_append_error (h : r.body = p.body ++ q.body) (hp : p.emit room = .ok code)
    (hq : q.emit room = .error f) : ∃ g, r.emit room = .error g ∧ g.cause = f.cause := by
  obtain ⟨hpsource, hptarget, -⟩ := emit_eq_ok_iff.mp hp
  rw [emit_eq] at hq
  rw [emit_eq, levels_toTree_append h, levels_lowered_append h]
  simp only [Nat.max_le, hpsource, hptarget, true_and]
  split at hq
  · next hsource =>
    rw [if_pos hsource]
    split at hq
    · cases hq
    · next htarget =>
      rw [if_neg htarget]
      cases hq
      exact ⟨_, rfl, rfl⟩
  · next hsource =>
    rw [if_neg hsource]
    cases hq
    exact ⟨_, rfl, rfl⟩

end Program

namespace Reader

variable {room : Nat} {ts us rest : List Token} {s : State} {c : Cause} {es : List Expr}
  {f : Fault}

theorem parse_of_refused (h : Run room .fresh us es s) (href : Refused room s rest c) :
    Program.parse room (us ++ rest) = .error (fault (us ++ rest) rest c) := by
  have hread : readBody room .fresh (us ++ rest) = ⟨.error c, rest⟩ := by
    rw [readBody_run h, readBody_refused href]
    rfl
  simp only [Program.parse, hread]

theorem parse_append_ok {p q : Program} (hp : Program.parse room ts = .ok p)
    (hq : Program.parse room us = .ok q) :
    Program.parse room (ts ++ us) = .ok ⟨p.body ++ q.body, programSpan (ts ++ us)⟩ :=
  parse_of_run ((run_of_parse_ok hp).append (run_of_parse_ok hq))

theorem parse_append_error {p : Program} (hp : Program.parse room ts = .ok p)
    (hf : Program.parse room us = .error f) :
    ∃ g, Program.parse room (ts ++ us) = .error g ∧ g.cause = f.cause := by
  obtain ⟨vs, es, s, c, hus, hrun, href, rfl⟩ := refused_of_parse_error hf
  have herror := parse_of_refused ((run_of_parse_ok hp).append hrun) href
  rw [List.append_assoc, ← hus] at herror
  exact ⟨_, herror, rfl⟩

theorem token?_atEnd (room : Nat) (s : State) : (s.atEnd room).token? = none := by
  cases s with
  | fresh => rfl
  | opened opening outer =>
    rw [State.atEnd]
    split <;> rfl
  | within frame outer => rfl

theorem fault_append (t : Token) (ts rest us vs : List Token) (c : Cause) :
    fault (ts ++ us) (t :: rest ++ vs) c = fault ts (t :: rest) c :=
  rfl

theorem parse_append_of_token (hf : Program.parse room ts = .error f)
    (ht : f.cause.token? ≠ none) (us : List Token) :
    Program.parse room (ts ++ us) = .error f := by
  obtain ⟨vs, es, s, c, hts, hrun, href, rfl⟩ := refused_of_parse_error hf
  rw [fault] at ht
  -- A fault with a token was met at that token, so what follows it was not read.
  generalize (readBody room .fresh ts).rest = rest at hts href ⊢
  cases href with
  | atEnd hs => exact absurd (token?_atEnd room s) ht
  | @token t rest _ hstep =>
    have hlonger : Refused room s (t :: (rest ++ us)) c := .token hstep
    have herror := parse_of_refused hrun hlonger
    rw [← List.cons_append, ← List.append_assoc, ← hts] at herror
    rw [herror, fault_append]

end Reader

theorem Text.takeWhile_line (text more : List Char) :
    (text ++ '\n' :: more).takeWhile (· ≠ '\n') = text.takeWhile (· ≠ '\n') := by
  induction text with
  | nil => simp
  | cons c text ih =>
    by_cases hc : c = '\n'
    · simp [hc]
    · rw [List.cons_append, List.takeWhile_cons_of_pos (by simpa using hc), ih,
        List.takeWhile_cons_of_pos (by simpa using hc)]

namespace Source

variable {room : Nat} {s s' : Source} {a b w c c' : String} {file : Option String} {f : Fault}
  {i : Nat} {ch : Char} {before after more : List Char}

theorem compile_join_ok (hw : ∀ ch ∈ w.toList, Text.isBlank ch = true) (hne : w ≠ "")
    (ha : compile room ⟨a, file⟩ = .ok c) (hb : compile room ⟨b, file⟩ = .ok c') :
    compile room ⟨a ++ w ++ b, file⟩ = .ok (Expr.joined c c') := by
  obtain ⟨ts, p, hts, hp, hpcode⟩ := compile_eq_ok_iff.mp ha
  obtain ⟨us, q, hus, hq, hqcode⟩ := compile_eq_ok_iff.mp hb
  obtain ⟨vs, hvs, hbare⟩ := tokens_join_blank hts hus hw hne
  have hagree := Program.parse_agree room hbare
  rw [hq] at hagree
  generalize hr : Program.parse room vs = x at hagree
  cases hagree with
  | @ok r _ hrq =>
    have hbody : Expr.bareAll r.body = Expr.bareAll q.body := congrArg Program.body hrq
    have hlexeme : ∀ t ∈ Expr.tokensAll r.body, t.Lexeme := by
      rw [← Expr.tokensAll_bareAll, hbody, Expr.tokensAll_bareAll]
      exact lexeme_of_parse hus hq
    have hrcode := Program.emit_agree room hrq
    rw [hqcode] at hrcode
    generalize hremit : r.emit room = y at hrcode
    cases hrcode with
    | ok hsame =>
      refine compile_eq_ok_iff.mpr ⟨_, _, hvs, Reader.parse_append_ok hp hr, ?_⟩
      rw [Program.emit_append_ok rfl hpcode hremit,
        Expr.code_append (lexeme_of_parse hts hp) hlexeme, ← Program.code_of_emit hpcode,
        ← Program.code_of_emit hremit, hsame]

theorem compile_join_error (hw : ∀ ch ∈ w.toList, Text.isBlank ch = true) (hne : w ≠ "")
    (ha : compile room ⟨a, file⟩ = .ok c) (hb : compile room ⟨b, file⟩ = .error f) :
    ∃ g, compile room ⟨a ++ w ++ b, file⟩ = .error g ∧ g.Alike f := by
  obtain ⟨ts, p, hts, hp, hpcode⟩ := compile_eq_ok_iff.mp ha
  rcases compile_eq_error_iff.mp hb with hstray | ⟨us, hus, hb⟩
  · obtain ⟨g, hg, halike⟩ := tokens_join_right hts hstray hw
    exact ⟨g, compile_eq_error_iff.mpr (.inl hg), halike⟩
  · obtain ⟨vs, hvs, hbare⟩ := tokens_join_blank hts hus hw hne
    have hagree := Program.parse_agree room hbare
    generalize hr : Program.parse room vs = x at hagree
    rcases hb with hf | ⟨q, hq, hqemit⟩
    · rw [hf] at hagree
      cases hagree with
      | @error g _ halike =>
        obtain ⟨g', hg', hcause⟩ := Reader.parse_append_error hp hr
        refine ⟨g', compile_of_parse_error hvs hg', Fault.alike_of_cause ?_⟩
        rw [hcause, halike.cause]
    · rw [hq] at hagree
      cases hagree with
      | @ok r _ hrq =>
        have hrcode := Program.emit_agree room hrq
        rw [hqemit] at hrcode
        generalize hremit : r.emit room = y at hrcode
        cases hrcode with
        | @error g _ halike =>
          have hparse := Reader.parse_append_ok hp hr
          obtain ⟨g', hg', hcause⟩ := Program.emit_append_error
            (r := ⟨p.body ++ r.body, Reader.programSpan (ts ++ _)⟩) rfl hpcode hremit
          refine ⟨g', compile_eq_error_iff.mpr (.inr ⟨_, hvs, .inr ⟨_, hparse, hg'⟩⟩), ?_⟩
          apply Fault.alike_of_cause
          rw [hcause, halike.cause]

theorem place_append (htext : s'.text.toList = s.text.toList ++ more) (hfile : s'.file = s.file)
    (hi : i ≤ s.text.toList.length) : s'.place i = s.place i := by
  rw [place, place, htext, List.take_append_of_le_length hi, hfile]

theorem strayFault_append (htext : s.text.toList = before ++ ch :: after)
    (htext' : s'.text.toList = s.text.toList ++ '\n' :: more) (hfile : s'.file = s.file)
    (hch : ch ≠ '\n') : s'.strayFault before.length ch = s.strayFault before.length ch := by
  have hlen : before.length + 1 ≤ s.text.toList.length := by simp [htext]
  have hstart := place_append htext' hfile (Nat.le_of_succ_le hlen)
  have hstop := place_append htext' hfile hlen
  have hsplit : s'.text.toList = before ++ ch :: (after ++ '\n' :: more) := by
    simp [htext', htext]
  rw [strayFault, strayFault, hstart, hstop]
  congr 1
  rw [← hstart, line?_place, lines_place hsplit hch, Text.takeWhile_line, hstart, line?_place,
    lines_place htext hch]

theorem tokens_join_of_stray (ha : tokens ⟨a, file⟩ = .error f)
    (hw : w.toList.head? = some '\n') : tokens ⟨a ++ w ++ b, file⟩ = .error f := by
  obtain ⟨before, ch, after, htext, hbefore, hch, rfl⟩ := exists_of_tokens_error ha
  obtain ⟨more, hmore⟩ := List.head?_eq_some_iff.mp hw
  have hne : ch ≠ '\n' := by
    rintro rfl
    cases hch
  have hjoin : (a ++ w ++ b).toList = a.toList ++ '\n' :: (more ++ b.toList) := by simp [hmore]
  have hsplit : (a ++ w ++ b).toList = before ++ ch :: (after ++ '\n' :: (more ++ b.toList)) := by
    simpa [htext] using hjoin
  have hsame : strayFault ⟨a ++ w ++ b, file⟩ before.length ch =
      strayFault ⟨a, file⟩ before.length ch :=
    strayFault_append htext hjoin rfl hne
  rw [← hsame]
  exact tokens_eq_error (stray?_eq_some hsplit hbefore hch)

theorem compile_join_of_stray (ha : tokens ⟨a, file⟩ = .error f)
    (hw : w.toList.head? = some '\n') : compile room ⟨a ++ w ++ b, file⟩ = .error f :=
  compile_eq_error_iff.mpr (.inl (tokens_join_of_stray ha hw))

theorem compile_join_of_token (hw : ∀ ch ∈ w.toList, Text.isBlank ch = true) (hne : w ≠ "")
    (ha : ∀ ch ∈ a.toList, recognized ch = true) (hb : ∀ ch ∈ b.toList, recognized ch = true)
    (hf : compile room ⟨a, file⟩ = .error f) (ht : f.cause.token? ≠ none) :
    compile room ⟨a ++ w ++ b, file⟩ = .error f := by
  obtain ⟨ts, hts⟩ := exists_tokens (s := ⟨a, file⟩) (stray?_eq_none_iff.mpr ha)
  obtain ⟨us, hus⟩ := exists_tokens (s := ⟨b, file⟩) (stray?_eq_none_iff.mpr hb)
  obtain ⟨vs, hvs, -⟩ := tokens_join_blank hts hus hw hne
  have hparse : Program.parse room ts = .error f := by
    rcases compile_eq_error_iff.mp hf with hstray | ⟨ts', hts', hparse | ⟨p, -, hemit⟩⟩
    · rw [hts] at hstray
      cases hstray
    · rw [hts] at hts'
      cases hts'
      exact hparse
    · obtain ⟨stage, rfl⟩ := Program.emit_error hemit
      exact absurd rfl ht
  exact compile_of_parse_error hvs (Reader.parse_append_of_token hparse ht vs)

theorem compile_composes (room : Nat) (a w b : String) (file : Option String)
    (hw : ∀ ch ∈ w.toList, Text.isBlank ch = true) (hne : w ≠ "") :
    (∀ c c', compile room ⟨a, file⟩ = .ok c → compile room ⟨b, file⟩ = .ok c' →
      compile room ⟨a ++ w ++ b, file⟩ =
        .ok (if c = "" then c' else if c' = "" then c else c ++ "\n" ++ c')) ∧
    (∀ c f, compile room ⟨a, file⟩ = .ok c → compile room ⟨b, file⟩ = .error f →
      ∃ g, compile room ⟨a ++ w ++ b, file⟩ = .error g ∧ g.Alike f) ∧
    (∀ f, tokens ⟨a, file⟩ = .error f → w.toList.head? = some '\n' →
      compile room ⟨a ++ w ++ b, file⟩ = .error f) ∧
    (∀ f, (∀ ch ∈ a.toList, recognized ch = true) → (∀ ch ∈ b.toList, recognized ch = true) →
      compile room ⟨a, file⟩ = .error f → f.cause.token? ≠ none →
      compile room ⟨a ++ w ++ b, file⟩ = .error f) := by
  refine ⟨?_, ?_, ?_, ?_⟩
  · intro c c' ha hb
    exact compile_join_ok hw hne ha hb
  · intro c f ha hb
    exact compile_join_error hw hne ha hb
  · intro f ha hline
    exact compile_join_of_stray ha hline
  · intro f ha hb hf ht
    exact compile_join_of_token hw hne ha hb hf ht

theorem compile_composes_of_two_lines :
    compile Allowance.usual.room ⟨"(f 1)" ++ "\n" ++ "2", none⟩ = .ok "f(1);\n2" ∧
    compile Allowance.usual.room ⟨"" ++ "\n" ++ "2", none⟩ = .ok "2" ∧
    (∃ g, compile Allowance.usual.room ⟨"2" ++ "\n" ++ "(f", none⟩ = .error g ∧
      g.Alike ⟨.unexpectedToken "expression or ')'" none,
        some ⟨⟨1, 3, 2, none⟩, ⟨1, 3, 2, none⟩⟩, none⟩) ∧
    compile Allowance.usual.room ⟨"(f%" ++ "\n" ++ "2", none⟩ =
      .error (strayFault ⟨"(f%", none⟩ 2 '%') ∧
    compile Allowance.usual.room ⟨"f" ++ "\n" ++ "2", none⟩ =
      .error ⟨.unexpectedToken "number or '('"
        (some ⟨.name, "f", some ⟨⟨1, 1, 0, none⟩, ⟨1, 2, 1, none⟩⟩⟩),
        some ⟨⟨1, 1, 0, none⟩, ⟨1, 2, 1, none⟩⟩, none⟩ := by
  have hw : ∀ ch ∈ "\n".toList, Text.isBlank ch = true := List.all_eq_true.mp rfl
  have hcall : compile Allowance.usual.room ⟨"(f 1)", none⟩ = .ok "f(1);" :=
    compile_eq_ok_of_within (by decide +kernel)
  have htwo : compile Allowance.usual.room ⟨"2", none⟩ = .ok "2" :=
    compile_eq_ok_of_within (by decide +kernel)
  have hempty : compile Allowance.usual.room ⟨"", none⟩ = .ok "" :=
    compile_eq_ok_of_within (by decide +kernel)
  have hopen : compile Allowance.usual.room ⟨"(f", none⟩ =
    .error ⟨.unexpectedToken "expression or ')'" none,
      some ⟨⟨1, 3, 2, none⟩, ⟨1, 3, 2, none⟩⟩, none⟩ := by
    rw [compile_eq_within]
    rfl
  have htext : "(f%".toList = ['(', 'f'] ++ '%' :: [] := rfl
  have hfirst := stray?_eq_some (s := ⟨"(f%", none⟩) htext (List.all_eq_true.mp rfl) rfl
  have hstray : tokens ⟨"(f%", none⟩ = .error (strayFault ⟨"(f%", none⟩ 2 '%') :=
    tokens_eq_error hfirst
  have hname : compile Allowance.usual.room ⟨"f", none⟩ =
    .error ⟨.unexpectedToken "number or '('"
      (some ⟨.name, "f", some ⟨⟨1, 1, 0, none⟩, ⟨1, 2, 1, none⟩⟩⟩),
      some ⟨⟨1, 1, 0, none⟩, ⟨1, 2, 1, none⟩⟩, none⟩ := by
    rw [compile_eq_within]
    rfl
  refine ⟨?_, ?_, ?_, ?_, ?_⟩
  · exact (compile_composes _ _ _ _ _ hw (by decide)).1 _ _ hcall htwo
  · exact (compile_composes _ _ _ _ _ hw (by decide)).1 _ _ hempty htwo
  · exact (compile_composes _ _ _ _ _ hw (by decide)).2.1 _ _ htwo hopen
  · exact (compile_composes _ _ _ _ _ hw (by decide)).2.2.1 _ hstray rfl
  · exact (compile_composes _ _ _ _ _ hw (by decide)).2.2.2 _ (List.all_eq_true.mp rfl)
      (List.all_eq_true.mp rfl) hname (Option.some_ne_none _)

end Source

end CallForms
