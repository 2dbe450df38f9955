import CallForms.Proofs.Reader.FirstFailure
import Mathlib.Data.Nat.Find
import Mathlib.Order.Bounds.Basic

namespace CallForms.Reader

def unclosed (ts : List Token) : Int :=
  ts.countP Token.isOpen - ts.countP Token.isClose

def SoundUpTo (ts : List Token) (i : Nat) : Prop :=
  FailsFirstAt ts i ∨ (Whole ts ∧ i = ts.length)

variable {room : Nat} {s s' : State} {t : Token} {r : Step} {ts us rest : List Token}
  {es : List Expr} {i j : Nat}

theorem unclosed_append (ts us : List Token) :
    unclosed (ts ++ us) = unclosed ts + unclosed us := by
  simp only [unclosed, List.countP_append]
  omega

theorem unclosed_map_bare (ts : List Token) : unclosed (ts.map Token.bare) = unclosed ts := by
  rw [unclosed, List.countP_map, List.countP_map]
  rfl

theorem unclosed_of_open (h : t.isOpen = true) : unclosed [t] = 1 := by
  have ht : t.kind = .paren ∧ t.text = "(" := by simpa [Token.isOpen] using h
  simp [unclosed, h, Token.isClose, ht]

theorem unclosed_of_close (h : t.isClose = true) : unclosed [t] = -1 := by
  have ht : t.kind = .paren ∧ t.text = ")" := by simpa [Token.isClose] using h
  simp [unclosed, h, Token.isOpen, ht]

theorem unclosed_of_ne_paren (h : t.kind ≠ .paren) : unclosed [t] = 0 := by
  simp [unclosed, Token.isOpen, Token.isClose, h]

theorem Move.height_eq (h : Move room s t r) : (r.next.height : Int) = s.height + unclosed [t] := by
  cases h with
  | number hk =>
    rw [height_resume, height_ready, unclosed_of_ne_paren (by simp [hk])]
    omega
  | enter ho _ =>
    rw [height_ready, unclosed_of_open ho]
    rfl
  | name hk _ =>
    rw [unclosed_of_ne_paren (by simp [hk])]
    simp [State.height]
  | leave hc =>
    rw [height_resume, unclosed_of_close hc]
    simp only [State.height]
    omega

theorem Run.height_eq (h : Run room s ts es s') : (s'.height : Int) = s.height + unclosed ts := by
  induction h with
  | refl s => simp [unclosed]
  | step hs _ ih =>
    have hmove := (move_of_step hs).height_eq
    rw [← List.singleton_append, unclosed_append]
    omega

theorem State.height_le_named (s : State) : s.height ≤ s.named + 1 := by
  cases s <;> simp only [height, named] <;> omega

theorem Run.unclosed_le (h : Run room .fresh ts es s) : unclosed ts ≤ capacity room + 1 := by
  have heq := h.height_eq
  have hdepth := (h.depth_le (Nat.zero_le _)).2
  have hnamed := s.named_le_depth
  have hle := s.height_le_named
  rw [show State.fresh.height = 0 from rfl] at heq
  omega

def peak : List Token → Int
  | [] => 0
  | t :: ts => max 0 (unclosed [t] + peak ts)

theorem peak_nonneg (ts : List Token) : 0 ≤ peak ts := by
  cases ts with
  | nil => exact Int.le_refl 0
  | cons t ts => exact Int.le_max_left _ _

theorem unclosed_cons (t : Token) (ts : List Token) :
    unclosed (t :: ts) = unclosed [t] + unclosed ts :=
  unclosed_append [t] ts

theorem isGreatest_peak (ts : List Token) :
    IsGreatest {n : Int | ∃ us, us <+: ts ∧ unclosed us = n} (peak ts) := by
  induction ts with
  | nil =>
    refine ⟨⟨[], List.prefix_rfl, rfl⟩, ?_⟩
    rintro _ ⟨us, hus, rfl⟩
    rw [List.prefix_nil.mp hus]
    exact Int.le_refl 0
  | cons t ts ih =>
    obtain ⟨⟨vs, hvs, hpeak⟩, hbound⟩ := ih
    constructor
    · rcases Int.le_total (unclosed [t] + peak ts) 0 with hle | hle
      · refine ⟨[], List.nil_prefix, ?_⟩
        rw [peak, Int.max_eq_left hle]
        rfl
      · refine ⟨t :: vs, (List.prefix_cons_inj t).mpr hvs, ?_⟩
        rw [peak, Int.max_eq_right hle, unclosed_cons, hpeak]
    · rintro _ ⟨us, hus, rfl⟩
      rw [peak]
      rcases List.prefix_cons_iff.mp hus with rfl | ⟨ws, rfl, hws⟩
      · exact Int.le_max_left _ _
      · have hle := hbound ⟨ws, hws, rfl⟩
        rw [unclosed_cons]
        omega

theorem Move.height_le (h : Move room s t r) : s.height ≤ max s.depth r.next.height := by
  cases h with
  | @number stack t hk =>
    have hle := length_le_stackDepth stack
    rw [height_ready, depth_ready]
    omega
  | @enter stack t ho hl =>
    have hle := length_le_stackDepth stack
    rw [height_ready, depth_ready]
    omega
  | name hk hl => exact Nat.le_max_right _ _
  | @leave frame outer t hc =>
    exact Nat.le_trans (length_le_stackDepth (frame :: outer)) (Nat.le_max_left _ _)

def State.reach (s : State) : Nat :=
  max s.depth s.height

theorem Move.reach (h : Move room s t r) :
    max (Expr.depthAll r.made) r.next.reach = max s.reach r.next.height := by
  have hdepth := h.depth
  have hle := h.height_le
  have hnamed := r.next.named_le_height
  calc max (Expr.depthAll r.made) r.next.reach
      = max (max s.depth r.next.named) r.next.height := by rw [State.reach, ← Nat.max_assoc, hdepth]
    _ = max s.reach r.next.height := by
      rw [State.reach]
      omega

theorem Run.reach (h : Run room s ts es s') :
    max (Expr.depthAll es : Int) s'.reach = max (s.reach : Int) (s.height + peak ts) := by
  induction h with
  | refl s =>
    simp only [Expr.depthAll, peak, State.reach]
    omega
  | @step s s' t r ts es hstep _ ih =>
    -- The height reached by this token is the one that the peak of the rest starts from.
    have hmove := move_of_step hstep
    have hreach := hmove.reach
    have hheight := hmove.height_eq
    have hle : s.height ≤ s.reach := Nat.le_max_right _ _
    have hpeak := peak_nonneg ts
    rw [Expr.depthAll_append, peak]
    omega

theorem isGreatest_depth_of_parse_ok {p : Program} (h : Program.parse room ts = .ok p) :
    IsGreatest {n : Int | ∃ us, us <+: ts ∧ unclosed us = n} p.depth := by
  have hrun := (run_of_parse_ok h).reach
  have hpeak := peak_nonneg ts
  have heq : (p.depth : Int) = peak ts := by
    rw [← Program.depth] at hrun
    simp only [State.reach, State.depth, State.height] at hrun
    omega
  rw [heq]
  exact isGreatest_peak ts

theorem begin_overflow {stack : List Frame}
    (h : begin room stack t = .error (.nestingTooDeep stage)) :
    capacity room ≤ stack.length := by
  unfold begin at h
  split at h
  · cases h
  · split at h
    · split at h
      · cases h
      · rw [capacity]
        omega
    · cases h

theorem height_of_overflow (h : s.step room t = .error (.nestingTooDeep stage)) :
    capacity room ≤ s.height := by
  cases s with
  | fresh => exact begin_overflow h
  | opened opening outer =>
    simp only [State.step] at h
    split at h
    · rw [capacity, State.height]
      omega
    · split at h <;> cases h
  | within frame outer =>
    simp only [State.step] at h
    split at h
    · cases h
    · exact begin_overflow h

theorem Refused.height_ge (h : Refused room s rest (.nestingTooDeep stage)) :
    capacity room ≤ s.height := by
  generalize hc : Cause.nestingTooDeep stage = c at h
  cases h with
  | atEnd hs =>
    cases s with
    | opened opening outer =>
      simp only [State.atEnd] at hc
      split at hc
      · rw [capacity, State.height]
        omega
      · cases hc
    | _ => cases hc
  | token ht => exact height_of_overflow (hc ▸ ht)

theorem Viable.complete (h : Viable us) :
    ∃ (ws : List Token) (fs : List Expr), (us ++ ws).map Token.bare = Expr.tokensAll fs := by
  obtain ⟨p, ws, hws⟩ := h
  refine ⟨ws, p.body, ?_⟩
  have hp := Expr.map_bare_tokensAll p.body
  rw [← Program.tokens, ← hws, List.map_append, List.map_map] at hp
  rw [List.map_append, List.append_cancel_left hp, hws]
  rfl

theorem overflows_of_viable (h : Viable us) (hn : (capacity room : Int) + 1 < unclosed us) :
    Overflows room .fresh us := by
  obtain ⟨ws, fs, hbare⟩ := h.complete
  -- No run gets past `us`, so the overflow has to be inside.
  have hstuck : ∀ vs gs s', ¬ Run room .fresh (us ++ vs) gs s' := by
    intro vs gs s' hrun
    obtain ⟨s'', _, _, -, hus, -⟩ := hrun.split
    have hle := hus.unclosed_le
    omega
  rcases run_or_overflow room hbare with ⟨gs, -, hrun⟩ | ⟨-, xs, t, ys, gs, s', hsplit, hrun, ht⟩
  · exact absurd hrun (hstuck ws gs _)
  · rcases List.append_eq_append_iff.mp hsplit with ⟨zs, rfl, -⟩ | ⟨zs, rfl, hzs⟩
    · exact absurd hrun (hstuck zs gs s')
    · cases zs with
      | nil =>
        refine absurd ?_ (hstuck [] gs s')
        simpa using hrun
      | cons z zs =>
        obtain ⟨rfl, -⟩ := List.cons.inj hzs
        exact ⟨xs, t, zs, gs, s', rfl, hrun, ht⟩

theorem parse_of_overflows (h : Overflows room .fresh ts) :
    ∃ span, Program.parse room ts = .error ⟨.nestingTooDeep stage, span, none⟩ := by
  obtain ⟨us, t, vs, es, s, rfl, hrun, ht⟩ := h
  have hread :
      readBody room .fresh (us ++ t :: vs) = ⟨.error (.nestingTooDeep stage), t :: vs⟩ := by
    rw [readBody_run hrun, readBody_refused (.token ht)]
    rfl
  simp only [Program.parse, hread]
  exact ⟨_, rfl⟩

theorem Whole.viable (h : Whole ts) : Viable ts := by
  obtain ⟨p, hp⟩ := h
  exact ⟨p, hp ▸ List.prefix_rfl⟩

theorem FailsFirstAt.not_whole (h : FailsFirstAt ts i) : ¬ Whole ts := by
  intro hw
  rcases h.2 with ⟨-, hnot⟩ | ⟨-, hnot⟩
  · exact hnot (hw.viable.shorten (List.take_prefix _ _))
  · exact hnot hw

namespace SoundUpTo

theorem viable (h : SoundUpTo ts i) : Viable (ts.take i) := by
  rcases h with hf | ⟨hw, rfl⟩
  · exact hf.1
  · exact hw.viable.shorten (List.take_prefix _ _)

theorem length_le (h : SoundUpTo ts i) (hts : ts = us ++ rest) (hus : Viable us) :
    us.length ≤ i := by
  rcases h with ⟨-, ⟨-, hnot⟩ | ⟨rfl, -⟩⟩ | ⟨-, rfl⟩
  · by_contra hlt
    have hle : i + 1 ≤ us.length := by omega
    refine hnot (hus.shorten ?_)
    rw [hts, List.take_append_of_le_length hle]
    exact List.take_prefix _ _
  · simp [hts]
  · simp [hts]

theorem unique (h : SoundUpTo ts i) (h' : SoundUpTo ts j) : j = i := by
  rcases h with hf | ⟨hw, rfl⟩ <;> rcases h' with hf' | ⟨hw', rfl⟩
  · exact hf.unique hf'
  · exact absurd hw' hf.not_whole
  · exact absurd hw hf'.not_whole
  · rfl

end SoundUpTo

theorem viable_nil : Viable [] :=
  ⟨⟨[], none⟩, List.prefix_rfl⟩

theorem exists_soundUpTo (ts : List Token) : ∃ i, SoundUpTo ts i := by
  classical
  by_cases hw : Whole ts
  · exact ⟨ts.length, .inr ⟨hw, rfl⟩⟩
  · have hends : ∃ i, i = ts.length ∨ ¬ Viable (ts.take (i + 1)) := ⟨ts.length, .inl rfl⟩
    have hviable : Viable (ts.take (Nat.find hends)) := by
      cases hi : Nat.find hends with
      | zero => exact viable_nil
      | succ i =>
        have hmin := Nat.find_min hends (m := i) (by omega)
        exact Classical.not_not.mp (not_or.mp hmin).2
    have hle : Nat.find hends ≤ ts.length := Nat.find_min' hends (.inl rfl)
    refine ⟨Nat.find hends, .inl ⟨hviable, ?_⟩⟩
    rcases Nat.find_spec hends with heq | hnot
    · exact .inr ⟨heq, hw⟩
    · rcases Nat.eq_or_lt_of_le hle with heq | hlt
      · exact .inr ⟨heq, hw⟩
      · exact .inl ⟨hlt, hnot⟩

theorem failsFirstAt_of_parse_error {f : Fault} (h : Program.parse room ts = .error f)
    (hc : f.cause ≠ .nestingTooDeep stage) :
    ∃ i, FailsFirstAt ts i ∧ f = ⟨causeAt ts i, spanAt ts i, none⟩ := by
  obtain ⟨us, es, s, c, hts, hrun, href, rfl⟩ := refused_of_parse_error h
  have hfails := failsFirstAt_of_refused hrun href hc
  have hcause := causeAt_of_refused hrun href hc
  have hspan := spanAt_eq_faultSpan us (readBody room .fresh ts).rest
  rw [← hts] at hfails hcause hspan
  exact ⟨us.length, hfails, by rw [fault, hcause, hspan]⟩

theorem depth_le_of_unclosed {p : Program} {n : Nat} (h : SoundUpTo ts i)
    (hn : ∀ j ≤ i, unclosed (ts.take j) ≤ n) (hp : Program.parse room ts = .ok p) :
    p.depth ≤ n := by
  obtain ⟨⟨us, hus, hdepth⟩, -⟩ := isGreatest_depth_of_parse_ok hp
  have hall : ts.length = i := h.unique (.inr ⟨⟨p, (tokens_of_parse_ok hp).symm⟩, rfl⟩)
  have hle := hn us.length (hall ▸ hus.length_le)
  rw [← List.prefix_iff_eq_take.mp hus, hdepth] at hle
  omega

theorem cause_of_shallow (h : SoundUpTo ts i)
    (hn : ∀ j ≤ i, unclosed (ts.take j) < capacity room) {f : Fault}
    (hf : Program.parse room ts = .error f) : f.cause ≠ .nestingTooDeep stage := by
  obtain ⟨us, es, s, c, hts, hrun, href, rfl⟩ := refused_of_parse_error hf
  rintro (rfl : c = _)
  have hlow := hn us.length (h.length_le hts (viable_of_run hrun))
  have htake : ts.take us.length = us := by rw [hts, List.take_left]
  have hhigh := href.height_ge
  have hheight := hrun.height_eq
  rw [htake] at hlow
  rw [show State.fresh.height = 0 from rfl] at hheight
  omega

theorem parse_of_shallow (h : SoundUpTo ts i)
    (hn : ∀ j ≤ i, unclosed (ts.take j) < capacity room) :
    (∃ p, Whole ts ∧ Program.parse room ts = .ok p) ∨
      (¬ Whole ts ∧ Program.parse room ts = .error ⟨causeAt ts i, spanAt ts i, none⟩) := by
  cases hp : Program.parse room ts with
  | ok p => exact .inl ⟨p, ⟨p, (tokens_of_parse_ok hp).symm⟩, rfl⟩
  | error f =>
    obtain ⟨j, hj, rfl⟩ := failsFirstAt_of_parse_error hp (cause_of_shallow h hn hp)
    obtain rfl := h.unique (.inl hj)
    exact .inr ⟨hj.not_whole, rfl⟩

theorem parse_of_deep (h : SoundUpTo ts i) (hj : j ≤ i)
    (hn : (capacity room : Int) + 1 < unclosed (ts.take j)) :
    ∃ span, Program.parse room ts = .error ⟨.nestingTooDeep stage, span, none⟩ := by
  have hviable := h.viable.shorten (List.take_prefix_take_left hj)
  have hover := (overflows_of_viable hviable hn).append (ts.drop j)
  rw [List.take_append_drop] at hover
  exact parse_of_overflows hover

end CallForms.Reader
