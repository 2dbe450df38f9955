import CallForms.Proofs.Reader.Inverse

namespace CallForms

inductive Expr.Occurs (e : Expr) : List Expr → Prop
  | here {es : List Expr} (h : e ∈ es) : Occurs e es
  | inside {es params : List Expr} {name : String} {span : Option Span}
      (h : .call name params span ∈ es) (hp : Occurs e params) : Occurs e es

theorem Expr.Occurs.depth_le {e : Expr} {es : List Expr} (h : e.Occurs es) :
    e.depth ≤ depthAll es := by
  induction h with
  | here h => exact depthAll_le_iff.mp (Nat.le_refl _) e h
  | @inside es params name span h _ ih =>
    have hcall := depthAll_le_iff.mp (Nat.le_refl (depthAll es)) _ h
    rw [depth] at hcall
    omega

namespace Reader

inductive Extent : List Token → List Expr → Prop
  | nil : Extent [] []
  | number {t : Token} {ts : List Token} {es : List Expr} (hk : t.kind = .number)
      (h : Extent ts es) : Extent (t :: ts) (.number t.text t.span :: es)
  | call {opening called closing : Token} {us ts : List Token} {params es : List Expr}
      (ho : opening.isOpen = true) (hn : called.kind = .name) (hc : closing.isClose = true)
      (hp : Extent us params) (h : Extent ts es) :
      Extent (opening :: called :: (us ++ closing :: ts))
        (.call called.text params (Span.cover? opening.span closing.span) :: es)

variable {room : Nat} {s s' : State} {t : Token} {r : Step} {ts us vs : List Token} {e : Expr}
  {es fs : List Expr} {stack : List Frame}

namespace Extent

theorem append (h : Extent ts es) (h' : Extent us fs) : Extent (ts ++ us) (es ++ fs) := by
  induction h with
  | nil => exact h'
  | number hk _ ih => exact .number hk ih
  | call ho hn hc hp _ _ ih =>
    have hcall := call ho hn hc hp ih
    simpa using hcall

theorem bare (h : Extent ts es) : ts.map Token.bare = Expr.tokensAll es := by
  induction h with
  | nil => rfl
  | @number t ts es hk _ ih =>
    rw [List.map_cons, ih, Token.bare, hk]
    rfl
  | @call opening called closing us ts params es ho hn hc _ _ ihp ih =>
    rw [List.map_cons, List.map_cons, List.map_append, List.map_cons, ihp, ih,
      Token.isOpen_iff.mp ho, Token.isClose_iff.mp hc, Token.bare, hn]
    simp [Expr.tokensAll, Expr.tokens]

theorem ne_nil (h : Extent ts (e :: es)) : ts ≠ [] := by
  cases h <;> simp

theorem span_eq (h : Extent ts [e]) : e.span = programSpan ts := by
  cases h with
  | @number t ts _ hk h =>
    cases h
    show t.span = Span.cover? t.span t.span
    cases t.span <;> rfl
  | @call opening called closing us ts params _ ho hn hc hp h =>
    cases h
    have hlast : (opening :: called :: (us ++ [closing])).getLast? = some closing := by
      rw [← List.cons_append, ← List.cons_append, List.getLast?_concat]
    rw [programSpan, hlast]
    rfl

theorem params {name : String} {params : List Expr} {span : Option Span}
    (h : Extent ts [.call name params span]) :
    ∃ opening called us closing, ts = opening :: called :: (us ++ [closing]) ∧
      Extent us params := by
  cases h with
  | @call opening called closing us ts _ _ ho hn hc hp h =>
    cases h
    exact ⟨opening, called, us, closing, rfl, hp⟩

theorem exists_cons (h : Extent ts (e :: es)) :
    ∃ us vs, ts = us ++ vs ∧ Extent us [e] ∧ Extent vs es := by
  cases h with
  | @number t ts _ hk h => exact ⟨[t], ts, rfl, .number hk .nil, h⟩
  | @call opening called closing us ts params _ ho hn hc hp h =>
    refine ⟨opening :: called :: (us ++ [closing]), ts, ?_, .call ho hn hc hp .nil, h⟩
    simp

end Extent

inductive OpenExtent : List Token → List Frame → Prop
  | nil : OpenExtent [] []
  | cons {opening called : Token} {us ts : List Token} {params : Array Expr} {outer : List Frame}
      (h : OpenExtent ts outer) (ho : opening.isOpen = true) (hn : called.kind = .name)
      (hp : Extent us params.toList) :
      OpenExtent (ts ++ opening :: called :: us) (⟨opening, called.text, params⟩ :: outer)

def State.Took (ts : List Token) : State → Prop
  | .fresh => ts = []
  | .opened opening outer => ∃ us, ts = us ++ [opening] ∧ opening.isOpen = true ∧
      OpenExtent us outer
  | .within frame outer => OpenExtent ts (frame :: outer)

theorem took_ready_iff : (ready stack).Took ts ↔ OpenExtent ts stack := by
  cases stack with
  | nil =>
    constructor
    · rintro rfl
      exact .nil
    · rintro ⟨⟩
      rfl
  | cons frame outer => exact Iff.rfl

def Divides (ts : List Token) (es : List Expr) (s : State) : Prop :=
  ∃ us vs, ts = us ++ vs ∧ Extent us es ∧ s.Took vs

theorem divides_resume (h : OpenExtent ts stack) (he : Extent us [e]) :
    Divides (ts ++ us) (resume stack e).made (resume stack e).next := by
  cases h with
  | nil => exact ⟨us, [], by simp, he, rfl⟩
  | @cons opening called ps ts params outer h ho hn hp =>
    refine ⟨[], ts ++ opening :: called :: (ps ++ us), by simp, .nil, ?_⟩
    have hpush : Extent (ps ++ us) (params.push e).toList := by
      rw [Array.toList_push]
      exact hp.append he
    exact OpenExtent.cons h ho hn hpush

theorem Move.divides (h : Move room s t r) (hs : s.Took ts) :
    Divides (ts ++ [t]) r.made r.next := by
  cases h with
  | number hk => exact divides_resume (took_ready_iff.mp hs) (.number hk .nil)
  | enter ho hl => exact ⟨[], ts ++ [t], rfl, .nil, ts, rfl, ho, took_ready_iff.mp hs⟩
  | @name opening t outer hk =>
    obtain ⟨us, rfl, ho, hopen⟩ := hs
    refine ⟨[], us ++ [opening, t], by simp, .nil, ?_⟩
    exact OpenExtent.cons hopen ho hk .nil
  | leave hc =>
    cases hs with
    | cons h ho hn hp =>
      have hdivides := divides_resume h (.call ho hn hc hp .nil)
      simpa [Frame.close] using hdivides

theorem Run.divides (h : Run room s ts es s') (hs : s.Took us) : Divides (us ++ ts) es s' := by
  induction h generalizing us with
  | refl s => exact ⟨[], us, by simp, .nil, hs⟩
  | step hstep _ ih =>
    obtain ⟨vs, ws, hsplit, hvs, hws⟩ := (move_of_step hstep).divides hs
    obtain ⟨xs, ys, hlater, hxs, hys⟩ := ih hws
    refine ⟨vs ++ xs, ys, ?_, hvs.append hxs, hys⟩
    rw [List.append_cons, hsplit, List.append_assoc, hlater, List.append_assoc]

theorem extent_of_parse_ok {p : Program} (h : Program.parse room ts = .ok p) :
    Extent ts p.body := by
  have hfresh : State.fresh.Took [] := rfl
  obtain ⟨us, vs, hsplit, hus, hvs⟩ := (run_of_parse_ok h).divides hfresh
  obtain rfl : vs = [] := hvs
  rw [List.nil_append, List.append_nil] at hsplit
  rw [hsplit]
  exact hus

end Reader

end CallForms
