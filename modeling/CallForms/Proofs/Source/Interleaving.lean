import CallForms.Proofs.Source.Stray
import CallForms.Source.Session
import Mathlib.Data.List.Basic

namespace CallForms.Source

namespace Feed

inductive Ahead (s : Source) : Feed → List Item → Prop
  | ended : Ahead s none []
  | reading {c : Cursor} {ts : List Token} {f? : Option Fault} (h : s.Scans c ts f?) :
      Ahead s (some c) (ts.map .token ++ f?.toList.map .fault)

def gather : List Item → Except Fault (List Token)
  | .token t :: later => (gather later).map (t :: ·)
  | .fault f :: _ => .error f
  | _ => .ok []

variable {s : Source} {feed : Feed} {items : List Item}

theorem Ahead.next (h : Ahead s feed items) :
    (feed.next s).1 = items.headD .stop ∧ Ahead s (feed.next s).2 items.tail := by
  cases h with
  | ended => exact ⟨rfl, .ended⟩
  | @reading c ts f? h =>
    cases h with
    | done h => simp [Feed.next, h, Ahead.ended]
    | fault h => simp [Feed.next, h, Ahead.ended]
    | token h hr => simpa [Feed.next, h] using Ahead.reading hr

theorem gather_drop (ts : List Token) (f? : Option Fault) (k : Nat) :
    gather ((ts.map Item.token ++ f?.toList.map Item.fault).drop k) =
      if ts.length < k then .ok [] else f?.elim (.ok (ts.drop k)) .error := by
  induction ts generalizing k with
  | nil => cases k <;> cases f? <;> simp [gather]
  | cons t ts ih =>
    cases k with
    | zero =>
      have hrest := ih 0
      simp only [List.drop_zero, Nat.not_lt_zero, if_false] at hrest
      simp only [List.drop_zero, Nat.not_lt_zero, if_false, List.map_cons, List.cons_append,
        gather, hrest]
      cases f? <;> rfl
    | succ k => simpa using ih k

theorem Ahead.rest (h : Ahead s feed items) : feed.rest s = gather items := by
  cases h with
  | ended => rfl
  | @reading c ts f? h =>
    have hgather := gather_drop ts f? 0
    rw [List.drop_zero, List.drop_zero, if_neg (Nat.not_lt_zero _)] at hgather
    rw [Feed.rest, h.tokensFrom_eq, hgather]

end Feed

namespace Session

deriving instance DecidableEq for Request

def after (s : Source) (session : Session) (requests : List Request) : Session :=
  requests.foldl (fun now request => (now.answer s request).2) session

def reply? (s : Source) (earlier : List Request) (request : Request) (later : List Request) :
    Option Reply :=
  (run s (start s) (earlier ++ request :: later))[earlier.length]?.map Prod.fst

def Request.moves : Request → Bool
  | .scan | .advance | .skip => true
  | _ => false

def Request.looks : Request → Bool
  | .peek => true
  | request => request.moves

variable {s : Source} {session session' : Session} {request : Request} {id : String}
  {items : List Feed.Item}

theorem getElem?_run (earlier : List Request) (later : List Request) :
    (run s session (earlier ++ request :: later))[earlier.length]? =
      some ((session.after s earlier).answer s request) := by
  induction earlier generalizing session with
  | nil => rfl
  | cons first rest ih =>
    rw [List.cons_append, run, List.length_cons, List.getElem?_cons_succ]
    exact ih

theorem cursor_answer_of_not_moves (h : request.moves = false) :
    (session.answer s request).2.cursor = session.cursor := by
  cases request with
  | scan => cases h
  | advance => cases h
  | skip => cases h
  | _ => rfl

theorem cursor_answer_congr (h : session.cursor = session'.cursor) (request : Request) :
    (session.answer s request).2.cursor = (session'.answer s request).2.cursor := by
  cases request with
  | scan =>
    simp only [answer, h]
    split <;> rfl
  | advance =>
    simp only [answer, h]
    split
    · rfl
    · exact h
  | skip => simp only [answer, h]
  | _ => exact h

theorem reply_answer_congr (h : session.cursor = session'.cursor) (hl : request.looks = true) :
    (session.answer s request).1 = (session'.answer s request).1 := by
  cases request with
  | scan =>
    simp only [answer, h]
    split <;> rfl
  | advance =>
    simp only [answer, h]
    split <;> rfl
  | skip => rfl
  | peek => simp only [answer, h]
  | _ => cases hl

theorem cursor_after_filter (h : session.cursor = session'.cursor) (requests : List Request) :
    (session.after s requests).cursor =
      (session'.after s (requests.filter Request.moves)).cursor := by
  induction requests generalizing session session' with
  | nil => exact h
  | cons first rest ih =>
    cases hm : first.moves with
    | true =>
      rw [List.filter_cons_of_pos hm]
      exact ih (cursor_answer_congr h first)
    | false =>
      rw [List.filter_cons_of_neg (by simp [hm])]
      exact ih ((cursor_answer_of_not_moves hm).trans h)

def Request.left (id : String) (items : List Feed.Item) (request : Request) : List Feed.Item :=
  if request = .next id then items.tail else if request = .rest id then [] else items

theorem ahead_answer (h : Feed.Ahead s (session.feeds id) items) (hr : request ≠ .feed id) :
    Feed.Ahead s ((session.answer s request).2.feeds id) (request.left id items) := by
  cases request with
  | feed other =>
    have hne : id ≠ other := fun heq => hr (heq ▸ rfl)
    simpa [answer, set, hne, Request.left] using h
  | next other =>
    by_cases heq : id = other
    · subst heq
      simpa [answer, set, Request.left] using h.next.2
    · simpa [answer, set, heq, Ne.symm heq, Request.left] using h
  | rest other =>
    by_cases heq : id = other
    · subst heq
      simpa [answer, set, Request.left] using Feed.Ahead.ended
    · simpa [answer, set, heq, Ne.symm heq, Request.left] using h
  | scan =>
    simp only [answer]
    split <;> exact h
  | advance =>
    simp only [answer]
    split <;> exact h
  | _ => exact h

theorem ahead_after {mid : List Request} (h : Feed.Ahead s (session.feeds id) items)
    (hmid : Request.feed id ∉ mid) :
    Feed.Ahead s ((session.after s mid).feeds id)
      (if .rest id ∈ mid then [] else items.drop (mid.count (.next id))) := by
  induction mid generalizing session items with
  | nil => exact h
  | cons first mid ih =>
    obtain ⟨hfirst, hmid⟩ := not_or.mp (List.mem_cons.not.mp hmid)
    have hstep := ih (ahead_answer h (Ne.symm hfirst)) hmid
    have hleft : (if .rest id ∈ mid then [] else
        (first.left id items).drop (mid.count (.next id))) =
        if .rest id ∈ first :: mid then [] else items.drop ((first :: mid).count (.next id)) := by
      by_cases hnext : first = .next id
      · subst hnext
        simp [Request.left]
      · by_cases hrest : first = .rest id
        · subst hrest
          simp [Request.left]
        · simp [Request.left, hnext, hrest, Ne.symm hrest]
    exact hleft ▸ hstep

theorem ahead_feed {ts : List Token} {f? : Option Fault} (h : s.Scans (.ofText s.text) ts f?)
    (session : Session) (id : String) :
    Feed.Ahead s ((session.answer s (.feed id)).2.feeds id)
      (ts.map .token ++ f?.toList.map .fault) := by
  simpa [answer, set, Feed.start] using Feed.Ahead.reading h

theorem reply?_eq (s : Source) (earlier : List Request) (request : Request)
    (later : List Request) :
    reply? s earlier request later = some (((start s).after s earlier).answer s request).1 := by
  rw [reply?, getElem?_run, Option.map_some]

theorem after_append (requests requests' : List Request) :
    session.after s (requests ++ requests') = (session.after s requests).after s requests' :=
  List.foldl_append

theorem sessions_keep_cursors_apart (s : Source) :
    (∃ ts, s.clean.tokens = .ok ts ∧ ∀ id earlier mid later, Request.feed id ∉ mid →
      reply? s (earlier ++ .feed id :: mid) (.next id) later = some (.ofItem
        (if .rest id ∈ mid then .stop
        else (ts.map .token ++ s.stray?.toList.map .fault)[mid.count (.next id)]?.getD .stop)) ∧
      reply? s (earlier ++ .feed id :: mid) (.rest id) later = some (.ofTokens
        (if .rest id ∈ mid ∨ ts.length < mid.count (.next id) then .ok []
        else s.stray?.elim (.ok (ts.drop (mid.count (.next id)))) .error))) ∧
    (∀ earlier request later,
      (run s (start s) (earlier ++ request :: later))[earlier.length]?.map (·.2.cursor) =
        some ((start s).after s ((earlier ++ [request]).filter Request.moves)).cursor ∧
      (request.looks = true →
        reply? s earlier request later = reply? s (earlier.filter Request.moves) request [])) ∧
    (∀ earlier later, reply? s earlier .tokens later = some (.ofTokens s.tokens)) := by
  refine ⟨?_, ?_, ?_⟩
  · obtain ⟨ts, hts, hscans⟩ := exists_tokens_clean s
    refine ⟨ts, hts, ?_⟩
    intro id earlier mid later hmid
    have hahead := ahead_after (ahead_feed hscans ((start s).after s earlier) id) hmid
    rw [reply?_eq, reply?_eq, after_append]
    constructor
    · have hreply := congrArg Reply.ofItem hahead.next.1
      refine congrArg some (hreply.trans (congrArg Reply.ofItem ?_))
      split
      · rfl
      · rw [List.headD_eq_head?_getD, List.head?_drop]
    · have hreply := congrArg Reply.ofTokens hahead.rest
      refine congrArg some (hreply.trans (congrArg Reply.ofTokens ?_))
      by_cases hrest : Request.rest id ∈ mid
      · simp [hrest, Feed.gather]
      · simp [hrest, Feed.gather_drop]
  · intro earlier request later
    have hcursor := cursor_after_filter (s := s) (Eq.refl (start s).cursor)
    refine ⟨?_, ?_⟩
    · rw [getElem?_run, ← hcursor, after_append]
      rfl
    · intro hlooks
      rw [reply?_eq, reply?_eq, reply_answer_congr (hcursor earlier) hlooks]
  · intro earlier later
    rw [reply?_eq]
    rfl

theorem sessions_keep_cursors_apart_after_fault :
    reply? ⟨"1 %", none⟩ [.feed "a", .feed "b", .next "a", .scan, .next "a", .rest "b"] (.next "a")
      [.tokens] = some .stop ∧
    reply? ⟨"1 %", none⟩ [.feed "a", .feed "b", .next "a", .scan, .next "a"] (.rest "b") [] =
      some (.fault (strayFault ⟨"1 %", none⟩ 2 '%')) ∧
    reply? ⟨"1 %", none⟩ [.feed "a", .next "a", .skip, .rest "a"] .peek [] =
      reply? ⟨"1 %", none⟩ [.skip] .peek [] := by
  obtain ⟨⟨ts, hts, hfeeds⟩, hown, -⟩ := sessions_keep_cursors_apart ⟨"1 %", none⟩
  have hone : tokens (clean ⟨"1 %", none⟩) =
      .ok [⟨.number, "1", some ⟨⟨1, 1, 0, none⟩, ⟨1, 2, 1, none⟩⟩⟩] := by
    rw [tokens_eq_within]
    rfl
  obtain rfl := Except.ok.inj (hone.symm.trans hts)
  refine ⟨?_, ?_, ?_⟩
  · exact (hfeeds "a" [] [.feed "b", .next "a", .scan, .next "a", .rest "b"] [.tokens]
      (by decide)).1
  · exact (hfeeds "b" [.feed "a"] [.next "a", .scan, .next "a"] [] (by decide)).2
  · exact (hown [.feed "a", .next "a", .skip, .rest "a"] .peek []).2 rfl

end Session

end CallForms.Source
