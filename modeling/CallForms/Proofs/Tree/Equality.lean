import CallForms.Proofs.Lowering.Lossless
import CallForms.Tree.Layout
import CallForms.Tree.Same

namespace CallForms

theorem Json.same_tagged (tag tag' : String) (fields fields' : List (String × Json)) :
    (Json.object (("type", .text tag) :: fields)).same (.object (("type", .text tag') :: fields')) =
      (tag == tag' && (fields.length == fields'.length &&
        Json.sameFields fields (("type", .text tag') :: fields'))) := by
  have hlength : (fields.length + 1 == fields'.length + 1) = (fields.length == fields'.length) := by
    simp
  simp only [Json.same, Json.sameFields, List.lookup_cons_self, List.length_cons, hlength,
    Bool.and_left_comm]

namespace Tree

inductive Closed : Family → Tree → Prop
  | number {family : Family} {digits : String} {span : Option Span} :
      Closed family (.number family digits span)
  | call {name : String} {params : List Tree} {span : Option Span}
      (hparams : ∀ v ∈ params, Closed .source v) : Closed .source (.call name params span)
  | program {family : Family} {body : List Tree} {span : Option Span}
      (hbody : ∀ v ∈ body, Closed family v) : Closed family (.program family body span)
  | identifier {name : String} {span : Option Span} : Closed .target (.identifier name span)
  | invoke {callee : Tree} {arguments : List Tree} {span : Option Span}
      (hcallee : Closed .target callee) (harguments : ∀ v ∈ arguments, Closed .target v) :
      Closed .target (.invoke callee arguments span)
  | statement {expression : Tree} {span : Option Span} (hexpression : Closed .target expression) :
      Closed .target (.statement expression span)

variable {family : Family} {a b : Tree}

theorem sameItems_toJsonAll {as bs : List Tree}
    (h : ∀ a ∈ as, ∀ b ∈ bs, a.toJson.same b.toJson = a.same b) :
    Json.sameItems (toJsonAll as) (toJsonAll bs) = sameAll as bs := by
  induction as generalizing bs with
  | nil => cases bs <;> simp [toJsonAll, Json.sameItems, sameAll]
  | cons a as ih =>
    cases bs with
    | nil => simp [toJsonAll, Json.sameItems, sameAll]
    | cons b bs =>
      have hrest : Json.sameItems (toJsonAll as) (toJsonAll bs) = sameAll as bs :=
        ih fun v hv w hw => h v (by simp [hv]) w (by simp [hw])
      rw [toJsonAll, toJsonAll, Json.sameItems, sameAll, h a (by simp) b (by simp), hrest]

-- In one family no two kinds of node share a tag, so the tag settles every pair of kinds. The two
-- calls share theirs, but no family has both.
theorem same_toJson (ha : a.Closed family) (hb : b.Closed family) :
    a.toJson.same b.toJson = a.same b := by
  induction ha generalizing b with
  | number =>
    cases hb with
    | number =>
      simp [toJson, Json.same_tagged, Json.sameFields, Json.same, List.lookup_cons, same]
    | _ => simp [toJson, Json.same_tagged, same]
  | call _ ih =>
    cases hb with
    | call hparams =>
      have hitems := sameItems_toJsonAll fun v hv w hw => ih v hv (hparams w hw)
      simp [toJson, Json.same_tagged, Json.sameFields, Json.same, List.lookup_cons, same, hitems]
    | _ => simp [toJson, Json.same_tagged, same]
  | program _ ih =>
    cases hb with
    | program hbody =>
      have hitems := sameItems_toJsonAll fun v hv w hw => ih v hv (hbody w hw)
      simp [toJson, Json.same_tagged, Json.sameFields, Json.same, List.lookup_cons, same, hitems]
    | _ => simp [toJson, Json.same_tagged, same]
  | identifier =>
    cases hb with
    | identifier =>
      simp [toJson, Json.same_tagged, Json.sameFields, Json.same, List.lookup_cons, same]
    | _ => simp [toJson, Json.same_tagged, same]
  | invoke _ _ ihcallee iharguments =>
    cases hb with
    | invoke hcallee harguments =>
      have hitems := sameItems_toJsonAll fun v hv w hw => iharguments v hv (harguments w hw)
      simp [toJson, Json.same_tagged, Json.sameFields, Json.same, List.lookup_cons, same,
        ihcallee hcallee, hitems]
    | _ => simp [toJson, Json.same_tagged, same]
  | statement _ ih =>
    cases hb with
    | statement hexpression =>
      simp [toJson, Json.same_tagged, Json.sameFields, List.lookup_cons, same, ih hexpression]
    | _ => simp [toJson, Json.same_tagged, same]

theorem sameAll_map_iff {f : Expr → Tree} {es es' : List Expr}
    (h : ∀ e ∈ es, ∀ e', (f e).same (f e') = true ↔ e.bare = e'.bare) :
    sameAll (es.map f) (es'.map f) = true ↔ Expr.bareAll es = Expr.bareAll es' := by
  induction es generalizing es' with
  | nil => cases es' <;> simp [sameAll, Expr.bareAll]
  | cons e rest ih =>
    cases es' with
    | nil => simp [sameAll, Expr.bareAll]
    | cons e' rest' =>
      have hrest : sameAll (rest.map f) (rest'.map f) = true ↔
          Expr.bareAll rest = Expr.bareAll rest' :=
        ih fun d hd => h d (by simp [hd])
      simp only [List.map_cons, sameAll, Bool.and_eq_true, h e (by simp), hrest, Expr.bareAll,
        List.cons.injEq]

theorem same_toJson_program_iff {f : Expr → Tree} {es es' : List Expr} {span span' : Option Span}
    (hclosed : ∀ e, (f e).Closed family)
    (hsame : ∀ e e', (f e).same (f e') = true ↔ e.bare = e'.bare) :
    (program family (es.map f) span).toJson.same (program family (es'.map f) span').toJson =
      true ↔ Expr.bareAll es = Expr.bareAll es' := by
  have hprogram : ∀ (es : List Expr) (span : Option Span),
      Closed family (.program family (es.map f) span) := by
    intro es span
    apply Closed.program
    rw [List.forall_mem_map]
    exact fun e _ => hclosed e
  rw [same_toJson (hprogram es span) (hprogram es' span'), same, beq_self_eq_true, Bool.true_and]
  exact sameAll_map_iff fun e _ => hsame e

end Tree

namespace Expr

theorem closed_toTree (e : Expr) : e.toTree.Closed .source := by
  induction e with
  | number digits span => exact .number
  | call name params span ih =>
    rw [toTree, toTrees_eq_map]
    apply Tree.Closed.call
    rwa [List.forall_mem_map]

theorem closed_lowered (e : Expr) : ∀ site : Lowering.Site, (e.lowered site).Closed .target := by
  induction e with
  | number digits span =>
    intro site
    exact .number
  | call name params span ih =>
    intro site
    have hinvoke : Tree.Closed .target
        (.invoke (.identifier name span) (loweredAll params) span) := by
      apply Tree.Closed.invoke .identifier
      rw [loweredAll_eq_map, List.forall_mem_map]
      exact fun e he => ih e he .nested
    cases site with
    | body => exact .statement hinvoke
    | root => exact hinvoke
    | nested => exact hinvoke

theorem same_toTree_iff (e : Expr) : ∀ e' : Expr,
    e.toTree.same e'.toTree = true ↔ e.bare = e'.bare := by
  induction e with
  | number digits span =>
    intro e'
    cases e' <;> simp [toTree, Tree.same, bare]
  | call name params span ih =>
    intro e'
    cases e' with
    | number digits span' => simp [toTree, Tree.same, bare]
    | call name' params' span' =>
      simp [toTree, toTrees_eq_map, Tree.same, bare, Tree.sameAll_map_iff ih]

theorem same_lowered_iff (e : Expr) : ∀ (site : Lowering.Site) (e' : Expr),
    (e.lowered site).same (e'.lowered site) = true ↔ e.bare = e'.bare := by
  induction e with
  | number digits span =>
    intro site e'
    cases e' <;> cases site <;> simp [lowered, Lowering.Site.place, Tree.same, bare]
  | call name params span ih =>
    intro site e'
    cases e' with
    | number digits span' =>
      cases site <;> simp [lowered, Lowering.Site.place, Tree.same, bare]
    | call name' params' span' =>
      have hparams : Tree.sameAll (loweredAll params) (loweredAll params') = true ↔
          bareAll params = bareAll params' := by
        rw [loweredAll_eq_map, loweredAll_eq_map]
        exact Tree.sameAll_map_iff fun e he => ih e he .nested
      cases site <;> simp [lowered, Lowering.Site.place, Tree.same, bare, hparams]

end Expr

namespace Program

variable {p p' : Program}

theorem same_toJson_iff : p.toTree.toJson.same p'.toTree.toJson = true ↔
    Expr.bareAll p.body = Expr.bareAll p'.body := by
  rw [toTree, toTree, Expr.toTrees_eq_map, Expr.toTrees_eq_map]
  exact Tree.same_toJson_program_iff Expr.closed_toTree Expr.same_toTree_iff

theorem same_toJson_lowered_iff :
    (Tree.program .target (p.body.map (Expr.lowered .body)) p.span).toJson.same
        (Tree.program .target (p'.body.map (Expr.lowered .body)) p'.span).toJson = true ↔
      Expr.bareAll p.body = Expr.bareAll p'.body :=
  Tree.same_toJson_program_iff (fun e => e.closed_lowered .body)
    (fun e => e.same_lowered_iff .body)

end Program

end CallForms
