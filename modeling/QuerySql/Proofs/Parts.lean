import QuerySql.Proofs.Steps

/-!
# No part is left out

No SQL is made for a part of an expression. Where a part cannot be translated, the whole cannot be
translated either: neither where the part is a child of a node, nor where it is the operand that a
rewritten call takes out of the body of a lambda. So no lambda parameter gets out of its lambda.

* `Postgres.fails_of_child` and `Postgres.fails_of_taken?` are the two steps.
* `Postgres.fails_of_exposes` follows by induction on the place of the parameter.
* `Translator.translate_fails_of_part` says all of it for translators.
-/

namespace QuerySql

/-! ## The relational strategy -/

namespace Relational

variable {r : Relational} {recur : Expr → Attempt Sql} {c : Expr} (hc : (recur c).Fails)

include hc

theorem fails_unary (op : ExprUnaryOp) (ty : Ty) : (r.unary recur op c ty).Fails :=
  Attempt.fails_bind hc _

/-- A null check leaves out a constant, which can always be translated. -/
theorem fails_binary (hconst : ∀ v ty, ¬ (recur (.const v ty)).Fails) (op : ExprOp)
    {left right : Expr} (hmem : c = left ∨ c = right) : (r.binary recur op left right).Fails := by
  have hnull : c.isNullConst = false := by
    cases c with
    | const v ty => exact absurd hc (hconst v ty)
    | _ => rfl
  unfold binary
  split
  next check operand hcheck =>
    have hoperand : operand = c := by
      obtain ⟨_, -, hcheck⟩ := Option.bind_eq_some_iff.mp hcheck
      split at hcheck
      next hl hr =>
        cases hcheck
        rcases hmem with rfl | rfl
        · rw [hnull] at hl
          cases hl
        · rfl
      next hl hr =>
        cases hcheck
        rcases hmem with rfl | rfl
        · rfl
        · rw [hnull] at hr
          cases hr
      next => cases hcheck
    rw [hoperand]
    exact Attempt.fails_bind hc _
  next =>
    rcases hmem with rfl | rfl
    · exact Attempt.fails_bind hc _
    · exact Attempt.fails_bind_of_forall fun _ => Attempt.fails_bind hc _

/-- A call needs its receiver and all of its arguments. -/
theorem fails_call (method : Method) {receiver : Option Expr} {args : List Expr}
    (hmem : c ∈ receiver.toList ++ args) : (r.call recur method receiver args).Fails := by
  rcases List.mem_append.mp hmem with hr | ha
  · cases Option.mem_toList.mp hr
    exact Attempt.fails_bind (Attempt.fails_bind hc _) _
  · exact Attempt.fails_bind_of_forall fun _ => Attempt.fails_bind (Attempt.fails_all ha hc) _

/-- The relational strategy needs every part of a node, if constants can be translated. -/
theorem fails_strategy (hconst : ∀ v ty, ¬ (recur (.const v ty)).Fails) {e : Expr}
    (hmem : c ∈ e.children) : (r.strategy recur e).Fails := by
  cases e with
  | const | queryParam | property => cases hmem
  | lambdaParam | construct | newArray | lambda => exact Attempt.fails_decline
  | unary op operand ty =>
    cases List.mem_singleton.mp hmem
    exact fails_unary hc op ty
  | binary op left right ty =>
    refine fails_binary hc hconst op ?_
    rcases List.mem_cons.mp hmem with h | h
    · exact .inl h
    · exact .inr (List.mem_singleton.mp h)
  | call method receiver args => exact fails_call hc method hmem

end Relational

/-! ## The PostgreSQL strategy -/

namespace Postgres

variable {p : Postgres} {r : Relational}

/-- What the strategy behind is left with fails if a child does. -/
theorem fails_behind {c e : Expr} (hc : (p.run r c).Fails) (hmem : c ∈ e.children) :
    (r.strategy (p.run r) e).Fails :=
  Relational.fails_strategy hc not_fails_const hmem

/-- A conversion can be translated if its operand can. -/
theorem fails_of_conversion {op : ExprUnaryOp} (hop : op.isConversion = true) {operand : Expr}
    {ty : Ty} (h : (p.run r (.unary op operand ty)).Fails) : (p.run r operand).Fails := by
  intro x hx
  exact h _ (outcome_conversion hop hx ty)

/-- Stripping conversions does not help: they fail only because of what is under them. -/
theorem fails_stripImplicit {e : Expr} (h : (p.run r e).Fails) :
    (p.run r e.stripImplicit).Fails := by
  fun_induction Expr.stripImplicit e with
  | case1 op operand ty hop ih =>
    rw [Bool.and_eq_true] at hop
    exact ih (fails_of_conversion hop.1 h)
  | case2 | case3 => exact h

/-! ### Lambdas -/

/-- Both the array and the operand of a pattern are needed. -/
theorem fails_arrayPattern (q : Quantifier) {array : Expr} (param : Parameter)
    {pattern : ArrayPattern} (h : (p.run r array).Fails ∨ (p.run r pattern.operand).Fails) :
    (p.arrayPattern (p.run r) q array param pattern).Fails := by
  have hboth {left right : Expr} (h : (p.run r left).Fails ∨ (p.run r right).Fails) :
      (operands (p.run r) left right).Fails := by
    rcases h with h | h
    · exact Attempt.fails_bind h _
    · exact Attempt.fails_bind_of_forall fun _ => Attempt.fails_bind h _
  cases pattern with
  | likeElement ignoreCase subject =>
    exact Attempt.fails_bind_of_forall fun _ => Attempt.fails_bind (hboth h.symm) _
  | memberOf other =>
    exact Attempt.fails_bind_of_forall fun _ => Attempt.fails_bind (hboth h) _
  | equalTo other =>
    refine Attempt.fails_bind_of_forall fun _ => ?_
    -- The membership test is a call without a lambda, so the strategy behind gets it.
    show (p.run r (.call (Known.close (.sequence .contains) [param.ty]) none [array, other])).Fails
    rw [run_call (lambdaCall?_contains _ _ _)]
    rcases h with h | h
    · exact Relational.fails_call h _ List.mem_cons_self
    · exact Relational.fails_call h _ (List.mem_cons_of_mem _ List.mem_cons_self)

/-- A question about label paths needs the array and its argument. -/
theorem fails_labelPattern {pattern : LabelPattern}
    (h : (p.run r pattern.operands.1).Fails ∨ (p.run r pattern.operands.2).Fails) :
    (p.labelPattern (p.run r) pattern).Fails := by
  cases pattern with
  | anyQuery path queries =>
    exact Attempt.fails_bind_of_forall fun _ => Attempt.fails_bind (Attempt.fails_both h) _
  | pathsBy method op first paths other =>
    exact Attempt.fails_bind_of_forall fun _ => Attempt.fails_bind (Attempt.fails_both h) _

/-- A call is rewritten just where an operand is taken out of the body of its lambda. -/
theorem isSome_lambdaCall? (p : Postgres) (recur : Expr → Attempt Sql) (method : Method)
    (receiver : Option Expr) (args : List Expr) :
    (p.lambdaCall? recur method args).isSome = (Expr.call method receiver args).taken?.isSome := by
  unfold lambdaCall? Expr.taken?
  simp only
  cases args.head?.any fun a => a.ty.stripNullable.isArrayOrList with
  | false => rfl
  | true =>
    cases ArrayPattern.ofCall? method args with
    | some pattern => rfl
    | none => simp only [if_true, Option.isSome_map]

/-- The array and the operand of a call that is rewritten: if one of them fails, the call does. -/
theorem fails_lambdaCall? {method : Method} (receiver : Option Expr) {args : List Expr}
    {x : Attempt Sql} (hx : p.lambdaCall? (p.run r) method args = some x) :
    (∃ k, Known.identify? method = some (.sequence k)) ∧
      ∃ array params body ty d, args = [array, .lambda params body ty] ∧
        (Expr.call method receiver args).taken? = some d ∧
        ((p.run r array).Fails ∨ (p.run r d).Fails → x.Fails) := by
  unfold lambdaCall? at hx
  split at hx
  · cases hx
  next hhead =>
    split at hx
    next q array param pattern hp =>
      cases hx
      obtain ⟨body, ty, rfl, -⟩ := ArrayPattern.ofCall?_eq_some hp
      refine ⟨ArrayPattern.identify?_of_ofCall? hp, array, _, body, ty, pattern.operand, rfl, ?_,
        fails_arrayPattern q param⟩
      simp only [Expr.taken?, hhead, if_true, hp]
    next hnone =>
      obtain ⟨pattern, hp, rfl⟩ := Option.map_eq_some_iff.mp hx
      obtain ⟨array, params, body, ty, rfl, -, ho⟩ := LabelPattern.ofCall?_eq_some hp
      refine ⟨LabelPattern.identify?_of_ofCall? hp, array, params, body, ty, pattern.taken, rfl, ?_,
        fun h => fails_labelPattern ?_⟩
      · simp only [Expr.taken?, hhead, if_true, hnone, hp, Option.map_some]
      · rcases ho with ho | ho
        · rw [ho]
          exact h.symm
        · rw [ho]
          exact h

/-! ### Constructors -/

theorem fails_make {function : String} {args : List Expr} {ty : Ty} {mapping : Option Mapping}
    {c : Expr} (hc : (p.run r c).Fails) (hmem : c ∈ args) :
    (p.make (p.run r) function args ty mapping).Fails :=
  Attempt.fails_bind (Attempt.fails_all hmem hc) _

/-- One of the six parts fails if the argument that it stands for does. -/
theorem exists_part_fails {args parts : List Expr} {c : Expr}
    (hp : timestampParts? args = some parts) (hc : (p.run r c).Fails) (hmem : c ∈ args.take 6) :
    ∃ d ∈ parts, (p.run r d).Fails := by
  unfold timestampParts? at hp
  split at hp
  next year month day hour minute second rest =>
    cases hp
    simp only [List.take_succ_cons, List.take_zero, List.mem_cons, List.not_mem_nil,
      or_false] at hmem
    have hsecond (h : c = second) : (p.run r (.unary .convert second .double)).Fails := by
      subst h
      intro x hx
      rw [run_eq] at hx
      have hbehind : (r.unary (p.run r) .convert c .double).Fails := Relational.fails_unary hc _ _
      exact hbehind x hx
    rcases hmem with h | h | h | h | h | h
    case inr.inr.inr.inr.inr =>
      exact ⟨_, by simp only [List.mem_cons, true_or, or_true], hsecond h⟩
    all_goals
      exact ⟨c, by simp only [h, List.mem_cons, true_or, or_true], hc⟩
  next => cases hp

/-- The seventh argument, which is constant, can be translated. -/
theorem mem_take_of_timestampKind? {args : List Expr} {kind : TimestampKind} {c : Expr}
    (hlen : args.length = 7) (hk : timestampKind? args = some kind) (hc : (p.run r c).Fails)
    (hmem : c ∈ args) : c ∈ args.take 6 := by
  have hsplit : args.take 6 ++ args.drop 6 = args := List.take_append_drop 6 args
  rw [← hsplit] at hmem
  rcases List.mem_append.mp hmem with h | h
  · exact h
  · exfalso
    obtain ⟨i, hi, heq⟩ := List.mem_iff_getElem.mp h
    rw [List.length_drop] at hi
    obtain rfl : i = 0 := by omega
    rw [List.getElem_drop] at heq
    have hget : args[6]? = some c := by
      rw [List.getElem?_eq_getElem (by omega)]
      exact congrArg some heq
    unfold timestampKind? at hk
    rw [hget] at hk
    cases c with
    | const v ty => exact not_fails_const v ty hc
    | _ => cases hk

/-- By cases on the constructor: every argument is handed on, with the seconds converted. -/
theorem fails_construct {ctor : Constructor} {args : List Expr} {c : Expr}
    (hlen : args.length = ctor.parameters.length) (hc : (p.run r c).Fails) (hmem : c ∈ args) :
    (p.construct (p.run r) ctor args).Fails := by
  unfold construct
  split
  · exact Attempt.fails_bind (Attempt.fails_all hmem hc) _
  split
  · exact fails_make hc hmem
  split
  · exact fails_make hc hmem
  split
  next hctor =>
    subst hctor
    split
    next parts hp =>
      -- The parts are the first six arguments, which are all of them.
      have htake : c ∈ args.take 6 := by
        have hlen : args.length = 6 := hlen
        rw [List.take_of_length_le (Nat.le_of_eq hlen)]
        exact hmem
      obtain ⟨d, hd, hf⟩ := exists_part_fails hp hc htake
      exact fails_make hf hd
    next => exact Attempt.fails_decline
  split
  next hctor =>
    subst hctor
    split
    next kind parts hk hp =>
      have htake := mem_take_of_timestampKind? (p := p) (r := r) hlen hk hc hmem
      obtain ⟨d, hd, hf⟩ := exists_part_fails hp hc htake
      unfold timestampOfKind
      split
      · exact fails_make hf (List.mem_append_left _ hd)
      · exact fails_make hf hd
    next => exact Attempt.fails_decline
  · exact Attempt.fails_decline

/-! ### All nodes -/

/-- By cases on the node: what PostgreSQL has its own way with needs its parts as well, lambdas
apart. -/
theorem fails_intercept? {e c : Expr} {x : Attempt Sql} (hx : p.intercept? (p.run r) e = some x)
    (he : e.ProperNode) (hmem : c ∈ e.children) (hl : c.isLambda = false)
    (hc : (p.run r c).Fails) : x.Fails := by
  unfold intercept? at hx
  split at hx
  next operand ty =>
    cases hx
    cases List.mem_singleton.mp hmem
    exact Attempt.fails_bind hc _
  next operand ty =>
    split at hx
    · cases hx
      cases List.mem_singleton.mp hmem
      exact hc
    · cases hx
  next method receiver args =>
    obtain ⟨⟨k, hk⟩, array, params, body, ty, d, rfl, -, hf⟩ :=
      fails_lambdaCall? receiver hx
    have hstatic : (Known.sequence k).declaration.isStatic = true := by cases k <;> rfl
    -- Methods of sequences are static, so the part is the array or the lambda.
    obtain rfl : receiver = none := he _ hk hstatic
    rcases List.mem_cons.mp hmem with rfl | hmem
    · exact hf (.inl hc)
    · cases List.mem_singleton.mp hmem
      cases hl
  next left right ty =>
    split at hx
    · cases hx
      -- The operands are stripped, and what is left fails where the operand does.
      refine Attempt.fails_bind (Attempt.fails_both ?_) _
      rcases List.mem_cons.mp hmem with rfl | hmem
      · exact .inl (fails_stripImplicit hc)
      · cases List.mem_singleton.mp hmem
        exact .inr (fails_stripImplicit hc)
    · cases hx
  next left right ty =>
    cases hx
    refine Attempt.fails_bind (Attempt.fails_both ?_) _
    rcases List.mem_cons.mp hmem with rfl | hmem
    · exact .inl (fails_stripImplicit hc)
    · cases List.mem_singleton.mp hmem
      exact .inr (fails_stripImplicit hc)
  next => cases hx

/-- Where a child other than a lambda cannot be translated, the node cannot be translated. -/
theorem fails_of_child {e c : Expr} (he : e.ProperNode) (hmem : c ∈ e.children)
    (hl : c.isLambda = false) (hc : (p.run r c).Fails) : (p.run r e).Fails := by
  have hbehind := fails_behind hc hmem
  rw [run_eq]
  unfold strategy
  split
  next sized items ty =>
    refine Attempt.fails_orElse hbehind ?_
    split
    · exact Attempt.fails_decline
    · refine Attempt.fails_bind (Attempt.fails_reportDecline ?_ _) _
      exact Attempt.fails_all hmem hc
  next ctor args => exact Attempt.fails_orElse hbehind (fails_construct he hc hmem)
  next =>
    split
    next x hx => exact fails_intercept? hx he hmem hl hc
    next => exact hbehind

/-- Where the operand taken out of the body of a lambda cannot be translated, the call cannot be
translated. -/
theorem fails_of_taken? {e d : Expr} (h : e.taken? = some d) (hd : (p.run r d).Fails) :
    (p.run r e).Fails := by
  cases e with
  | call method receiver args =>
    have hsome := isSome_lambdaCall? p (p.run r) method receiver args
    rw [h] at hsome
    obtain ⟨x, hx⟩ := Option.isSome_iff_exists.mp hsome
    obtain ⟨-, array, params, body, ty, d', rfl, ht, hf⟩ :=
      fails_lambdaCall? receiver hx
    rw [h] at ht
    cases ht
    rw [run_eq]
    simp only [strategy, intercept?, hx]
    exact hf (.inr hd)
  | _ => cases h

/-- A parameter of a lambda has no SQL of its own. -/
theorem fails_lambdaParam (q : Parameter) : (p.run r (.lambdaParam q)).Fails := by
  rw [run_eq]
  exact Attempt.fails_decline

/-- By induction on the place of the parameter: every node above it fails because a child does, and
none of these is a lambda. -/
theorem fails_of_exposes {e : Expr} {q : Parameter} (he : e.Proper) (h : e.Exposes q) :
    (p.run r e).Fails := by
  induction h with
  | here => exact fails_lambdaParam q
  | @child c e _ hmem hc ih =>
    have hproper : c.Proper := he.within (.of_mem hmem)
    exact fails_of_child he.root hmem hc.not_lambda (ih hproper)

end Postgres

/-! ## Translators -/

namespace Translator

/-- Nothing is left out, and no lambda parameter gets out of its lambda.

* A node fails if a child other than a lambda does.
* A rewritten call fails if the operand does that it takes out of the body of its lambda.
* So an expression fails in which a lambda parameter occurs outside of all lambda bodies,
* and the operand of a rewritten call that can be translated has no such occurrence.
* To fail is to decline, unless an added translator breaks off. -/
theorem translate_fails_of_part {columns : ColumnLookup} {options : Options} {catalog : Catalog}
    {added : List ScalarTranslator} {t : Translator}
    (ht : (postgres columns options catalog added).outcome = .ok t) :
    (∀ e c : Expr, e.ProperNode → c ∈ e.children → c.isLambda = false →
      (t.translate c).Fails → (t.translate e).Fails) ∧
    (∀ e d : Expr, e.taken? = some d → (t.translate d).Fails → (t.translate e).Fails) ∧
    (∀ (e : Expr) (q : Parameter), e.Proper → e.Exposes q → (t.translate e).Fails) ∧
    (∀ (e d : Expr) (s : Sql) (q : Parameter), e.Proper → e.taken? = some d →
      (t.translate e).outcome = .ok s → ¬ d.Exposes q) ∧
    ((∀ a ∈ added, a.Respects fun _ => True) →
      ∀ e, (t.translate e).Fails ↔ (t.translate e).Declines) := by
  obtain ⟨b, p, -, -, hrun⟩ := postgres_eq_ok ht
  refine ⟨?_, ?_, ?_, ?_, ?_⟩
  · intro e c he hmem hl hc
    rw [hrun] at hc ⊢
    exact Postgres.fails_of_child he hmem hl hc
  · intro e d htaken hd
    rw [hrun] at hd ⊢
    exact Postgres.fails_of_taken? htaken hd
  · intro e q he hq
    rw [hrun]
    exact Postgres.fails_of_exposes he hq
  · intro e d s q he htaken hs hq
    rw [hrun] at hs
    have hd := Postgres.fails_of_exposes (p := p)
      (r := ⟨b, Scalar.builtIn b options ++ added, columns⟩)
      (he.within (Expr.within_of_taken? htaken)) hq
    exact Postgres.fails_of_taken? htaken hd s hs
  · intro hadded e
    have hyields := yields_translate (P := fun _ => True) ht (fun b _ => Builder.closed_true)
      hadded e
    exact hyields.declines_iff_fails.symm

/-- `tags.Any(x => x == other)` is rewritten, if only `other` is not `x` itself. -/
theorem parameter_stays_in_lambda :
    let x : Parameter := ⟨"x", .string⟩
    let tags : Column := { name := "tags", ty := .array .string }
    let anyEqual (other : Expr) : Expr :=
      .call (Known.close (.sequence .anyWhere) [.string]) none
        [.property none "Tags" (.array .string),
          .lambdaOf [x] (.ofBinary (.plain .equal) (.lambdaParam x) other)]
    let literal : Expr := .ofValue (.string "new")
    ∃ t s, (postgres (fun _ _ => some tags) {} Catalog.standard []).outcome = .ok t ∧
      (t.translate (anyEqual literal)).outcome = .ok s ∧ ¬ literal.Exposes x ∧
      (t.translate (anyEqual (.lambdaParam x))).Declines ∧
      (t.translate (.arrayOf .string [literal, .lambdaParam x])).Declines := by
  intro x tags anyEqual literal
  obtain ⟨t, s, ht, hs, -⟩ := exists_translation
    (postgres (fun _ _ => some tags) {} Catalog.standard []) (anyEqual literal) (fun _ => true)
    (by decide +kernel)
  obtain ⟨hchild, htaken, hexposed, hclosed, hdeclines⟩ := translate_fails_of_part ht
  have hparam : (t.translate (.lambdaParam x)).Fails :=
    hexposed _ x (.intro trivial nofun) .here
  refine ⟨t, s, ht, hs, ?_, ?_, ?_⟩
  · refine hclosed (anyEqual literal) literal s x ?_ rfl hs
    -- Every node of the call is proper: the methods of sequences have no receiver.
    refine .intro (fun _ _ _ => rfl) fun c hc => ?_
    rcases List.mem_cons.mp hc with rfl | hc
    · exact .intro trivial nofun
    cases List.mem_singleton.mp hc
    refine .intro trivial fun c hc => ?_
    cases List.mem_singleton.mp hc
    refine .intro trivial fun c hc => ?_
    rcases List.mem_cons.mp hc with rfl | hc
    · exact .intro trivial nofun
    · cases List.mem_singleton.mp hc
      exact .intro trivial nofun
  · exact (hdeclines nofun _).mp (htaken _ (.lambdaParam x) rfl hparam)
  · refine (hdeclines nofun _).mp (hchild _ (.lambdaParam x) trivial ?_ rfl hparam)
    exact List.mem_cons_of_mem _ List.mem_cons_self

end Translator

end QuerySql
