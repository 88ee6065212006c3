import QuerySql.Proofs.Membership
import QuerySql.Proofs.Parts

/-!
# Lambdas over arrays mean what they say

A condition on the elements of an array is rewritten to one operator on the array. What comes out of
it is true exactly if some element, or each of them, meets the condition: an equation with an
operand, however it is spelled, or the membership in another array. For label paths it is the
operator that a single path gets, with the array in the place of the path.

* `Expr.Equates`, `Expr.TestsMember`: the conditions, in all their spellings.
* `Translator.RewritesLambdas` says what each rewriting means.
-/

namespace QuerySql

/-! ## Conditions -/

/-- The body equates the parameter with an operand. -/
inductive Expr.Equates (x : Parameter) (v : Expr) : Expr → Prop
  | left (ty : Ty) : Equates x v (.binary (.plain .equal) (.lambdaParam x) v ty)
  | right (ty : Ty) : Equates x v (.binary (.plain .equal) v (.lambdaParam x) ty)
  | onParameter {m : Method} : m.name = "Equals" →
    Equates x v (.call m (some (.lambdaParam x)) [v])
  | onOperand {m : Method} : m.name = "Equals" → Equates x v (.call m (some v) [.lambdaParam x])
  | parameterFirst {m : Method} : Known.identify? m = some .objectEquals →
    Equates x v (.call m none [.lambdaParam x, v])
  | operandFirst {m : Method} : Known.identify? m = some .objectEquals →
    Equates x v (.call m none [v, .lambdaParam x])

/-- The body asks whether another collection contains the parameter. -/
inductive Expr.TestsMember (x : Parameter) (other : Expr) : Expr → Prop
  | static {m : Method} : Known.identify? m = some (.sequence .contains) →
    TestsMember x other (.call m none [other, .lambdaParam x])
  | onOther {m : Method} : m.name = "Contains" →
    TestsMember x other (.call m (some other) [.lambdaParam x])

namespace Quantifier

/-- The method that asks whether some, or all, elements meet a condition. -/
def method : Quantifier → Known
  | any => .sequence .anyWhere
  | all => .sequence .allWhere

/-- Some, or all, of the items meet the condition. -/
def Holds (q : Quantifier) (P : Datum → Prop) (items : List Datum) : Prop :=
  match q with
  | any => ∃ y ∈ items, P y
  | all => ∀ y ∈ items, P y

end Quantifier

namespace Sql

/-- The tree asks whether the item is an element: of an array, by the server's equality, or of a
byte string. -/
structure TestsElement (s item array : Sql) : Prop where
  native : array.mappedBy Mapping.isBytes = false → ∀ (S : Server) (env : Env) (items : List Datum),
    S.ArrayRules → (array.eval S env).IsArrayOf items → item.eval S env ≠ .null →
    (s.eval S env = .truth true ↔ ∃ y ∈ items, S.Same y (item.eval S env))
  bytes : array.mappedBy Mapping.isBytes = true → ∀ (S : Server) (env : Env) (bytes : List UInt8)
    (n : UInt8), S.ArrayRules → array.eval S env = .ofValue (.bytes bytes) →
    item.eval S env = .ofValue (.byte n) → (s.eval S env = .truth true ↔ n ∈ bytes)

/-- The tree asks whether some, or all, elements of an array are elements of another one. -/
def TestsElements (q : Quantifier) (s array other : Sql) : Prop :=
  array.isForeign = false → other.isForeign = false →
  ∀ (S : Server) (env : Env) (xs ys : List Datum), S.ArrayRules →
    (array.eval S env).IsArrayOf xs → (other.eval S env).IsArrayOf ys →
    (s.eval S env = .truth true ↔ q.Holds (fun x => ∃ y ∈ ys, S.Same x y) xs)

end Sql

/-! ## What is recognized -/

namespace ArrayPattern

variable {x : Parameter} {body : Expr}

theorem ofEquation?_left (x : Parameter) (v : Expr) :
    ofEquation? x (.lambdaParam x) v = some (.equalTo v) := by
  simp only [ofEquation?, Expr.isParameter, decide_true, if_true]

theorem ofEquation?_right (x : Parameter) (v : Expr) :
    ofEquation? x v (.lambdaParam x) = some (.equalTo v) := by
  unfold ofEquation?
  split
  next h =>
    -- Both sides are the parameter.
    cases v with
    | lambdaParam y =>
      rw [of_decide_eq_true h]
    | _ => cases h
  next => simp only [Expr.isParameter, decide_true, if_true]

theorem ofLike?_eq_none {m : Method} {args : List Expr} (h : args.length < 3) :
    ofLike? x m args = none := by
  unfold ofLike?
  split
  next => exact absurd h (Nat.lt_irrefl 3)
  next => rfl

/-- A test by a method of one or two arguments is no match with a pattern. -/
theorem ofBody?_call {q : Quantifier} {m : Method} {receiver : Option Expr} {args : List Expr}
    (h : args.length < 3) :
    ofBody? q x (.call m receiver args) =
      (ofContains? x m receiver args).or
        (if q = .any then ofEquals? x m receiver args else none) := by
  simp only [ofBody?, ofLike?_eq_none h, Option.none_or]

/-- By cases on the spelling: each of them is read as an equation, and as nothing else. -/
theorem ofBody?_of_equates {v : Expr} (h : Expr.Equates x v body) :
    ofBody? .any x body = some (.equalTo v) := by
  have hone (e : Expr) : [e].length < 3 := Nat.lt_of_sub_eq_succ rfl
  have htwo (d e : Expr) : [d, e].length < 3 := Nat.lt_of_sub_eq_succ rfl
  -- A call for equality is not taken for a membership test, which is tried first.
  have hcontains {m : Method} (hm : m.name = "Equals") (receiver item : Expr) :
      ofContains? x m (some receiver) [item] = none := by
    refine if_neg fun h => ?_
    rw [hm] at h
    exact absurd h.1 (by decide)
  have hstatic {m : Method} (hm : Known.identify? m = some .objectEquals) (other item : Expr) :
      ofContains? x m none [other, item] = none := by
    refine if_neg fun h => ?_
    rw [hm] at h
    exact nomatch h.1
  cases h with
  | left ty => exact ofEquation?_left x v
  | right ty => exact ofEquation?_right x v
  | onParameter hm =>
    rw [ofBody?_call (hone v), hcontains hm]
    exact (if_pos hm).trans (ofEquation?_left x v)
  | onOperand hm =>
    rw [ofBody?_call (hone _), hcontains hm]
    exact (if_pos hm).trans (ofEquation?_right x v)
  | parameterFirst hm =>
    rw [ofBody?_call (htwo _ v), hstatic hm]
    exact (if_pos hm).trans (ofEquation?_left x v)
  | operandFirst hm =>
    rw [ofBody?_call (htwo v _), hstatic hm]
    exact (if_pos hm).trans (ofEquation?_right x v)

/-- If a membership test is recognized at all, it is recognized as one. -/
theorem eq_of_testsMember {q : Quantifier} {other : Expr} {pattern : ArrayPattern}
    (h : Expr.TestsMember x other body) (hp : ofBody? q x body = some pattern) :
    pattern = .memberOf other := by
  cases h with
  | @static m hm =>
    have hequals : ofEquals? x m none [other, .lambdaParam x] = none := by
      refine if_neg ?_
      rw [hm]
      exact nofun
    rw [ofBody?_call (Nat.lt_of_sub_eq_succ rfl), hequals, ite_self, Option.or_none] at hp
    simp only [ofContains?, Option.ite_none_right_eq_some, Option.some.injEq] at hp
    exact hp.2.symm
  | @onOther m hm =>
    have hequals : ofEquals? x m (some other) [.lambdaParam x] = none := by
      refine if_neg ?_
      rw [hm]
      decide
    rw [ofBody?_call (Nat.lt_of_sub_eq_succ rfl), hequals, ite_self, Option.or_none] at hp
    simp only [ofContains?, Option.ite_none_right_eq_some, Option.some.injEq] at hp
    exact hp.2.symm

/-- A call on the parameter of a method of label paths states no condition that any array has. -/
theorem ofBody?_of_labelTree {q : Quantifier} {test : Method} {k : LabelTreeMethod}
    (h : Known.identify? test = some (.labelTree k)) (receiver argument : Expr) :
    ofBody? q x (.call test (some receiver) [argument]) = none := by
  have hname := Known.name_of_identify? h
  have hcontains : ofContains? x test (some receiver) [argument] = none := by
    refine if_neg fun hc => ?_
    rw [hname] at hc
    cases k <;> exact absurd hc.1 (by decide)
  have hequals : ofEquals? x test (some receiver) [argument] = none := by
    refine if_neg ?_
    rw [hname]
    cases k <;> decide
  rw [ofBody?_call (Nat.lt_of_sub_eq_succ rfl), hcontains, hequals, ite_self, Option.or_none]

/-- A condition is read off the body of the lambda. -/
theorem ofCall?_eq_map {q : Quantifier} {m : Method} (hm : Known.identify? m = some q.method)
    (array body : Expr) (fn : Ty) :
    ofCall? m [array, .lambda [x] body fn] =
      (ofBody? q x body).map fun pattern => (q, array, x, pattern) := by
  unfold ofCall?
  rw [hm]
  cases q <;> rfl

end ArrayPattern

namespace LabelPattern

variable {m test : Method} {k : LabelTreeMethod} {x : Parameter}

/-- The lambda of a question about label paths applies a method of label paths. -/
theorem labelTree_of_ofCall? {args : List Expr} {pattern : LabelPattern}
    (h : ofCall? m args = some pattern) :
    ∃ array params test receiver argument fn k,
      args = [array, .lambda params (.call test (some receiver) [argument]) fn] ∧
      Known.identify? test = some (.labelTree k) := by
  obtain ⟨⟨method, first⟩, -, h⟩ := Option.bind_eq_some_iff.mp h
  simp only at h
  split at h
  next =>
    unfold ofTest? at h
    split at h
    next k hk => exact ⟨_, _, _, _, _, _, k, rfl, hk⟩
    next => cases h
  next => cases h

/-- A membership test is no question about label paths. -/
theorem ofCall?_of_testsMember {other array body : Expr} (h : Expr.TestsMember x other body)
    (fn : Ty) : ofCall? m [array, .lambda [x] body fn] = none := by
  cases hp : ofCall? m [array, .lambda [x] body fn] with
  | none => rfl
  | some pattern =>
    obtain ⟨_, _, test, _, _, _, k, hargs, hk⟩ := labelTree_of_ofCall? hp
    have hname := Known.name_of_identify? hk
    cases h with
    | static => cases hargs
    | onOther hm =>
      cases hargs
      rw [hm] at hname
      cases k <;> exact absurd hname (by decide)

/-- The method that asks for some path that passes a test, or for the first one. -/
def method (first : Bool) : Known :=
  .sequence (if first then .firstOrDefaultWhere else .anyWhere)

/-- A question about label paths is read off the test in the body. -/
theorem ofCall?_eq_ofTest? (first : Bool) (hm : Known.identify? m = some (method first))
    (array receiver argument : Expr) (fn : Ty) :
    ofCall? m [array, .lambda [x] (.call test (some receiver) [argument]) fn] =
      ofTest? (method first) first array x test receiver argument := by
  unfold ofCall?
  rw [hm]
  cases first <;> rfl

end LabelPattern

/-- The first-match form of an operator is written with a question mark in front. -/
theorem LabelPattern.symbol_of_op? {k : LabelTreeMethod} {op : PostgresOp}
    (h : op? true k = some op) :
    ∃ single, Scalar.LabelTrees.testOp? k = some single ∧ op.symbol = "?" ++ single.symbol := by
  cases k <;> cases h <;> exact ⟨_, rfl, by decide⟩

theorem LabelPattern.op?_eq_testOp? (k : LabelTreeMethod) :
    op? false k = Scalar.LabelTrees.testOp? k := by
  cases k <;> rfl

/-- What a test of a single path is translated to. -/
theorem Scalar.LabelTrees.translate_test {b : Builder} {test : Method} {k : LabelTreeMethod}
    {op : PostgresOp} (hk : Known.identify? test = some (.labelTree k)) (hop : testOp? k = some op)
    (path other : Sql) :
    (translator b).translate ⟨some path, test, [other]⟩ =
      pure (b.postgresPredicate op path other) := by
  cases k <;> cases hop <;> simp only [translator, hk] <;> rfl

/-- A question about label paths is no condition on elements. -/
theorem ArrayPattern.ofCall?_of_labelTree (first : Bool) {m test : Method} {k : LabelTreeMethod}
    {x : Parameter} (hm : Known.identify? m = some (LabelPattern.method first))
    (hk : Known.identify? test = some (.labelTree k)) (array receiver argument : Expr) (fn : Ty) :
    ofCall? m [array, .lambda [x] (.call test (some receiver) [argument]) fn] = none := by
  cases first with
  | false =>
    rw [ofCall?_eq_map (q := .any) hm, ofBody?_of_labelTree hk]
    rfl
  | true =>
    unfold ofCall?
    rw [hm]
    rfl

/-! ## What is made of a call with a lambda -/

namespace Postgres

variable {p : Postgres} {r : Relational} {m : Method} {receiver : Option Expr} {s : Sql}

theorem fails_lambda (params : List Parameter) (body : Expr) (fn : Ty) :
    (p.run r (.lambda params body fn)).Fails := by
  rw [run_eq]
  exact Attempt.fails_decline

/-- A call with a lambda is rewritten, or there is no SQL for it. -/
theorem exists_lambdaCall? {args : List Expr} {params : List Parameter} {body : Expr} {fn : Ty}
    (hlambda : .lambda params body fn ∈ args)
    (hs : (p.run r (.call m receiver args)).outcome = .ok s) :
    ∃ x, p.lambdaCall? (p.run r) m args = some x ∧ x.outcome = .ok s := by
  cases hx : p.lambdaCall? (p.run r) m args with
  | some x =>
    refine ⟨x, rfl, ?_⟩
    rw [run_eq] at hs
    simpa only [strategy, intercept?, hx] using hs
  | none =>
    rw [run_call hx] at hs
    have hfails : (r.call (p.run r) m receiver args).Fails :=
      Relational.fails_call (fails_lambda params body fn) m (List.mem_append_right _ hlambda)
    exact absurd hs (hfails s)

/-- A condition on elements is tried first, a question about label paths after it. -/
theorem lambdaCall?_eq_some {recur : Expr → Attempt Sql} {args : List Expr} {x : Attempt Sql}
    (hx : p.lambdaCall? recur m args = some x) :
    (∃ q array param pattern, ArrayPattern.ofCall? m args = some (q, array, param, pattern) ∧
      x = p.arrayPattern recur q array param pattern) ∨
    (ArrayPattern.ofCall? m args = none ∧
      ∃ pattern, LabelPattern.ofCall? m args = some pattern ∧
        x = p.labelPattern recur pattern) := by
  unfold lambdaCall? at hx
  split at hx
  · cases hx
  · split at hx
    next q array param pattern hp =>
      cases hx
      exact .inl ⟨q, array, param, pattern, hp, rfl⟩
    next hnone =>
      obtain ⟨pattern, hp, rfl⟩ := Option.map_eq_some_iff.mp hx
      exact .inr ⟨hnone, pattern, hp, rfl⟩

/-! ### Conditions on elements -/

section Elements

variable {options : Options} {added : List ScalarTranslator}
  (hscalars : r.scalars = Scalar.builtIn r.builder options ++ added)
  (hadded : ∀ t ∈ added, ∀ c : ScalarCall,
    Known.identify? c.method = some (.sequence .contains) → (t.translate c).Fails)
  {array v : Expr}

include hscalars hadded

/-- A membership test is true exactly if the item is an element. -/
theorem testsElement_of_contains {ty : Ty}
    (hs : (p.run r (.call (Known.close (.sequence .contains) [ty]) none [array, v])).outcome =
      .ok s) :
    ∃ sa sv, (p.run r array).outcome = .ok sa ∧ (p.run r v).outcome = .ok sv ∧
      s.TestsElement sv sa := by
  rw [run_call (lambdaCall?_contains _ _ _)] at hs
  obtain ⟨x, hx, hs⟩ := Run.outcome_bind_eq_ok.mp hs
  cases hx
  obtain ⟨xs, hxs, hs⟩ := Run.outcome_bind_eq_ok.mp hs
  obtain ⟨sa, sv, rfl, ha, hv⟩ := Attempt.outcome_all_pair hxs
  have hm := Known.identify?_contains ty
  rw [Relational.callOn_of_name (by rw [hm]; exact nofun) (ne_of_beq_false rfl),
    Attempt.outcome_reportDecline, hscalars] at hs
  refine ⟨sa, sv, ha, hv, ?_⟩
  rcases Scalar.outcome_contains hm rfl rfl (fun t ht => hadded t ht _ hm) hs with
    ⟨hbytes, rfl⟩ | ⟨mapping, hmapping, hbytes, hs⟩
  · -- Any other array: `= ANY` compares with the sides exchanged, so the test has to be symmetric.
    constructor
    · intro _ S env items hS ha hne
      rw [Builder.eval_quantified, hS.any_equal _ _ _ hne ha]
      constructor
      · rintro ⟨y, hy, hsame⟩
        exact ⟨y, hy, hS.same_symm _ _ hne (ha.present y hy) hsame⟩
      · rintro ⟨y, hy, hsame⟩
        exact ⟨y, hy, hS.same_symm _ _ (ha.present y hy) hne hsame⟩
    · intro htrue
      rw [hbytes] at htrue
      cases htrue
  · -- A byte string, in which the byte is looked for.
    have hmapped : sa.mappedBy Mapping.isBytes = true := by
      rw [Sql.mappedBy, hmapping]
      exact hbytes
    constructor
    · intro hfalse
      rw [hmapped] at hfalse
      cases hfalse
    · intro _ S env bytes n hS ha hv
      exact Scalar.Bytes.eval_contains hS hv ha hs

/-- An equation with some element becomes a membership test. -/
theorem testsElement_of_equates {x : Parameter} {body : Expr} {fn : Ty}
    (hm : Known.identify? m = some (.sequence .anyWhere)) (hbody : Expr.Equates x v body)
    (hs : (p.run r (.call m receiver [array, .lambda [x] body fn])).outcome = .ok s) :
    ∃ sa sv, (p.run r array).outcome = .ok sa ∧ (p.run r v).outcome = .ok sv ∧
      s.TestsElement sv sa := by
  obtain ⟨y, hy, hs⟩ := exists_lambdaCall? (List.mem_cons_of_mem _ List.mem_cons_self) hs
  have hcall : ArrayPattern.ofCall? m [array, .lambda [x] body fn] =
      some (.any, array, x, .equalTo v) := by
    rw [ArrayPattern.ofCall?_eq_map (q := .any) hm, ArrayPattern.ofBody?_of_equates hbody]
    rfl
  rcases lambdaCall?_eq_some hy with ⟨q, a, param, pattern, hp, rfl⟩ | ⟨hnone, -⟩
  · rw [hcall] at hp
    cases hp
    obtain ⟨_, -, hs⟩ := Run.outcome_bind_eq_ok.mp hs
    exact testsElement_of_contains hscalars hadded hs
  · rw [hcall] at hnone
    cases hnone

end Elements

/-- The operator that asks whether some, or all, elements are in another array. -/
theorem outcome_testsMember {q : Quantifier} {x : Parameter} {array other body : Expr} {fn : Ty}
    (hm : Known.identify? m = some q.method) (hbody : Expr.TestsMember x other body)
    (hs : (p.run r (.call m receiver [array, .lambda [x] body fn])).outcome = .ok s) :
    ∃ sa so, (p.run r array).outcome = .ok sa ∧ (p.run r other).outcome = .ok so ∧
      s = p.builder.postgresPredicate (if q = .all then .containedBy else .overlaps) sa so := by
  obtain ⟨y, hy, hs⟩ := exists_lambdaCall? (List.mem_cons_of_mem _ List.mem_cons_self) hs
  rcases lambdaCall?_eq_some hy with ⟨q', a, param, pattern, hp, rfl⟩ | ⟨-, pattern, hp, -⟩
  · rw [ArrayPattern.ofCall?_eq_map hm] at hp
    obtain ⟨pattern', hp', heq⟩ := Option.map_eq_some_iff.mp hp
    cases heq
    cases ArrayPattern.eq_of_testsMember hbody hp'
    obtain ⟨_, -, hs⟩ := Run.outcome_bind_eq_ok.mp hs
    obtain ⟨⟨sa, so⟩, hoperands, hs⟩ := Run.outcome_bind_eq_ok.mp hs
    obtain ⟨_, ha, hoperands⟩ := Run.outcome_bind_eq_ok.mp hoperands
    obtain ⟨_, ho, hoperands⟩ := Run.outcome_bind_eq_ok.mp hoperands
    cases hoperands
    cases hs
    exact ⟨sa, so, ha, ho, rfl⟩
  · rw [LabelPattern.ofCall?_of_testsMember hbody] at hp
    cases hp

/-- On native arrays it means what the lambda says. -/
theorem testsElements_of_testsMember {q : Quantifier} {x : Parameter} {array other body : Expr}
    {fn : Ty} (hm : Known.identify? m = some q.method) (hbody : Expr.TestsMember x other body)
    (hs : (p.run r (.call m receiver [array, .lambda [x] body fn])).outcome = .ok s) :
    ∃ sa so, (p.run r array).outcome = .ok sa ∧ (p.run r other).outcome = .ok so ∧
      s.TestsElements q sa so := by
  obtain ⟨sa, so, ha, ho, rfl⟩ := outcome_testsMember hm hbody hs
  refine ⟨sa, so, ha, ho, fun _ _ S env xs ys hS hxs hys => ?_⟩
  rw [Builder.eval_postgresPredicate]
  cases q with
  | any => exact hS.overlaps _ _ xs ys hxs hys
  | all => exact hS.containedBy _ _ xs ys hxs hys

/-! ### Label paths -/

section Labels

variable {test : Method} {x : Parameter} {array argument : Expr} {fn : Ty}

theorem outcome_both_run {d e : Expr} {f : Sql × Sql → Sql}
    (hs : (Attempt.both (p.run r d) (p.run r e) >>= fun q => pure (f q)).outcome = .ok s) :
    ∃ sd se, (p.run r d).outcome = .ok sd ∧ (p.run r e).outcome = .ok se ∧ s = f (sd, se) := by
  obtain ⟨⟨sd, se⟩, hboth, hs⟩ := Run.outcome_bind_eq_ok.mp hs
  obtain ⟨hd, he⟩ := Attempt.outcome_both_eq_ok hboth
  cases hs
  exact ⟨sd, se, hd, he, rfl⟩

/-- A test of each path is one operator on the array. -/
theorem outcome_labelTest (first : Bool) {k : LabelTreeMethod}
    (hm : Known.identify? m = some (LabelPattern.method first))
    (hk : Known.identify? test = some (.labelTree k))
    (hs : (p.run r (.call m receiver
      [array, .lambda [x] (.call test (some (.lambdaParam x)) [argument]) fn])).outcome = .ok s) :
    ∃ op sa sv, LabelPattern.op? first k = some op ∧ (p.run r array).outcome = .ok sa ∧
      (p.run r argument).outcome = .ok sv ∧
      s = p.builder.postgres op sa sv (if first then some .labelTree else none) none := by
  obtain ⟨y, hy, hs⟩ := exists_lambdaCall? (List.mem_cons_of_mem _ List.mem_cons_self) hs
  rcases lambdaCall?_eq_some hy with ⟨q, a, param, pattern, hp, -⟩ | ⟨-, pattern, hp, rfl⟩
  · rw [ArrayPattern.ofCall?_of_labelTree first hm hk] at hp
    cases hp
  · rw [LabelPattern.ofCall?_eq_ofTest? first hm] at hp
    simp only [LabelPattern.ofTest?, hk] at hp
    split at hp
    · -- The argument is the parameter itself, which cannot be translated.
      cases hp
      obtain ⟨_, -, hs⟩ := Run.outcome_bind_eq_ok.mp hs
      obtain ⟨sd, se, hd, -⟩ := outcome_both_run hs
      exact absurd hd (fails_lambdaParam x sd)
    · simp only [Expr.isParameter, decide_true, if_true] at hp
      obtain ⟨op, hop, rfl⟩ := Option.map_eq_some_iff.mp hp
      obtain ⟨_, -, hs⟩ := Run.outcome_bind_eq_ok.mp hs
      obtain ⟨sa, sv, ha, hv, rfl⟩ := outcome_both_run hs
      exact ⟨op, sa, sv, hop, ha, hv, rfl⟩

/-- Whether a path matches some query is one operator on the queries. -/
theorem outcome_labelQuery {path : Expr}
    (hm : Known.identify? m = some (.sequence .anyWhere))
    (hk : Known.identify? test = some (.labelTree .matchesQuery))
    (hs : (p.run r (.call m receiver
      [array, .lambda [x] (.call test (some path) [.lambdaParam x]) fn])).outcome = .ok s) :
    ∃ sp sa, (p.run r path).outcome = .ok sp ∧ (p.run r array).outcome = .ok sa ∧
      s = p.builder.postgresPredicate .labelMatchesAny sp sa := by
  obtain ⟨y, hy, hs⟩ := exists_lambdaCall? (List.mem_cons_of_mem _ List.mem_cons_self) hs
  rcases lambdaCall?_eq_some hy with ⟨q, a, param, pattern, hp, -⟩ | ⟨-, pattern, hp, rfl⟩
  · rw [ArrayPattern.ofCall?_of_labelTree false hm hk] at hp
    cases hp
  · rw [LabelPattern.ofCall?_eq_ofTest? false hm] at hp
    simp only [LabelPattern.ofTest?, hk, Bool.not_false, decide_true, Expr.isParameter,
      Bool.and_self, if_true] at hp
    cases hp
    obtain ⟨_, -, hs⟩ := Run.outcome_bind_eq_ok.mp hs
    exact outcome_both_run hs

end Labels

end Postgres

namespace Translator

/-- What a call with a lambda is rewritten to means what the lambda says, or is what a single path
gets. -/
structure RewritesLambdas (t : Translator) : Prop where
  /-- `array.Any(x => x == v)`, in all spellings of the equation. -/
  any_equals {m : Method} {receiver : Option Expr} {array v body : Expr} {x : Parameter} {fn : Ty}
    {s : Sql} : Known.identify? m = some (.sequence .anyWhere) → Expr.Equates x v body →
    (t.translate (.call m receiver [array, .lambda [x] body fn])).outcome = .ok s →
    ∃ sa sv, (t.translate array).outcome = .ok sa ∧ (t.translate v).outcome = .ok sv ∧
      s.TestsElement sv sa
  /-- `array.Any(x => other.Contains(x))` and `array.All(x => other.Contains(x))`. -/
  contains {q : Quantifier} {m : Method} {receiver : Option Expr} {array other body : Expr}
    {x : Parameter} {fn : Ty} {s : Sql} : Known.identify? m = some q.method →
    Expr.TestsMember x other body →
    (t.translate (.call m receiver [array, .lambda [x] body fn])).outcome = .ok s →
    ∃ sa so, (t.translate array).outcome = .ok sa ∧ (t.translate other).outcome = .ok so ∧
      s.TestsElements q sa so
  /-- `paths.Any(p => p.M(v))`: the operator for `path.M(v)`, with the array as its left operand. -/
  any_test {m test : Method} {k : LabelTreeMethod} {receiver : Option Expr} {paths v : Expr}
    {x : Parameter} {fn : Ty} {s : Sql} : Known.identify? m = some (.sequence .anyWhere) →
    Known.identify? test = some (.labelTree k) →
    (t.translate (.call m receiver
      [paths, .lambda [x] (.call test (some (.lambdaParam x)) [v]) fn])).outcome = .ok s →
    ∃ op sa sv, (t.translate paths).outcome = .ok sa ∧ (t.translate v).outcome = .ok sv ∧
      s = t.provider.builder.postgresPredicate op sa sv ∧
      ∀ path other, (Scalar.LabelTrees.translator t.provider.builder).translate
          ⟨some path, test, [other]⟩ =
        pure (t.provider.builder.postgresPredicate op path other)
  /-- `paths.FirstOrDefault(p => p.M(v))`: the first-match form of that operator. -/
  first_test {m test : Method} {k : LabelTreeMethod} {receiver : Option Expr} {paths v : Expr}
    {x : Parameter} {fn : Ty} {s : Sql} :
    Known.identify? m = some (.sequence .firstOrDefaultWhere) →
    Known.identify? test = some (.labelTree k) →
    (t.translate (.call m receiver
      [paths, .lambda [x] (.call test (some (.lambdaParam x)) [v]) fn])).outcome = .ok s →
    ∃ op first sa sv, (t.translate paths).outcome = .ok sa ∧ (t.translate v).outcome = .ok sv ∧
      s = t.provider.builder.postgres first sa sv (some .labelTree) none ∧
      first.symbol = "?" ++ op.symbol ∧
      ∀ path other, (Scalar.LabelTrees.translator t.provider.builder).translate
          ⟨some path, test, [other]⟩ =
        pure (t.provider.builder.postgresPredicate op path other)
  /-- `queries.Any(q => path.MatchesLQuery(q))`: `path ? queries`. -/
  any_query {m test : Method} {receiver : Option Expr} {path queries : Expr} {x : Parameter}
    {fn : Ty} {s : Sql} : Known.identify? m = some (.sequence .anyWhere) →
    Known.identify? test = some (.labelTree .matchesQuery) →
    (t.translate (.call m receiver
      [queries, .lambda [x] (.call test (some path) [.lambdaParam x]) fn])).outcome = .ok s →
    ∃ sp sq, (t.translate path).outcome = .ok sp ∧ (t.translate queries).outcome = .ok sq ∧
      s = t.provider.builder.postgresPredicate .labelMatchesAny sp sq

/-- Translators for PostgreSQL rewrite lambdas so, if what was added to them takes no membership
test. -/
theorem rewritesLambdas {columns : ColumnLookup} {options : Options} {catalog : Catalog}
    {added : List ScalarTranslator} {t : Translator}
    (ht : (postgres columns options catalog added).outcome = .ok t)
    (hadded : ∀ t ∈ added, ∀ c : ScalarCall,
      Known.identify? c.method = some (.sequence .contains) → (t.translate c).Fails) :
    t.RewritesLambdas := by
  obtain ⟨b, p, -, hp, rfl⟩ := of_postgres ht
  have hbuilder : p.builder = b := Postgres.builder_of_ofBuilder hp
  constructor
  · intro m receiver array v body x fn s hm hbody hs
    exact Postgres.testsElement_of_equates (p := p) rfl hadded hm hbody hs
  · intro q m receiver array other body x fn s hm hbody hs
    exact Postgres.testsElements_of_testsMember hm hbody hs
  · intro m test k receiver paths v x fn s hm hk hs
    obtain ⟨op, sa, sv, hop, ha, hv, rfl⟩ := Postgres.outcome_labelTest false hm hk hs
    rw [LabelPattern.op?_eq_testOp?] at hop
    rw [hbuilder]
    exact ⟨op, sa, sv, ha, hv, rfl, Scalar.LabelTrees.translate_test hk hop⟩
  · intro m test k receiver paths v x fn s hm hk hs
    obtain ⟨first, sa, sv, hfirst, ha, hv, rfl⟩ :=
      Postgres.outcome_labelTest true hm hk hs
    obtain ⟨op, hop, hsymbol⟩ := LabelPattern.symbol_of_op? hfirst
    rw [hbuilder]
    exact ⟨op, first, sa, sv, ha, hv, rfl, hsymbol, Scalar.LabelTrees.translate_test hk hop⟩
  · intro m test receiver path queries x fn s hm hk hs
    have hquery := Postgres.outcome_labelQuery (p := p) hm hk hs
    rw [hbuilder] at hquery
    exact hquery

/-! ### Lambdas over columns -/

/-- Whether the tree is a column of that name. -/
def isColumnNamed (name : String) : Sql → Bool
  | .column ref _ _ _ => ref.name == name
  | _ => false

theorem eval_of_isColumnNamed {name : String} {s : Sql} (h : isColumnNamed name s = true)
    (S : Server) (env : Env) :
    ∃ ref : ColumnRef, ref.name = name ∧ s.eval S env = env.column ref := by
  cases s with
  | column ref nullable ty mapping => exact ⟨ref, beq_iff_eq.mp h, rfl⟩
  | _ => cases h

/-- Whether the tree is a constant for that integer. -/
def isConstant (n : Int) (s : Sql) : Bool := (s.value?.bind Value.toInt?) == some n

theorem eval_of_isConstant {n : Int} {s : Sql} (h : isConstant n s = true) (S : Server)
    (env : Env) : s.eval S env = .int n := by
  obtain ⟨v, hv, hn⟩ := Option.bind_eq_some_iff.mp (beq_iff_eq.mp h)
  cases s with
  | const w ty mapping =>
    cases hv
    exact Datum.ofValue_int hn
  | _ => cases hv

/-- Arrays of integers, a byte string and an array of label paths. -/
def arrayColumns : ColumnLookup := fun _ name =>
  some { name := name, ty :=
    if name = "data" then .byteArray
    else if name = "paths" then .array .labelTree
    else .array .int }

/-- A row with these values. -/
def arrayRow (values : String → Datum) : Env where
  param _ := .null
  column ref := values ref.name
  group _ _ _ _ := .null

/-- A column has the value that the row gives for its name. -/
theorem eval_arrayRow {name : String} {s : Sql} (h : isColumnNamed name s = true)
    (values : String → Datum) : s.eval Server.arrays (arrayRow values) = values name := by
  obtain ⟨ref, rfl, heval⟩ := eval_of_isColumnNamed h Server.arrays (arrayRow values)
  exact heval

/-- The method over the elements of an array, which the body of the lambda is about. -/
def overElements (m : SequenceMethod) (array : Expr) (ty : Ty) (body : Expr → Expr) : Expr :=
  .call (Known.close (.sequence m) [ty]) none
    [array, .lambdaOf [⟨"x", ty⟩] (body (.lambdaParam ⟨"x", ty⟩))]

/-- An array of integers. -/
def HoldsInts (s : Sql) (env : Env) (ns : List Int) : Prop :=
  s.eval Server.arrays env = .array (ns.map .int)

theorem HoldsInts.isArrayOf {s : Sql} {env : Env} {ns : List Int} (h : HoldsInts s env ns) :
    (s.eval Server.arrays env).IsArrayOf (ns.map .int) := by
  refine ⟨h, fun y hy => ?_⟩
  obtain ⟨n, -, rfl⟩ := List.mem_map.mp hy
  exact nofun

theorem exists_same_int {m : Int} {ns : List Int} :
    (∃ y ∈ ns.map Datum.int, Server.arrays.Same (.int m) y) ↔ m ∈ ns := by
  have hsame (n : Int) : Server.arrays.Same (.int m) (.int n) ↔ m = n := by
    show Datum.truth (m == n) = .truth true ↔ _
    rw [Datum.truth.injEq, beq_iff_eq]
  constructor
  · rintro ⟨y, hy, h⟩
    obtain ⟨n, hn, rfl⟩ := List.mem_map.mp hy
    rw [(hsame n).mp h]
    exact hn
  · intro h
    exact ⟨.int m, List.mem_map_of_mem h, (hsame m).mpr rfl⟩

section Integers

variable {s array : Sql} {env : Env} {xs ys : List Int} (hxs : HoldsInts array env xs)

include hxs

theorem element_iff_mem {item : Sql} {n : Int} (h : s.TestsElement item array)
    (hnative : array.mappedBy Mapping.isBytes = false) (hn : item.eval Server.arrays env = .int n) :
    s.eval Server.arrays env = .truth true ↔ n ∈ xs := by
  have hrules := Server.arrayRules_arrays
  rw [h.native hnative _ env _ hrules hxs.isArrayOf (hn ▸ nofun), hn, ← exists_same_int]
  refine exists_congr fun y => and_congr_right fun hy => ?_
  have hpresent := hxs.isArrayOf.present y hy
  exact ⟨hrules.same_symm _ _ hpresent nofun, hrules.same_symm _ _ nofun hpresent⟩

variable {other : Sql} (hys : HoldsInts other env ys) (hnative : array.isForeign = false)
  (hnative' : other.isForeign = false)

include hys hnative hnative'

theorem anyElement_iff (h : s.TestsElements .any array other) :
    s.eval Server.arrays env = .truth true ↔ ∃ x ∈ xs, x ∈ ys := by
  rw [h hnative hnative' _ env _ _ Server.arrayRules_arrays hxs.isArrayOf hys.isArrayOf]
  constructor
  · rintro ⟨x, hx, h⟩
    obtain ⟨m, hm, rfl⟩ := List.mem_map.mp hx
    exact ⟨m, hm, exists_same_int.mp h⟩
  · rintro ⟨m, hm, h⟩
    exact ⟨.int m, List.mem_map_of_mem hm, exists_same_int.mpr h⟩

theorem allElements_iff (h : s.TestsElements .all array other) :
    s.eval Server.arrays env = .truth true ↔ ∀ x ∈ xs, x ∈ ys := by
  rw [h hnative hnative' _ env _ _ Server.arrayRules_arrays hxs.isArrayOf hys.isArrayOf]
  show (∀ x ∈ xs.map Datum.int, _) ↔ _
  rw [List.forall_mem_map]
  exact forall₂_congr fun m _ => exists_same_int

end Integers

/-- A test of a single path is made with one operator only. -/
theorem operator_eq {b : Builder} {test : Method} {k : LabelTreeMethod} (op : PostgresOp)
    {op' : PostgresOp} (hk : Known.identify? test = some (.labelTree k))
    (hop : Scalar.LabelTrees.testOp? k = some op)
    (h : ∀ path other, (Scalar.LabelTrees.translator b).translate ⟨some path, test, [other]⟩ =
      pure (b.postgresPredicate op' path other)) : op' = op := by
  let x : Sql := .const .null .labelTree none
  have hboth := (h x x).symm.trans (Scalar.LabelTrees.translate_test hk hop x x)
  have hoperator := Except.ok.inj (congrArg Run.outcome hboth)
  injection hoperator

/-- A condition over each kind of column: some integer is two, some byte is two, and some or all
integers are among others. Of label paths, those below a given one are asked for. -/
theorem lambdas_over_columns :
    let ids : Expr := .property none "ids" (.array .int)
    let others : Expr := .property none "others" (.array .int)
    let data : Expr := .property none "data" .byteArray
    let paths : Expr := .property none "paths" (.array .labelTree)
    let root : Expr := .queryParam ⟨"root", .labelTree⟩
    let isEqual (v : Value) (x : Expr) := Expr.ofBinary (.plain .equal) x (.ofValue v)
    let isOther (x : Expr) : Expr :=
      .call (Known.close (.sequence .contains) [.int]) none [others, x]
    let isBelow (p : Expr) : Expr :=
      .call (Known.close (.labelTree .isDescendantOf) []) (some p) [root]
    let ints (xs ys : List Int) : Env := arrayRow fun name =>
      .array ((if name = "ids" then xs else ys).map .int)
    let bytes (bs : List UInt8) : Env := arrayRow fun _ => .ofValue (.bytes bs)
    ∃ t, (postgres arrayColumns {} Catalog.standard []).outcome = .ok t ∧
      (∃ s, (t.translate (overElements .anyWhere ids .int (isEqual (.int 2)))).outcome = .ok s ∧
        s.eval Server.arrays (ints [1, 2] []) = .truth true ∧
        s.eval Server.arrays (ints [1] []) ≠ .truth true) ∧
      (∃ s, (t.translate (overElements .anyWhere data .byte (isEqual (.byte 2)))).outcome = .ok s ∧
        s.eval Server.arrays (bytes [1, 2]) = .truth true ∧
        s.eval Server.arrays (bytes [1]) ≠ .truth true) ∧
      (∃ s, (t.translate (overElements .anyWhere ids .int isOther)).outcome = .ok s ∧
        s.eval Server.arrays (ints [1, 2] [2, 3]) = .truth true ∧
        s.eval Server.arrays (ints [1, 2] [3]) ≠ .truth true) ∧
      (∃ s, (t.translate (overElements .allWhere ids .int isOther)).outcome = .ok s ∧
        s.eval Server.arrays (ints [1, 2] [2, 1]) = .truth true ∧
        s.eval Server.arrays (ints [1, 2] [2, 3]) ≠ .truth true) ∧
      ∃ sp sr first, (t.translate paths).outcome = .ok sp ∧ (t.translate root).outcome = .ok sr ∧
        (t.translate (overElements .anyWhere paths .labelTree isBelow)).outcome =
          .ok (t.provider.builder.postgresPredicate .containedBy sp sr) ∧
        (t.translate (overElements .firstOrDefaultWhere paths .labelTree isBelow)).outcome =
          .ok (t.provider.builder.postgres first sp sr (some .labelTree) none) ∧
        first.symbol = "?<@" := by
  intro ids others data paths root isEqual isOther isBelow ints bytes
  obtain ⟨t, ht, hfound⟩ := exists_translations (postgres arrayColumns {} Catalog.standard [])
    [(overElements .anyWhere ids .int (isEqual (.int 2)), fun _ => true),
      (overElements .anyWhere data .byte (isEqual (.byte 2)), fun _ => true),
      (overElements .anyWhere ids .int isOther, fun _ => true),
      (overElements .allWhere ids .int isOther, fun _ => true),
      (overElements .anyWhere paths .labelTree isBelow, fun _ => true),
      (overElements .firstOrDefaultWhere paths .labelTree isBelow, fun _ => true),
      (ids, fun s => isColumnNamed "ids" s && !s.isForeign && !s.mappedBy Mapping.isBytes),
      (others, fun s => isColumnNamed "others" s && !s.isForeign),
      (data, fun s => isColumnNamed "data" s && s.mappedBy Mapping.isBytes),
      (.ofValue (.int 2), isConstant 2), (.ofValue (.byte 2), isConstant 2)]
    (by decide +kernel)
  have hrewrites : t.RewritesLambdas := rewritesLambdas ht nofun
  obtain ⟨sids, hids, hidsTest⟩ := hfound _ _ (List.mem_of_getElem? (i := 6) rfl)
  obtain ⟨sothers, hothers, hothersTest⟩ := hfound _ _ (List.mem_of_getElem? (i := 7) rfl)
  obtain ⟨sdata, hdata, hdataTest⟩ := hfound _ _ (List.mem_of_getElem? (i := 8) rfl)
  simp only [Bool.and_eq_true, Bool.not_eq_true'] at hidsTest hothersTest hdataTest
  -- The two columns of integers hold what the row has for them.
  have hxs (xs ys : List Int) : HoldsInts sids (ints xs ys) xs := eval_arrayRow hidsTest.1.1 _
  have hys (xs ys : List Int) : HoldsInts sothers (ints xs ys) ys := eval_arrayRow hothersTest.1 _
  refine ⟨t, ht, ?_, ?_, ?_, ?_, ?_⟩
  · -- Some integer is two: a membership test in a native array.
    obtain ⟨s, hs, -⟩ := hfound _ _ (List.mem_of_getElem? (i := 0) rfl)
    obtain ⟨_, _, ha, hv, htests⟩ := hrewrites.any_equals rfl (.left _) hs
    obtain ⟨_, htwo, htwoTest⟩ := hfound _ _ (List.mem_of_getElem? (i := 9) rfl)
    cases ha.symm.trans hids
    cases hv.symm.trans htwo
    have htrue (xs : List Int) : s.eval Server.arrays (ints xs []) = .truth true ↔ 2 ∈ xs :=
      element_iff_mem (hxs xs []) htests hidsTest.2 (eval_of_isConstant htwoTest _ _)
    exact ⟨s, hs, (htrue _).mpr (by decide), fun h => absurd ((htrue _).mp h) (by decide)⟩
  · -- Some byte is two: the byte string is searched for the byte.
    obtain ⟨s, hs, -⟩ := hfound _ _ (List.mem_of_getElem? (i := 1) rfl)
    obtain ⟨_, _, ha, hv, htests⟩ := hrewrites.any_equals rfl (.left _) hs
    obtain ⟨_, htwo, htwoTest⟩ := hfound _ _ (List.mem_of_getElem? (i := 10) rfl)
    cases ha.symm.trans hdata
    cases hv.symm.trans htwo
    have htrue (bs : List UInt8) : s.eval Server.arrays (bytes bs) = .truth true ↔ 2 ∈ bs :=
      htests.bytes hdataTest.2 _ _ bs 2 Server.arrayRules_arrays (eval_arrayRow hdataTest.1 _)
        (eval_of_isConstant htwoTest _ _)
    exact ⟨s, hs, (htrue _).mpr (by decide), fun h => absurd ((htrue _).mp h) (by decide)⟩
  · -- Some integer is one of the others: the arrays overlap.
    obtain ⟨s, hs, -⟩ := hfound _ _ (List.mem_of_getElem? (i := 2) rfl)
    obtain ⟨_, _, ha, ho, htests⟩ := hrewrites.contains (q := .any) rfl (.static rfl) hs
    cases ha.symm.trans hids
    cases ho.symm.trans hothers
    have htrue (xs ys : List Int) :=
      anyElement_iff (hxs xs ys) (hys xs ys) hidsTest.1.2 hothersTest.2 htests
    exact ⟨s, hs, (htrue _ _).mpr (by decide), fun h => absurd ((htrue _ _).mp h) (by decide)⟩
  · -- All integers are among the others: the array is contained in them.
    obtain ⟨s, hs, -⟩ := hfound _ _ (List.mem_of_getElem? (i := 3) rfl)
    obtain ⟨_, _, ha, ho, htests⟩ := hrewrites.contains (q := .all) rfl (.static rfl) hs
    cases ha.symm.trans hids
    cases ho.symm.trans hothers
    have htrue (xs ys : List Int) :=
      allElements_iff (hxs xs ys) (hys xs ys) hidsTest.1.2 hothersTest.2 htests
    exact ⟨s, hs, (htrue _ _).mpr (by decide), fun h => absurd ((htrue _ _).mp h) (by decide)⟩
  · obtain ⟨s, hs, -⟩ := hfound _ _ (List.mem_of_getElem? (i := 4) rfl)
    obtain ⟨s', hs', -⟩ := hfound _ _ (List.mem_of_getElem? (i := 5) rfl)
    obtain ⟨op, sp, sr, hsp, hsr, rfl, hop⟩ := hrewrites.any_test rfl rfl hs
    obtain ⟨op', first, sp', sr', hsp', hsr', rfl, hfirst, hop'⟩ := hrewrites.first_test rfl rfl hs'
    -- Both take the operator with which a single path is tested.
    cases operator_eq .containedBy rfl rfl hop
    cases operator_eq .containedBy rfl rfl hop'
    cases hsp.symm.trans hsp'
    cases hsr.symm.trans hsr'
    exact ⟨sp, sr, first, hsp, hsr, hs, hs', hfirst⟩

end Translator

end QuerySql
