import QuerySql.Proofs.Closure.Scalars
import QuerySql.Proofs.Requests
import QuerySql.Provider

/-!
# What a translator builds

`Strategy.Respects` says of a strategy that it keeps a property of SQL trees, whatever translates
the smaller trees for it. The strategy for PostgreSQL in front of the relational one keeps what
building keeps. The relational strategy alone does not: it takes every array for a native one. But
it is never asked for an access to an array (`Expr.accessesArray`).

* `Strategy.Respects.yields_run`: then a whole run keeps it.
* `Translator.outcome_postgres_eq_ok`: what a translator consists of once it has been set up.
* `Translator.yields_translate`: everything that is translated has the property.
-/

namespace QuerySql

/-- Whatever translates the smaller trees, if it only finds what satisfies `P`, the strategy only
finds what satisfies `P`. -/
def Strategy.Respects (P : Sql → Prop) (s : Strategy) : Prop :=
  ∀ recur : Expr → Attempt Sql, (∀ d, (recur d).Yields P) → ∀ e, (s recur e).Yields P

/-- By induction on the number of nodes: the trees that a run asks for have fewer. -/
theorem Strategy.Respects.yields_run {P : Sql → Prop} {s : Strategy} (h : s.Respects P) (e : Expr) :
    (s.run e).Yields P := by
  induction hn : e.nodes using Nat.strongRecOn generalizing e with
  | ind n ih =>
    subst hn
    rw [run]
    refine h _ (fun d => ?_) e
    split
    next hd => exact ih d.nodes hd d rfl
    next => exact Attempt.yields_decline

/-- Whether the root takes the length or an element of an array. -/
def Expr.accessesArray : Expr → Bool
  | unary .arrayLength _ _ | binary .arrayIndex _ _ _ => true
  | _ => false

variable {columns : ColumnLookup} {P : Sql → Prop}

/-! ## The relational strategy -/

namespace Relational

variable {r : Relational} (h : r.builder.Closed r.columns P) {recur : Expr → Attempt Sql}
  (hrec : ∀ d, (recur d).Yields P)

theorem yields_receiverOf (hrec : ∀ d, (recur d).Yields P) (receiver : Option Expr) :
    (receiverOf recur receiver).Yields fun x => ∀ s, x = some s → P s := by
  unfold receiverOf
  split
  next => exact Attempt.yields_pure nofun
  next e =>
    refine Attempt.yields_bind (hrec e) fun x hx => Attempt.yields_pure fun s hs => ?_
    cases hs
    exact hx

include h

/-- A column is a leaf. -/
theorem yields_property (source : Option String) (name : String) :
    (r.property source name).Yields P := by
  unfold property
  split
  next => exact Attempt.yields_bind (Attempt.yields_report _) fun _ _ => Attempt.yields_decline
  next c hc => exact Attempt.yields_pure (h.column hc)

theorem yields_operator {op : ExprOp} (hop : op ≠ .arrayIndex) {left right : Sql} (hl : P left)
    (hr : P right) : (r.operator op left right).Yields P := by
  cases op with
  | coalesce => exact h.yields_coalesce none hl hr
  | arrayIndex => exact absurd rfl hop
  | plain op => exact h.yields_binary? op none hl hr

/-- A method that tests for equality is a comparison, any other is left to the scalar translators.
-/
theorem yields_callOn (hscalars : ∀ t ∈ r.scalars, t.Respects P) {c : ScalarCall}
    (hc : c.Over P) : (r.callOn c).Yields P := by
  have hall := hc.args
  unfold callOn
  split
  · split
    next left right hargs =>
      rw [hargs] at hall
      obtain ⟨hl, hr⟩ := List.forall_mem_cons.mp hall
      exact Attempt.yields_pure (h.binary .equal none hl (hr _ List.mem_cons_self))
    next => exact Attempt.yields_decline
  · split
    next left right _ hreceiver hargs =>
      rw [hargs] at hall
      exact Attempt.yields_pure
        (h.binary .equal none (hc.receiver _ hreceiver) (hall _ List.mem_cons_self))
    next => exact Attempt.yields_reportDecline (ScalarTranslator.yields_firstOf hscalars hc) _

include hrec

theorem yields_unary {op : ExprUnaryOp} (hop : op ≠ .arrayLength) (operand : Expr) (ty : Ty) :
    (r.unary recur op operand ty).Yields P := by
  refine Attempt.yields_bind (hrec operand) fun x hx => ?_
  cases op with
  | not =>
    simp only
    split
    · exact Attempt.yields_pure (h.unary .not hx)
    · exact Attempt.yields_decline
  | negate => exact Attempt.yields_pure (h.unary .negate hx)
  | convert | convertChecked =>
    simp only
    split
    · exact Attempt.yields_pure hx
    · exact Attempt.yields_pure (h.castTo hx ty none)
  | arrayLength => exact absurd rfl hop

theorem yields_binary {op : ExprOp} (hop : op ≠ .arrayIndex) (left right : Expr) :
    (r.binary recur op left right).Yields P := by
  unfold binary
  split
  next check operand _ =>
    refine Attempt.yields_bind (hrec operand) fun x hx => ?_
    exact Attempt.yields_pure (h.unary check hx)
  next =>
    refine Attempt.yields_bind (hrec left) fun x hx => ?_
    exact Attempt.yields_bind (hrec right) fun y hy => yields_operator h hop hx hy

theorem yields_call (hscalars : ∀ t ∈ r.scalars, t.Respects P) (method : Method)
    (receiver : Option Expr) (args : List Expr) : (r.call recur method receiver args).Yields P := by
  refine Attempt.yields_bind (yields_receiverOf hrec receiver) fun x hx => ?_
  refine Attempt.yields_bind (Attempt.yields_all fun e _ => hrec e) fun xs hxs => ?_
  exact yields_callOn h hscalars ⟨hx, hxs⟩

/-- By cases on the node; what accesses an array is kept from this strategy. -/
theorem yields_strategy (hscalars : ∀ t ∈ r.scalars, t.Respects P) {e : Expr}
    (he : e.accessesArray = false) : (r.strategy recur e).Yields P := by
  cases e with
  | const v ty => exact Attempt.yields_pure (h.typedConst v ty none)
  | queryParam p => exact Attempt.yields_pure (h.param p.name p.ty.admitsNull p.ty)
  | property source name ty => exact yields_property h source name
  | unary op operand ty =>
    refine yields_unary h hrec (fun hop => ?_) operand ty
    subst hop
    cases he
  | binary op left right ty =>
    refine yields_binary h hrec (fun hop => ?_) left right
    subst hop
    cases he
  | call method receiver args => exact yields_call h hrec hscalars method receiver args
  | lambdaParam | construct | newArray | lambda => exact Attempt.yields_decline

end Relational

/-! ## The PostgreSQL strategy -/

namespace Postgres

variable {p : Postgres} (h : p.builder.Closed columns P) {recur : Expr → Attempt Sql}
  (hrec : ∀ d, (recur d).Yields P)

include h hrec

theorem yields_arrayLength (operand : Expr) : (p.arrayLength recur operand).Yields P := by
  refine Attempt.yields_bind (hrec operand) fun x hx => ?_
  split
  · exact h.yields_strictCall _ _ (by decide) (List.forall_mem_singleton.mpr hx)
  · exact h.yields_length hx

/-- The three kinds of subscript: a byte, a member of a document, or an element of an array. -/
theorem yields_arrayIndex (left right : Expr) (ty : Ty) :
    (p.arrayIndex recur left right ty).Yields P := by
  refine Attempt.yields_bind (Attempt.yields_both (hrec _) (hrec _)) fun (array, index) hboth => ?_
  obtain ⟨ha, hi⟩ := hboth
  simp only
  split
  · exact h.yields_strictCall _ _ (by decide) (Scalar.forall_mem_two ha hi)
  · split
    next x hx => exact Attempt.yields_pure (h.member? hx ha hi)
    next hnone =>
      have hbase : Json.base? array = none := Option.map_eq_none_iff.mp hnone
      exact Attempt.yields_pure (h.subscript hbase ha (h.oneBased hi))

theorem yields_newArray (items : List Expr) (ty : Ty) :
    (p.newArray recur items ty).Yields P := by
  have hitems : (Attempt.all recur items).Yields fun xs => ∀ x ∈ xs, P x :=
    Attempt.yields_all fun e _ => hrec e
  refine Attempt.yields_bind (Attempt.yields_reportDecline hitems _) fun xs hxs => ?_
  exact Attempt.yields_pure (h.newArray ty hxs)

omit h in
theorem yields_operands (left right : Expr) :
    (operands recur left right).Yields fun q => P q.1 ∧ P q.2 := by
  refine Attempt.yields_bind (hrec left) fun x hx => ?_
  exact Attempt.yields_bind (hrec right) fun y hy => Attempt.yields_pure ⟨hx, hy⟩

/-- A pattern over an array is built from the array and the operand of the pattern. -/
theorem yields_arrayPattern (q : Quantifier) (array : Expr) (param : Parameter)
    (pattern : ArrayPattern) : (p.arrayPattern recur q array param pattern).Yields P := by
  cases pattern with
  | likeElement ignoreCase subject =>
    refine Attempt.yields_bind (Attempt.yields_report _) fun _ _ => ?_
    refine Attempt.yields_bind (yields_operands hrec subject array) fun (x, y) hxy => ?_
    refine Attempt.yields_pure (h.quantified q _ (fun hop => ?_) hxy.1 hxy.2)
    cases ignoreCase <;> cases hop
  | memberOf other =>
    refine Attempt.yields_bind (Attempt.yields_report _) fun _ _ => ?_
    refine Attempt.yields_bind (yields_operands hrec array other) fun (x, y) hxy => ?_
    exact Attempt.yields_pure (h.postgres _ none none hxy.1 hxy.2)
  | equalTo other =>
    refine Attempt.yields_bind (Attempt.yields_report _) fun _ _ => ?_
    exact hrec (.call (Known.close (.sequence .contains) [param.ty]) none [array, other])

theorem yields_labelPattern (pattern : LabelPattern) :
    (p.labelPattern recur pattern).Yields P := by
  cases pattern with
  | anyQuery path queries =>
    refine Attempt.yields_bind (Attempt.yields_report _) fun _ _ => ?_
    refine Attempt.yields_bind (Attempt.yields_both (hrec path) (hrec queries)) fun (x, y) hxy => ?_
    exact Attempt.yields_pure (h.postgres _ none none hxy.1 hxy.2)
  | pathsBy method op first paths other =>
    refine Attempt.yields_bind (Attempt.yields_report _) fun _ _ => ?_
    refine Attempt.yields_bind (Attempt.yields_both (hrec paths) (hrec other)) fun (x, y) hxy => ?_
    exact Attempt.yields_pure (h.postgres op _ none hxy.1 hxy.2)

/-- A call with a lambda is a pattern over an array or a question about label paths. -/
theorem yields_lambdaCall? {method : Method} {args : List Expr} {x : Attempt Sql}
    (hx : p.lambdaCall? recur method args = some x) : x.Yields P := by
  unfold lambdaCall? at hx
  split at hx
  · cases hx
  · split at hx
    next q array param pattern _ =>
      cases hx
      exact yields_arrayPattern h hrec q array param pattern
    next =>
      obtain ⟨pattern, -, rfl⟩ := Option.map_eq_some_iff.mp hx
      exact yields_labelPattern h hrec pattern

theorem yields_dateDifference (left right : Expr) :
    (p.dateDifference recur left right).Yields P := by
  refine Attempt.yields_bind (Attempt.yields_both (hrec left) (hrec right)) fun (x, y) hxy => ?_
  refine Attempt.yields_bind (h.yields_binary? .subtract _ hxy.1 hxy.2) fun days hd => ?_
  exact h.yields_makeInterval "days" .period hd

theorem yields_make {function : String} (hn : function ∉ Function.reserved) (args : List Expr)
    (ty : Ty) (mapping : Option Mapping) : (p.make recur function args ty mapping).Yields P := by
  refine Attempt.yields_bind (Attempt.yields_all fun e _ => hrec e) fun xs hxs => ?_
  exact h.yields_strictCall ty mapping hn hxs

/-- A constructor of dates and times is a call of a function on its parts. -/
theorem yields_construct (c : Constructor) (args : List Expr) :
    (p.construct recur c args).Yields P := by
  have hmake {function : String} (hn : function ∉ Function.reserved) (args : List Expr) (ty : Ty)
      (mapping : Option Mapping) : (p.make recur function args ty mapping).Yields P :=
    yields_make h hrec hn args ty mapping
  unfold construct
  split
  next ht =>
    refine Attempt.yields_bind (Attempt.yields_all fun e _ => hrec e) fun xs hxs => ?_
    refine Attempt.yields_pure (h.row ht fun x hx => ?_)
    obtain ⟨y, hy, rfl⟩ := List.mem_map.mp hx
    exact h.fillDefault (hxs y hy)
  split
  · exact hmake (by decide) _ _ _
  split
  · exact hmake (by decide) _ _ _
  split
  · split
    · exact hmake (by decide) _ _ _
    · exact Attempt.yields_decline
  split
  · split
    · unfold timestampOfKind
      split
      · exact hmake (by decide) _ _ _
      · exact hmake (by decide) _ _ _
    · exact Attempt.yields_decline
  · exact Attempt.yields_decline

/-- By cases on the node, as far as PostgreSQL has its own way with it. -/
theorem yields_intercept? {e : Expr} {x : Attempt Sql} (hx : p.intercept? recur e = some x) :
    x.Yields P := by
  unfold intercept? at hx
  split at hx
  next operand ty =>
    cases hx
    exact yields_arrayLength h hrec operand
  next operand ty =>
    split at hx
    · cases hx
      exact hrec operand
    · cases hx
  next => exact yields_lambdaCall? h hrec hx
  next left right ty =>
    split at hx
    · cases hx
      exact yields_dateDifference h hrec _ _
    · cases hx
  next left right ty =>
    cases hx
    exact yields_arrayIndex h hrec left right ty
  next => cases hx

omit h hrec in
/-- No access to an array is left to the strategy behind. -/
theorem accessesArray_of_intercept? {e : Expr} (he : p.intercept? recur e = none) :
    e.accessesArray = false := by
  cases e with
  | unary op operand ty => cases op <;> first | rfl | cases he
  | binary op left right ty => cases op <;> first | rfl | cases he
  | _ => rfl

omit hrec

/-- The strategy keeps the property if the one behind it does, which never sees an access to an
array. -/
theorem respects_strategy {behind : Strategy}
    (hbehind : ∀ recur : Expr → Attempt Sql, (∀ d, (recur d).Yields P) → ∀ e : Expr,
      e.accessesArray = false → (behind recur e).Yields P) :
    (p.strategy behind).Respects P := by
  intro recur hrec e
  unfold strategy
  split
  next sized items ty =>
    refine Attempt.yields_orElse (hbehind recur hrec _ rfl) ?_
    split
    · exact Attempt.yields_decline
    · exact yields_newArray h hrec items ty
  next c args =>
    exact Attempt.yields_orElse (hbehind recur hrec _ rfl) (yields_construct h hrec c args)
  next =>
    split
    next x hx => exact yields_intercept? h hrec hx
    next hnone => exact hbehind recur hrec _ (accessesArray_of_intercept? hnone)

end Postgres

/-! ## Translators -/

/-- There is a builder for a catalog that has mappings for truth values and integers. -/
theorem Builder.ofCatalog_eq_ok {catalog : Catalog} {b : Builder} :
    ofCatalog catalog = .ok b ↔
      b.catalog = catalog ∧ catalog.ofTy .bool = some b.boolMapping ∧
        catalog.ofTy .int = some b.intMapping := by
  unfold ofCatalog
  cases hb : catalog.ofTy .bool with
  | none => exact ⟨nofun, nofun⟩
  | some boolMapping =>
    cases hi : catalog.ofTy .int with
    | none => exact ⟨nofun, nofun⟩
    | some intMapping =>
      constructor
      · intro h
        cases h
        exact ⟨rfl, rfl, rfl⟩
      · rintro ⟨rfl, hb', hi'⟩
        cases hb'
        cases hi'
        rfl

theorem Postgres.builder_of_ofBuilder {b : Builder} {p : Postgres} (h : ofBuilder b = .ok p) :
    p.builder = b := by
  unfold ofBuilder at h
  simp only at h
  split at h
  next m hm =>
    split at h
    next m' hm' =>
      cases h
      rfl
    next => cases h
  next => cases h

/-- Translates by the PostgreSQL strategy in front of the relational one. -/
def Postgres.run (p : Postgres) (r : Relational) (e : Expr) : Attempt Sql :=
  (p.strategy r.strategy).run e

theorem Postgres.run_eq (p : Postgres) (r : Relational) (e : Expr) :
    p.run r e = p.strategy r.strategy (p.run r) e :=
  Strategy.run_eq (p.strategy_descends r.strategy_descends) e

/-- A provider needs a builder and nothing else; registering translators only leaves reports. -/
theorem Provider.assemble_eq_ok {catalog : Catalog} {options : Options}
    {added : List ScalarTranslator} {provider : Provider} :
    (assemble catalog options added).outcome = .ok provider ↔
      ∃ b, Builder.ofCatalog catalog = .ok b ∧
        provider = ⟨b, Scalar.builtIn b options ++ added, [Aggregate.Spatial.translator b]⟩ := by
  constructor
  · intro h
    obtain ⟨b, hb, h⟩ := Run.outcome_bind_eq_ok.mp h
    cases h
    exact ⟨b, hb, rfl⟩
  · rintro ⟨b, hb, rfl⟩
    exact Run.outcome_bind_eq_ok.mpr ⟨b, hb, rfl⟩

namespace Translator

/-- Whether a translator for PostgreSQL can be set up depends on the version, on the basic types of
the catalog and on its timestamps, and not on the translators that are added. -/
theorem outcome_postgres_eq_ok {options : Options} {catalog : Catalog}
    {added : List ScalarTranslator} {t : Translator} :
    (postgres columns options catalog added).outcome = .ok t ↔
      ∃ v b p, options.version = .ok v ∧ Builder.ofCatalog catalog = .ok b ∧
        Postgres.ofBuilder b = .ok p ∧
        t = ⟨⟨b, Scalar.builtIn b options ++ added, [Aggregate.Spatial.translator b]⟩,
          p.strategy (Relational.strategy ⟨b, Scalar.builtIn b options ++ added, columns⟩)⟩ := by
  constructor
  · intro h
    obtain ⟨v, hv, h⟩ := Run.outcome_bind_eq_ok.mp h
    obtain ⟨provider, hprovider, h⟩ := Run.outcome_bind_eq_ok.mp h
    obtain ⟨_, -, h⟩ := Run.outcome_bind_eq_ok.mp h
    obtain ⟨p, hp, h⟩ := Run.outcome_bind_eq_ok.mp h
    obtain ⟨b, hb, rfl⟩ := Provider.assemble_eq_ok.mp hprovider
    cases h
    exact ⟨v, b, p, hv, hb, hp, rfl⟩
  · rintro ⟨v, b, p, hv, hb, hp, rfl⟩
    refine Run.outcome_bind_eq_ok.mpr ⟨v, hv, ?_⟩
    refine Run.outcome_bind_eq_ok.mpr ⟨_, Provider.assemble_eq_ok.mpr ⟨b, hb, rfl⟩, ?_⟩
    refine Run.outcome_bind_eq_ok.mpr ⟨(), rfl, ?_⟩
    exact Run.outcome_bind_eq_ok.mpr ⟨p, hp, rfl⟩

/-- What a translator for PostgreSQL consists of once it has been set up. -/
theorem of_postgres {options : Options} {catalog : Catalog} {added : List ScalarTranslator}
    {t : Translator} (h : (postgres columns options catalog added).outcome = .ok t) :
    ∃ b p, Builder.ofCatalog catalog = .ok b ∧ Postgres.ofBuilder b = .ok p ∧
      t = ⟨⟨b, Scalar.builtIn b options ++ added, [Aggregate.Spatial.translator b]⟩,
        p.strategy (Relational.strategy ⟨b, Scalar.builtIn b options ++ added, columns⟩)⟩ := by
  obtain ⟨-, b, p, -, hb, hp, ht⟩ := outcome_postgres_eq_ok.mp h
  exact ⟨b, p, hb, hp, ht⟩

/-- A translator for PostgreSQL runs the two strategies, one behind the other. -/
theorem postgres_eq_ok {options : Options} {catalog : Catalog} {added : List ScalarTranslator}
    {t : Translator} (h : (postgres columns options catalog added).outcome = .ok t) :
    ∃ b p, Builder.ofCatalog catalog = .ok b ∧ Postgres.ofBuilder b = .ok p ∧
      ∀ e, t.translate e = p.run ⟨b, Scalar.builtIn b options ++ added, columns⟩ e := by
  obtain ⟨b, p, hb, hp, rfl⟩ := of_postgres h
  exact ⟨b, p, hb, hp, fun _ => rfl⟩

/-- What one translator makes of several expressions, found by running it. -/
theorem exists_translations (setup : Run ConfigError Translator) (es : List (Expr × (Sql → Bool)))
    (h : setup.outcome.toOption.any
      (fun t => es.all fun p => (t.translate p.1).found?.any p.2) = true) :
    ∃ t, setup.outcome = .ok t ∧
      ∀ e test, (e, test) ∈ es → ∃ s, (t.translate e).outcome = .ok s ∧ test s = true := by
  cases ht : setup.outcome with
  | error c =>
    rw [ht] at h
    cases h
  | ok t =>
    rw [ht] at h
    refine ⟨t, rfl, fun e test hmem => ?_⟩
    have hfound : ((t.translate e).found?).any test = true := List.all_eq_true.mp h _ hmem
    unfold Attempt.found? at hfound
    cases hs : (t.translate e).outcome with
    | error c =>
      rw [hs] at hfound
      cases hfound
    | ok s =>
      rw [hs] at hfound
      exact ⟨s, rfl, hfound⟩

/-- What a translator makes of an expression, found by running it. -/
theorem exists_translation (setup : Run ConfigError Translator) (e : Expr) (test : Sql → Bool)
    (h : (setup.outcome.toOption.bind fun t => (t.translate e).found?).any test = true) :
    ∃ t s, setup.outcome = .ok t ∧ (t.translate e).outcome = .ok s ∧ test s = true := by
  have hone : setup.outcome.toOption.any
      (fun t => [(e, test)].all fun p => (t.translate p.1).found?.any p.2) = true := by
    refine Eq.trans ?_ h
    cases setup.outcome with
    | error c => rfl
    | ok t => exact Bool.and_true _
  obtain ⟨t, ht, hfound⟩ := exists_translations setup [(e, test)] hone
  obtain ⟨s, hs, htest⟩ := hfound e test (.head _)
  exact ⟨t, s, ht, hs, htest⟩

/-- Whether the tree is a call of the function of that name. -/
def isCallOf (function : String) : Sql → Bool
  | .call fn _ _ _ => fn.name == function
  | _ => false

/-- Everything that is translated has the property, if building keeps it and so do the translators
that were added. -/
theorem yields_translate {options : Options} {catalog : Catalog} {added : List ScalarTranslator}
    {t : Translator} (ht : (postgres columns options catalog added).outcome = .ok t)
    (h : ∀ b, Builder.ofCatalog catalog = .ok b → b.Closed columns P)
    (hadded : ∀ s ∈ added, s.Respects P) (e : Expr) : (t.translate e).Yields P := by
  obtain ⟨b, p, hb, hp, hs⟩ := postgres_eq_ok ht
  have hclosed := h b hb
  have hscalars : ∀ s ∈ Scalar.builtIn b options ++ added, s.Respects P := by
    intro s hs
    rcases List.mem_append.mp hs with hs | hs
    · exact Scalar.respects_builtIn hclosed options s hs
    · exact hadded s hs
  have hclosed' : p.builder.Closed columns P := by
    rw [Postgres.builder_of_ofBuilder hp]
    exact hclosed
  have hrespects := Postgres.respects_strategy hclosed' fun _ hrec _ he =>
    Relational.yields_strategy (r := ⟨b, _, columns⟩) hclosed hrec hscalars he
  rw [hs]
  exact hrespects.yields_run e

end Translator

end QuerySql
