import QuerySql.Proofs.Semantics.Building
import QuerySql.Proofs.Semantics.Fragment
import QuerySql.Proofs.Steps

/-!
# Meaning is preserved

What is made of an expression of the core fragment has the value of the expression, on every server
and whatever the values of parameters and columns are.

* `Sql.StandsFor` is what is carried from the parts of an expression to the whole: the value, and
  what later decisions depend on, which are the kind of the type and whether it is a JSON document.
* There is one `means_*` lemma for each case of the fragment. Array elements and dates are taken
  from operands without the conversions around them, so each case is about these as well.
* `Translator.translate_preserves_meaning` puts them together.
-/

namespace QuerySql

/-! ## Trees that stand for expressions -/

/-- The tree has the value of the expression and is of the same kind. It is not a JSON document, nor
a path into one. -/
structure Sql.StandsFor (columns : ColumnLookup) (s : Sql) (e : Expr) : Prop where
  kind : s.ty.kind = e.ty.kind
  simple : s.ty.isSimple = true
  native : Json.base? s = none
  eval : ∀ (S : Server) (env : Env) (bindings : Bindings), S.CoreRules →
    bindings.Agrees columns env → s.eval S env = e.eval S bindings

/-- The attempt finds a tree that stands for the expression. -/
def Attempt.Means (columns : ColumnLookup) (x : Attempt Sql) (e : Expr) : Prop :=
  ∃ s, x.outcome = .ok s ∧ s.StandsFor columns e

variable {columns : ColumnLookup}

/-- A tree stands for all expressions of one value and kind. -/
theorem Attempt.Means.congr {a : Attempt Sql} {x y : Expr} (h : a.Means columns x)
    (hk : x.ty.kind = y.ty.kind) (he : ∀ S bindings, x.eval S bindings = y.eval S bindings) :
    a.Means columns y := by
  obtain ⟨s, hs, h⟩ := h
  refine ⟨s, hs, h.kind.trans hk, h.simple, h.native, fun S env bindings hS ha => ?_⟩
  rw [h.eval S env bindings hS ha, he]

theorem Sql.StandsFor.isBool {s : Sql} {e : Expr} (h : s.StandsFor columns e)
    (hk : e.ty.kind = .truth) : s.ty.isBool = true := by
  rw [Ty.isBool_eq h.simple, h.kind, hk]
  rfl

/-- The value fits where the expression is one of the fragment. -/
theorem Sql.StandsFor.fits {s : Sql} {e : Expr} (h : s.StandsFor columns e) {catalog : Catalog}
    (he : e.Core catalog columns) {S : Server} {env : Env} {bindings : Bindings} (hS : S.CoreRules)
    (ha : bindings.Agrees columns env) : (s.eval S env).fits e.ty.kind = true := by
  rw [h.eval S env bindings hS ha]
  exact he.fits hS ha

namespace Postgres

variable {p : Postgres} {r : Relational} {catalog : Catalog}

/-! ### Leaves -/

theorem means_const (v : Value) {ty : Ty} (ht : ty.isSimple = true) :
    (p.run r (.const v ty)).Means columns (.const v ty) := by
  refine ⟨r.builder.typedConst v ty none, ?_, rfl, ht, rfl, fun S env bindings _ _ => ?_⟩
  · rw [run_eq]
    rfl
  · simp only [Builder.typedConst, Sql.eval, Expr.eval]

theorem means_queryParam {q : Parameter} (ht : q.ty.isSimple = true) :
    (p.run r (.queryParam q)).Means columns (.queryParam q) := by
  refine ⟨.param q.name q.ty.admitsNull q.ty (r.builder.catalog.ofTy q.ty), ?_, rfl, ht, rfl,
    fun S env bindings _ ha => ?_⟩
  · rw [run_eq]
    rfl
  · simp only [Sql.eval, Expr.eval]
    exact ha.param q

theorem means_property {source : Option String} {name : String} {c : Column} {m : Mapping}
    (hc : r.columns source name = some c) (ht : c.ty.isSimple = true)
    (hm : c.mapping r.builder.catalog = some m) (hj : m.isJson = false) :
    (p.run r (.property source name c.ty)).Means r.columns (.property source name c.ty) := by
  refine ⟨.column ⟨c.table.or source, c.name⟩ c.nullable c.ty (some m), ?_, rfl, ht, ?_,
    fun S env bindings _ ha => ?_⟩
  · rw [run_eq]
    show (r.property source name).outcome = _
    unfold Relational.property
    rw [hc]
    show Except.ok (Sql.column _ _ _ (c.mapping r.builder.catalog)) = _
    rw [hm]
  · simp only [Json.base?, Option.any_some, hj, Bool.false_eq_true, if_false]
  · simp only [Sql.eval, Expr.eval]
    exact ha.column source name c hc

/-! ### Unary operators -/

theorem means_not {x : Expr} {ty : Ty} (hx : (p.run r x).Means columns x)
    (hk : x.ty.kind = .truth) (ht : ty.IsOf .truth) :
    (p.run r (.unary .not x ty)).Means columns (.unary .not x ty) := by
  obtain ⟨s, hs, h⟩ := hx
  refine ⟨r.builder.not s, ?_, ht.2.symm, rfl, rfl, fun S env bindings hS ha => ?_⟩
  · rw [run_unary rfl]
    unfold Relational.unary
    rw [Attempt.outcome_bind_ok hs]
    simp only [h.isBool hk, if_true]
    rfl
  · rw [Builder.not, Builder.eval_unary, h.eval S env bindings hS ha, Expr.eval]

theorem means_negate {x : Expr} {ty : Ty} (hx : (p.run r x).Means columns x)
    (ht : ty.IsOf x.ty.kind) :
    (p.run r (.unary .negate x ty)).Means columns (.unary .negate x ty) := by
  obtain ⟨s, hs, h⟩ := hx
  refine ⟨r.builder.unary .negate s, ?_, h.kind.trans ht.2.symm, h.simple, rfl,
    fun S env bindings hS ha => ?_⟩
  · rw [run_unary rfl]
    unfold Relational.unary
    rw [Attempt.outcome_bind_ok hs]
    rfl
  · rw [Builder.eval_unary, h.eval S env bindings hS ha, Expr.eval]

/-- A conversion within one representation leaves no trace. -/
theorem means_convert {op : ExprUnaryOp} (hop : op.isConversion = true) {x : Expr} {ty : Ty}
    (hx : (p.run r x).Means columns x) (hu : x.ty.underlying = ty.underlying) :
    (p.run r (.unary op x ty)).Means columns (.unary op x ty) := by
  have hkeep : x.ty.preservesRepresentation ty = true := by
    simp only [Ty.preservesRepresentation, hu, decide_true, Bool.or_true, Bool.true_or]
  obtain ⟨s, hs, h⟩ := hx
  refine Attempt.Means.congr ⟨s, ?_, h⟩ (Ty.kind_eq_of_underlying hu) fun S bindings =>
    (Expr.eval_conversion S bindings hop x ty).symm
  rw [outcome_conversion hop hs, if_pos hkeep]

/-- Widening to `int` is a cast, which an integer goes through unchanged. -/
theorem means_widen {op : ExprUnaryOp} (hop : op.isConversion = true) {x : Expr} {ty : Ty}
    (hcore : x.Core catalog columns) (hx : (p.run r x).Means columns x)
    (hk : x.ty.kind = .integer) (ht : ty.stripNullable = .int) :
    (p.run r (.unary op x ty)).Means columns (.unary op x ty) := by
  have hint := Ty.isOf_int ht
  obtain ⟨s, hs, h⟩ := hx
  refine ⟨_, outcome_conversion hop hs ty, ?_⟩
  split
  · refine ⟨h.kind.trans (hk.trans hint.2.symm), h.simple, h.native,
      fun S env bindings hS ha => ?_⟩
    rw [h.eval S env bindings hS ha, Expr.eval_conversion S bindings hop]
  · refine ⟨rfl, hint.1, rfl, fun S env bindings hS ha => ?_⟩
    have hfits := h.fits hcore hS ha
    rw [hk] at hfits
    rw [Builder.eval_cast, hS.cast_int ty _ ht hfits, h.eval S env bindings hS ha,
      Expr.eval_conversion S bindings hop]

/-! ### Binary operators -/

/-- Without the literal null, both operands are translated and the operator is put between them. -/
theorem outcome_binary {op : ExprOp} {x y : Expr} (hx : x.isNullConst = false)
    (hy : y.isNullConst = false) {s t : Sql} (hs : (p.run r x).outcome = .ok s)
    (ht : (p.run r y).outcome = .ok t) :
    (r.binary (p.run r) op x y).outcome = (r.operator op s t).outcome := by
  have hnone : Relational.nullCheck? op x y = none := by
    simp only [Relational.nullCheck?, hx, hy, Option.bind_fun_none]
  unfold Relational.binary
  rw [hnone]
  simp only
  rw [Attempt.outcome_bind_ok hs, Attempt.outcome_bind_ok ht]

theorem isLocalDate_stripImplicit {e : Expr} (h : e.Core catalog columns) :
    isLocalDate e.stripImplicit = decide (e.ty.kind = .date) := by
  unfold isLocalDate
  rw [Ty.isLocalDate_eq h.stripImplicit.1.isSimple, h.stripImplicit.2]

/-- PostgreSQL has its own way with the difference of dates only. -/
theorem intercept?_plain {op : BinaryOp} {x y : Expr} (hx : x.Core catalog columns)
    (hy : y.Core catalog columns)
    (hd : ¬ Expr.IsDateDifference op x y) (recur : Expr → Attempt Sql) (ty : Ty) :
    p.intercept? recur (.binary (.plain op) x y ty) = none := by
  cases op with
  | subtract =>
    simp only [intercept?, isLocalDate_stripImplicit hx, isLocalDate_stripImplicit hy,
      Bool.and_eq_true, decide_eq_true_eq]
    exact if_neg fun h => hd ⟨rfl, h.1, h.2⟩
  | _ => rfl

/-- An operator that SQL has under the same name. -/
theorem means_plain {op : BinaryOp} {x y : Expr} {ty : Ty} (hcx : x.Core catalog columns)
    (hcy : y.Core catalog columns) (hx : (p.run r x).Means columns x)
    (hy : (p.run r y).Means columns y)
    (hd : ¬ Expr.IsDateDifference op x y)
    (hop : op.takes x.ty.kind y.ty.kind = true)
    (ht : ty.kind = if op.isPredicate then .truth else x.ty.kind) :
    (p.run r (.binary (.plain op) x y ty)).Means columns (.binary (.plain op) x y ty) := by
  obtain ⟨s, hs, hsx⟩ := hx
  obtain ⟨t, ht', hty⟩ := hy
  -- The kinds fit the operator, so it is built.
  have hmeaningful : Builder.isMeaningful op s.ty t.ty = true := by
    rw [Builder.isMeaningful_eq hsx.simple hty.simple, hsx.kind, hty.kind, hop]
  refine ⟨r.builder.binary op s t none, ?_, ?_, ?_, ?_, fun S env bindings hS ha => ?_⟩
  · rw [run_binary (intercept?_plain hcx hcy hd _ _),
      outcome_binary hcx.isNullConst hcy.isNullConst hs ht']
    simp only [Relational.operator, Builder.binary?, if_pos hmeaningful]
    rfl
  · show _ = ty.kind
    rw [Builder.ty_binary, ht]
    split
    · rfl
    · exact hsx.kind
  · rw [Builder.ty_binary]
    split
    · rfl
    · exact hsx.simple
  · unfold Builder.binary
    simp only
    split
    · rfl
    · rfl
  · rw [Builder.eval_binary, hsx.eval S env bindings hS ha, hty.eval S env bindings hS ha]
    simp only [Expr.eval]
    rw [Expr.plainValue_eq hcx.isNullConst hcy.isNullConst hd]

/-- A comparison with the literal null, on whichever side it stands. -/
theorem means_nullTest {op : BinaryOp} {x left right : Expr} {ty t : Ty}
    (hop : op = .equal ∨ op = .notEqual) (hcore : x.Core catalog columns)
    (hx : (p.run r x).Means columns x)
    (hside : left = x ∧ right = .const .null t ∨ left = .const .null t ∧ right = x)
    (ht : ty.IsOf .truth) :
    (p.run r (.binary (.plain op) left right ty)).Means columns
      (.binary (.plain op) left right ty) := by
  have hnull := hcore.isNullConst
  obtain ⟨s, hs, h⟩ := hx
  -- The same operand is tested, whichever side the literal is on.
  have hcheck : Relational.nullCheck? (.plain op) left right =
      some (if op = .equal then .isNull else .isNotNull, x) := by
    rcases hop with rfl | rfl <;> rcases hside with ⟨rfl, rfl⟩ | ⟨rfl, rfl⟩ <;>
      simp only [Relational.nullCheck?, hnull] <;> rfl
  refine ⟨r.builder.unary (if op = .equal then .isNull else .isNotNull) s, ?_, ?_, ?_, ?_,
    fun S env bindings hS ha => ?_⟩
  · have hrun : p.run r (.binary (.plain op) left right ty) =
        r.binary (p.run r) (.plain op) left right := by
      rcases hop with rfl | rfl <;> exact run_binary rfl
    rw [hrun]
    unfold Relational.binary
    rw [hcheck]
    simp only
    rw [Attempt.outcome_bind_ok hs]
    rfl
  · rcases hop with rfl | rfl <;> exact ht.2.symm
  · rcases hop with rfl | rfl <;> rfl
  · rcases hop with rfl | rfl <;> rfl
  · rw [Builder.eval_unary, h.eval S env bindings hS ha]
    rw [Expr.eval_nullTest hop hnull hside]
    rcases hop with rfl | rfl
    · rw [if_pos rfl, hS.isNull]
      simp only [decide_true, beq_true]
    · rw [if_neg nofun, hS.isNotNull]
      simp only [reduceCtorEq, decide_false, beq_false]

theorem means_coalesce {x y : Expr} {ty : Ty} (hcx : x.Core catalog columns)
    (hcy : y.Core catalog columns) (hx : (p.run r x).Means columns x)
    (hy : (p.run r y).Means columns y) (ht : ty.IsOf x.ty.kind) :
    (p.run r (.binary .coalesce x y ty)).Means columns (.binary .coalesce x y ty) := by
  obtain ⟨s, hs, hsx⟩ := hx
  obtain ⟨t, ht', hty⟩ := hy
  obtain ⟨c, hc, hcty, hnative, heval⟩ := r.builder.exists_coalesce s t none
  refine ⟨c, ?_, ?_, ?_, hnative, fun S env bindings hS ha => ?_⟩
  · rw [run_binary rfl, outcome_binary hcx.isNullConst hcy.isNullConst hs ht']
    exact hc
  · rw [hcty, Ty.kind_stripNullable, hsx.kind]
    exact ht.2.symm
  · rw [hcty]
    exact Ty.isSimple_stripNullable hsx.simple
  · rw [heval, hS.coalesce, hsx.eval S env bindings hS ha, hty.eval S env bindings hS ha, Expr.eval]

/-! ### Arrays -/

theorem kind_of_isBytes {ty : Ty} {s : Sql} (h : isBytes ty s = true) :
    ty.kind = .array .integer := by
  unfold isBytes at h
  rw [Bool.and_eq_true] at h
  exact Ty.kind_of_isByteArray h.1

/-- The length of a byte string and that of an array have a function each. -/
theorem outcome_arrayLength {x : Expr} {s : Sql} (hs : (p.run r x).outcome = .ok s)
    (hnative : Json.base? s = none) (ty : Ty) :
    (p.run r (.unary .arrayLength x ty)).outcome =
      (p.builder.strictCall (if isBytes x.ty s then "length" else "cardinality") [s] .int
        none).outcome := by
  rw [run_eq]
  show (p.arrayLength (p.run r) x).outcome = _
  unfold arrayLength
  rw [Attempt.outcome_bind_ok hs]
  split
  · rfl
  · exact Attempt.outcome_orElse_of_declines (Json.declines_arrayLength _ hnative)

theorem means_arrayLength {x : Expr} {ty : Ty} {k : Kind} (hcore : x.Core catalog columns)
    (hx : (p.run r x).Means columns x) (hk : x.ty.kind = .array k) (ht : ty.IsOf .integer) :
    (p.run r (.unary .arrayLength x ty)).Means columns (.unary .arrayLength x ty) := by
  obtain ⟨s, hs, h⟩ := hx
  obtain ⟨c, hc, hty, hnative, heval⟩ := p.builder.exists_strictCall
    (if isBytes x.ty s then "length" else "cardinality") [s] .int none
  refine ⟨c, ?_, ?_, ?_, hnative, fun S env bindings hS ha => ?_⟩
  · rw [outcome_arrayLength hs h.native]
    exact hc
  · rw [hty]
    exact ht.2.symm
  · rw [hty]
    rfl
  · have hfits := h.fits hcore hS ha
    rw [heval, Expr.eval, ← h.eval S env bindings hS ha]
    simp only [List.map_cons, List.map_nil]
    split
    next hb =>
      rw [kind_of_isBytes hb] at hfits
      exact hS.length _ hfits
    next =>
      rw [hk] at hfits
      exact hS.cardinality _ k hfits

/-- A byte string counts from zero as well, a native array from one. -/
theorem means_arrayIndex {x i : Expr} {ty : Ty} {k : Kind} (hcx : x.Core catalog columns)
    (hci : i.Core catalog columns) (hx : (p.run r x.stripImplicit).Means columns x)
    (hi : (p.run r i.stripImplicit).Means columns i) (hk : x.ty.kind = .array k)
    (hki : i.ty.kind = .integer) (ht : ty.IsOf k) :
    (p.run r (.binary .arrayIndex x i ty)).Means columns (.binary .arrayIndex x i ty) := by
  obtain ⟨s, hs, hsx⟩ := hx
  obtain ⟨t, ht', hti⟩ := hi
  have hboth := Attempt.outcome_both_ok hs ht'
  -- A native array is no document, so its members are not asked for.
  have hrun : (p.run r (.binary .arrayIndex x i ty)).outcome =
      (if isBytes x.ty s then p.builder.strictCall "get_byte" [s, t] .byte none
        else pure (p.builder.subscript s (p.builder.oneBased t) true)).outcome := by
    rw [run_arrayIndex]
    unfold arrayIndex
    rw [Attempt.outcome_bind_ok hboth]
    simp only [Json.member?_eq_none p.builder hsx.native]
  cases hb : isBytes x.ty s with
  | true =>
    have hkx := kind_of_isBytes hb
    obtain rfl : k = .integer := Kind.array.inj (hk.symm.trans hkx)
    obtain ⟨c, hc, hty, hnative, heval⟩ := p.builder.exists_strictCall "get_byte" [s, t] .byte none
    refine ⟨c, ?_, ?_, ?_, hnative, fun S env bindings hS ha => ?_⟩
    · rw [hrun, hb]
      exact hc
    · rw [hty]
      exact ht.2.symm
    · rw [hty]
      rfl
    · have hsfits := hsx.fits hcx hS ha
      have htfits := hti.fits hci hS ha
      rw [hkx] at hsfits
      rw [hki] at htfits
      rw [heval, Expr.eval, ← hsx.eval S env bindings hS ha, ← hti.eval S env bindings hS ha]
      exact hS.getByte _ _ hsfits htfits
  -- The index is moved up by one, and the subscript counts from one.
  | false =>
    obtain ⟨u, hu, hscalar, huk⟩ := Ty.element?_of_kind hsx.simple (hsx.kind.trans hk)
    have hty : (p.builder.subscript s (p.builder.oneBased t) true).ty = u := by
      show s.ty.stripNullable.element?.getD .object = u
      rw [hu]
      rfl
    refine ⟨p.builder.subscript s (p.builder.oneBased t) true, ?_, ?_, ?_, rfl,
      fun S env bindings hS ha => ?_⟩
    · rw [hrun, hb]
      rfl
    · rw [hty, huk]
      exact ht.2.symm
    · rw [hty]
      exact Ty.isSimple_of_isScalar hscalar
    · have htfits := hti.fits hci hS ha
      rw [hki] at htfits
      rw [Builder.eval_subscript, Builder.eval_oneBased _ hS htfits, Datum.elementAt_shift,
        Expr.eval, ← hsx.eval S env bindings hS ha, ← hti.eval S env bindings hS ha]

/-- By induction on the items, which are translated one after the other. -/
theorem exists_items {items : List Expr} (h : ∀ i ∈ items, (p.run r i).Means columns i) :
    ∃ ss, (Attempt.all (p.run r) items).outcome = .ok ss ∧
      ∀ (S : Server) (env : Env) (bindings : Bindings), S.CoreRules → bindings.Agrees columns env →
        ss.map (Sql.eval S env) = items.map (Expr.eval S bindings) := by
  induction items with
  | nil => exact ⟨[], rfl, fun _ _ _ _ _ => rfl⟩
  | cons i is ih =>
    obtain ⟨s, hs, hsi⟩ := h i List.mem_cons_self
    obtain ⟨ss, hss, heval⟩ := ih fun j hj => h j (List.mem_cons_of_mem _ hj)
    refine ⟨s :: ss, ?_, fun S env bindings hS ha => ?_⟩
    · unfold Attempt.all
      rw [Attempt.outcome_bind_ok hs, Attempt.outcome_bind_ok hss]
      rfl
    · rw [List.map_cons, List.map_cons, hsi.eval S env bindings hS ha, heval S env bindings hS ha]

/-- By its items: an array literal has their values, one by one. -/
theorem means_newArray {items : List Expr} {t : Ty}
    (h : ∀ i ∈ items, (p.run r i).Means columns i) (ht : t.isScalar = true) :
    (p.run r (.newArray false items (.array t))).Means columns
      (.newArray false items (.array t)) := by
  obtain ⟨ss, hss, heval⟩ := exists_items h
  refine ⟨p.builder.newArray ss (.array t), ?_, rfl, ?_, rfl, fun S env bindings hS ha => ?_⟩
  · have hbehind : (Attempt.decline : Attempt Sql).Declines := rfl
    have hreport : ((Attempt.all (p.run r) items).reportDecline
        (.failed (.itemOf (.array t)))).outcome = .ok ss := by
      rw [Attempt.outcome_reportDecline, hss]
    rw [run_eq]
    show (Attempt.decline <|> p.newArray (p.run r) items (.array t)).outcome = _
    rw [Attempt.outcome_orElse_of_declines hbehind]
    unfold newArray
    rw [Attempt.outcome_bind_ok hreport]
    rfl
  · show (Ty.array t).isSimple = true
    simp only [Ty.isSimple, Ty.stripNullable, ht, Bool.or_true]
  · rw [Builder.eval_newArray, heval S env bindings hS ha, Expr.eval, Expr.evalAll_eq_map]

/-! ### Dates -/

/-- The number of days between two dates makes an interval. -/
theorem means_dateDifference {x y : Expr} {ty : Ty} (hcx : x.Core catalog columns)
    (hcy : y.Core catalog columns) (hx : (p.run r x.stripImplicit).Means columns x)
    (hy : (p.run r y.stripImplicit).Means columns y) (hkx : x.ty.kind = .date)
    (hky : y.ty.kind = .date) (ht : ty.IsOf .period) :
    (p.run r (.binary (.plain .subtract) x y ty)).Means columns
      (.binary (.plain .subtract) x y ty) := by
  obtain ⟨s, hs, hsx⟩ := hx
  obtain ⟨t, ht', hty⟩ := hy
  have hboth := Attempt.outcome_both_ok hs ht'
  -- The server subtracts dates as numbers of days.
  have hdays : p.builder.binary? .subtract s t (some p.builder.intMapping) =
      some (p.builder.binary .subtract s t (some p.builder.intMapping)) := by
    refine if_pos ?_
    rw [Builder.isMeaningful_eq hsx.simple hty.simple, hsx.kind, hty.kind, hkx, hky]
    rfl
  obtain ⟨c, hc, hcty, hnative, heval⟩ := p.builder.exists_call
    { name := "make_interval", argumentNames := some [some "days"], nullable := true,
      propagates := [true] }
    [p.builder.binary .subtract s t (some p.builder.intMapping)]
    (fun names hn => by cases hn; rfl) nofun rfl .period none
  refine ⟨c, ?_, ?_, ?_, hnative, fun S env bindings hS ha => ?_⟩
  · have hrun : p.run r (.binary (.plain .subtract) x y ty) =
        p.dateDifference (p.run r) x.stripImplicit y.stripImplicit := by
      rw [run_eq]
      simp only [strategy, intercept?, isLocalDate_stripImplicit hcx, isLocalDate_stripImplicit hcy,
        hkx, hky, decide_true, Bool.and_self, if_true]
    rw [hrun]
    unfold dateDifference
    rw [Attempt.outcome_bind_ok hboth]
    simp only [hdays]
    exact hc
  · rw [hcty]
    exact ht.2.symm
  · rw [hcty]
    rfl
  · have hsfits := hsx.fits hcx hS ha
    have htfits := hty.fits hcy hS ha
    rw [hkx] at hsfits
    rw [hky] at htfits
    rw [heval]
    simp only [List.map_cons, List.map_nil, Builder.eval_binary, Expr.eval]
    rw [hS.daysSince _ _ hsfits htfits, Expr.plainValue_dates hkx hky,
      ← hsx.eval S env bindings hS ha, ← hty.eval S env bindings hS ha]
    exact hS.makeInterval _ (Datum.fits_daysSince _ _)

/-! ### All of the fragment -/

/-- A conversion that is left out leaves the value as it is. -/
theorem means_stripImplicit {op : ExprUnaryOp} (hop : op.isConversion = true) {x : Expr} {ty : Ty}
    (h : (p.run r (.unary op x ty)).Means columns (.unary op x ty))
    (hx : (p.run r x.stripImplicit).Means columns x) (hk : x.ty.kind = ty.kind) :
    (p.run r (Expr.unary op x ty).stripImplicit).Means columns (.unary op x ty) := by
  rw [Expr.stripImplicit]
  split
  · exact hx.congr hk fun S bindings => (Expr.eval_conversion S bindings hop x ty).symm
  · exact h

/-- By induction on the expression. Where it is no conversion, it is the same without the
conversions around it. -/
theorem means_core {e : Expr} (h : e.Core r.builder.catalog r.columns) :
    (p.run r e).Means r.columns e ∧ (p.run r e.stripImplicit).Means r.columns e := by
  induction h with
  | const _ ht => exact and_self_iff.mpr (means_const _ ht)
  | param ht => exact and_self_iff.mpr (means_queryParam ht)
  | property hc ht hm hj => exact and_self_iff.mpr (means_property hc ht hm hj)
  | not _ hk ht ih => exact and_self_iff.mpr (means_not ih.1 hk ht)
  | negate _ _ ht ih => exact and_self_iff.mpr (means_negate ih.1 ht)
  | @arithmetic op x y ty hx hy hop ht ihx ihy =>
    have hkind : ty.kind = if op.isPredicate then .truth else x.ty.kind := by
      rw [BinaryOp.isPredicate_of_computes hop]
      exact ht.2
    have htakes := BinaryOp.takes_of_computes hop
    exact and_self_iff.mpr
      (means_plain hx hy ihx.1 ihy.1 (Expr.Core.not_isDateDifference hop) htakes hkind)
  | @bitwise op x y ty hx hy hop hk hky ht ihx ihy =>
    have hkind : ty.kind = if op.isPredicate then .truth else x.ty.kind := by
      rw [BinaryOp.isPredicate_of_isBitwise hop]
      exact ht.2
    have htakes : op.takes x.ty.kind y.ty.kind = true := by
      rw [hky]
      exact BinaryOp.takes_of_isBitwise hop hk
    have hsub : op ≠ .subtract := by
      rintro rfl
      cases hop
    exact and_self_iff.mpr
      (means_plain hx hy ihx.1 ihy.1 (fun hd => hsub hd.1) htakes hkind)
  | @logical op x y ty hx hy hop hkx hky ht ihx ihy =>
    have hkind : ty.kind = if op.isPredicate then .truth else x.ty.kind := by
      rcases hop with rfl | rfl <;> exact ht.2
    have htakes : op.takes x.ty.kind y.ty.kind = true := by
      rw [hkx, hky]
      rcases hop with rfl | rfl <;> rfl
    have hsub : op ≠ .subtract := by
      rcases hop with rfl | rfl <;> exact nofun
    exact and_self_iff.mpr
      (means_plain hx hy ihx.1 ihy.1 (fun hd => hsub hd.1) htakes hkind)
  | @comparison op x y ty hx hy hop ht ihx ihy =>
    have hkind : ty.kind = if op.isPredicate then .truth else x.ty.kind := by
      rw [BinaryOp.isPredicate_of_isComparison hop]
      exact ht.2
    have htakes := BinaryOp.takes_of_isComparison hop x.ty.kind y.ty.kind
    have hsub : op ≠ .subtract := by
      rintro rfl
      cases hop
    exact and_self_iff.mpr
      (means_plain hx hy ihx.1 ihy.1 (fun hd => hsub hd.1) htakes hkind)
  | nullOnRight hx hop ht ih =>
    exact and_self_iff.mpr (means_nullTest hop hx ih.1 (.inl ⟨rfl, rfl⟩) ht)
  | nullOnLeft hx hop ht ih =>
    exact and_self_iff.mpr (means_nullTest hop hx ih.1 (.inr ⟨rfl, rfl⟩) ht)
  | coalesce hx hy _ ht ihx ihy => exact and_self_iff.mpr (means_coalesce hx hy ihx.1 ihy.1 ht)
  -- The conversion may be stripped where it is an operand, so the second half is about what is
  -- under it.
  | convert hx hop hu _ ih =>
    have hmeans := means_convert hop ih.1 hu
    exact ⟨hmeans, means_stripImplicit hop hmeans ih.2 (Ty.kind_eq_of_underlying hu)⟩
  | widen hx hop hu ht ih =>
    have hk := Ty.kind_of_isSmallInteger hu
    have hmeans := means_widen hop hx ih.1 hk ht
    exact ⟨hmeans, means_stripImplicit hop hmeans ih.2 (hk.trans (Ty.isOf_int ht).2.symm)⟩
  | arrayLength hx hk ht ih => exact and_self_iff.mpr (means_arrayLength hx ih.1 hk ht)
  -- The operands are stripped first, which is what the second halves are for.
  | arrayIndex hx hi hk hki ht ihx ihi =>
    exact and_self_iff.mpr (means_arrayIndex hx hi ihx.2 ihi.2 hk hki ht)
  | dateDifference hx hy hkx hky ht ihx ihy =>
    exact and_self_iff.mpr (means_dateDifference hx hy ihx.2 ihy.2 hkx hky ht)
  | newArray _ _ ht _ ih => exact and_self_iff.mpr (means_newArray (fun i hi => (ih i hi).1) ht)

end Postgres

/-! ## Translators -/

namespace Translator

/-- An expression of the core fragment is translated, and to a tree of the same value: on every
server that does what is asked of it, for all values of parameters and columns. -/
theorem translate_preserves_meaning {options : Options} {catalog : Catalog}
    {added : List ScalarTranslator} {t : Translator}
    (ht : (postgres columns options catalog added).outcome = .ok t) {e : Expr}
    (h : e.Core catalog columns) :
    ∃ s, (t.translate e).outcome = .ok s ∧
      ∀ (S : Server) (env : Env) (bindings : Bindings), S.CoreRules → bindings.Agrees columns env →
        s.eval S env = e.eval S bindings := by
  obtain ⟨b, p, hb, -, hrun⟩ := postgres_eq_ok ht
  obtain ⟨hcatalog, -, -⟩ := Builder.ofCatalog_eq_ok.mp hb
  let r : Relational := ⟨b, Scalar.builtIn b options ++ added, columns⟩
  have hcore : e.Core r.builder.catalog r.columns := by
    show e.Core b.catalog columns
    rw [hcatalog]
    exact h
  obtain ⟨s, hs, hstands⟩ := (Postgres.means_core (p := p) hcore).1
  refine ⟨s, ?_, hstands.eval⟩
  rw [hrun]
  exact hs

/-- `Xs[Small]`, `Data[Small]` and `Data.Length`: the subscript is widened to `int` for the query,
and counts from one in SQL for an array only. Bytes have functions of their own. -/
theorem meaning_of_element :
    let xs : Column := { name := "xs", ty := .array .int }
    let data : Column := { name := "data", ty := .byteArray }
    let small : Column := { name := "small", ty := .short }
    let columns : ColumnLookup := fun _ name =>
      if name = "Xs" then some xs else if name = "Data" then some data else some small
    let subscript : Expr := .unary .convert (.property none "Small" .short) .int
    let element : Expr := .ofBinary .arrayIndex (.property none "Xs" (.array .int)) subscript
    let byte : Expr := .ofBinary .arrayIndex (.property none "Data" .byteArray) subscript
    let length : Expr := .unary .arrayLength (.property none "Data" .byteArray) .int
    let bindings : Bindings :=
      { param := fun _ => .null
        property := fun _ name =>
          if name = "Xs" then .array [.int 3, .int 5]
          else if name = "Data" then .ofValue (.bytes [7, 8, 9]) else .int 1 }
    let env : Env :=
      { param := fun _ => .null
        column := fun ref =>
          if ref.name = "xs" then .array [.int 3, .int 5]
          else if ref.name = "data" then .ofValue (.bytes [7, 8, 9]) else .int 1
        group := fun _ _ _ _ => .null }
    ∃ t, (postgres columns {} Catalog.standard []).outcome = .ok t ∧
      (∀ e ∈ [element, byte, length], e.Core Catalog.standard columns) ∧
      Server.reference.CoreRules ∧ bindings.Agrees columns env ∧
      (∃ s, (t.translate element).outcome = .ok s ∧ s.eval Server.reference env = .int 5) ∧
      (∃ s, (t.translate byte).outcome = .ok s ∧ isCallOf "get_byte" s = true ∧
        s.eval Server.reference env = .int 8) ∧
      ∃ s, (t.translate length).outcome = .ok s ∧ isCallOf "length" s = true ∧
        s.eval Server.reference env = .int 3 := by
  intro xs data small columns subscript element byte length bindings env
  have hxs : (Expr.property none "Xs" xs.ty).Core Catalog.standard columns :=
    .property (if_pos rfl) rfl rfl rfl
  have hdata : (Expr.property none "Data" data.ty).Core Catalog.standard columns :=
    .property (by rfl) rfl rfl rfl
  have hsubscript : subscript.Core Catalog.standard columns :=
    .widen (.property (c := small) (by rfl) rfl rfl rfl) rfl rfl rfl
  have helement : element.Core Catalog.standard columns :=
    .arrayIndex hxs hsubscript rfl rfl ⟨rfl, rfl⟩
  have hbyte : byte.Core Catalog.standard columns :=
    .arrayIndex hdata hsubscript rfl rfl ⟨rfl, rfl⟩
  have hlength : length.Core Catalog.standard columns := .arrayLength hdata rfl ⟨rfl, rfl⟩
  -- Bindings and row have the same value for each of the three names.
  have hagrees : bindings.Agrees columns env := by
    refine ⟨fun _ => rfl, fun source name c hc => ?_, fun _ => Datum.fits_null _,
      fun source name c hc => ?_⟩
    all_goals
      simp only [columns] at hc
      split at hc
      next hname =>
        cases hc
        simp only [bindings, if_pos hname]
        rfl
      next hname =>
        split at hc
        next hname' =>
          cases hc
          simp only [bindings, if_neg hname, if_pos hname']
          rfl
        next hname' =>
          cases hc
          simp only [bindings, if_neg hname, if_neg hname']
          rfl
  -- Running the translator shows the functions that are called. The values come from the theorem.
  obtain ⟨t, ht, hcalls⟩ := exists_translations (postgres columns {} Catalog.standard [])
    [(byte, isCallOf "get_byte"), (length, isCallOf "length")] (by decide +kernel)
  have hmeans {e : Expr} (he : e.Core Catalog.standard columns) :
      ∃ s, (t.translate e).outcome = .ok s ∧
        s.eval Server.reference env = e.eval Server.reference bindings := by
    obtain ⟨s, hs, heval⟩ := translate_preserves_meaning ht he
    exact ⟨s, hs, heval _ _ _ Server.coreRules_reference hagrees⟩
  obtain ⟨s, hs, hcall⟩ := hcalls byte _ (.head _)
  obtain ⟨s', hs', hcall'⟩ := hcalls length _ (.tail _ (.head _))
  refine ⟨t, ht, ?_, Server.coreRules_reference, hagrees, hmeans helement, ⟨s, hs, hcall, ?_⟩,
    ⟨s', hs', hcall', ?_⟩⟩
  · simp only [List.forall_mem_cons, List.not_mem_nil, false_implies, implies_true, and_true]
    exact ⟨helement, hbyte, hlength⟩
  · obtain ⟨u, hu, heval⟩ := hmeans hbyte
    cases hs.symm.trans hu
    exact heval
  · obtain ⟨u, hu, heval⟩ := hmeans hlength
    cases hs'.symm.trans hu
    exact heval

end Translator

end QuerySql
