import QuerySql.Proofs.Closure
import QuerySql.Proofs.Semantics.Source

/-!
# The core fragment

The expressions over scalars, arrays and dates that need no function library: constants, parameters
and properties, the operators, null tests, default values, conversions without effect or to `int`,
and arrays with their lengths and elements.

* `Expr.Core` has a case for each of them, with what well-typed operands are.
* `Expr.Core.fits`: what such an expression evaluates to is of the kind that its type says.
* `Expr.Core.stripImplicit`: without the conversions around it, it is still one of them.
-/

namespace QuerySql

/-- The type is simple and its values are of the kind. -/
def Ty.IsOf (t : Ty) (k : Kind) : Prop := t.isSimple = true ∧ t.kind = k

/-- The small integer types that are widened to `int`. -/
def Ty.isSmallInteger : Ty → Bool
  | .byte | .sbyte | .short | .ushort => true
  | _ => false

namespace Expr

/-- A well-typed expression of the core fragment, over columns that are stored in their own type and
not as a document. -/
inductive Core (catalog : Catalog) (columns : ColumnLookup) : Expr → Prop where
  | const {v : Value} {ty : Ty} (hv : v.isNull = false) (ht : ty.isSimple = true)
      (hf : (Datum.ofValue v).fits ty.kind = true) : Core catalog columns (.const v ty)
  | param {p : Parameter} (ht : p.ty.isSimple = true) : Core catalog columns (.queryParam p)
  | property {source : Option String} {name : String} {c : Column} {m : Mapping}
      (hc : columns source name = some c) (ht : c.ty.isSimple = true)
      (hm : c.mapping catalog = some m) (hj : m.isJson = false) :
      Core catalog columns (.property source name c.ty)
  | not {x : Expr} {ty : Ty} (hx : Core catalog columns x) (hk : x.ty.kind = .truth)
      (ht : ty.IsOf .truth) : Core catalog columns (.unary .not x ty)
  | negate {x : Expr} {ty : Ty} (hx : Core catalog columns x)
      (hk : x.ty.kind = .integer ∨ x.ty.kind = .period ∨ x.ty.kind = .other)
      (ht : ty.IsOf x.ty.kind) : Core catalog columns (.unary .negate x ty)
  | arithmetic {op : BinaryOp} {x y : Expr} {ty : Ty} (hx : Core catalog columns x)
      (hy : Core catalog columns y) (hop : op.computes x.ty.kind y.ty.kind = true)
      (ht : ty.IsOf x.ty.kind) : Core catalog columns (.binary (.plain op) x y ty)
  | bitwise {op : BinaryOp} {x y : Expr} {ty : Ty} (hx : Core catalog columns x)
      (hy : Core catalog columns y) (hop : op.isBitwise = true)
      (hk : x.ty.kind = .truth ∨ x.ty.kind = .integer) (hky : y.ty.kind = x.ty.kind)
      (ht : ty.IsOf x.ty.kind) : Core catalog columns (.binary (.plain op) x y ty)
  | logical {op : BinaryOp} {x y : Expr} {ty : Ty} (hx : Core catalog columns x)
      (hy : Core catalog columns y) (hop : op = .andAlso ∨ op = .orElse)
      (hkx : x.ty.kind = .truth) (hky : y.ty.kind = .truth) (ht : ty.IsOf .truth) :
      Core catalog columns (.binary (.plain op) x y ty)
  | comparison {op : BinaryOp} {x y : Expr} {ty : Ty} (hx : Core catalog columns x)
      (hy : Core catalog columns y) (hop : op.isComparison = true) (ht : ty.IsOf .truth) :
      Core catalog columns (.binary (.plain op) x y ty)
  | nullOnRight {op : BinaryOp} {x : Expr} {ty t : Ty} (hx : Core catalog columns x)
      (hop : op = .equal ∨ op = .notEqual) (ht : ty.IsOf .truth) :
      Core catalog columns (.binary (.plain op) x (.const .null t) ty)
  | nullOnLeft {op : BinaryOp} {x : Expr} {ty t : Ty} (hx : Core catalog columns x)
      (hop : op = .equal ∨ op = .notEqual) (ht : ty.IsOf .truth) :
      Core catalog columns (.binary (.plain op) (.const .null t) x ty)
  | coalesce {x y : Expr} {ty : Ty} (hx : Core catalog columns x) (hy : Core catalog columns y)
      (hky : y.ty.kind = x.ty.kind) (ht : ty.IsOf x.ty.kind) :
      Core catalog columns (.binary .coalesce x y ty)
  | convert {op : ExprUnaryOp} {x : Expr} {ty : Ty} (hx : Core catalog columns x)
      (hop : op.isConversion = true) (hu : x.ty.underlying = ty.underlying)
      (ht : ty.isSimple = true) : Core catalog columns (.unary op x ty)
  | widen {op : ExprUnaryOp} {x : Expr} {ty : Ty} (hx : Core catalog columns x)
      (hop : op.isConversion = true) (hu : x.ty.underlying.isSmallInteger = true)
      (ht : ty.stripNullable = .int) : Core catalog columns (.unary op x ty)
  | arrayLength {x : Expr} {ty : Ty} {k : Kind} (hx : Core catalog columns x)
      (hk : x.ty.kind = .array k) (ht : ty.IsOf .integer) :
      Core catalog columns (.unary .arrayLength x ty)
  | arrayIndex {x i : Expr} {ty : Ty} {k : Kind} (hx : Core catalog columns x)
      (hi : Core catalog columns i) (hk : x.ty.kind = .array k) (hki : i.ty.kind = .integer)
      (ht : ty.IsOf k) : Core catalog columns (.binary .arrayIndex x i ty)
  | dateDifference {x y : Expr} {ty : Ty} (hx : Core catalog columns x)
      (hy : Core catalog columns y) (hkx : x.ty.kind = .date) (hky : y.ty.kind = .date)
      (ht : ty.IsOf .period) : Core catalog columns (.binary (.plain .subtract) x y ty)
  | newArray {items : List Expr} {t : Ty} (hi : ∀ i ∈ items, Core catalog columns i)
      (hk : ∀ i ∈ items, i.ty.kind = t.kind) (ht : t.isScalar = true) (hb : t ≠ .byte) :
      Core catalog columns (.newArray false items (.array t))

end Expr

/-- A small integer type is widened to `int`, so it is of the same kind. -/
theorem Ty.kind_of_isSmallInteger {t : Ty} (h : t.underlying.isSmallInteger = true) :
    t.kind = .integer := by
  rw [← kind_underlying]
  unfold isSmallInteger at h
  split at h
  case h_5 => cases h
  all_goals
    next heq =>
      rw [heq]
      rfl

theorem Ty.isOf_int {t : Ty} (h : t.stripNullable = .int) : t.IsOf .integer := by
  constructor
  · unfold isSimple isScalar
    rw [h]
    rfl
  · rw [← kind_stripNullable, h]
    rfl

namespace Expr.Core

variable {catalog : Catalog} {columns : ColumnLookup} {e : Expr}

theorem isSimple (h : e.Core catalog columns) : e.ty.isSimple = true := by
  cases h with
  | const _ ht | param ht | property _ ht | convert _ _ _ ht => exact ht
  | widen _ _ _ ht => exact (Ty.isOf_int ht).1
  | newArray _ _ ht =>
    show (Ty.array _).isSimple = true
    simp only [Ty.isSimple, Ty.stripNullable, ht, Bool.or_true]
  | not _ _ ht | negate _ _ ht | arithmetic _ _ _ ht | bitwise _ _ _ _ _ ht | logical _ _ _ _ _ ht
  | comparison _ _ _ ht | nullOnRight _ _ ht | nullOnLeft _ _ ht | coalesce _ _ _ ht
  | arrayLength _ _ ht | arrayIndex _ _ _ _ ht | dateDifference _ _ _ _ ht => exact ht.1

/-- The literal null is no expression of the fragment by itself. -/
theorem isNullConst (h : e.Core catalog columns) : e.isNullConst = false := by
  cases h with
  | const hv => exact hv
  | _ => rfl

/-- A conversion is of something of the same kind. -/
theorem of_conversion {op : ExprUnaryOp} {x : Expr} {ty : Ty} (hop : op.isConversion = true)
    (h : (Expr.unary op x ty).Core catalog columns) :
    x.Core catalog columns ∧ x.ty.kind = ty.kind := by
  cases h with
  | convert hx _ hu => exact ⟨hx, Ty.kind_eq_of_underlying hu⟩
  | widen hx _ hu ht => exact ⟨hx, (Ty.kind_of_isSmallInteger hu).trans (Ty.isOf_int ht).2.symm⟩
  | not | negate | arrayLength => cases hop

/-- By induction on the conversions around the expression. -/
theorem stripImplicit (h : e.Core catalog columns) :
    e.stripImplicit.Core catalog columns ∧ e.stripImplicit.ty.kind = e.ty.kind := by
  fun_induction Expr.stripImplicit e with
  | case1 op x ty hop ih =>
    rw [Bool.and_eq_true] at hop
    obtain ⟨hx, hk⟩ := of_conversion hop.1 h
    exact ⟨(ih hx).1, (ih hx).2.trans hk⟩
  | case2 | case3 => exact ⟨h, rfl⟩

end Expr.Core

/-! ## Values of the fragment -/

namespace Expr

variable {S : Server} {op : BinaryOp} {x y : Expr}

/-- The one operator between two operands other than null that is not the server's. -/
structure IsDateDifference (op : BinaryOp) (x y : Expr) : Prop where
  op : op = .subtract
  left : x.ty.kind = .date
  right : y.ty.kind = .date

/-- Unless null is tested for or two dates are subtracted, the operator is the server's. -/
theorem plainValue_eq (hx : x.isNullConst = false) (hy : y.isNullConst = false)
    (hd : ¬ IsDateDifference op x y) (a c : Datum) :
    plainValue S op x y a c = S.binary op a c := by
  have hnull : (x.isNullConst != y.isNullConst) = false := by
    rw [hx, hy]
    rfl
  unfold plainValue
  rw [hnull]
  cases op
  case subtract => exact if_neg fun h => hd ⟨rfl, h.1, h.2⟩
  all_goals rfl

/-- The difference of two dates is the one operator of queries that is not the server's. -/
theorem plainValue_dates (hx : x.ty.kind = .date) (hy : y.ty.kind = .date) (a c : Datum) :
    plainValue S .subtract x y a c = (a.daysSince c).asDays := by
  show (if x.ty.kind = .date ∧ y.ty.kind = .date then (a.daysSince c).asDays
    else S.binary .subtract a c) = _
  rw [if_pos ⟨hx, hy⟩]

/-- With the literal null on one side, the other operand is asked whether it is null. -/
theorem eval_nullTest {left right : Expr} {t : Ty} (hop : op = .equal ∨ op = .notEqual)
    (hx : x.isNullConst = false)
    (hside : left = x ∧ right = .const .null t ∨ left = .const .null t ∧ right = x)
    (bindings : Bindings) (ty : Ty) :
    (Expr.binary (.plain op) left right ty).eval S bindings =
      .truth ((x.eval S bindings).isNull == decide (op = .equal)) := by
  have hone : (left.isNullConst != right.isNullConst) = true := by
    rcases hside with ⟨rfl, rfl⟩ | ⟨rfl, rfl⟩
    · rw [hx]
      rfl
    · rw [hx]
      rfl
  have hboth : ((left.eval S bindings).isNull && (right.eval S bindings).isNull) =
      (x.eval S bindings).isNull := by
    rcases hside with ⟨rfl, rfl⟩ | ⟨rfl, rfl⟩
    · rw [eval, Datum.ofValue]
      exact Bool.and_true _
    · rw [eval, Datum.ofValue]
      exact Bool.true_and _
  simp only [eval, plainValue]
  rw [hone]
  rcases hop with rfl | rfl
  · simp only [hboth, decide_true, beq_true]
  · simp only [hboth, reduceCtorEq, decide_false, beq_false]

namespace Core

variable {catalog : Catalog} {columns : ColumnLookup} {bindings : Bindings} {env : Env} {e : Expr}

/-- Arithmetic of the fragment is never on two dates. -/
theorem not_isDateDifference (h : op.computes x.ty.kind y.ty.kind = true) :
    ¬ IsDateDifference op x y := by
  rintro ⟨-, hx, hy⟩
  rw [hx, hy] at h
  cases h

/-- By induction on the expression, which is well-typed at every node. -/
theorem fits (hS : S.CoreRules) (ha : bindings.Agrees columns env) (h : e.Core catalog columns) :
    (e.eval S bindings).fits e.ty.kind = true := by
  induction h with
  | const _ _ hf =>
    rw [eval]
    exact hf
  | param =>
    rw [eval]
    exact ha.param_fits _
  | property hc =>
    rw [eval]
    exact ha.property_fits _ _ _ hc
  | @negate x ty hx hk ht ih =>
    simp only [eval]
    show Datum.fits _ ty.kind = true
    rw [ht.2]
    rcases hk with hk | hk | hk
    · exact hS.negate_fits _ _ (.inl hk) ih
    · exact hS.negate_fits _ _ (.inr hk) ih
    · -- Any value fits the kind of all other types.
      rw [hk]
      exact Datum.fits_other _
  | @arithmetic op x y ty hx hy hop ht ihx ihy =>
    simp only [eval]
    rw [plainValue_eq hx.isNullConst hy.isNullConst (not_isDateDifference hop)]
    show Datum.fits _ ty.kind = true
    rw [ht.2]
    exact hS.arithmetic_fits _ _ _ _ _ hop ihx ihy
  | @bitwise op x y ty hx hy hop hk hky ht ihx ihy =>
    show Datum.fits _ ty.kind = true
    rw [ht.2]
    rcases hk with hk | hk
    · rw [hk]
      exact Datum.fits_truth _
    · -- Two dates are subtracted, and nothing else is done with them.
      have hd : ¬ IsDateDifference op x y := by
        rintro ⟨rfl, -⟩
        cases hop
      simp only [eval]
      rw [plainValue_eq hx.isNullConst hy.isNullConst hd, hk]
      rw [hky, hk] at ihy
      rw [hk] at ihx
      exact hS.bitwise_fits _ _ _ hop ihx ihy
  | not _ _ ht | logical _ _ _ _ _ ht | comparison _ _ _ ht | nullOnRight _ _ ht
  | nullOnLeft _ _ ht =>
    have ht := ht.2
    simp only [Expr.ty, ht]
    exact Datum.fits_truth _
  | @coalesce x y ty _ _ hky ht ihx ihy =>
    simp only [eval]
    show Datum.fits _ ty.kind = true
    rw [ht.2]
    rw [hky] at ihy
    exact Datum.fits_orElse ihx ihy
  | @convert op x ty _ hop hu _ ih =>
    rw [eval_conversion _ _ hop]
    show Datum.fits _ ty.kind = true
    rw [← Ty.kind_eq_of_underlying hu]
    exact ih
  | @widen op x ty _ hop hu ht ih =>
    rw [eval_conversion _ _ hop]
    show Datum.fits _ ty.kind = true
    rw [(Ty.isOf_int ht).2, ← Ty.kind_of_isSmallInteger hu]
    exact ih
  | @arrayLength x ty _ _ _ ht =>
    simp only [eval]
    show Datum.fits _ ty.kind = true
    rw [ht.2]
    exact Datum.fits_count _
  | @arrayIndex x i ty k _ _ hk _ ht ihx =>
    simp only [eval]
    show Datum.fits _ ty.kind = true
    rw [ht.2]
    rw [hk] at ihx
    exact Datum.fits_elementAt ihx _
  -- The one operator that the query does not leave to the server, so `plainValue_eq` does not
  -- apply.
  | @dateDifference x y ty _ _ hkx hky ht =>
    simp only [eval]
    show Datum.fits _ ty.kind = true
    rw [plainValue_dates hkx hky, ht.2]
    exact Datum.fits_asDays _
  | @newArray items t _ hk _ _ ih =>
    simp only [eval, evalAll_eq_map]
    refine List.all_eq_true.mpr fun x hx => ?_
    obtain ⟨i, hi, rfl⟩ := List.mem_map.mp hx
    rw [← hk i hi]
    exact ih i hi

end Core

end Expr

end QuerySql
