import QuerySql.Column
import QuerySql.Expr.Conversion
import QuerySql.Proofs.Semantics.Kind
import QuerySql.Proofs.Semantics.Reference

/-!
# The value of a query expression

An operator that queries and SQL share under one name has one meaning for both, that of the server.
What only queries have is given a meaning here: subscripts count from zero, a comparison with the
literal null asks whether the other operand is null, and the difference of two dates is a period.

* `Expr.eval` is meant for expressions without calls and lambdas.
* `Server.CoreRules`: what is asked of a server for such expressions.
* `Bindings.Agrees`: a query and the SQL tree made of it speak of the same values.
-/

namespace QuerySql

/-- The values that a query is evaluated with. -/
structure Bindings where
  param : Parameter → Datum
  /-- The property of that name, of the entity with the given alias if there is one. -/
  property : Option String → String → Datum

namespace Expr

/-- The value of an operator between two trees of the given values. -/
def plainValue (S : Server) (op : BinaryOp) (left right : Expr) (x y : Datum) : Datum :=
  match op, left.isNullConst != right.isNullConst with
  | .equal, true => .truth (x.isNull && y.isNull)
  | .notEqual, true => .truth !(x.isNull && y.isNull)
  | .subtract, _ =>
    if left.ty.kind = .date ∧ right.ty.kind = .date then (x.daysSince y).asDays
    else S.binary .subtract x y
  | op, _ => S.binary op x y

mutual
/-- The value of the tree. A conversion changes the type and not the value. -/
def eval (S : Server) (bindings : Bindings) : Expr → Datum
  | const v _ => .ofValue v
  | queryParam p => bindings.param p
  | property source name _ => bindings.property source name
  | unary op operand _ =>
    let x := eval S bindings operand
    match op with
    | .not => S.unary .not x
    | .negate => S.unary .negate x
    | .convert | .convertChecked => x
    | .arrayLength => x.count
  | binary op left right _ =>
    let x := eval S bindings left
    let y := eval S bindings right
    match op with
    | .plain op => plainValue S op left right x y
    | .coalesce => x.orElse y
    | .arrayIndex => x.elementAt y
  | newArray _ items _ => .array (evalAll S bindings items)
  | _ => .null

/-- The values of the trees. -/
def evalAll (S : Server) (bindings : Bindings) : List Expr → List Datum
  | [] => []
  | e :: es => eval S bindings e :: evalAll S bindings es
end

variable (S : Server) (bindings : Bindings)

theorem evalAll_eq_map (es : List Expr) : evalAll S bindings es = es.map (eval S bindings) := by
  induction es with
  | nil => rfl
  | cons e es ih => simp only [evalAll, ih, List.map_cons]

theorem eval_conversion {op : ExprUnaryOp} (h : op.isConversion = true) (operand : Expr) (ty : Ty) :
    eval S bindings (unary op operand ty) = eval S bindings operand := by
  cases op with
  | convert | convertChecked => rw [eval]
  | _ => cases h

end Expr

/-- What is asked of a server. Where a subscript of a byte string leads nowhere there is null, and a
subscript is never too large to be counted from one; other than that, each rule is about data of the
kinds that the operation is made for. -/
structure Server.CoreRules (S : Server) : Prop where
  cast_int : ∀ (ty : Ty) (x : Datum), ty.stripNullable = .int → x.fits .integer = true →
    S.cast ty x = x
  isNull : ∀ x, S.unary .isNull x = .truth x.isNull
  isNotNull : ∀ x, S.unary .isNotNull x = .truth !x.isNull
  coalesce : ∀ x y, S.call { name := "COALESCE" } [x, y] = x.orElse y
  cardinality : ∀ x k, x.fits (.array k) = true → S.call { name := "cardinality" } [x] = x.count
  length : ∀ x, x.fits (.array .integer) = true → S.call { name := "length" } [x] = x.count
  getByte : ∀ x i, x.fits (.array .integer) = true → i.fits .integer = true →
    S.call { name := "get_byte" } [x, i] = x.elementAt i
  makeInterval : ∀ n, n.fits .integer = true →
    S.call { name := "make_interval", argumentNames := some [some "days"] } [n] = n.asDays
  daysSince : ∀ x y, x.fits .date = true → y.fits .date = true →
    S.binary .subtract x y = x.daysSince y
  addOne : ∀ i, i.fits .integer = true → S.binary .add i (.int 1) = i.shift 1
  arithmetic_fits : ∀ op k l x y, BinaryOp.computes op k l = true → x.fits k = true →
    y.fits l = true → (S.binary op x y).fits k = true
  bitwise_fits : ∀ op x y, BinaryOp.isBitwise op = true → x.fits .integer = true →
    y.fits .integer = true → (S.binary op x y).fits .integer = true
  negate_fits : ∀ k x, k = .integer ∨ k = .period → x.fits k = true →
    (S.unary .negate x).fits k = true

/-- Parameters have the same values for the query as in SQL, and a column holds the property that is
mapped to it. All of these are of the kinds that their types say. -/
structure Bindings.Agrees (columns : ColumnLookup) (bindings : Bindings) (env : Env) : Prop where
  param : ∀ p, env.param p = bindings.param p
  column : ∀ source name c, columns source name = some c →
    env.column ⟨c.table.or source, c.name⟩ = bindings.property source name
  param_fits : ∀ p, (bindings.param p).fits p.ty.kind = true
  property_fits : ∀ source name c, columns source name = some c →
    (bindings.property source name).fits c.ty.kind = true

/-! ## The reference server -/

namespace Server.Reference

variable {op : BinaryOp}

/-- Arithmetic with a null operand is null. -/
theorem binary_eq (h : op.isArithmetic = true ∨ op.isBitwise = true) (x y : Datum) :
    binary op x y = if x.isNull || y.isNull then .null else onPresent op x y := by
  cases op <;> first | rfl | rcases h with h | h <;> cases h

theorem onInts_fits (h : op.isArithmetic = true ∨ op.isBitwise = true) (m n : Int) :
    (onInts op m n).fits .integer = true := by
  cases op <;> first | rfl | rcases h with h | h <;> cases h

/-- What fits is null, with a null operand, or computed from two operands that are not null. -/
theorem binary_fits {k : Kind} (h : op.isArithmetic = true ∨ op.isBitwise = true) {x y : Datum}
    (hp : x ≠ .null → y ≠ .null → (onPresent op x y).fits k = true) :
    (binary op x y).fits k = true := by
  rw [binary_eq h]
  split
  · exact Datum.fits_null k
  next hn =>
    simp only [Bool.or_eq_true, Datum.isNull_eq_true, not_or] at hn
    exact hp hn.1 hn.2

theorem binary_fits_integer (h : op.isArithmetic = true ∨ op.isBitwise = true) {x y : Datum}
    (hx : x.fits .integer = true) (hy : y.fits .integer = true) :
    (binary op x y).fits .integer = true := by
  refine binary_fits h fun hxn hyn => ?_
  obtain ⟨m, rfl⟩ := (Datum.eq_of_fits_integer hx).resolve_left hxn
  obtain ⟨n, rfl⟩ := (Datum.eq_of_fits_integer hy).resolve_left hyn
  have hop : onPresent op (.int m) (.int n) = onInts op m n := by
    cases op <;> rfl
  rw [hop]
  exact onInts_fits h m n

/-- A date or a period, with a period added to it or taken from it. -/
theorem binary_fits_calendar (h : op = .add ∨ op = .subtract) {k : Kind}
    (hk : k = .date ∨ k = .period) {x y : Datum} (hx : x.fits k = true)
    (hy : y.fits .period = true) : (binary op x y).fits k = true := by
  have hop : op.isArithmetic = true ∨ op.isBitwise = true := by
    rcases h with rfl | rfl
    · exact .inl rfl
    · exact .inl rfl
  refine binary_fits hop fun hxn hyn => ?_
  obtain ⟨n, rfl⟩ := (Datum.eq_of_fits_period hy).resolve_left hyn
  rcases hk with rfl | rfl
  · obtain ⟨m, rfl⟩ := (Datum.eq_of_fits_date hx).resolve_left hxn
    rcases h with rfl | rfl <;> rfl
  · obtain ⟨m, rfl⟩ := (Datum.eq_of_fits_period hx).resolve_left hxn
    rcases h with rfl | rfl <;> rfl

theorem arithmetic_fits {k l : Kind} (h : op.computes k l = true) {x y : Datum}
    (hx : x.fits k = true) (hy : y.fits l = true) : (binary op x y).fits k = true := by
  unfold BinaryOp.computes at h
  split at h
  next => exact binary_fits_integer (.inl h) hx hy
  next =>
    rw [Bool.or_eq_true, decide_eq_true_eq, decide_eq_true_eq] at h
    exact binary_fits_calendar h (.inl rfl) hx hy
  next =>
    rw [Bool.or_eq_true, decide_eq_true_eq, decide_eq_true_eq] at h
    exact binary_fits_calendar h (.inr rfl) hx hy
  next => cases h
  next => cases h
  next => cases binary op x y <;> rfl
  next => cases h

end Server.Reference

/-- The reference server does what is asked of servers. -/
theorem Server.coreRules_reference : Server.reference.CoreRules where
  cast_int _ _ _ _ := rfl
  isNull _ := rfl
  isNotNull _ := rfl
  coalesce _ _ := rfl
  cardinality _ _ _ := rfl
  length _ _ := rfl
  getByte _ _ _ _ := rfl
  makeInterval _ _ := rfl
  daysSince x y hx hy := by
    rcases Datum.eq_of_fits_date hx with rfl | ⟨m, rfl⟩
    · rfl
    · rcases Datum.eq_of_fits_date hy with rfl | ⟨n, rfl⟩ <;> rfl
  addOne i hi := by
    rcases Datum.eq_of_fits_integer hi with rfl | ⟨n, rfl⟩ <;> rfl
  arithmetic_fits _ _ _ _ _ h hx hy := Reference.arithmetic_fits h hx hy
  bitwise_fits _ _ _ h hx hy := Reference.binary_fits_integer (.inr h) hx hy
  negate_fits k x hk hx := by
    rcases hk with rfl | rfl
    · rcases Datum.eq_of_fits_integer hx with rfl | ⟨n, rfl⟩ <;> rfl
    · rcases Datum.eq_of_fits_period hx with rfl | ⟨n, rfl⟩ <;> rfl

end QuerySql
