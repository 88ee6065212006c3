import QuerySql.Column
import QuerySql.Expr.Conversion
import QuerySql.Scalar
import QuerySql.Strategy

/-!
# The relational strategy

The strategy that any relational database could start from: constants, parameters, columns, plain
operators, and method calls by the scalar translators. Constructors, array literals and lambdas are
declined.

* `x = null` and `x <> null` are null checks; all ways of writing an equation are one equation.
* `Relational.strategy_descends`: it asks only for the children of a node.
-/

namespace QuerySql

/-- What the relational strategy works with. -/
structure Relational where
  builder : Builder
  scalars : List ScalarTranslator
  columns : ColumnLookup

namespace Relational

variable (r : Relational) (recur : Expr → Attempt Sql)

/-- A property, which is the column it is mapped to. Without a table of its own the column is
qualified by the alias that the property is asked of. -/
def property (source : Option String) (name : String) : Attempt Sql :=
  match r.columns source name with
  | none => do
    Attempt.report (.failed (.property name))
    .decline
  | some c =>
    let mapping := match c.store with
      | some store => r.builder.catalog.ofTyAs c.ty store
      | none => r.builder.catalog.ofTy c.ty
    pure (.column ⟨c.table.or source, c.name⟩ c.nullable c.ty mapping)

/-- A unary operator. A conversion that keeps the representation is its operand. -/
def unary (op : ExprUnaryOp) (operand : Expr) (ty : Ty) : Attempt Sql := do
  let x ← recur operand
  match op with
  | .not => if x.ty.isBool then pure (r.builder.not x) else .decline
  | .negate => pure (r.builder.unary .negate x)
  | .convert | .convertChecked =>
    if operand.ty.preservesRepresentation ty then pure x else pure (r.builder.cast x ty none)
  | .arrayLength =>
    r.builder.call { name := "cardinality", nullable := true, propagates := [true] } [x] .int none

/-- The operand that is compared with null, if exactly one of the two is the constant null. -/
def nullCheck? (op : ExprOp) (left right : Expr) : Option (SqlUnaryOp × Expr) :=
  let check := match op with
    | .plain .equal => some SqlUnaryOp.isNull
    | .plain .notEqual => some SqlUnaryOp.isNotNull
    | _ => none
  check.bind fun check =>
    match left.isNullConst, right.isNullConst with
    | true, false => some (check, right)
    | false, true => some (check, left)
    | _, _ => none

/-- An operator on two translated operands. -/
def operator (op : ExprOp) (left right : Sql) : Attempt Sql :=
  match op with
  | .coalesce => r.builder.coalesce left right none
  | .arrayIndex => pure (r.builder.subscript left (r.builder.oneBased right) true)
  | .plain op => .ofOption (r.builder.binary? op left right none)

/-- A binary operator. -/
def binary (op : ExprOp) (left right : Expr) : Attempt Sql :=
  match nullCheck? op left right with
  | some (check, operand) => do
    let x ← recur operand
    pure (r.builder.unary check x)
  | none => do
    let x ← recur left
    let y ← recur right
    r.operator op x y

/-- A call on translated operands. The two methods that test for equality are equations, whatever
types declare them; a scalar translator may take any other call. -/
def callOn (c : ScalarCall) : Attempt Sql :=
  if Known.identify? c.method = some .objectEquals then
    match c.args with
    | [left, right] => pure (r.builder.equal left right)
    | _ => .decline
  else
    match decide (c.method.name = "Equals"), c.receiver, c.args with
    | true, some left, [right] => pure (r.builder.equal left right)
    | _, _, _ => (ScalarTranslator.firstOf r.scalars c).reportDecline (.untakenMethod c.method)

/-- The receiver of a call, if it has one. -/
def receiverOf : Option Expr → Attempt (Option Sql)
  | none => pure none
  | some e => do
    let x ← recur e
    pure (some x)

/-- A method call. -/
def call (method : Method) (receiver : Option Expr) (args : List Expr) : Attempt Sql := do
  let x ← receiverOf recur receiver
  let xs ← Attempt.all recur args
  r.callOn ⟨x, method, xs⟩

/-- The relational strategy. -/
def strategy : Strategy := fun recur e =>
  match e with
  | .const v ty => pure (r.builder.typedConst v ty none)
  | .queryParam p => pure (.param p.name p.ty.admitsNull p.ty (r.builder.catalog.ofTy p.ty))
  | .property source name _ => r.property source name
  | .unary op operand ty => r.unary recur op operand ty
  | .binary op left right _ => r.binary recur op left right
  | .call method receiver args => r.call recur method receiver args
  | .lambdaParam _ | .construct _ _ | .newArray _ _ _ | .lambda _ _ _ => .decline

theorem nullCheck?_operand {op : ExprOp} {left right operand : Expr} {check : SqlUnaryOp}
    (h : nullCheck? op left right = some (check, operand)) : operand = left ∨ operand = right := by
  obtain ⟨c, -, h⟩ := Option.bind_eq_some_iff.mp h
  split at h <;> simp_all

/-- By cases on the node: only its parts are handed back. -/
theorem strategy_descends (r : Relational) : r.strategy.Descends := by
  intro e f g h
  cases e with
  | unary op operand ty => simp only [strategy, unary, h operand (by simp [Expr.nodes])]
  | binary op left right ty =>
    have hl := h left (by simp only [Expr.nodes]; omega)
    have hr := h right (by simp only [Expr.nodes]; omega)
    simp only [strategy, binary]
    split
    next check operand hc =>
      rcases nullCheck?_operand hc with rfl | rfl
      · rw [hl]
      · rw [hr]
    next => rw [hl, hr]
  | call method receiver args =>
    have ha : Attempt.all f args = Attempt.all g args :=
      Attempt.all_congr fun a ha => h a (by
        have := Expr.nodes_le_nodesAll ha
        simp only [Expr.nodes]; omega)
    have hr : receiverOf f receiver = receiverOf g receiver := by
      cases receiver with
      | none => rfl
      | some e => simp only [receiverOf, h e (by simp only [Expr.nodes, Expr.nodesOption]; omega)]
    simp only [strategy, call, ha, hr]
  | _ => rfl

/-- The relational strategy, for trees without constants. -/
def withoutConstants : Strategy := fun recur e =>
  match e with
  | .const _ _ => .decline
  | e => r.strategy recur e

/-- Leaving constants out asks for nothing more. -/
theorem withoutConstants_descends (r : Relational) : r.withoutConstants.Descends := by
  intro e f g h
  cases e with
  | const v ty => rfl
  | _ => exact r.strategy_descends _ f g h

end Relational

end QuerySql
