import QuerySql.Method
import QuerySql.Operator
import QuerySql.Value

/-!
# Query expressions

The typed tree of a query predicate or projection. Every node carries its type.

* `Expr.ofBinary` gives a binary node the type that follows from its operator and operands.
* `Expr.nodes` counts the nodes of a tree; every child has fewer than its parent.
-/

namespace QuerySql

/-- A named parameter. Two of them are the same if name and type are. -/
structure Parameter where
  name : String
  ty : Ty
  deriving DecidableEq

/-- What a binary node of a query expression does. -/
inductive ExprOp where
  | plain (op : BinaryOp)
  /-- The left operand unless it is null. -/
  | coalesce
  /-- An element of an array, counted from zero. -/
  | arrayIndex
  deriving DecidableEq

namespace ExprOp

/-- The name an operator is written with. -/
def name : ExprOp → String
  | plain op => op.name
  | coalesce => "Coalesce"
  | arrayIndex => "ArrayIndex"

/-- The operator of that name. -/
def ofName? (s : String) : Option ExprOp :=
  if s = "Coalesce" then some coalesce
  else if s = "ArrayIndex" then some arrayIndex
  else (BinaryOp.ofName? s).map plain

end ExprOp

/-- What a unary node of a query expression does. -/
inductive ExprUnaryOp where
  | not | negate
  | convert
  /-- A conversion that fails where the value does not fit. -/
  | convertChecked
  | arrayLength
  deriving DecidableEq

namespace ExprUnaryOp

/-- All unary operators, in their fixed order. -/
def all : List ExprUnaryOp := [.not, .negate, .convert, .convertChecked, .arrayLength]

/-- The name an operator is written with. -/
def name : ExprUnaryOp → String
  | not => "Not"
  | negate => "Negate"
  | convert => "Convert"
  | convertChecked => "ConvertChecked"
  | arrayLength => "ArrayLength"

/-- The operator of that name. -/
def ofName? (s : String) : Option ExprUnaryOp := all.find? fun o => o.name == s

/-- Conversions, checked or not. -/
def isConversion : ExprUnaryOp → Bool
  | convert | convertChecked => true
  | _ => false

end ExprUnaryOp

/-- A query expression. -/
inductive Expr where
  | const (value : Value) (ty : Ty)
  /-- A parameter of an enclosing lambda. -/
  | lambdaParam (p : Parameter)
  /-- A parameter of the whole query. -/
  | queryParam (p : Parameter)
  /-- A mapped property, of the entity with the alias `source` if one is given. -/
  | property (source : Option String) (name : String) (ty : Ty)
  | call (method : Method) (receiver : Option Expr) (args : List Expr)
  | binary (op : ExprOp) (left right : Expr) (ty : Ty)
  | unary (op : ExprUnaryOp) (operand : Expr) (ty : Ty)
  | construct (constructor : Constructor) (args : List Expr)
  /-- An array of the given items, or of the given sizes if it is `sized`. -/
  | newArray (sized : Bool) (items : List Expr) (ty : Ty)
  | lambda (params : List Parameter) (body : Expr) (ty : Ty)

namespace Expr

/-- The type of the node. -/
def ty : Expr → Ty
  | const _ t => t
  | lambdaParam p | queryParam p => p.ty
  | property _ _ t => t
  | call m _ _ => m.returnTy
  | binary _ _ _ t => t
  | unary _ _ t => t
  | construct c _ => c.ty
  | newArray _ _ t => t
  | lambda _ _ t => t

/-! ## Building nodes -/

/-- A constant of the natural type of its value. -/
def ofValue (v : Value) : Expr := const v v.ty

/-- The receiver that database functions are called on. -/
def dbFunctions : Expr := const .null .dbFunctions

/-- The type of a binary node: a truth value for a predicate, the element for a subscript, a period
between two dates, the right operand's type for a default value and else the left operand's. -/
def binaryTy (op : ExprOp) (left right : Ty) : Ty :=
  match op with
  | .plain .subtract =>
    if left.stripNullable = .localDate ∧ right.stripNullable = .localDate then .period else left
  | .plain op => if op.isPredicate then .bool else left
  | .coalesce => right
  | .arrayIndex => left.element?.getD .object

/-- A binary node of the type that follows from the operands. -/
def ofBinary (op : ExprOp) (left right : Expr) : Expr :=
  binary op left right (binaryTy op left.ty right.ty)

/-- The number of elements of an array. -/
def arrayLength (operand : Expr) : Expr := unary .arrayLength operand .int

/-- An array of the given items. -/
def arrayOf (element : Ty) (items : List Expr) : Expr := newArray false items (.array element)

/-- A lambda, of the function type that its parameters and its body have. -/
def lambdaOf (params : List Parameter) (body : Expr) : Expr :=
  lambda params body (.func (params.map Parameter.ty ++ [body.ty]))

/-- Whether the node is just this lambda parameter. -/
def isParameter (p : Parameter) : Expr → Bool
  | lambdaParam q => decide (q = p)
  | _ => false

/-- Whether the node is the constant null, of any type. -/
def isNullConst : Expr → Bool
  | const v _ => v.isNull
  | _ => false

/-! ## Size -/

mutual
/-- The number of nodes of the tree. -/
def nodes : Expr → Nat
  | const _ _ | lambdaParam _ | queryParam _ | property _ _ _ => 1
  | call _ receiver args => nodesOption receiver + nodesAll args + 1
  | binary _ left right _ => nodes left + nodes right + 1
  | unary _ operand _ => nodes operand + 1
  | construct _ args => nodesAll args + 1
  | newArray _ items _ => nodesAll items + 1
  | lambda _ body _ => nodes body + 1

/-- The number of nodes of a tree that may be absent. -/
def nodesOption : Option Expr → Nat
  | none => 0
  | some e => nodes e

/-- The number of nodes of all trees of a list. -/
def nodesAll : List Expr → Nat
  | [] => 0
  | e :: es => nodes e + nodesAll es
end

theorem nodes_pos (e : Expr) : 0 < e.nodes := by
  cases e <;> simp [nodes]

theorem nodes_le_nodesAll {e : Expr} {es : List Expr} (h : e ∈ es) : e.nodes ≤ nodesAll es := by
  induction es with
  | nil => cases h
  | cons d es ih =>
    simp only [nodesAll]
    rcases List.mem_cons.mp h with rfl | h
    · omega
    · have := ih h
      omega

end Expr

end QuerySql
