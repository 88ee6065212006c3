/-!
# Operators on two values

The binary operators that query expressions and SQL share under one name.
-/

namespace QuerySql

/-- A binary operator. -/
inductive BinaryOp where
  | add | subtract | multiply | divide | modulo
  | equal | notEqual | lessThan | lessThanOrEqual | greaterThan | greaterThanOrEqual
  | andAlso | orElse
  | and | or | exclusiveOr
  deriving DecidableEq

namespace BinaryOp

/-- All operators, in their fixed order. -/
def all : List BinaryOp :=
  [.add, .subtract, .multiply, .divide, .modulo, .equal, .notEqual, .lessThan, .lessThanOrEqual,
   .greaterThan, .greaterThanOrEqual, .andAlso, .orElse, .and, .or, .exclusiveOr]

/-- The name an operator is written with. -/
def name : BinaryOp → String
  | add => "Add"
  | subtract => "Subtract"
  | multiply => "Multiply"
  | divide => "Divide"
  | modulo => "Modulo"
  | equal => "Equal"
  | notEqual => "NotEqual"
  | lessThan => "LessThan"
  | lessThanOrEqual => "LessThanOrEqual"
  | greaterThan => "GreaterThan"
  | greaterThanOrEqual => "GreaterThanOrEqual"
  | andAlso => "AndAlso"
  | orElse => "OrElse"
  | and => "And"
  | or => "Or"
  | exclusiveOr => "ExclusiveOr"

/-- The operator of that name. -/
def ofName? (s : String) : Option BinaryOp := all.find? fun o => o.name == s

/-- The comparisons. -/
def isComparison : BinaryOp → Bool
  | equal | notEqual | lessThan | lessThanOrEqual | greaterThan | greaterThanOrEqual => true
  | _ => false

/-- The operators whose result is a truth value, whatever the operands are. -/
def isPredicate : BinaryOp → Bool
  | andAlso | orElse => true
  | o => o.isComparison

end BinaryOp

end QuerySql
