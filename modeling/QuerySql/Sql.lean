import QuerySql.Mapping
import QuerySql.Sql.Operator
import QuerySql.Value

/-!
# SQL expressions

The tree that a query expression is translated to. Every node has a type and, once it is built, the
mapping its values are stored with, unless nothing is known about them.

* `Sql.isNullable` is false only where a node cannot be null.
* `Sql.fill` gives a mapping to a tree that has none yet and leaves every mapping that is there.
-/

namespace QuerySql

/-- A column, qualified by a table or not. -/
structure ColumnRef where
  table : Option String
  name : String
  deriving DecidableEq

/-- A scalar function as a call names it. -/
structure Function where
  name : String
  /-- The names of the arguments where they are passed by name, one place for each argument. -/
  argumentNames : Option (List (Option String)) := none
  /-- The keywords that stand between the arguments, one place for each argument but the first. -/
  separators : Option (List (Option String)) := none
  /-- Whether a call can be null. -/
  nullable : Bool
  /-- For each argument, whether a null there makes the call null. -/
  propagates : List Bool
  builtIn : Bool := true
  deriving DecidableEq

/-- An aggregate function as a call names it. -/
structure Aggregate where
  name : String
  /-- Whether equal elements count once. -/
  distinct : Bool
  /-- Whether a call can be null. -/
  nullable : Bool
  /-- For each argument, whether a null there makes the call null. -/
  propagates : List Bool
  deriving DecidableEq

/-- A key that elements are put in order by. -/
structure OrderKey (α : Type) where
  expr : α
  ascending : Bool
  deriving DecidableEq

/-- A SQL expression. -/
inductive Sql where
  | const (value : Value) (ty : Ty) (mapping : Option Mapping)
  | param (name : String) (nullable : Bool) (ty : Ty) (mapping : Option Mapping)
  | column (ref : ColumnRef) (nullable : Bool) (ty : Ty) (mapping : Option Mapping)
  | call (fn : Function) (args : List Sql) (ty : Ty) (mapping : Option Mapping)
  /-- A call over the elements that the filter lets through, in the order of the keys. -/
  | aggregate (fn : Aggregate) (args : List Sql) (filter : Option Sql) (order : List (OrderKey Sql))
      (ty : Ty) (mapping : Option Mapping)
  | binary (op : BinaryOp) (left right : Sql) (ty : Ty) (mapping : Option Mapping)
  | unary (op : SqlUnaryOp) (operand : Sql) (ty : Ty) (mapping : Option Mapping)
  | cast (operand : Sql) (ty : Ty) (mapping : Option Mapping)
  /-- Pattern matching; `ignoreCase` makes it `ILIKE`. -/
  | like (ignoreCase : Bool) (subject pattern : Sql) (escape : Option Sql)
      (mapping : Option Mapping)
  /-- An item compared with some or all elements of an array. -/
  | quantified (q : Quantifier) (op : ElementOp) (item array : Sql) (mapping : Option Mapping)
  /-- An element of an array, counted from one. -/
  | subscript (array index : Sql) (nullable : Bool) (ty : Ty) (mapping : Option Mapping)
  | newArray (items : List Sql) (ty : Ty) (mapping : Option Mapping)
  | row (items : List Sql) (ty : Ty)
  | regexMatch (options : Regex.Options) (subject pattern : Sql) (mapping : Option Mapping)
  /-- A path into a JSON document, with the result as text or as JSON. -/
  | traversal (document : Sql) (path : List Sql) (asText : Bool) (ty : Ty)
      (mapping : Option Mapping)
  | postgres (op : PostgresOp) (left right : Sql) (ty : Ty) (mapping : Option Mapping)

namespace Sql

/-- The type of the node. -/
def ty : Sql → Ty
  | const _ t _ => t
  | param _ _ t _ => t
  | column _ _ t _ => t
  | call _ _ t _ => t
  | aggregate _ _ _ _ t _ => t
  | binary _ _ _ t _ => t
  | unary _ _ t _ => t
  | cast _ t _ => t
  | like _ _ _ _ _ | quantified _ _ _ _ _ | regexMatch _ _ _ _ => .bool
  | subscript _ _ _ t _ => t
  | newArray _ t _ => t
  | row _ t => t
  | traversal _ _ _ t _ => t
  | postgres _ _ _ t _ => t

/-- The mapping of the node. A row has none. -/
def mapping : Sql → Option Mapping
  | const _ _ m => m
  | param _ _ _ m => m
  | column _ _ _ m => m
  | call _ _ _ m => m
  | aggregate _ _ _ _ _ m => m
  | binary _ _ _ _ m => m
  | unary _ _ _ m => m
  | cast _ _ m => m
  | like _ _ _ _ m => m
  | quantified _ _ _ _ m => m
  | subscript _ _ _ _ m => m
  | newArray _ _ m => m
  | row _ _ => none
  | regexMatch _ _ _ m => m
  | traversal _ _ _ _ m => m
  | postgres _ _ _ _ m => m

/-- Whether the node can be null. -/
def isNullable : Sql → Bool
  | const v _ _ => v.isNull
  | param _ n _ _ => n
  | column _ n _ _ => n
  | call fn _ _ _ => fn.nullable
  | aggregate fn _ _ _ _ _ => fn.nullable
  | subscript _ _ n _ _ => n
  | unary op operand _ _ => !op.isNullCheck && isNullable operand
  | cast operand _ _ => isNullable operand
  | binary _ left right _ _ => isNullable left || isNullable right
  | postgres _ left right _ _ => isNullable left || isNullable right
  | like _ subject pattern _ _ => isNullable subject || isNullable pattern
  | regexMatch _ subject pattern _ => isNullable subject || isNullable pattern
  | quantified _ _ _ _ _ | traversal _ _ _ _ _ => true
  | newArray _ _ _ | row _ _ => false

/-- The value of a constant. -/
def value? : Sql → Option Value
  | const v _ _ => some v
  | _ => none

/-- Whether the node is a path into a JSON document. -/
def isTraversal : Sql → Bool
  | traversal _ _ _ _ _ => true
  | _ => false

/-- Whether the mapping, if there is one, satisfies the test. -/
def mappedBy (p : Mapping → Bool) (s : Sql) : Bool := s.mapping.any p

/-! ## Filling in mappings -/

mutual
/-- Gives the mapping to a tree that has none. The items of an array take the element mapping, both
operands of an operator that keeps their type take the mapping itself. Nodes that always have their
own mapping, and rows, stay as they are. -/
def fillWith (m : Mapping) : Sql → Sql
  | const v t none => const v t (some m)
  | param s n t none => param s n t (some m)
  | column r n t none => column r n t (some m)
  | call fn args t none => call fn args t (some m)
  | cast operand t none => cast operand t (some m)
  | subscript array index n t none => subscript array index n t (some m)
  | newArray items t none =>
    match m.element? with
    | some e => newArray (fillAllWith e items) t (some m)
    | none => newArray items t (some m)
  | binary op left right t none =>
    if op.isPredicate then binary op left right t none
    else binary op (fillWith m left) (fillWith m right) t (some m)
  | s => s

/-- Gives the mapping to each tree that has none. -/
def fillAllWith (m : Mapping) : List Sql → List Sql
  | [] => []
  | s :: ss => fillWith m s :: fillAllWith m ss
end

/-- Gives a mapping, if there is one, to a tree that has none. -/
def fill (m : Option Mapping) (s : Sql) : Sql :=
  match m with
  | some m => fillWith m s
  | none => s

theorem fillAllWith_eq_map (m : Mapping) (ss : List Sql) :
    fillAllWith m ss = ss.map (fillWith m) := by
  induction ss with
  | nil => rfl
  | cons s ss ih => simp [fillAllWith, ih]

@[simp] theorem fill_none (s : Sql) : fill none s = s := rfl

theorem fillWith_of_mapping {m n : Mapping} {s : Sql} (h : s.mapping = some n) :
    fillWith m s = s := by
  cases s <;> simp_all [mapping, fillWith]

@[simp] theorem ty_fillWith (m : Mapping) (s : Sql) : (fillWith m s).ty = s.ty := by
  fun_cases fillWith m s <;> rfl

@[simp] theorem ty_fill (m : Option Mapping) (s : Sql) : (fill m s).ty = s.ty := by
  cases m <;> simp [fill]

end Sql

end QuerySql
