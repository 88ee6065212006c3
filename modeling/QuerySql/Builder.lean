import QuerySql.Mapping.Catalog
import QuerySql.Run
import QuerySql.Sql

/-!
# Building SQL nodes

A builder makes the nodes of a SQL tree and settles their mappings as it makes them: a node takes
the mapping that is asked for, else the one its operands agree on, else the catalog's default for
its type; operands without a mapping take it over from each other.

* `Builder.call` and `Builder.aggregate` check that flags, names and separators are as many as the
  arguments need, and are the only operations that can report a fault.
* `Builder.binary?` makes no node where the operator means nothing for the operand types.
* `Builder.oneBased` turns an index counted from zero into one counted from one, and folds
  constants.
-/

namespace QuerySql

/-- Builds nodes over a catalog that knows truth values and integers. -/
structure Builder where
  catalog : Catalog
  boolMapping : Mapping
  intMapping : Mapping

/-- The elements that an aggregate reduces: what is taken of each, and what the query did to the set
of them before. -/
structure ElementSet where
  selector : Option Sql := none
  distinct : Bool := false
  filter : Option Sql := none
  order : List (OrderKey Sql) := []

namespace Builder

/-- The builder over a catalog, if it has mappings for truth values and integers. -/
def ofCatalog (c : Catalog) : Except ConfigError Builder := do
  let some boolMapping := c.ofTy .bool | throw (.missingMapping "boolean")
  let some intMapping := c.ofTy .int | throw (.missingMapping "integer")
  return ⟨c, boolMapping, intMapping⟩

variable (b : Builder)

/-! ## Mappings -/

/-- The mapping that two operands share: the left one's, else the right one's, else the default for
either type. -/
def operandMapping (left right : Sql) : Option Mapping :=
  left.mapping.or <| right.mapping.or <| (b.catalog.ofTy left.ty).or (b.catalog.ofTy right.ty)

/-- The mapping that is asked for, else the default for the type. -/
def mappingOr (mapping : Option Mapping) (ty : Ty) : Option Mapping :=
  mapping.or (b.catalog.ofTy ty)

/-- Gives the default mapping for its type to a tree that has none. -/
def fillDefault (s : Sql) : Sql :=
  if s.mapping.isSome then s else s.fill (b.catalog.ofTy s.ty)

/-! ## Constants and functions -/

/-- A constant of a given type. -/
def typedConst (v : Value) (ty : Ty) (mapping : Option Mapping) : Sql :=
  .const v ty (b.mappingOr mapping ty)

/-- A constant of the type that the mapping is for; null, and a constant without a mapping, is of
its natural type. -/
def const (v : Value) (mapping : Option Mapping) : Sql :=
  let ty := match mapping with
    | some m => if v.isNull then v.ty else m.ty
    | none => v.ty
  b.typedConst v ty mapping

/-- A text. -/
def text (s : String) : Sql := b.const (.string s) none

/-- An integer. -/
def int (n : Int) : Sql := b.const (.int (Int32.ofInt n)) none

/-- A call of a scalar function. -/
def call (fn : Function) (args : List Sql) (ty : Ty) (mapping : Option Mapping) : Attempt Sql :=
  if fn.argumentNames.any (fun names => names.length != args.length) then
    .broken .argumentNames
  else if fn.separators.any (fun seps => seps.length != args.length - 1) then
    .broken .separators
  else if fn.propagates.length != args.length then
    .broken (.propagation fn.name)
  else
    pure (.call fn (args.map b.fillDefault) ty (b.mappingOr mapping ty))

/-- A call that is null if, and only if, one of its arguments may be. -/
def strictCall (name : String) (args : List Sql) (ty : Ty) (mapping : Option Mapping) :
    Attempt Sql :=
  b.call { name, nullable := true, propagates := args.map fun _ => true } args ty mapping

/-- A call of an aggregate function over a set of elements. -/
def aggregate (name : String) (args : List Sql) (source : ElementSet) (nullable : Bool)
    (propagates : List Bool) (ty : Ty) (mapping : Option Mapping) : Attempt Sql :=
  if propagates.length != args.length then
    .broken (.aggregatePropagation name)
  else
    pure (.aggregate ⟨name, source.distinct, nullable, propagates⟩ (args.map b.fillDefault)
      source.filter source.order ty (b.mappingOr mapping ty))

/-- A cast to the store type of a mapping. -/
def cast (operand : Sql) (ty : Ty) (mapping : Option Mapping) : Sql :=
  .cast (b.fillDefault operand) ty (b.mappingOr mapping ty)

/-! ## Operators -/

/-- A binary node. A predicate is a truth value; any other operator keeps the type of its left
operand and the mapping of its operands. -/
def binary (op : BinaryOp) (left right : Sql) (mapping : Option Mapping) : Sql :=
  let shared := b.operandMapping left right
  if op.isPredicate then
    .binary op (left.fill shared) (right.fill shared) .bool (some b.boolMapping)
  else
    .binary op (left.fill shared) (right.fill shared) left.ty (mapping.or shared)

/-- Whether the operator means something for operands of these types. Connectives want truth values,
bitwise operators truth values or integers, and arithmetic neither truth values nor rows. -/
def isMeaningful (op : BinaryOp) (left right : Ty) : Bool :=
  match op with
  | .andAlso | .orElse => left.isBool && right.isBool
  | .and | .or | .exclusiveOr =>
    left.isBool && right.isBool || left.underlying.isInteger && right.underlying.isInteger
  | .add | .subtract | .multiply | .divide | .modulo =>
    !left.isBool && !right.isBool && !left.isTuple && !right.isTuple
  | _ => true

/-- A binary node, if its operator means something for its operands. -/
def binary? (op : BinaryOp) (left right : Sql) (mapping : Option Mapping) : Option Sql :=
  if isMeaningful op left.ty right.ty then some (b.binary op left right mapping) else none

/-- `left = right` -/
def equal (left right : Sql) : Sql := b.binary .equal left right none

/-- `left <> right` -/
def notEqual (left right : Sql) : Sql := b.binary .notEqual left right none

/-- `left > right` -/
def greaterThan (left right : Sql) : Sql := b.binary .greaterThan left right none

/-- `left < right` -/
def lessThan (left right : Sql) : Sql := b.binary .lessThan left right none

/-- `left OR right` -/
def orElse (left right : Sql) : Sql := b.binary .orElse left right none

/-- A unary node. A negated number keeps its type and mapping; all else is a truth value. -/
def unary (op : SqlUnaryOp) (operand : Sql) : Sql :=
  match op with
  | .negate => .unary op operand operand.ty operand.mapping
  | _ => .unary op operand .bool (some b.boolMapping)

/-- `operand IS NULL` -/
def isNull (operand : Sql) : Sql := b.unary .isNull operand

/-- `operand IS NOT NULL` -/
def isNotNull (operand : Sql) : Sql := b.unary .isNotNull operand

/-- `NOT operand` -/
def not (operand : Sql) : Sql := b.unary .not operand

/-- `COALESCE(left, right)`, which is null only if the right operand is. -/
def coalesce (left right : Sql) (mapping : Option Mapping) : Attempt Sql :=
  let shared := mapping.or (b.operandMapping left right)
  let left := left.fill shared
  let right := right.fill shared
  b.call { name := "COALESCE", nullable := right.isNullable, propagates := [false, false] }
    [left, right] left.ty.stripNullable shared

/-- `subject LIKE pattern`, or `ILIKE` where case is ignored. -/
def like (subject pattern : Sql) (escape : Option Sql) (ignoreCase : Bool) : Sql :=
  let shared := b.operandMapping subject pattern
  .like ignoreCase (subject.fill shared) (pattern.fill shared) (escape.map (Sql.fill shared))
    (some b.boolMapping)

/-- `subject ~ pattern` -/
def regexMatch (subject pattern : Sql) (options : Regex.Options) : Sql :=
  let shared := b.operandMapping subject pattern
  .regexMatch options (subject.fill shared) (pattern.fill shared) (some b.boolMapping)

/-- A node of one of PostgreSQL's own operators, a truth value unless another type is given. -/
def postgres (op : PostgresOp) (left right : Sql) (ty : Option Ty) (mapping : Option Mapping) :
    Sql :=
  let shared := b.operandMapping left right
  match ty with
  | some ty => .postgres op (left.fill shared) (right.fill shared) ty (b.mappingOr mapping ty)
  | none => .postgres op (left.fill shared) (right.fill shared) .bool (some b.boolMapping)

/-- One of PostgreSQL's own operators as a predicate. -/
def postgresPredicate (op : PostgresOp) (left right : Sql) : Sql :=
  b.postgres op left right none none

/-! ## Arrays, rows and documents -/

/-- The mapping of an item that is compared with elements of an array: that of the elements, else
its own, else the default for its type. -/
def itemMapping (item array : Sql) : Option Mapping :=
  (array.mapping.bind Mapping.element?).or <| item.mapping.or (b.catalog.ofTy item.ty)

/-- The mapping of an array that an item is compared with: its own, else that of an array of such
items. -/
def arrayMapping (item array : Sql) : Option Mapping :=
  array.mapping.or <| (b.itemMapping item array).bind fun e =>
    b.catalog.ofTyAs array.ty (e.store ++ "[]")

/-- `item op ANY(array)` or `item op ALL(array)`. Item and array settle each other's mappings. -/
def quantified (q : Quantifier) (op : ElementOp) (item array : Sql) : Sql :=
  .quantified q op (item.fill (b.itemMapping item array)) (array.fill (b.arrayMapping item array))
    (some b.boolMapping)

/-- `array[index]`, the index counting from one. -/
def subscript (array index : Sql) (nullable : Bool) : Sql :=
  let ty := (array.ty.stripNullable.element?).getD .object
  let mapping := (array.mapping.bind Mapping.element?).or (b.catalog.ofTy ty)
  .subscript array (index.fill (some b.intMapping)) nullable ty mapping

/-- The index one further. A constant is folded unless it is the largest integer of 64 bits. -/
def oneBased (index : Sql) : Sql :=
  match index.value?.bind Value.toInt? with
  | some n =>
    if n < Int64.maxValue.toInt then
      let v := Value.ofInt (n + 1)
      b.typedConst v v.ty none
    else addOne index
  | none => addOne index
where
  addOne (index : Sql) : Sql :=
    b.binary .add index (b.const (.int 1) (some b.intMapping)) (some b.intMapping)

/-- `ARRAY[…]`; the items take the element mapping of the array's type. -/
def newArray (items : List Sql) (ty : Ty) : Sql :=
  let mapping := b.catalog.ofTy ty
  .newArray (items.map (Sql.fill (mapping.bind Mapping.element?))) ty mapping

/-- `(…)`, a row of values. -/
def row (items : List Sql) (ty : Ty) : Sql := .row (items.map b.fillDefault) ty

/-- A path into a JSON document. -/
def traversal (document : Sql) (path : List Sql) (asText : Bool) (ty : Ty)
    (mapping : Option Mapping) : Sql :=
  .traversal document (path.map b.fillDefault) asText ty (b.mappingOr mapping ty)

/-! ## What the operations make -/

/-- A call whose flags, names and separators fit its arguments is made. -/
theorem call_eq_pure {b : Builder} {fn : Function} {args : List Sql}
    (hn : ∀ names ∈ fn.argumentNames, names.length = args.length)
    (hs : ∀ seps ∈ fn.separators, seps.length = args.length - 1)
    (hp : fn.propagates.length = args.length) (ty : Ty) (mapping : Option Mapping) :
    b.call fn args ty mapping =
      pure (.call fn (args.map b.fillDefault) ty (b.mappingOr mapping ty)) := by
  have h1 : fn.argumentNames.any (fun names => names.length != args.length) = false := by
    cases h : fn.argumentNames <;> simp_all
  have h2 : fn.separators.any (fun seps => seps.length != args.length - 1) = false := by
    cases h : fn.separators <;> simp_all
  simp [call, h1, h2, hp]

@[simp] theorem strictCall_eq_pure (b : Builder) (name : String) (args : List Sql) (ty : Ty)
    (mapping : Option Mapping) :
    b.strictCall name args ty mapping =
      pure (.call { name, nullable := true, propagates := args.map fun _ => true }
        (args.map b.fillDefault) ty (b.mappingOr mapping ty)) :=
  call_eq_pure (by simp) (by simp) (by simp) ty mapping

end Builder

end QuerySql
