import QuerySql.Json.Access
import QuerySql.Scalar

/-!
# Methods over arrays

Methods over native arrays, and the few of them that JSON arrays have too. A method of any sequence
has the array as its first argument, a method of lists as its receiver. Byte strings are left to the
translator of their own.

* Positions count from zero in a query and from one in SQL; a position that is not found is null in
  SQL and `-1` in a query.
-/

namespace QuerySql.Scalar.Arrays

/-- Whether the operand is a JSON document or a part of one. -/
def isJson (s : Sql) : Bool := s.isTraversal || s.mappedBy Mapping.isJson

/-- Whether the operand is an array or a list. -/
def isArray (s : Sql) : Bool := s.ty.stripNullable.isArrayOrList

/-- The number of elements. -/
def cardinality (b : Builder) (array : Sql) : Attempt Sql :=
  Json.arrayLength b array <|> b.strictCall "cardinality" [array] .int none

/-- The element at an index that counts from zero. -/
def elementAt (b : Builder) (array index : Sql) (ty : Ty) : Attempt Sql :=
  if isJson array then .ofOption (Json.member? b array index ty)
  else pure (b.subscript array (b.oneBased index) true)

/-- Whether the item is an element. -/
def contains (b : Builder) (array item : Sql) : Attempt Sql :=
  pure (b.quantified .any .equal item array)

/-- The first position of an item, counted from zero, and `-1` if there is none:
`COALESCE(array_position(array, item) - 1, -1)`. Redshift has no such function. -/
def indexOf (b : Builder) (useRedshift : Bool) (array item : Sql) : Attempt Sql := do
  if useRedshift then .decline
  else
    let int := some b.intMapping
    let position ← b.call
      { name := "array_position", nullable := true, propagates := [true, false] }
      [array, item] .int int
    let zeroBased ← .ofOption (b.binary? .subtract position (b.const (.int 1) int) int)
    b.coalesce zeroBased (b.const (.int (-1)) int) int

/-- The elements as one text; null elements count as empty. -/
def join (b : Builder) (separator array : Sql) : Attempt Sql :=
  if !isArray array || isJson array then .decline
  else b.call
    { name := "array_to_string", nullable := true, propagates := [true, false, false] }
    [array, separator, b.text ""] .string none

/-- A method of lists on the given list. -/
def onList (b : Builder) (useRedshift : Bool) (m : Method) (array : Sql) (args : List Sql) :
    Attempt Sql :=
  match m.name, args with
  | "get_Item", [index] => elementAt b array index m.returnTy
  | "Contains", [item] => if isJson array then .decline else contains b array item
  | "IndexOf", [item] => if isJson array then .decline else indexOf b useRedshift array item
  | "get_Count", [] => cardinality b array
  | _, _ => .decline

/-- A method of sequences, or of arrays, on the given native array. -/
def onArray (b : Builder) (useRedshift : Bool) (k : Known) (array : Sql) (args : List Sql) :
    Attempt Sql :=
  match k, args with
  | .sequence .contains, [item] => contains b array item
  | .sequence .any, [] => do
    let length ← cardinality b array
    pure (b.greaterThan length (b.int 0))
  | .sequence .sequenceEqual, [other] =>
    if isArray other then pure (b.equal array other) else .decline
  | .sequence .append, [item] =>
    b.call { name := "array_append", nullable := true, propagates := [true, false] }
      [array, item] array.ty array.mapping
  | .sequence .concat, [other] =>
    if isArray other then
      b.call { name := "array_cat", nullable := true, propagates := [false, false] }
        [array, other] array.ty array.mapping
    else .decline
  | .arrayIndexOf, [item] => indexOf b useRedshift array item
  | _, _ => .decline

/-- A method of sequences, or of arrays: counting and subscripts work on JSON as well. -/
def onSequence (b : Builder) (useRedshift : Bool) (m : Method) (array : Sql) (args : List Sql) :
    Attempt Sql :=
  match Known.identify? m, args with
  | none, _ => .decline
  | some (.sequence .count), [] => cardinality b array
  | some (.sequence .elementAt), [index] => elementAt b array index m.returnTy
  | some k, args => if isJson array then .decline else onArray b useRedshift k array args

/-- The array that a call works on, and its other arguments. -/
def operand? (c : ScalarCall) : Option (Sql × List Sql) :=
  match c.receiver, c.args with
  | some list, args => if c.method.owner = .list then some (list, args) else none
  | none, array :: args => some (array, args)
  | none, [] => none

/-- A call over an array, as its owner has it. -/
def onOperand (b : Builder) (useRedshift : Bool) (c : ScalarCall) : Attempt Sql :=
  match operand? c with
  | none => .decline
  | some (array, args) =>
    if !isArray array && !isJson array then .decline
    else if array.mappedBy Mapping.isBytes then .decline
    else if c.method.owner = .list then onList b useRedshift c.method array args
    else onSequence b useRedshift c.method array args

/-- Methods over arrays and lists, and the joining of an array of texts. -/
def translator (b : Builder) (useRedshift : Bool) : ScalarTranslator where
  name := "ArrayTranslator"
  translate c :=
    if Known.identify? c.method = some (.text .join) then
      match c.args with
      | [separator, array] => join b separator array
      | _ => .decline
    else onOperand b useRedshift c

end QuerySql.Scalar.Arrays
