import QuerySql.Mapping.Outline
import QuerySql.Sql
import QuerySql.Value.Outline

/-!
# SQL expressions in print

The outline of a SQL expression, with all that a node carries. The name of the kind of node stands
around the node's own record.
-/

namespace QuerySql.Sql

open Text

/-- Texts that may be absent, one for each place. -/
def namesOutline (ns : Option (List (Option String))) : Outline :=
  .option (ns.map fun ns => .list (ns.map fun n => .option (n.map .quoted)))

/-- One truth value for each place. -/
def flagsOutline (bs : List Bool) : Outline := .list (bs.map .bool)

/-- The type and the mapping, which most records end in. -/
def typeFields (ty : Ty) (mapping : Option Mapping) : List (String × Outline) :=
  [("ty", ty.outline), ("type_mapping", .option (mapping.map Mapping.outline))]

/-- The mapping alone, which ends the records of nodes that are truth values. -/
def mappingField (mapping : Option Mapping) : List (String × Outline) :=
  [("type_mapping", .option (mapping.map Mapping.outline))]

mutual
/-- The printed structure of a SQL expression. -/
def outline : Sql → Outline
  | const v t m =>
    .apply "Constant" [.record "SqlConstant" (("value", v.outline) :: typeFields t m)]
  | param name nullable t m =>
    .apply "Parameter" [.record "SqlParameter"
      (("name", .quoted name) :: typeFields t m ++ [("nullable", .bool nullable)])]
  | column r nullable t m =>
    .apply "Column" [.record "ColumnExpression"
      ([("table", .option (r.table.map .quoted)), ("name", .quoted r.name)] ++ typeFields t m
        ++ [("nullable", .bool nullable)])]
  | call fn args t m =>
    .apply "Function" [.record "SqlFunction"
      ([("name", .quoted fn.name), ("arguments", .list (outlines args)),
        ("argument_names", namesOutline fn.argumentNames),
        ("argument_separators", namesOutline fn.separators), ("nullable", .bool fn.nullable),
        ("arguments_propagate_nullability", flagsOutline fn.propagates),
        ("built_in", .bool fn.builtIn)] ++ typeFields t m)]
  | aggregate fn args filter order t m =>
    .apply "AggregateFunction" [.record "SqlAggregateFunction"
      ([("name", .quoted fn.name), ("arguments", .list (outlines args)),
        ("is_distinct", .bool fn.distinct), ("predicate", optionOutline filter),
        ("orderings", .list (orderOutlines order)), ("nullable", .bool fn.nullable),
        ("arguments_propagate_nullability", flagsOutline fn.propagates)] ++ typeFields t m)]
  | binary op l r t m =>
    .apply "Binary" [.record "SqlBinary"
      ([("operator", .word op.name), ("left", outline l), ("right", outline r)] ++ typeFields t m)]
  | unary op x t m =>
    .apply "Unary" [.record "SqlUnary"
      ([("operator", .word op.name), ("operand", outline x)] ++ typeFields t m)]
  | cast x t m => .apply "Convert" [.record "SqlConvert" (("operand", outline x) :: typeFields t m)]
  | like ignoreCase x p e m =>
    .apply "Like" [.record "LikeExpression"
      ([("match_expression", outline x), ("pattern", outline p), ("escape", optionOutline e),
        ("case_insensitive", .bool ignoreCase)] ++ mappingField m)]
  | quantified q op item array m =>
    let (kind, record) := match q with
      | .any => ("Any", "AnyExpression")
      | .all => ("All", "AllExpression")
    .apply kind [.record record
      ([("item", outline item), ("array", outline array), ("operator_type", .word op.name)]
        ++ mappingField m)]
  | subscript array index nullable t m =>
    .apply "ArrayIndex" [.record "ArrayIndexExpression"
      ([("array", outline array), ("index", outline index), ("nullable", .bool nullable)]
        ++ typeFields t m)]
  | newArray items t m =>
    .apply "NewArray" [.record "NewArrayExpression"
      (("expressions", .list (outlines items)) :: typeFields t m)]
  | row items t =>
    .apply "RowValue" [.record "RowValueExpression"
      [("values", .list (outlines items)), ("ty", t.outline)]]
  | regexMatch o x p m =>
    .apply "RegexMatch" [.record "RegexMatchExpression"
      ([("match_expression", outline x), ("pattern", outline p),
        ("options", .apply "RegexOptions" [.word (Nat.repr o.word.toNat)])] ++ mappingField m)]
  | traversal d path asText t m =>
    .apply "JsonTraversal" [.record "JsonTraversalExpression"
      ([("expression", outline d), ("path", .list (outlines path)), ("returns_text", .bool asText)]
        ++ typeFields t m)]
  | postgres op l r t m =>
    .apply "PgBinary" [.record "PgBinaryExpression"
      ([("operator", .word op.name), ("left", outline l), ("right", outline r)] ++ typeFields t m)]

/-- The printed structure of each expression. -/
def outlines : List Sql → List Outline
  | [] => []
  | s :: ss => outline s :: outlines ss

/-- The printed structure of an expression that may be absent. -/
def optionOutline : Option Sql → Outline
  | none => .option none
  | some s => .option (some (outline s))

/-- The printed structure of a key to order by. -/
def orderOutline : OrderKey Sql → Outline
  | ⟨s, ascending⟩ =>
    .record "Ordering" [("expression", outline s), ("ascending", .bool ascending)]

/-- The printed structure of each key to order by. -/
def orderOutlines : List (OrderKey Sql) → List Outline
  | [] => []
  | k :: ks => orderOutline k :: orderOutlines ks
end

end QuerySql.Sql
