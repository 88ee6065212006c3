import QuerySql.Scalar

/-!
# Network and hardware addresses

Functions and operators over addresses. The first argument of each method is the receiver of
database functions.
-/

namespace QuerySql.Scalar.Networks

/-- How a method is written. -/
inductive Form where
  | predicate (op : PostgresOp)
  | function (name : String)
  deriving DecidableEq

/-- The form of each method. -/
def form : NetworkMethod → Form
  | .containedBy => .predicate .networkContainedBy
  | .containedByOrEqual => .predicate .networkContainedByOrEqual
  | .contains => .predicate .networkContains
  | .containsOrEqual => .predicate .networkContainsOrEqual
  | .containsOrContainedBy => .predicate .networkContainsOrContainedBy
  | .abbreviate => .function "abbrev"
  | .broadcast => .function "broadcast"
  | .family => .function "family"
  | .host => .function "host"
  | .hostMask => .function "hostmask"
  | .maskLength => .function "masklen"
  | .netmask => .function "netmask"
  | .network => .function "network"
  | .setMaskLength => .function "set_masklen"
  | .text => .function "text"
  | .sameFamily => .function "inet_same_family"
  | .merge => .function "inet_merge"
  | .truncate => .function "trunc"
  | .set7BitMac8 => .function "macaddr8_set7bit"

/-- The mapping of a result: that of the address it is computed from, if it is such an address. -/
def resultMapping (args : List Sql) (ty : Ty) : Option Mapping :=
  (args.head?.filter fun a => decide (a.ty = ty)).bind Sql.mapping

/-- Functions and operators over addresses. -/
def translator (b : Builder) : ScalarTranslator where
  name := "NetworkTranslator"
  translate c :=
    match Known.identify? c.method with
    | some (.network m) =>
      match form m, c.args with
      | .predicate op, [_, left, right] => pure (b.postgresPredicate op left right)
      | .function name, _ :: args =>
        b.strictCall name args c.method.returnTy (resultMapping args c.method.returnTy)
      | _, _ => .decline
    | _ => .decline

end QuerySql.Scalar.Networks
