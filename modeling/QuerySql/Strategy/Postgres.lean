import QuerySql.Expr.Conversion
import QuerySql.Json.Access
import QuerySql.Strategy
import QuerySql.Strategy.Pattern

/-!
# The PostgreSQL strategy

The strategy that stands in front of another one and takes the nodes that PostgreSQL has a way of
its own for: lengths and subscripts of arrays, conditions on the elements of an array, array
literals and tuples, the constructors of dates, and the difference of two dates. Everything else is
left to the strategy behind it.
-/

namespace QuerySql

/-- What the PostgreSQL strategy works with. -/
structure Postgres where
  builder : Builder
  /-- How a timestamp in no particular zone is stored. -/
  timestamp : Mapping
  /-- How a timestamp of a known zone is stored. -/
  timestampWithZone : Mapping

namespace Postgres

/-- The strategy over a builder whose catalog knows both kinds of timestamps. -/
def ofBuilder (b : Builder) : Except ConfigError Postgres := do
  let require (store : String) : Except ConfigError Mapping :=
    match b.catalog.ofStore store with
    | some m => .ok m
    | none => .error (.missingMapping store)
  let timestamp ← require "timestamp without time zone"
  let timestampWithZone ← require "timestamp with time zone"
  return ⟨b, timestamp, timestampWithZone⟩

variable (p : Postgres) (recur : Expr → Attempt Sql)

/-- Whether a byte string is stored as such, or nothing is known about how it is stored. -/
def isBytes (ty : Ty) (s : Sql) : Bool :=
  ty.stripNullable.isByteArray && s.mapping.all Mapping.isBytes

/-! ## Arrays -/

/-- The length of an array: of a byte string, a JSON array or a native array. -/
def arrayLength (operand : Expr) : Attempt Sql := do
  let x ← recur operand
  if isBytes operand.ty x then p.builder.strictCall "length" [x] .int none
  else Json.arrayLength p.builder x <|> p.builder.strictCall "cardinality" [x] .int none

/-- An element of an array: of a byte string, a JSON array or a native array, of which only the
last counts from one. -/
def arrayIndex (left right : Expr) (ty : Ty) : Attempt Sql := do
  let (array, index) ← Attempt.both (recur left.stripImplicit) (recur right.stripImplicit)
  if isBytes left.ty array then p.builder.strictCall "get_byte" [array, index] .byte none
  else
    match Json.member? p.builder array index ty with
    | some x => pure x
    | none => pure (p.builder.subscript array (p.builder.oneBased index) true)

/-- An array literal. -/
def newArray (items : List Expr) (ty : Ty) : Attempt Sql := do
  let xs ← (Attempt.all recur items).reportDecline (.failed (.itemOf ty))
  pure (p.builder.newArray xs ty)

/-! ## Conditions on the elements of an array -/

/-- Two operands in the given order, both of which have to be translated first. -/
def operands (left right : Expr) : Attempt (Sql × Sql) := do
  let x ← recur left
  let y ← recur right
  pure (x, y)

/-- Whether some or all elements of an array meet a condition. An equation with some element is a
membership test, which the strategy behind knows how to translate. -/
def arrayPattern (q : Quantifier) (array : Expr) (param : Parameter) (pattern : ArrayPattern) :
    Attempt Sql :=
  match pattern with
  | .likeElement ignoreCase subject => do
    Attempt.report (.applied (.patterns ignoreCase q))
    let (x, y) ← operands recur subject array
    pure (p.builder.quantified q (if ignoreCase then .ilike else .like) x y)
  | .memberOf other => do
    Attempt.report (.applied (.membership q))
    let (x, y) ← operands recur array other
    pure (p.builder.postgresPredicate (if q = .all then .containedBy else .overlaps) x y)
  | .equalTo other => do
    Attempt.report (.applied .equation)
    match Known.instantiate? (.sequence .contains) [param.ty] with
    | some contains => recur (.call contains none [array, other])
    | none => .broken (.generics (.sequence .contains))

/-- What one operator says about an array of label paths. -/
def labelPattern (pattern : LabelPattern) : Attempt Sql :=
  match pattern with
  | .anyQuery path queries => do
    Attempt.report (.applied .labelQueries)
    let (x, y) ← Attempt.both (recur path) (recur queries)
    pure (p.builder.postgresPredicate .labelMatchesAny x y)
  | .pathsBy method op first paths other => do
    Attempt.report (.applied (.labelPaths method op))
    let (x, y) ← Attempt.both (recur paths) (recur other)
    pure (p.builder.postgres op x y (if first then some .labelTree else none) none)

/-- A method of an array that is given a lambda of a known shape. -/
def lambdaCall? (method : Method) (args : List Expr) : Option (Attempt Sql) :=
  match args.head?.any fun a => a.ty.stripNullable.isArrayOrList with
  | false => none
  | true =>
    match ArrayPattern.ofCall? method args with
    | some (q, array, param, pattern) => some (p.arrayPattern recur q array param pattern)
    | none => (LabelPattern.ofCall? method args).map (p.labelPattern recur)

/-! ## Dates -/

/-- The interval between two dates, as a number of days. -/
def dateDifference (left right : Expr) : Attempt Sql := do
  let (x, y) ← Attempt.both (recur left) (recur right)
  let days ← .ofOption (p.builder.binary? .subtract x y (some p.builder.intMapping))
  p.builder.call
    { name := "make_interval", argumentNames := some [some "days"], nullable := true,
      propagates := [true] }
    [days] .period none

/-- A function that makes a value of its translated arguments. -/
def make (function : String) (args : List Expr) (ty : Ty) (mapping : Option Mapping) :
    Attempt Sql := do
  let xs ← Attempt.all recur args
  p.builder.strictCall function xs ty mapping

/-- The six parts of a timestamp, with the seconds as the fractional number that the functions for
timestamps take. -/
def timestampParts? : List Expr → Option (List Expr)
  | year :: month :: day :: hour :: minute :: second :: _ =>
    some [year, month, day, hour, minute, .unary .convert second .double]
  | _ => none

/-- The kind of timestamp that is asked for, if it is constant. -/
def timestampKind? (args : List Expr) : Option TimestampKind :=
  match (args[6]? : Option Expr) with
  | some (.const (.dateTimeKind k) _) => some k
  | _ => none

/-- A timestamp of the given kind and parts. One in universal time knows its zone. -/
def timestampOfKind (kind : TimestampKind) (parts : List Expr) : Attempt Sql :=
  match kind with
  | .utc =>
    p.make recur "make_timestamptz" (parts ++ [.ofValue (.string "UTC")]) .dateTime
      (some p.timestampWithZone)
  | _ => p.make recur "make_timestamp" parts .dateTime (some p.timestamp)

/-- A constructor of a tuple, a date or a timestamp. -/
def construct (c : Constructor) (args : List Expr) : Attempt Sql :=
  if c.ty.isTuple then do
    let xs ← Attempt.all recur args
    pure (p.builder.row xs c.ty)
  else if c = .dateTimeOfDay then p.make recur "make_date" args .dateTime (some p.timestamp)
  else if c = .dateOfDay then p.make recur "make_date" args .dateOnly none
  else if c = .dateTimeOfSecond then
    match timestampParts? args with
    | some parts => p.make recur "make_timestamp" parts .dateTime (some p.timestamp)
    | none => .decline
  else if c = .dateTimeOfKind then
    match timestampKind? args, timestampParts? args with
    | some kind, some parts => p.timestampOfKind recur kind parts
    | _, _ => .decline
  else .decline

/-! ## The strategy -/

/-- Whether a tree is a date of the calendar, nullable or not. -/
def isLocalDate (e : Expr) : Bool := decide (e.ty.stripNullable = .localDate)

/-- The nodes that are not left to the strategy behind, whatever comes of them. -/
def intercept? (e : Expr) : Option (Attempt Sql) :=
  match e with
  | .unary .arrayLength operand _ => some (p.arrayLength recur operand)
  | .unary .convert operand ty =>
    if ty = .anyTuple ∧ operand.ty.isTuple then some (recur operand) else none
  | .call method _ args => p.lambdaCall? recur method args
  | .binary (.plain .subtract) left right _ =>
    if isLocalDate left.stripImplicit && isLocalDate right.stripImplicit then
      some (p.dateDifference recur left.stripImplicit right.stripImplicit)
    else none
  | .binary .arrayIndex left right ty => some (p.arrayIndex recur left right ty)
  | _ => none

/-- The PostgreSQL strategy in front of another one, which is asked first about constructors and
array literals. -/
def strategy (behind : Strategy) : Strategy := fun recur e =>
  match e with
  | .newArray sized items ty =>
    behind recur e <|> if sized then .decline else p.newArray recur items ty
  | .construct c args => behind recur e <|> p.construct recur c args
  | e =>
    match p.intercept? recur e with
    | some x => x
    | none => behind recur e

end Postgres

end QuerySql
