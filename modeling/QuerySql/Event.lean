import QuerySql.Method.Known
import QuerySql.Sql.Operator
import QuerySql.Ty.Outline

/-!
# Reports

What translating a query leaves behind besides its outcome: which translator took a call, which
shortcut was found for a shape, what could not be translated and why. The reports are data;
`Event.render` writes one as a line. No outcome depends on them.
-/

namespace QuerySql

/-- A shape that SQL has a shorter way of its own for. -/
inductive Shortcut where
  /-- A pattern match with each element of an array. -/
  | patterns (ignoreCase : Bool) (q : Quantifier)
  /-- A membership test of each element of an array. -/
  | membership (q : Quantifier)
  /-- An equation with some element of an array. -/
  | equation
  /-- A label path that matches some query of an array. -/
  | labelQueries
  /-- A method of each label path of an array. -/
  | labelPaths (method : Known) (op : PostgresOp)
  /-- The convex hull of a set. -/
  | convexHull
  deriving DecidableEq

/-- The shape and what it becomes, as they are reported. -/
def Shortcut.message : Shortcut → String
  | patterns ignoreCase q =>
    (if ignoreCase then "ILike" else "Like") ++ " over a pattern array to " ++
      (match q with | .any => "ANY" | .all => "ALL")
  | membership .any => "Any(Contains) to &&"
  | membership .all => "All(Contains) to <@"
  | equation => "Any(x => x == v) to Contains(v)"
  | labelQueries => "Any(MatchesLQuery) to ?"
  | labelPaths method op => method.name ++ " over ltree[] to " ++ op.symbol
  | convexHull => "ConvexHull over a set to ST_ConvexHull(ST_Collect(...))"

/-- Something that cannot be translated. -/
inductive Untranslatable where
  | property (name : String)
  | itemOf (ty : Ty)
  | variableRegexOptions
  | regexOptions (word : UInt32)
  deriving DecidableEq

/-- What cannot be translated, as it is reported. -/
def Untranslatable.message : Untranslatable → String
  | property name => "unknown property " ++ name
  | itemOf ty => "an element of " ++ ty.outline.line
  | variableRegexOptions => "Regex.IsMatch with non-constant options"
  | regexOptions word =>
    "Regex.IsMatch with options 0x" ++ String.ofList (Text.hexDigits word.toNat)

/-- A report. -/
inductive Event where
  /-- The built-in translators of calls are in place. -/
  | registered (count : Nat)
  /-- A translator of whole expressions is ready. -/
  | ready (translators : Nat)
  /-- A translator took a call of the method. -/
  | took (translator : String) (owner : Method.Owner) (method : String)
  /-- No translator took a call of the method. -/
  | untaken (owner : Method.Owner) (method : String) (parameters : Nat)
  | applied (shortcut : Shortcut)
  | failed (what : Untranslatable)
  deriving DecidableEq

/-- The owner as reports show it. -/
def Method.Owner.outline (o : Method.Owner) : Text.Outline :=
  match o with
  | .other name => .apply "Other" [.quoted name]
  | o => .word o.name

namespace Event

/-- A call of the method was taken. -/
def tookMethod (translator : String) (m : Method) : Event := took translator m.owner m.name

/-- A call of the method was not taken. -/
def untakenMethod (m : Method) : Event := untaken m.owner m.name m.signature.parameters.length

/-- How much detail a report adds. -/
def level : Event → String
  | took _ _ _ | applied _ => "TRACE"
  | _ => "DEBUG"

/-- The part of the program that a report comes from. -/
def target : Event → String
  | ready _ => "pg_expr::translate::postgres"
  | _ => "pg_expr::query"

/-- The report itself. -/
def message : Event → String
  | registered n => "registered " ++ Nat.repr n ++ " method call translators"
  | ready n => "built PostgreSQL translator with " ++ Nat.repr n ++ " method translators"
  | took t o m => t ++ " translated " ++ o.outline.line ++ "." ++ m
  | untaken o m n => "no translator for " ++ o.outline.line ++ "." ++ m ++ "/" ++ Nat.repr n
  | applied shortcut => "rewrote " ++ shortcut.message
  | failed what => "could not translate " ++ what.message

/-- The report as a line: level, target and message. -/
def render (e : Event) : String := e.level ++ " " ++ e.target ++ " " ++ e.message

end Event

end QuerySql
