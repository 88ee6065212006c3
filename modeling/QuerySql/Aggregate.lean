import QuerySql.Builder

/-!
# Translators of aggregate methods

An aggregate method reduces a set of elements to one value. Its translator is given the method, the
set, whose parts are translated already, and the arguments.
-/

namespace QuerySql

/-- The call of an aggregate method on a set of elements. -/
structure AggregateCall where
  method : Method
  source : ElementSet
  args : List Sql

/-- A translator of one family of aggregate methods. -/
structure AggregateTranslator where
  name : String
  translate : AggregateCall → Attempt Sql

/-- The first of the translators that takes the call, with a report of which one it was. -/
def AggregateTranslator.firstOf : List AggregateTranslator → AggregateCall → Attempt Sql
  | [], _ => .decline
  | t :: ts, c => (t.translate c).reportFound (.tookMethod t.name c.method) <|> firstOf ts c

end QuerySql
