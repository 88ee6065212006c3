import QuerySql.Builder

/-!
# Translators of method calls

A scalar translator knows one family of methods. It is given the receiver of a call, the method and
the arguments, all of them translated already, and takes the call or declines it. Of several
translators the first that takes a call wins.
-/

namespace QuerySql

/-- The call of a method on translated operands. -/
structure ScalarCall where
  receiver : Option Sql
  method : Method
  args : List Sql

/-- A translator of one family of methods. -/
structure ScalarTranslator where
  name : String
  translate : ScalarCall → Attempt Sql

namespace ScalarTranslator

/-- The first of the translators that takes the call, with a report of which one it was. -/
def firstOf : List ScalarTranslator → ScalarCall → Attempt Sql
  | [], _ => .decline
  | t :: ts, c => (t.translate c).reportFound (.tookMethod t.name c.method) <|> firstOf ts c

/-- A translator for the methods of one name, whatever their owner: a call of a function, with the
receiver as its first argument. Nothing is filled in, and the call has no mapping. -/
def named (method function : String) : ScalarTranslator where
  name := "NamedPlugin"
  translate c :=
    if c.method.name = method then
      let args := c.receiver.toList ++ c.args
      pure (.call { name := function, nullable := true, propagates := args.map fun _ => true }
        args c.method.returnTy none)
    else .decline

end ScalarTranslator

end QuerySql
