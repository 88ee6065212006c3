import QuerySql.Method.Known

/-!
# What can go wrong

Two kinds of errors, neither of which is "this cannot be translated". A `Fault` is a call that was
put together wrongly: its parts are not as many as its arguments need. A `ConfigError` means that a
provider was set up with options or parts it cannot work with.
-/

namespace QuerySql

/-- A call that was put together wrongly. -/
inductive Fault where
  /-- A function has not one nullability flag for each argument. -/
  | propagation (function : String)
  /-- An aggregate has not one nullability flag for each argument. -/
  | aggregatePropagation (function : String)
  /-- A function has not one name for each argument. -/
  | argumentNames
  /-- A function has not one separator for each argument but the first. -/
  | separators
  /-- A known method is not closed by as many types as it has open parameters. -/
  | generics (method : Known)
  deriving DecidableEq

/-- What is reported about a fault; of some nothing but their occurrence. -/
def Fault.message : Fault → String
  | propagation f => "nullability vector for " ++ f ++ " does not match its arguments"
  | aggregatePropagation f =>
    "nullability vector for aggregate " ++ f ++ " does not match its arguments"
  | argumentNames | separators => ""
  | generics k => "wrong number of generic arguments for " ++ k.name

/-- A provider that cannot be set up. -/
inductive ConfigError where
  /-- Nodes are built for another database than the expected one. -/
  | foreignBuilder (expected : String)
  /-- The catalog does not know a store type that is needed. -/
  | missingMapping (store : String)
  /-- The text of the options is not well formed, or an option has a value of the wrong type. -/
  | invalidOptions
  /-- The server version is not of the form `major` or `major.minor`. -/
  | invalidVersion (text : String)
  deriving DecidableEq

/-- What is reported about a configuration error. -/
def ConfigError.message : ConfigError → String
  | foreignBuilder expected =>
    "the SQL expression factory must be the " ++ expected ++ " implementation"
  | missingMapping store => "no type mapping for store type '" ++ store ++ "'"
  | invalidOptions => "invalid provider options"
  | invalidVersion text =>
    "invalid PostgreSQL version '" ++ text ++ "', expected major[.minor]"

end QuerySql
