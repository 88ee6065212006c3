import QuerySql.Ty

/-!
# Mapped columns

What is known of the column that a property is mapped to.
-/

namespace QuerySql

/-- The column of a mapped property. -/
structure Column where
  table : Option String := none
  name : String
  ty : Ty
  /-- The store type, where it is not the default one for the type. -/
  store : Option String := none
  nullable : Bool := true
  deriving DecidableEq

/-- Finds the column of a property, of the entity with the given alias if there is one. -/
abbrev ColumnLookup := Option String → String → Option Column

end QuerySql
