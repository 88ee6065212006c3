/-!
# Configuration documents

The contents of a TOML document: a tree of tables whose leaves are values. Besides its entries a
table carries how it came about, because that decides what may be added to it later on.

* `Origin`: by a header, as a stage of a longer header, or as a stage of a dotted key.
-/

namespace QuerySql.Toml

/-- How a table came about. -/
inductive Origin where
  /-- By a header of its own. -/
  | declared
  /-- As a stage of the header of another table. -/
  | implied
  /-- As a stage of a dotted key. -/
  | dotted
  deriving DecidableEq

/-- What a key stands for. A number with a fraction or an exponent and a date or time are kept as
they are written. -/
inductive Item where
  | string (text : String)
  | boolean (b : Bool)
  | integer (n : Int)
  | float (text : String)
  | dateTime (text : String)
  | array (items : List Item)
  | inlineTable (entries : List (String × Item))
  | table (origin : Origin) (entries : List (String × Item))
  /-- The tables that headers in double brackets declare, in order. -/
  | tables (elements : List (List (String × Item)))

/-- The entries of a table, in the order in which their keys came up. -/
abbrev Entries := List (String × Item)

namespace Item

/-- The truth value, if the item is one. -/
def boolean? : Item → Option Bool
  | boolean b => some b
  | _ => none

/-- The text, if the item is one. -/
def string? : Item → Option String
  | string s => some s
  | _ => none

end Item

end QuerySql.Toml
