import QuerySql.Text.Outline
import QuerySql.Ty

/-!
# Types in print

The outline of a type, as messages and listings show it: `Array(Nullable(Int))`.
-/

namespace QuerySql.Ty

open Text

mutual
/-- The printed structure of a type. -/
def outline : Ty → Outline
  | atom a => .word a.name
  | nullable t => .apply "Nullable" [outline t]
  | enum name u => .record "Enum" [("name", .quoted name), ("underlying", outline u)]
  | array t => .apply "Array" [outline t]
  | list t => .apply "List" [outline t]
  | hashSet t => .apply "HashSet" [outline t]
  | enumerable t => .apply "Enumerable" [outline t]
  | tuple ts => .apply "Tuple" [.list (outlines ts)]
  | func ts => .apply "Func" [.list (outlines ts)]
  | document name => .apply "Poco" [.quoted name]
  | parameter i => .apply "GenericParameter" [.word (Nat.repr i)]

/-- The printed structure of each type. -/
def outlines : List Ty → List Outline
  | [] => []
  | t :: ts => outline t :: outlines ts
end

end QuerySql.Ty
