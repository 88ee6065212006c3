import QuerySql.Mapping
import QuerySql.Ty.Outline

/-!
# Mappings in print

The outline of a mapping: the store type, the type of the values and the way of storing.
-/

namespace QuerySql.Mapping

open Text

/-- The printed structure of a mapping with the given way of storing. -/
def outlineAs (store : String) (ty : Ty) (kind : Outline) : Outline :=
  .record "TypeMapping" [("store_type", .quoted store), ("clr_type", ty.outline), ("kind", kind)]

/-- The printed structure of a mapping. -/
def outline : Mapping → Outline
  | scalar s t => outlineAs s t (.word "Scalar")
  | bytes s t => outlineAs s t (.word "ByteArray")
  | array s t e => outlineAs s t (.apply "Array" [outline e])
  | json s t b => outlineAs s t (.record "Json" [("jsonb", .bool b)])

end QuerySql.Mapping
