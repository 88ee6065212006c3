import QuerySql.Builder

/-!
# Paths into JSON documents

Access to a member or an element of a JSON document. The first access to a column starts a path and
each later one makes it longer, so a chain of accesses stays one path: the form of the last result,
text or JSON, gives way to that of the new one. A path whose result was cast to another type can be
followed no further.
-/

namespace QuerySql.Json

/-- The types that stay JSON when they are read from a document. -/
def isStructured : Ty → Bool
  | .document _ | .array _ | .list _ | .object => true
  | _ => false

/-- The document and the path so far, if the node is a JSON column or a path into one. -/
def base? : Sql → Option (Sql × List Sql)
  | .column r n t m => if m.any Mapping.isJson then some (.column r n t m, []) else none
  | .traversal document path _ _ _ => some (document, path)
  | _ => none

/-- A path read as the given type: a text as it stands, a structured value as JSON of the document's
own form, and anything else as a text that is cast. -/
def readAs (b : Builder) (document : Sql) (path : List Sql) (ty : Ty) : Sql :=
  let ty := ty.stripNullable
  let asText := Sql.traversal document path true .string (b.catalog.ofTy .string)
  if ty = .string then asText
  else if isStructured ty then .traversal document path false ty document.mapping
  else b.cast asText ty none

/-- The member or element of a document, read as the given type. -/
def member? (b : Builder) (s member : Sql) (ty : Ty) : Option Sql :=
  (base? s).map fun (document, path) => readAs b document (path ++ [b.fillDefault member]) ty

/-- Whether a document is stored in binary form. -/
def isBinary (s : Sql) : Bool := s.mappedBy Mapping.isBinaryJson

/-- The number of elements of a document. A path is taken as JSON, whatever it was read as. -/
def arrayLength (b : Builder) (s : Sql) : Attempt Sql :=
  match s with
  | .column r n t m =>
    if m.any Mapping.isJson then measure (.column r n t m) (.column r n t m) else .decline
  | .traversal document path _ t _ =>
    measure document (.traversal document path false t document.mapping)
  | _ => .decline
where
  measure (document argument : Sql) : Attempt Sql :=
    b.call
      { name := if isBinary document then "jsonb_array_length" else "json_array_length",
        nullable := true, propagates := [true] }
      [argument] .int none

end QuerySql.Json
