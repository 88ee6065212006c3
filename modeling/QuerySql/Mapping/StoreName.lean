import QuerySql.Text.Blank
import QuerySql.Ty

/-!
# Names of store types

A store type can be named in many ways: in any letter case, by an alias, with facets in parentheses
(`varchar(20)`, `timestamp(3) with time zone`). `canonical?` leads all of them to one name, which
`canonicalTypes` lists with the type of the values.
-/

namespace QuerySql.StoreName

/-- Other names of store types, and the names they stand for. -/
def aliases : List (String × String) :=
  [("bool", "boolean"),
   ("int2", "smallint"),
   ("int", "integer"),
   ("int4", "integer"),
   ("int8", "bigint"),
   ("float4", "real"),
   ("float8", "double precision"),
   ("decimal", "numeric"),
   ("varchar", "character varying"),
   ("char", "character"),
   ("timestamp", "timestamp without time zone"),
   ("timestamptz", "timestamp with time zone"),
   ("time", "time without time zone")]

/-- The names that are in no need of change, each with the type of the values stored. -/
def canonicalTypes : List (String × Ty) :=
  [("boolean", .bool),
   ("smallint", .short),
   ("integer", .int),
   ("bigint", .long),
   ("real", .float),
   ("double precision", .double),
   ("numeric", .decimal),
   ("money", .decimal),
   ("text", .string),
   ("character varying", .string),
   ("character", .char),
   ("uuid", .guid),
   ("timestamp with time zone", .dateTime),
   ("timestamp without time zone", .dateTime),
   ("date", .dateOnly),
   ("time without time zone", .timeOnly),
   ("interval", .timeSpan),
   ("bytea", .byteArray),
   ("json", .string),
   ("jsonb", .string),
   ("geometry", .geometry),
   ("geography", .geometry),
   ("ltree", .labelTree),
   ("lquery", .labelQuery),
   ("ltxtquery", .labelTextQuery),
   ("inet", .ipAddress),
   ("cidr", .ipAddress),
   ("macaddr", .macAddress),
   ("macaddr8", .macAddress)]

/-- Whether the character opens facets or an array suffix. -/
def isOpening (c : Char) : Bool := c == '(' || c == '['

/-- The text before the facets and the text after them. There is at most one pair of parentheses,
something stands before it, and what follows it opens nothing more. -/
def splitFacets? (s : List Char) : Option (List Char × List Char) :=
  let base := s.takeWhile fun c => !isOpening c
  if base.isEmpty then none
  else
    match s.dropWhile fun c => !isOpening c with
    | [] => some (base, [])
    | '(' :: inside =>
      match inside.dropWhile fun c => c != ')' with
      | [] => none
      | _ :: rest => if rest.any isOpening then none else some (base, rest)
    | _ :: _ => none

/-- The name that an alias stands for, and any other name itself. -/
def resolveAlias (s : List Char) : List Char :=
  match aliases.find? fun p => p.1.toList == s with
  | some p => p.2.toList
  | none => s

/-- Puts the two parts of a name together. The aliases of the two families of time types
say by themselves whether there is a zone; what follows the facets then overrides that. -/
def join (base rest : List Char) : List Char :=
  if !rest.isEmpty && "timestamp".toList.isPrefixOf base then "timestamp".toList ++ rest
  else if !rest.isEmpty && "time".toList.isPrefixOf base then "time".toList ++ rest
  else base ++ rest

/-- The canonical name that a spelling leads to: lower case, without facets and without aliases.
Lower case is that of the ASCII letters, the only ones that canonical names have. -/
def canonical? (s : List Char) : Option (List Char) :=
  (splitFacets? ((Text.trim s).map Char.toLower)).map fun (base, rest) =>
    join (resolveAlias (Text.trim base)) (Text.trimEnd rest)

end QuerySql.StoreName
