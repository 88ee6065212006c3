import QuerySql.Mapping
import QuerySql.Mapping.StoreName

/-!
# Catalogs of type mappings

A catalog answers two questions: how a type is stored by default, and what a store type name stands
for. `Catalog.standard` is PostgreSQL's; `Catalog.withholding` leaves out some of the answers of
another catalog.
-/

namespace QuerySql

/-- The two directions of a type mapping. -/
structure Catalog where
  /-- The default mapping of a type. -/
  ofTy : Ty → Option Mapping
  /-- The mapping that a store type name stands for. -/
  ofStore : String → Option Mapping

/-- The store type of an atom, for those that are stored at all. -/
def Atom.storeType? : Atom → Option String
  | bool => some "boolean"
  | byte | sbyte | short => some "smallint"
  | ushort | int => some "integer"
  | uint | long => some "bigint"
  | ulong | decimal => some "numeric"
  | float => some "real"
  | double => some "double precision"
  | char => some "character(1)"
  | string => some "text"
  | guid => some "uuid"
  | dateTime | dateTimeOffset => some "timestamp with time zone"
  | dateOnly | localDate => some "date"
  | timeOnly => some "time without time zone"
  | timeSpan | period => some "interval"
  | geometry => some "geometry"
  | labelTree => some "ltree"
  | labelQuery => some "lquery"
  | labelTextQuery => some "ltxtquery"
  | ipAddress => some "inet"
  | macAddress => some "macaddr"
  | dateTimeKind | regexOptions | object | anyTuple | dbFunctions => none

namespace Catalog

/-- The mapping of a type that is stored under the given name. -/
def ofTyAs (c : Catalog) (t : Ty) (store : String) : Option Mapping :=
  (c.ofStore store).map (Mapping.withTy t.stripNullable)

/-! ## The standard catalog -/

/-- The default mapping of a type, from which a layer of nullability may have been taken off
already. An enumeration is stored like the type that represents it, a byte string as such, arrays
and lists as arrays, and a document in binary JSON. -/
def standardOfTy (stripped : Bool) : Ty → Option Mapping
  | .nullable t => if stripped then none else standardOfTy true t
  | .atom a => a.storeType?.map fun s => .scalar s (.atom a)
  | .enum n u => (standardOfTy false u).map (Mapping.withTy (.enum n u))
  | .array t =>
    if t = .byte then some (.bytes "bytea" .byteArray)
    else (standardOfTy false t).map fun e => .array (e.store ++ "[]") (.array t) e
  | .list t => (standardOfTy false t).map fun e => .array (e.store ++ "[]") (.list t) e
  | .document n => some (.json "jsonb" (.document n) true)
  | _ => none

/-- The mapping of a store type that is no array: the text keeps the spelling, the canonical name
decides on the rest. -/
def standardOfName (s : List Char) : Option Mapping := do
  let canonical ← StoreName.canonical? s
  let (name, t) ← StoreName.canonicalTypes.find? fun p => p.1.toList == canonical
  let text := String.ofList s
  return match name with
  | "bytea" => .bytes text t
  | "json" => .json text t false
  | "jsonb" => .json text t true
  | _ => .scalar text t

/-- Reads a store type name from its end, so from its reversed text: blanks are passed over, and
each pair of brackets makes an array of what stands before it. -/
def standardOfReversed : List Char → Option Mapping
  | ']' :: '[' :: r =>
    (standardOfReversed r).map fun e =>
      .array (String.ofList (Text.trimStart (']' :: '[' :: r).reverse)) (.array e.ty) e
  | c :: r =>
    if Text.isBlank c then standardOfReversed r
    else standardOfName (Text.trimStart (c :: r).reverse)
  | [] => none

/-- The catalog of PostgreSQL's own types and of the extensions that are supported. -/
def standard : Catalog where
  ofTy := standardOfTy false
  ofStore s := standardOfReversed s.toList.reverse

/-- The catalog that does not answer for some types, nullable or not, and for some store type names
as they are written. What it does answer, the other catalog answers alone. -/
def withholding (tys : List Ty) (stores : List String) (c : Catalog) : Catalog where
  ofTy t := if t.stripNullable ∈ tys then none else c.ofTy t
  ofStore s := if s ∈ stores then none else c.ofStore s

end Catalog

end QuerySql
