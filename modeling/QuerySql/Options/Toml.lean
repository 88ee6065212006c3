import QuerySql.Options
import QuerySql.Toml.Document

/-!
# Options in a file

The options of a provider as a TOML document. All keys are optional, and keys that name no option
are passed over.
-/

namespace QuerySql.Options

/-- A value by its key: nothing if it has another type than the option, and the given one if there
is no such key. -/
def read? {α : Type} (f : Toml.Item → Option α) (absent : α) (key : String) (es : Toml.Entries) :
    Option α :=
  match es.lookup key with
  | none => some absent
  | some item => f item

/-- The options that the entries of a document give. -/
def ofEntries? (es : Toml.Entries) : Option Options := do
  let useRedshift ← read? Toml.Item.boolean? false "use_redshift" es
  let postgresVersion ← read? (fun i => i.string?.map some) none "postgres_version" es
  return ⟨useRedshift, postgresVersion⟩

/-- The options that a document gives. A version in it has to be one that can be read. -/
def ofToml (text : String) : Except ConfigError Options := do
  match (Toml.ofString? text).bind ofEntries? with
  | none => throw .invalidOptions
  | some o =>
    let _ ← o.version
    return o

end QuerySql.Options
