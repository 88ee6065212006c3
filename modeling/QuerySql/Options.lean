import QuerySql.Version

/-!
# Options of a provider

What a provider is told about the server: whether it is a Redshift server, which lacks some
functions, and which version of PostgreSQL it speaks. Without a version it is taken to be the
latest.
-/

namespace QuerySql

/-- The options of a provider. -/
structure Options where
  useRedshift : Bool := false
  postgresVersion : Option String := none
  deriving DecidableEq

namespace Options

/-- The version, if one is given. -/
def version (o : Options) : Except ConfigError (Option Version) :=
  match o.postgresVersion with
  | none => .ok none
  | some s => (Version.ofString s).map some

/-- Whether the server has this version or a later one. A version that is absent, or that cannot be
read, counts as the latest. -/
def isVersionAtLeast (o : Options) (major minor : Nat) : Bool :=
  match o.version with
  | .ok (some v) => v.isAtLeast major minor
  | _ => true

end Options

end QuerySql
