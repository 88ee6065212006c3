import QuerySql.Aggregate.Spatial
import QuerySql.Builder

/-!
# Builders for any database

Nodes can be built for other databases than PostgreSQL. What needs PostgreSQL's own nodes asks for
its builder and refuses any other.
-/

namespace QuerySql

/-- A builder of nodes for some database. -/
inductive NodeBuilder where
  | postgres (b : Builder)
  /-- The builder of another database, which may well be made from PostgreSQL's. -/
  | foreign (b : Builder)

namespace NodeBuilder

/-- PostgreSQL's builder, if this is it. -/
def requirePostgres : NodeBuilder → Except ConfigError Builder
  | postgres b => .ok b
  | foreign _ => .error (.foreignBuilder "PostgreSQL")

/-- The aggregates over geometries, which only PostgreSQL's builder can make. -/
def spatialAggregates (n : NodeBuilder) : Except ConfigError (List AggregateTranslator) := do
  let b ← n.requirePostgres
  return [Aggregate.Spatial.translator b]

end NodeBuilder

end QuerySql
