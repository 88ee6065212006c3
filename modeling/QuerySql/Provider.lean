import QuerySql.NodeBuilder
import QuerySql.Scalar.Registry
import QuerySql.Strategy.Postgres
import QuerySql.Strategy.Relational

/-!
# Providers and translators

A provider holds what translators are put together from: a builder of nodes and the registries of
translators. A translator adds a column lookup and a strategy and translates whole expressions.

* `Provider.assemble` and `Translator.postgres` find every configuration error; a query that
  runs afterwards has none.
* `Translator.translate` gives a SQL tree for a query expression, or none if there is none for it.
-/

namespace QuerySql

/-- What translators are put together from. -/
structure Provider where
  builder : Builder
  scalars : List ScalarTranslator
  aggregates : List AggregateTranslator

namespace Provider

/-- The built-in scalar translators over a builder, with a report of how many there are, and the
added ones after them. -/
def register (b : Builder) (options : Options) (added : List ScalarTranslator) :
    Run ConfigError (List ScalarTranslator) := do
  let builtIn := Scalar.builtIn b options
  Run.report (.registered builtIn.length)
  return builtIn ++ added

/-- A provider over a catalog, with further scalar translators after the built-in ones. -/
def assemble (catalog : Catalog) (options : Options) (added : List ScalarTranslator) :
    Run ConfigError Provider := do
  let builder ← Run.ofExcept (Builder.ofCatalog catalog)
  let scalars ← register builder options added
  let aggregates ← Run.ofExcept (NodeBuilder.postgres builder).spatialAggregates
  return ⟨builder, scalars, aggregates⟩

/-- An aggregate method over a translated set. -/
def translateAggregate (p : Provider) (c : AggregateCall) : Attempt Sql :=
  (AggregateTranslator.firstOf p.aggregates c).reportDecline (.untakenMethod c.method)

/-- The relational part of a strategy. -/
def relational (p : Provider) (columns : ColumnLookup) : Relational :=
  ⟨p.builder, p.scalars, columns⟩

end Provider

/-- A translator of whole expressions. -/
structure Translator where
  provider : Provider
  strategy : Strategy

namespace Translator

/-- The translator for PostgreSQL. -/
def postgres (columns : ColumnLookup) (options : Options) (catalog : Catalog)
    (added : List ScalarTranslator) : Run ConfigError Translator := do
  let _ ← Run.ofExcept options.version
  let provider ← Provider.assemble catalog options added
  Run.report (.ready provider.scalars.length)
  let dialect ← Run.ofExcept (Postgres.ofBuilder provider.builder)
  return ⟨provider, dialect.strategy (provider.relational columns).strategy⟩

/-- The translator that has only the relational strategy. A version that cannot be read is not
looked at. -/
def relational (columns : ColumnLookup) (options : Options) (catalog : Catalog)
    (added : List ScalarTranslator) : Run ConfigError Translator := do
  let provider ← Provider.assemble catalog options added
  return ⟨provider, (provider.relational columns).strategy⟩

/-- The relational translator that declines constants. -/
def withoutConstants (columns : ColumnLookup) (options : Options) (catalog : Catalog)
    (added : List ScalarTranslator) : Run ConfigError Translator := do
  let provider ← Provider.assemble catalog options added
  return ⟨provider, (provider.relational columns).withoutConstants⟩

/-- Translates an expression. -/
def translate (t : Translator) (e : Expr) : Attempt Sql := t.strategy.run e

end Translator

end QuerySql
