import QuerySql.Aggregate
import QuerySql.Aggregate.Spatial
import QuerySql.Binary64
import QuerySql.Builder
import QuerySql.Calendar
import QuerySql.Column
import QuerySql.Command
import QuerySql.Decimal.Layout
import QuerySql.Decimal.Shortest
import QuerySql.Event
import QuerySql.Expr
import QuerySql.Expr.Conversion
import QuerySql.Fault
import QuerySql.Json.Access
import QuerySql.Main
import QuerySql.Mapping
import QuerySql.Mapping.Catalog
import QuerySql.Mapping.Literal
import QuerySql.Mapping.Outline
import QuerySql.Mapping.StoreName
import QuerySql.Method
import QuerySql.Method.Known
import QuerySql.NodeBuilder
import QuerySql.Operator
import QuerySql.Options
import QuerySql.Options.Toml
import QuerySql.Provider
import QuerySql.Regex.Options
import QuerySql.Run
import QuerySql.Scalar
import QuerySql.Scalar.Arrays
import QuerySql.Scalar.Bytes
import QuerySql.Scalar.Casts
import QuerySql.Scalar.Composite
import QuerySql.Scalar.Dates
import QuerySql.Scalar.Documents
import QuerySql.Scalar.LabelTrees
import QuerySql.Scalar.Networks
import QuerySql.Scalar.Numbers
import QuerySql.Scalar.Patterns
import QuerySql.Scalar.Registry
import QuerySql.Scalar.Rows
import QuerySql.Scalar.Similarity
import QuerySql.Scalar.Texts
import QuerySql.Sql
import QuerySql.Sql.Operator
import QuerySql.Sql.Outline
import QuerySql.Strategy
import QuerySql.Strategy.Pattern
import QuerySql.Strategy.Postgres
import QuerySql.Strategy.Relational
import QuerySql.Text.Blank
import QuerySql.Text.Invisible
import QuerySql.Text.Outline
import QuerySql.Text.Quoted
import QuerySql.Text.Scan
import QuerySql.Toml
import QuerySql.Toml.Document
import QuerySql.Toml.Number
import QuerySql.Toml.Quoted
import QuerySql.Toml.Table
import QuerySql.Ty
import QuerySql.Ty.Outline
import QuerySql.Value
import QuerySql.Value.Outline
import QuerySql.Version
import QuerySql.Proofs.Affixes
import QuerySql.Proofs.Agreement
import QuerySql.Proofs.ArrayAccess
import QuerySql.Proofs.ArrayCalls
import QuerySql.Proofs.Attempt
import QuerySql.Proofs.Calendar
import QuerySql.Proofs.Catalog
import QuerySql.Proofs.Closure
import QuerySql.Proofs.Closure.Scalars
import QuerySql.Proofs.Closure.Translation
import QuerySql.Proofs.Composite
import QuerySql.Proofs.CompositeAffixes
import QuerySql.Proofs.DocumentOperands
import QuerySql.Proofs.DocumentPaths
import QuerySql.Proofs.Equality
import QuerySql.Proofs.Expr.Nodes
import QuerySql.Proofs.Expr.Recase
import QuerySql.Proofs.Extension
import QuerySql.Proofs.Families
import QuerySql.Proofs.GluedNames
import QuerySql.Proofs.Holes
import QuerySql.Proofs.ImplicitConversions
import QuerySql.Proofs.KnownMethods
import QuerySql.Proofs.Lambdas
import QuerySql.Proofs.LetterCase
import QuerySql.Proofs.Literals
import QuerySql.Proofs.Meaning
import QuerySql.Proofs.Membership
import QuerySql.Proofs.NativeArrays
import QuerySql.Proofs.Nullability
import QuerySql.Proofs.OneBased
import QuerySql.Proofs.Parts
import QuerySql.Proofs.PatternArrays
import QuerySql.Proofs.Positions
import QuerySql.Proofs.Quantified
import QuerySql.Proofs.RegexModes
import QuerySql.Proofs.Renaming
import QuerySql.Proofs.Requests
import QuerySql.Proofs.Retouch
import QuerySql.Proofs.Retouch.Scalars
import QuerySql.Proofs.Retouch.Translation
import QuerySql.Proofs.Semantics.Patterns
import QuerySql.Proofs.Semantics.Texts
import QuerySql.Proofs.ServerOptions
import QuerySql.Proofs.Shape
import QuerySql.Proofs.Spellings
import QuerySql.Proofs.Steps
import QuerySql.Proofs.StoreNames
import QuerySql.Proofs.Termination
import QuerySql.Proofs.Typing
import QuerySql.Proofs.VersionTexts
import QuerySql.Proofs.ZeroBased
import QuerySql.Proofs.KnownMethods
