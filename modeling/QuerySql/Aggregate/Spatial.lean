import QuerySql.Aggregate

/-!
# Aggregates over geometries

The reductions of a set of geometries. What is selected of each element decides whether the result
is stored as a geometry or as a geography.
-/

namespace QuerySql.Aggregate.Spatial

/-- The mapping of a reduction, which follows what is selected. -/
def mapping (b : Builder) (selector : Sql) : Option Mapping :=
  b.catalog.ofTyAs .geometry ((selector.mapping.map Mapping.store).getD "geometry")

/-- A call of an aggregate function over what is selected of each element. -/
def reduce (b : Builder) (function : String) (selector : Sql) (source : ElementSet) : Attempt Sql :=
  b.aggregate function [selector] source true [false] .geometry (mapping b selector)

/-- A reduction. There is no aggregate for the convex hull, which is taken of the collection; the
extent of a set is a box and has to be cast to a geometry. -/
def onSelector (b : Builder) (m : SpatialMethod) (selector : Sql) (source : ElementSet) :
    Attempt Sql :=
  match m with
  | .convexHull => do
    Attempt.report (.applied .convexHull)
    let collected ← reduce b "ST_Collect" selector source
    b.call { name := "ST_ConvexHull", nullable := true, propagates := [true] } [collected]
      .geometry (mapping b selector)
  | .envelope => do
    let extent ← reduce b "ST_Extent" selector source
    pure (b.cast extent .geometry (mapping b selector))
  | .union => reduce b "ST_Union" selector source
  | .combine => reduce b "ST_Collect" selector source

/-- Reductions of a set of geometries. -/
def translator (b : Builder) : AggregateTranslator where
  name := "SpatialAggregateMethodTranslator"
  translate c :=
    match c.source.selector, Known.identify? c.method with
    | some selector, some (.spatial m) => onSelector b m selector c.source
    | _, _ => .decline

end QuerySql.Aggregate.Spatial
