import QuerySql.Expr
import QuerySql.Run
import QuerySql.Sql

/-!
# Strategies

A strategy translates one node of a query expression and leaves the trees it needs translated to
whoever runs it. So one strategy can stand in front of another, and the outermost one sees every
node. Running a strategy closes the circle.

* `Strategy.Descends`: the strategy asks only for trees with fewer nodes than the one it is given.
* `Strategy.run_eq`: for such a strategy a run is the fixed point that one expects.
-/

namespace QuerySql

/-- Translates a tree, with the help of something that translates other trees. -/
abbrev Strategy := (Expr → Attempt Sql) → Expr → Attempt Sql

namespace Strategy

/-- Translates a tree by the strategy alone. A tree that is not smaller than the one that asks for
it is declined. -/
def run (s : Strategy) (e : Expr) : Attempt Sql :=
  s (fun d => if _h : d.nodes < e.nodes then run s d else .decline) e
termination_by e.nodes

/-- The strategy asks only for trees with fewer nodes. -/
def Descends (s : Strategy) : Prop :=
  ∀ (e : Expr) (f g : Expr → Attempt Sql),
    (∀ d : Expr, d.nodes < e.nodes → f d = g d) → s f e = s g e

/-- The guard never closes for a strategy that descends. -/
theorem run_eq {s : Strategy} (h : s.Descends) (e : Expr) : s.run e = s s.run e := by
  rw [run]
  exact h e _ _ fun d hd => by simp [hd]

end Strategy

end QuerySql
