import QuerySql.Proofs.Closure.Translation
import QuerySql.Proofs.Expr.Nodes
import QuerySql.Proofs.KnownMethods

/-!
# One step of a run

What the PostgreSQL strategy, in front of the relational one, makes of a node in one step, where it
leaves the node to the strategy behind.

* `Postgres.run_conversion`: a conversion keeps what its operand is translated to, or casts it.
* Only methods of sequences are given lambdas that are rewritten (`Postgres.lambdaCall?_eq_none`).
-/

namespace QuerySql

/-- A known method is recognized however it is closed. -/
theorem Known.identify?_contains (ty : Ty) :
    identify? (close (.sequence .contains) [ty]) = some (.sequence .contains) :=
  identify?_close (.sequence .contains) rfl

/-- A call of a method that has not the name of an equation is left to the scalar translators. -/
theorem Relational.callOn_of_name {r : Relational} {c : ScalarCall}
    (hm : Known.identify? c.method ≠ some .objectEquals) (hname : c.method.name ≠ "Equals") :
    r.callOn c =
      (ScalarTranslator.firstOf r.scalars c).reportDecline (.untakenMethod c.method) := by
  unfold callOn
  rw [if_neg hm, decide_eq_false hname]

namespace Postgres

variable {p : Postgres} {r : Relational}

theorem run_const (v : Value) (ty : Ty) :
    p.run r (.const v ty) = pure (r.builder.typedConst v ty none) := by
  rw [run_eq]
  rfl

/-- There is SQL for every constant. -/
theorem not_fails_const (v : Value) (ty : Ty) : ¬ (p.run r (.const v ty)).Fails := by
  rw [run_const]
  exact Attempt.not_fails_pure _

theorem run_unary {op : ExprUnaryOp} {x : Expr} {ty : Ty}
    (h : p.intercept? (p.run r) (.unary op x ty) = none) :
    p.run r (.unary op x ty) = r.unary (p.run r) op x ty := by
  rw [run_eq]
  simp only [strategy, h]
  rfl

/-- A conversion keeps what its operand is translated to, or casts it. A tuple that is looked at as
any tuple is kept by both strategies. -/
theorem run_conversion {op : ExprUnaryOp} (hop : op.isConversion = true) (x : Expr) (ty : Ty) :
    p.run r (.unary op x ty) =
      (fun s => if x.ty.preservesRepresentation ty then s else r.builder.cast s ty none) <$>
        p.run r x := by
  by_cases hany : op = .convert ∧ ty = .anyTuple ∧ x.ty.isTuple = true
  · obtain ⟨rfl, rfl, htuple⟩ := hany
    rw [run_eq]
    simp only [strategy, intercept?, htuple, Ty.preservesRepresentation_anyTuple, and_self, if_true]
    exact (id_map _).symm
  · have hnone : p.intercept? (p.run r) (.unary op x ty) = none := by
      cases op with
      | convert => exact if_neg fun h => hany ⟨rfl, h⟩
      | convertChecked => rfl
      | not | negate | arrayLength => cases hop
    rw [run_unary hnone, map_eq_pure_bind]
    cases op with
    | convert | convertChecked => exact bind_congr fun s => (apply_ite pure _ _ _).symm
    | not | negate | arrayLength => cases hop

/-- A conversion that changes the representation is a cast; no other leaves a trace. -/
theorem outcome_conversion {op : ExprUnaryOp} (hop : op.isConversion = true) {x : Expr} {s : Sql}
    (hs : (p.run r x).outcome = .ok s) (ty : Ty) :
    (p.run r (.unary op x ty)).outcome =
      .ok (if x.ty.preservesRepresentation ty then s else r.builder.cast s ty none) := by
  rw [run_conversion hop, map_eq_pure_bind, Attempt.outcome_bind_ok hs]
  rfl

theorem run_binary {op : ExprOp} {x y : Expr} {ty : Ty}
    (h : p.intercept? (p.run r) (.binary op x y ty) = none) :
    p.run r (.binary op x y ty) = r.binary (p.run r) op x y := by
  rw [run_eq]
  simp only [strategy, h]
  rfl

/-- A subscript never gets to the relational strategy. -/
theorem run_arrayIndex (x i : Expr) (ty : Ty) :
    p.run r (.binary .arrayIndex x i ty) = p.arrayIndex (p.run r) x i ty := by
  rw [run_eq]
  rfl

/-! ## Calls -/

/-- Only methods of sequences are looked at for lambdas. -/
theorem lambdaCall?_eq_none {method : Method}
    (h : ∀ k, Known.identify? method ≠ some (.sequence k)) (recur : Expr → Attempt Sql)
    (args : List Expr) : p.lambdaCall? recur method args = none := by
  unfold lambdaCall?
  split
  · rfl
  · split
    next hp =>
      obtain ⟨k, hk⟩ := ArrayPattern.identify?_of_ofCall? hp
      exact absurd hk (h k)
    next =>
      rw [Option.map_eq_none_iff]
      cases hp : LabelPattern.ofCall? method args with
      | none => rfl
      | some pattern =>
        obtain ⟨k, hk⟩ := LabelPattern.identify?_of_ofCall? hp
        exact absurd hk (h k)

/-- A membership test is a call without a lambda. -/
theorem lambdaCall?_contains (recur : Expr → Attempt Sql) (ty : Ty) (args : List Expr) :
    p.lambdaCall? recur (Known.close (.sequence .contains) [ty]) args = none := by
  unfold lambdaCall?
  split
  · rfl
  · rfl

theorem run_call {method : Method} {receiver : Option Expr} {args : List Expr}
    (h : p.lambdaCall? (p.run r) method args = none) :
    p.run r (.call method receiver args) = r.call (p.run r) method receiver args := by
  rw [run_eq]
  simp only [strategy, intercept?, h]
  rfl

end Postgres

end QuerySql
