import QuerySql.Expr

/-!
# Conversions without effect

Two kinds of conversion leave no trace in SQL: those that keep the stored representation, and those
that a compiler puts around an operand on its own, to the same type or from a small integer type to
`int`.

* `Expr.stripImplicit` takes the second kind off a tree; `Expr.implicitLayers` counts the layers.
-/

namespace QuerySql

namespace Ty

/-- Whether a conversion between the types keeps the stored representation: to an object, to a type
represented in the same way, or from a tuple to the capability of tuples. -/
def preservesRepresentation (source target : Ty) : Bool :=
  decide (target = .object) || decide (source.underlying = target.underlying) ||
    (decide (target = .anyTuple) && source.isTuple)

theorem preservesRepresentation_anyTuple {t : Ty} (h : t.isTuple = true) :
    t.preservesRepresentation anyTuple = true := by
  simp only [preservesRepresentation, h, decide_true, Bool.and_self, Bool.or_true]

/-- The types that a compiler widens to `int` before it computes with them. -/
def isWidenedToInt : Ty → Bool
  | .byte | .sbyte | .char | .short | .ushort => true
  | _ => false

/-- Whether a compiler inserts the conversion on its own: to the representing type, nullable or not,
or from a small integer type or a character to `int`. -/
def isImplicitConversion (source target : Ty) : Bool :=
  decide (source.underlying = target.stripNullable) ||
    (decide (target.stripNullable = .int) && source.underlying.isWidenedToInt)

end Ty

namespace Expr

/-- The tree without the implicit conversions around it. -/
def stripImplicit : Expr → Expr
  | unary op operand ty =>
    if op.isConversion && operand.ty.isImplicitConversion ty then stripImplicit operand
    else unary op operand ty
  | e => e

/-- The number of implicit conversions around the tree. -/
def implicitLayers : Expr → Nat
  | unary op operand ty =>
    if op.isConversion && operand.ty.isImplicitConversion ty then implicitLayers operand + 1 else 0
  | _ => 0

theorem nodes_stripImplicit (e : Expr) : e.stripImplicit.nodes + e.implicitLayers = e.nodes := by
  fun_induction stripImplicit e with
  | case1 op operand ty h ih => simp only [implicitLayers, h, nodes, ← ih, if_true]; omega
  | case2 op operand ty h => simp [implicitLayers, h]
  | case3 e h => cases e <;> simp_all [implicitLayers]

end Expr

end QuerySql
