import QuerySql.Scalar

/-!
# Comparison of rows

The lexicographic comparison of two row values of the same width.
-/

namespace QuerySql.Scalar.Rows

/-- The operator of a row comparison. -/
def operator : RowMethod → BinaryOp
  | .greaterThan => .greaterThan
  | .greaterThanOrEqual => .greaterThanOrEqual
  | .lessThan => .lessThan
  | .lessThanOrEqual => .lessThanOrEqual

/-- Comparisons of rows. The first argument is the receiver of database functions. -/
def translator (b : Builder) : ScalarTranslator where
  name := "RowValueTranslator"
  translate c :=
    match Known.identify? c.method, c.args with
    | some (.row m), [_, .row left leftTy, .row right rightTy] =>
      if left.length = right.length then
        .ofOption (b.binary? (operator m) (.row left leftTy) (.row right rightTy) none)
      else .decline
    | _, _ => .decline

end QuerySql.Scalar.Rows
