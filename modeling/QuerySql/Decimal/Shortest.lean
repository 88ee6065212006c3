import QuerySql.Binary64

/-!
# The shortest decimal that reads back

Every finite number owns an interval of reals: those that round to it. `shortest` finds the
coarsest decimal grid `… · 10 ^ e` with a point in that interval and takes the point that is nearest
to the number; it has the fewest digits among all decimals that read back as the number. A number
halfway between two points takes the upper one.

All arithmetic is exact: a magnitude and a grid point are compared after both are scaled to natural
numbers.
-/

namespace QuerySql.Decimal

/-- A decimal `digits · 10 ^ exponent`. -/
structure Scaled where
  digits : Nat
  exponent : Int
  deriving DecidableEq

/-- A magnitude in quarters of its last place, and the bounds of the reals that round to it. -/
structure Interval where
  low : Nat
  value : Nat
  high : Nat
  /-- Whether the bounds themselves round to the magnitude. -/
  closed : Bool
  /-- The power of two that a quarter of the last place is. -/
  unit : Int

/-- The interval of a positive magnitude. A tie rounds to the even significand, so an even one owns
both of its bounds. -/
def Interval.ofMagnitude (m : Binary64.Magnitude) : Interval where
  low := 4 * m.significand - (if m.atStep then 1 else 2)
  value := 4 * m.significand
  high := 4 * m.significand + 2
  closed := decide (m.significand % 2 = 0)
  unit := m.exponent - 2

/-- `2 ^ unit` and `10 ^ e`, scaled by a common factor to natural numbers. -/
def commonScale (unit e : Int) : Nat × Nat :=
  (Nat.pow 2 unit.toNat * Nat.pow 10 (-e).toNat, Nat.pow 10 e.toNat * Nat.pow 2 (-unit).toNat)

/-- Whether the scaled point `p` lies in the interval, the quarter being scaled to `quarter`. -/
def Interval.contains (i : Interval) (quarter p : Nat) : Bool :=
  if i.closed then decide (i.low * quarter ≤ p ∧ p ≤ i.high * quarter)
  else decide (i.low * quarter < p ∧ p < i.high * quarter)

/-- The point of the grid `10 ^ e` that is nearest to the value and lies in the interval. -/
def Interval.onGrid? (i : Interval) (e : Int) : Option Nat :=
  let (quarter, step) := commonScale i.unit e
  let value := i.value * quarter
  let below := value / step
  let above := below + 1
  match i.contains quarter (below * step), i.contains quarter (above * step) with
  | true, true => if value - below * step < above * step - value then some below else some above
  | true, false => some below
  | false, true => some above
  | false, false => none

/-- Tries `n` grids, the grid `10 ^ e` first and each next one ten times finer. -/
def Interval.coarsest (i : Interval) : (n : Nat) → (e : Int) → Option Scaled
  | 0, _ => none
  | n + 1, e =>
    match i.onGrid? e with
    | some d => some ⟨d, e⟩
    | none => i.coarsest n (e - 1)

/-- The shortest decimal that reads back as the magnitude, and the nearest to it of those. The
grids from `10 ^ 309` down to `10 ^ -342` suffice for every magnitude. -/
def shortest (m : Binary64.Magnitude) : Scaled :=
  if m.significand = 0 then ⟨0, 0⟩
  else ((Interval.ofMagnitude m).coarsest 652 309).getD ⟨0, 0⟩

end QuerySql.Decimal
