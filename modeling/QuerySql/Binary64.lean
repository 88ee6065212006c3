/-!
# Binary floating-point numbers

Double-precision numbers as bit patterns: a sign bit, eleven bits of exponent and fifty-two bits of
fraction. A finite number is its sign and an exact magnitude `m · 2 ^ q`, so that statements about
the decimal text of a number are statements about natural numbers.

* `Binary64.view` tells the three classes apart: finite, infinite, not a number.
-/

namespace QuerySql

/-- A double-precision number, by its bits. Two numbers are equal if their bits are. -/
structure Binary64 where
  bits : UInt64
  deriving DecidableEq

namespace Binary64

/-- The magnitude `significand · 2 ^ exponent` of a finite number. -/
structure Magnitude where
  significand : Nat
  exponent : Int
  /-- Whether the next smaller number is only half as far away as the next larger one: true at the
  powers of two at which the exponent steps. -/
  atStep : Bool
  deriving DecidableEq

/-- What a bit pattern stands for. -/
inductive View where
  | finite (negative : Bool) (magnitude : Magnitude)
  | infinite (negative : Bool)
  | nan
  deriving DecidableEq

/-- The number of different fractions, which is two to the power of 52. -/
def fractions : Nat := 0x10000000000000

/-- The exponent bits. -/
def exponentField (x : Binary64) : Nat := x.bits.toNat / fractions % 2048

/-- The fraction bits. -/
def fractionField (x : Binary64) : Nat := x.bits.toNat % fractions

/-- Whether the sign bit is set. -/
def isNegative (x : Binary64) : Bool := decide (0x8000000000000000 ≤ x.bits.toNat)

/-- The magnitude that the exponent and fraction bits give. With exponent bits zero there is no
hidden leading bit. -/
def magnitude (x : Binary64) : Magnitude :=
  if x.exponentField = 0 then ⟨x.fractionField, -1074, false⟩
  else ⟨fractions + x.fractionField, (x.exponentField : Int) - 1075,
    decide (x.fractionField = 0 ∧ 1 < x.exponentField)⟩

/-- The class of the number and, for a finite one, its value. -/
def view (x : Binary64) : View :=
  if x.exponentField = 2047 then
    if x.fractionField = 0 then .infinite x.isNegative else .nan
  else .finite x.isNegative x.magnitude

/-- The number of a natural number with at most fifty-three binary digits. -/
def ofNat (n : Nat) : Binary64 :=
  if n = 0 then ⟨0⟩
  else
    let e := n.log2
    let top := Nat.pow 2 e
    ⟨UInt64.ofNat ((1023 + e) * fractions + (n - top) * fractions / top)⟩

end Binary64

end QuerySql
