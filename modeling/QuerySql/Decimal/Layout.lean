import QuerySql.Decimal.Shortest

/-!
# Writing a decimal out

A layout decides how a decimal is written: which magnitudes stand in positional notation, what a
whole number ends with there, and how an exponent is introduced.
-/

namespace QuerySql.Decimal

/-- How a decimal is written. -/
structure Layout where
  /-- The least power of ten whose numbers are written positionally. -/
  positionalFrom : Int
  /-- The power of ten at which positional notation ends. -/
  positionalBelow : Int
  /-- Follows a whole number in positional notation. -/
  wholeSuffix : String
  /-- Introduces the exponent. -/
  exponentMark : String

/-- The power of ten of the leading digit. -/
def Scaled.leadingPower (s : Scaled) : Int := s.exponent + (Nat.repr s.digits).length - 1

/-- `n` zeros. -/
def zeros (n : Nat) : List Char := List.replicate n '0'

/-- All digits in place, with zeros out to the point where the digits do not reach it. -/
def Layout.positional (l : Layout) (s : Scaled) : String :=
  let digits := (Nat.repr s.digits).toList
  if 0 ≤ s.exponent then String.ofList (digits ++ zeros s.exponent.toNat) ++ l.wholeSuffix
  else
    let places := (-s.exponent).toNat
    let padded := zeros (places + 1 - digits.length) ++ digits
    let whole := padded.length - places
    String.ofList (padded.take whole ++ '.' :: padded.drop whole)

/-- One digit before the point, and the power of ten after the mark. -/
def Layout.scientific (l : Layout) (s : Scaled) : String :=
  let power := l.exponentMark ++ Int.repr s.leadingPower
  match (Nat.repr s.digits).toList with
  | [] => power
  | [d] => String.ofList [d] ++ power
  | d :: rest => String.ofList (d :: '.' :: rest) ++ power

/-- Writes a decimal positionally or with an exponent, as the layout has it. Zero is positional. -/
def Layout.write (l : Layout) (s : Scaled) : String :=
  if s.digits = 0 ∨ l.positionalFrom ≤ s.leadingPower ∧ s.leadingPower < l.positionalBelow then
    l.positional s
  else l.scientific s

end QuerySql.Decimal
