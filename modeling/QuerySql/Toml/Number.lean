import QuerySql.Calendar
import QuerySql.Toml
import QuerySql.Toml.Quoted

/-!
# Numbers, dates and times of documents

An integer is written in base 2, 8, 10 or 16 and has to fit into 64 bits with a sign. A float is
kept as it is written, but must not be above the largest finite double. A date is one of the
calendar, and a time may be in a leap second.

* Single underscores may stand between digits, and a decimal number has no zeros in front.
-/

namespace QuerySql.Toml

open Text (Scanner)
open Text.Scanner

/-- A decimal digit. -/
def isDigit (c : Char) : Bool := decide ('0' ≤ c ∧ c ≤ '9')

/-- One or more digits, with single underscores between them. -/
def digits (p : Char → Bool) : Scanner (List Char) := do
  let c ← one p
  let cs ← repeated (one p <|> (do let _ ← char '_'; one p))
  return c :: cs

/-- A decimal number without zeros in front. -/
def decimalDigits : Scanner (List Char) := do
  let c ← one isDigit
  if c = '0' then return [c]
  let cs ← repeated (one isDigit <|> (do let _ ← char '_'; one isDigit))
  return c :: cs

/-- A sign; gives whether it is a minus. -/
def sign : Scanner Bool :=
  (fun _ => true) <$> char '-' <|> (fun _ => false) <$> char '+' <|> pure false

/-- Numbers of 64 bits with a sign. -/
def fits64 (n : Int) : Bool := decide (Int64.minValue.toInt ≤ n ∧ n ≤ Int64.maxValue.toInt)

/-- Digits in a base, after its mark. -/
def inBase (mark : String) (base : Nat) : Scanner Int := do
  exactly mark
  let ds ← digits fun c =>
    match hexValue? c with
    | some d => decide (d < base)
    | none => false
  return numeral base ds

/-- A decimal number with a sign or without. -/
def decimal : Scanner Int := do
  let negative ← sign
  let n := numeral 10 (← decimalDigits)
  return if negative then -n else n

/-- An integer. -/
def integer : Scanner Int := do
  let n ← inBase "0x" 16 <|> inBase "0o" 8 <|> inBase "0b" 2 <|> decimal
  if fits64 n then return n else failure

/-- The exponent of a float. -/
def exponent : Scanner Int := do
  let _ ← one fun c => c == 'e' || c == 'E'
  let negative ← sign
  let n := numeral 10 (← digits isDigit)
  return if negative then -n else n

/-- The bound from which on a magnitude rounds past the largest finite double. -/
def overflowBound : Nat := Nat.pow 2 1024 - Nat.pow 2 970

/-- Whether `m · 10 ^ e` reaches the bound. The number of digits settles it for all but a few
exponents. -/
def overflows (m : Nat) (e : Int) : Bool :=
  let size : Int := (Nat.repr m).length + e
  if m = 0 ∨ size < 300 then false
  else if 320 < size then true
  else decide (overflowBound * Nat.pow 10 (-e).toNat ≤ m * Nat.pow 10 e.toNat)

/-- A float with a fraction, an exponent or both. -/
def finite : Scanner Unit := do
  let negative ← sign
  let whole ← decimalDigits
  let fraction ← maybe (do let _ ← char '.'; digits isDigit)
  let power ← maybe exponent
  if fraction.isNone ∧ power.isNone then failure
  let places := fraction.getD []
  let m := numeral 10 (whole ++ places)
  if !negative && overflows m (power.getD 0 - places.length) then failure else return ()

/-- A float: a finite one, an infinity, or no number at all. -/
def float : Scanner Unit :=
  finite <|> (do
    let _ ← sign
    exactly "inf" <|> exactly "nan")

/-- Two digits, for a number below a bound. -/
def twoDigits (bound : Nat) : Scanner Nat := do
  let n := numeral 10 (← times isDigit 2)
  if n < bound then return n else failure

/-- A day of the calendar. -/
def date : Scanner Unit := do
  let year ← times isDigit 4
  let _ ← char '-'
  let month ← twoDigits 100
  let _ ← char '-'
  let day ← twoDigits 100
  if (Date.ofParts? (numeral 10 year) month day).isSome then return () else failure

/-- A time of day. -/
def time : Scanner Unit := do
  let _ ← twoDigits 24
  let _ ← char ':'
  let _ ← twoDigits 60
  let _ ← char ':'
  let _ ← twoDigits 61
  let _ ← maybe (do let _ ← char '.'; some_ isDigit)

/-- How far a time is from universal time. -/
def offset : Scanner Unit :=
  (fun _ => ()) <$> one (fun c => c == 'Z' || c == 'z') <|> (do
    let _ ← one fun c => c == '+' || c == '-'
    let _ ← twoDigits 24
    let _ ← char ':'
    let _ ← twoDigits 60)

/-- A date, a time, or both, and then with an offset or without. -/
def dateTime : Scanner Unit :=
  (do
    date
    let _ ← maybe (do
      let _ ← one fun c => c == 'T' || c == 't' || c == ' '
      time
      maybe offset))
  <|> time

/-- A date, a time or a number. -/
def number : Scanner Item :=
  .dateTime <$> lexeme dateTime <|> .float <$> lexeme float <|> .integer <$> integer

end QuerySql.Toml
