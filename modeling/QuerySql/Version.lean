import QuerySql.Run
import QuerySql.Text.Blank

/-!
# Server versions

A version is a major and a minor number of 32 bits. `Version.parse?` reads `major` or `major.minor`
with blanks around it, `Version.text` writes it with both numbers.
-/

namespace QuerySql

/-- The value of a decimal digit. -/
def digitValue? (c : Char) : Option Nat :=
  if '0' ≤ c ∧ c ≤ '9' then some (c.toNat - '0'.toNat) else none

/-- Reads digits on, from the value of those before them. -/
def digitsValue? (start : Nat) : List Char → Option Nat
  | [] => some start
  | c :: s => (digitValue? c).bind fun d => digitsValue? (10 * start + d) s

/-- Reads a number of 32 bits: at least one digit, after a plus sign or not. -/
def number32? (s : List Char) : Option Nat :=
  let digits := match s with
    | '+' :: s => s
    | s => s
  if digits.isEmpty then none
  else (digitsValue? 0 digits).filter fun n => decide (n < UInt32.size)

/-- The version of a server. -/
structure Version where
  major : Nat
  minor : Nat
  deriving DecidableEq

namespace Version

/-- Reads the numbers before and after the first point; without a point the minor number is zero. -/
def parse? (s : List Char) : Option Version :=
  let t := Text.trim s
  match t.dropWhile fun c => c != '.' with
  | [] => (number32? t).map fun major => ⟨major, 0⟩
  | _ :: rest =>
    (number32? (t.takeWhile fun c => c != '.')).bind fun major =>
      (number32? rest).map fun minor => ⟨major, minor⟩

/-- The version that a text names. -/
def ofString (s : String) : Except ConfigError Version :=
  match parse? s.toList with
  | some v => .ok v
  | none => .error (.invalidVersion s)

/-- Both numbers, joined by a point. -/
def text (v : Version) : String := Nat.repr v.major ++ "." ++ Nat.repr v.minor

/-- Whether the version is the given one or a later one. -/
def isAtLeast (v : Version) (major minor : Nat) : Bool :=
  decide (major < v.major ∨ major = v.major ∧ minor ≤ v.minor)

end Version

end QuerySql
