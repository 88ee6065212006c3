import QuerySql.Decimal.Layout
import QuerySql.Mapping
import QuerySql.Text.Quoted
import QuerySql.Value

/-!
# Literals

The text of a constant in SQL, which depends on the value and on how the constant is stored.

* Texts are quoted, with quotes doubled; byte strings are written in hexadecimal.
* A timestamp is written with or without a zone, as the store type has it.
* An array is written element by element and cast to its store type; amounts of money are cast too.
* The null value is `NULL` under every mapping.
-/

namespace QuerySql

/-- Numbers are written positionally from a ten-thousandth up to below ten quadrillions, a whole
number with one zero after the point; other numbers have an exponent without a plus sign. -/
def Binary64.layout : Decimal.Layout where
  positionalFrom := -4
  positionalBelow := 16
  wholeSuffix := ".0"
  exponentMark := "e"

/-- The number as a literal: the shortest decimal that reads back. What is no number, and the
infinities, are written as quoted names. -/
def Binary64.literal (x : Binary64) : String :=
  match x.view with
  | .nan => "'NaN'"
  | .infinite negative => if negative then "'-Infinity'" else "'Infinity'"
  | .finite negative m =>
    (if negative then "-" else "") ++ Binary64.layout.write (Decimal.shortest m)

/-- The upper-case hexadecimal digit of a number below sixteen. -/
def hexDigit (n : Nat) : Char := (Nat.digitChar n).toUpper

/-- The bytes as a quoted hexadecimal text. -/
def bytesLiteral (bs : List UInt8) : String :=
  "'\\x" ++ String.ofList (bs.flatMap fun b => [hexDigit (b.toNat / 16), hexDigit (b.toNat % 16)])
    ++ "'"

namespace Mapping

/-- Whether a timestamp under this mapping is a point in time rather than a local one. Only the
store type as it was written decides. -/
def isZoned (m : Mapping) : Bool :=
  "timestamp with time zone".toList.isPrefixOf m.store.toList

/-- The literal of a value that is neither null nor an array, before any cast. -/
def plainLiteral (m : Mapping) : Value → String
  | .null => "NULL"
  | .bool b => if b then "TRUE" else "FALSE"
  | .byte n => Nat.repr n.toNat
  | .short n => Int.repr n.toInt
  | .int n => Int.repr n.toInt
  | .long n => Int.repr n.toInt
  | .double x => x.literal
  | .decimal text => text
  | .char c => Text.Quoted.literal (String.singleton c)
  | .string s => Text.Quoted.literal s
  | .bytes bs => bytesLiteral bs
  | .dateTime t =>
    if m.isZoned then "TIMESTAMPTZ '" ++ t.text ++ "Z'" else "TIMESTAMP '" ++ t.text ++ "'"
  | .date d => "DATE '" ++ d.text ++ "'"
  | .dateTimeKind k => Nat.repr k.code
  | .regexOptions o => Nat.repr o.word.toNat
  | .array _ => ""

/-- The literal with the cast that amounts of money need. -/
def castMoney (m : Mapping) (s : String) : String :=
  if m.store = "money" then s ++ "::money" else s

theorem castMoney_eq_append (m : Mapping) (s : String) :
    m.castMoney s = s ++ if m.store = "money" then "::money" else "" := by
  by_cases h : m.store = "money" <;> simp [castMoney, h]

mutual
/-- The literal of a value stored by the mapping. -/
def literal (m : Mapping) : Value → String
  | .null => "NULL"
  | .array vs =>
    m.castMoney ("ARRAY[" ++ ",".intercalate (elementLiterals m.element? vs) ++ "]::" ++ m.store)
  | v => m.castMoney (m.plainLiteral v)

/-- The literals of the elements of an array. Without a mapping of their own each is written as its
natural type. -/
def elementLiterals (element : Option Mapping) : List Value → List String
  | [] => []
  | v :: vs => (element.getD (scalar "" v.ty)).literal v :: elementLiterals element vs
end

/-- Casts apart, a value that is neither null nor an array is written the plain way. -/
theorem literal_eq_castMoney {m : Mapping} {v : Value} (hnull : v ≠ .null)
    (harray : ∀ vs, v ≠ .array vs) : m.literal v = m.castMoney (m.plainLiteral v) := by
  cases v with
  | null => exact absurd rfl hnull
  | array vs => exact absurd rfl (harray vs)
  | _ => rfl

end Mapping

end QuerySql
