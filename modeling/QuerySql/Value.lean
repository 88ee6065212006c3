import QuerySql.Binary64
import QuerySql.Calendar
import QuerySql.Regex.Options
import QuerySql.Ty

/-!
# Literal values

The values that constants hold, in query expressions and in SQL alike. A decimal number is kept as
the text it was given as.

* `Value.ty` is the natural type of a value: that of an array follows its first element that is not
  null.
* `Value.toInt?` reads the four integer types as one integer.
-/

namespace QuerySql

/-- A literal value. -/
inductive Value where
  | null
  | bool (b : Bool)
  | byte (n : UInt8)
  | short (n : Int16)
  | int (n : Int32)
  | long (n : Int64)
  | double (x : Binary64)
  | decimal (text : String)
  | char (c : Char)
  | string (s : String)
  | bytes (bs : List UInt8)
  | dateTime (t : Timestamp)
  | date (d : Date)
  | dateTimeKind (k : TimestampKind)
  | regexOptions (o : Regex.Options)
  | array (vs : List Value)

namespace Value

/-- Whether this is the null value. -/
def isNull : Value → Bool
  | null => true
  | _ => false

mutual
/-- The natural type of the value. Null has none of its own and counts as an object. -/
def ty : Value → Ty
  | null => .object
  | bool _ => .bool
  | byte _ => .byte
  | short _ => .short
  | int _ => .int
  | long _ => .long
  | double _ => .double
  | decimal _ => .decimal
  | char _ => .char
  | string _ => .string
  | bytes _ => .byteArray
  | dateTime _ => .dateTime
  | date _ => .dateOnly
  | dateTimeKind _ => .dateTimeKind
  | regexOptions _ => .regexOptions
  | array vs => .array (elementTy vs)

/-- The type of the first value that is not null, and an object if there is none. -/
def elementTy : List Value → Ty
  | [] => .object
  | null :: vs => elementTy vs
  | v :: _ => ty v
end

/-- The value as an integer, for the integer types. -/
def toInt? : Value → Option Int
  | byte n => some n.toNat
  | short n => some n.toInt
  | int n => some n.toInt
  | long n => some n.toInt
  | _ => none

/-- The narrower of the two constants that can hold an integer of 64 bits. -/
def ofInt (n : Int) : Value :=
  if Int32.minValue.toInt ≤ n ∧ n ≤ Int32.maxValue.toInt then int (Int32.ofInt n)
  else long (Int64.ofInt n)

end Value

end QuerySql
