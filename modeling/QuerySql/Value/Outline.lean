import QuerySql.Mapping.Literal
import QuerySql.Text.Outline

/-!
# Values in print

The outline of a literal value, as listings of SQL expressions show it: `Bytes([0, 255])`.
-/

namespace QuerySql

open Text

/-- The number in print: as a literal, but without quotes around what is no finite number. -/
def Binary64.word (x : Binary64) : String :=
  match x.view with
  | .nan => "NaN"
  | .infinite negative => if negative then "-inf" else "inf"
  | .finite _ _ => x.literal

namespace Value

mutual
/-- The printed structure of a value. -/
def outline : Value → Outline
  | null => .word "Null"
  | bool b => .apply "Bool" [.bool b]
  | byte n => .apply "Byte" [.word (Nat.repr n.toNat)]
  | short n => .apply "Short" [.word (Int.repr n.toInt)]
  | int n => .apply "Int" [.word (Int.repr n.toInt)]
  | long n => .apply "Long" [.word (Int.repr n.toInt)]
  | double x => .apply "Double" [.word x.word]
  | decimal text => .apply "Decimal" [.quoted text]
  | char c => .apply "Char" [.word (escapedLetter c)]
  | string s => .apply "String" [.quoted s]
  | bytes bs => .apply "Bytes" [.list (bs.map fun b => .word (Nat.repr b.toNat))]
  | dateTime t => .apply "DateTime" [.word t.text]
  | date d => .apply "Date" [.word d.text]
  | dateTimeKind k => .apply "DateTimeKind" [.word k.name]
  | regexOptions o => .apply "RegexOptions" [.apply "RegexOptions" [.word (Nat.repr o.word.toNat)]]
  | array vs => .apply "Array" [.list (outlines vs)]

/-- The printed structure of each value. -/
def outlines : List Value → List Outline
  | [] => []
  | v :: vs => outline v :: outlines vs
end

end Value

end QuerySql
