import QuerySql.Value

/-!
# Data

What expressions evaluate to, in a query as well as in SQL. Null is a datum like any other. Integers
of every width are one kind of data, and so are arrays, lists and byte strings, which are sequences
of their elements: bytes can be stored as a byte string or as an array, and a query does not tell.

* `Datum.ofValue` is the datum that a literal stands for.
* `Value.ofInt_toInt`, `Value.ofInt_toInt_of_wide`: an integer is held by the narrowest constant.
* `Datum.elementAt` counts from zero; outside of the array there is null.
-/

namespace QuerySql

namespace Value

/-- An integer of 32 bits is held by the narrower constant. -/
theorem ofInt_toInt (j : Int32) : ofInt j.toInt = int j := by
  unfold ofInt
  rw [if_pos ⟨j.minValue_le_toInt, j.toInt_le⟩, Int32.ofInt_toInt]

/-- What is too large or too small for 32 bits is held by the wider constant. -/
theorem ofInt_toInt_of_wide {k : Int64} (h : ∀ j : Int32, j.toInt ≠ k.toInt) :
    ofInt k.toInt = long k := by
  unfold ofInt
  rw [if_neg, Int64.ofInt_toInt]
  rw [Int32.toInt_minValue, Int32.toInt_maxValue]
  rintro ⟨hl, hu⟩
  exact h _ (Int32.toInt_ofInt_of_le hl (by omega))

theorem exists_toInt_eq {n : Int} (hl : Int64.minValue.toInt ≤ n) (hu : n ≤ Int64.maxValue.toInt) :
    ∃ k : Int64, k.toInt = n := by
  rw [Int64.toInt_minValue] at hl
  rw [Int64.toInt_maxValue] at hu
  exact ⟨Int64.ofInt n, Int64.toInt_ofInt_of_le hl (by omega)⟩

/-- An integer constant has at most 64 bits. -/
theorem bounds_of_toInt? {v : Value} {n : Int} (h : v.toInt? = some n) :
    Int64.minValue.toInt ≤ n ∧ n ≤ Int64.maxValue.toInt := by
  rw [Int64.toInt_minValue, Int64.toInt_maxValue]
  cases v <;> cases h
  case byte m =>
    have := m.toNat_lt
    omega
  case short m =>
    have := m.le_toInt
    have := m.toInt_lt
    omega
  case int m =>
    have := m.le_toInt
    have := m.toInt_lt
    omega
  case long m =>
    have := m.le_toInt
    have := m.toInt_lt
    omega

end Value

namespace Date

/-- The days of the year before the month. -/
def daysBefore (year : Int) (month : Nat) : Nat :=
  (List.range month).foldl (fun days m => days + daysInMonth year m) 0

/-- The number of the day, counted from the first day of year zero. -/
def number (d : Date) : Int :=
  365 * d.year + (d.year + 3) / 4 - (d.year + 99) / 100 + (d.year + 399) / 400 +
    daysBefore d.year d.month + d.day - 1

example : (Date.ofParts? 2024 3 1).map number = (Date.ofParts? 2024 2 28).map (number · + 2) := by
  decide +kernel

end Date

/-- What an expression evaluates to. -/
inductive Datum where
  | null
  | truth (b : Bool)
  | int (n : Int)
  | text (s : String)
  /-- A day of the calendar, by its number. -/
  | date (number : Int)
  /-- A period of so many days. -/
  | period (days : Int)
  | array (items : List Datum)
  | row (components : List Datum)
  /-- Any other value, by a literal for it. -/
  | other (v : Value)

namespace Datum

/-- Whether this is null. -/
def isNull : Datum → Bool
  | null => true
  | _ => false

/-- Whether this is the truth value that holds. -/
def isTrue : Datum → Bool
  | truth b => b
  | _ => false

mutual
/-- The datum that a literal stands for. -/
def ofValue : Value → Datum
  | .null => null
  | .bool b => truth b
  | .byte n => int n.toNat
  | .short n => int n.toInt
  | .int n => int n.toInt
  | .long n => int n.toInt
  | .string s => text s
  | .bytes bs => array (bs.map fun n => int n.toNat)
  | .date d => date d.number
  | .array vs => array (ofValues vs)
  | v => other v

/-- The data that literals stand for. -/
def ofValues : List Value → List Datum
  | [] => []
  | v :: vs => ofValue v :: ofValues vs
end

/-- The first datum unless it is null. -/
def orElse : Datum → Datum → Datum
  | null, y => y
  | x, _ => x

/-- The number of elements of an array. -/
def count : Datum → Datum
  | array items => int items.length
  | _ => null

/-- The element at an index that counts from zero. -/
def elementAt : Datum → Datum → Datum
  | array items, int (.ofNat i) => items[i]?.getD null
  | _, _ => null

/-- The integer so much larger. -/
def shift (k : Int) : Datum → Datum
  | int n => int (n + k)
  | _ => null

/-- The number of days from the second date to the first. -/
def daysSince : Datum → Datum → Datum
  | date m, date n => int (m - n)
  | _, _ => null

/-- A number of days as a period. -/
def asDays : Datum → Datum
  | int n => period n
  | _ => null

/-- Whether a component of the row is null. -/
def lacksComponent : Datum → Bool
  | row components => components.any isNull
  | _ => false

@[simp] theorem isNull_eq_true {x : Datum} : x.isNull = true ↔ x = null := by
  cases x <;> simp [isNull]

theorem isTrue_eq_true {x : Datum} : x.isTrue = true ↔ x = truth true := by
  cases x with
  | truth b => rw [isTrue, truth.injEq]
  | _ => exact ⟨nofun, nofun⟩

theorem isNull_ofValue (v : Value) : (ofValue v).isNull = v.isNull := by
  cases v <;> rfl

/-- Constants of all widths stand for the integer that they hold. -/
theorem ofValue_int {v : Value} {n : Int} (h : v.toInt? = some n) : ofValue v = int n := by
  cases v <;> cases h <;> rfl

/-- An integer of 64 bits is the value of the constant that is made for it. -/
theorem ofValue_ofInt {n : Int} (hl : Int64.minValue.toInt ≤ n) (hu : n ≤ Int64.maxValue.toInt) :
    ofValue (Value.ofInt n) = int n := by
  by_cases h : ∃ j : Int32, j.toInt = n
  · obtain ⟨j, rfl⟩ := h
    rw [Value.ofInt_toInt]
    rfl
  · obtain ⟨k, rfl⟩ := Value.exists_toInt_eq hl hu
    rw [Value.ofInt_toInt_of_wide fun j hj => h ⟨j, hj⟩]
    rfl

theorem orElse_eq_null {x y : Datum} : x.orElse y = null ↔ x = null ∧ y = null := by
  cases x <;> simp [orElse]

/-- Counting from one, with an index one larger, gives the element of counting from zero. -/
theorem elementAt_shift (a i : Datum) : a.elementAt ((i.shift 1).shift (-1)) = a.elementAt i := by
  cases i with
  | int n =>
    show a.elementAt (int (n + 1 + -1)) = _
    rw [Int.add_neg_cancel_right]
  | _ => cases a <;> rfl

end Datum

end QuerySql
