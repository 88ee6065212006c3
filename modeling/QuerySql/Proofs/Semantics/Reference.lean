import QuerySql.Proofs.Semantics.Server

/-!
# A reference server

A server that computes with truth values, integers, dates, periods and arrays the way PostgreSQL
does. It shows that what is assumed of servers can be met, and gives values in concrete cases.

What it is not made for it answers with a truth value, so that only null and what is not found are
null. Pattern matching knows no wildcards, and integers are never too large.
-/

namespace QuerySql

namespace Server.Reference

/-- `AND` in three-valued logic. -/
def conjunction : Datum → Datum → Datum
  | .truth false, _ | _, .truth false => .truth false
  | x, y => if x.isNull || y.isNull then .null else .truth true

/-- `OR` in three-valued logic. -/
def disjunction : Datum → Datum → Datum
  | .truth true, _ | _, .truth true => .truth true
  | x, y => if x.isNull || y.isNull then .null else .truth false

/-- An operator on two integers. -/
def onInts : BinaryOp → Int → Int → Datum
  | .add, m, n => .int (m + n)
  | .subtract, m, n => .int (m - n)
  | .multiply, m, n => .int (m * n)
  | .divide, m, n => .int (m.tdiv n)
  | .modulo, m, n => .int (m.tmod n)
  | .and, m, n => .int (m.toNat &&& n.toNat : Nat)
  | .or, m, n => .int (m.toNat ||| n.toNat : Nat)
  | .exclusiveOr, m, n => .int (m.toNat ^^^ n.toNat : Nat)
  | .equal, m, n => .truth (m == n)
  | .notEqual, m, n => .truth (m != n)
  | .lessThan, m, n => .truth (decide (m < n))
  | .lessThanOrEqual, m, n => .truth (decide (m ≤ n))
  | .greaterThan, m, n => .truth (decide (m > n))
  | .greaterThanOrEqual, m, n => .truth (decide (m ≥ n))
  | .andAlso, _, _ | .orElse, _, _ => .truth false

/-- An operator on two data that are not null. -/
def onPresent : BinaryOp → Datum → Datum → Datum
  | op, .int m, .int n => onInts op m n
  | .subtract, .date m, .date n => .int (m - n)
  | .add, .date m, .period n => .date (m + n)
  | .subtract, .date m, .period n => .date (m - n)
  | .add, .period m, .period n => .period (m + n)
  | .subtract, .period m, .period n => .period (m - n)
  | op, .date m, .date n => onInts op m n
  | _, _, _ => .truth false

/-- An operator on two data. -/
def binary : BinaryOp → Datum → Datum → Datum
  | .andAlso, x, y => conjunction x y
  | .orElse, x, y => disjunction x y
  | op, x, y =>
    if x.isNull || y.isNull then .null
    else if op.isComparison && (x.lacksComponent || y.lacksComponent) then .null
    else onPresent op x y

/-- An operator on one datum. -/
def unary : SqlUnaryOp → Datum → Datum
  | .isNull, x => .truth x.isNull
  | .isNotNull, x => .truth !x.isNull
  | .not, .truth b => .truth !b
  | .negate, .int n => .int (-n)
  | _, x => x

/-- A call of a function. -/
def call (form : Function.Form) (args : List Datum) : Datum :=
  match form.name, args with
  | "COALESCE", [x, y] => x.orElse y
  | "cardinality", [x] | "length", [x] => x.count
  | "get_byte", [x, i] => x.elementAt i
  | "make_interval", [x] => x.asDays
  | _, _ => .null

/-- A match that is null where something it takes is null. -/
def match? (x y : Datum) (escape : Option Datum) : Datum :=
  if x.isNull || y.isNull || escape.any Datum.isNull then .null
  else
    match x, y with
    | .text s, .text p => .truth (s == p)
    | _, _ => .truth false

end Server.Reference

/-- A server that computes with truth values, integers, dates, periods and arrays. -/
def Server.reference : Server where
  binary := Reference.binary
  unary := Reference.unary
  cast _ x := x
  call := Reference.call
  like _ := Reference.match?
  regexMatch _ x y := Reference.match? x y none
  quantified _ _ _ _ := .null
  traversal _ _ _ := .null
  postgres _ x y := Reference.match? x y none

namespace Server.Reference

theorem not_isNull_or {x y : Datum} (hx : x ≠ .null) (hy : y ≠ .null) :
    ¬ (x.isNull || y.isNull) = true := by
  simp only [Bool.or_eq_true, Datum.isNull_eq_true, hx, hy, or_self, not_false_eq_true]

/-- An operator on two integers has a value. -/
theorem onInts_ne_null (op : BinaryOp) (m n : Int) : onInts op m n ≠ .null := by
  cases op <;> exact nofun

theorem onPresent_ne_null (op : BinaryOp) (x y : Datum) : onPresent op x y ≠ .null := by
  unfold onPresent
  split
  case h_1 | h_7 => exact onInts_ne_null _ _ _
  all_goals exact nofun

theorem conjunction_ne_null {x y : Datum} (hx : x ≠ .null) (hy : y ≠ .null) :
    conjunction x y ≠ .null := by
  unfold conjunction
  split
  · exact nofun
  · exact nofun
  · rw [if_neg (not_isNull_or hx hy)]
    exact nofun

theorem disjunction_ne_null {x y : Datum} (hx : x ≠ .null) (hy : y ≠ .null) :
    disjunction x y ≠ .null := by
  unfold disjunction
  split
  · exact nofun
  · exact nofun
  · rw [if_neg (not_isNull_or hx hy)]
    exact nofun

/-- An operator on data that are not null has a value. Rows with a null in them are not compared. -/
theorem binary_ne_null {op : BinaryOp} {x y : Datum} (hx : x ≠ .null) (hy : y ≠ .null)
    (h : op.isComparison = true → x.lacksComponent = false ∧ y.lacksComponent = false) :
    binary op x y ≠ .null := by
  unfold binary
  split
  · exact conjunction_ne_null hx hy
  · exact disjunction_ne_null hx hy
  · rw [if_neg (not_isNull_or hx hy), if_neg]
    · exact onPresent_ne_null _ _ _
    · rw [Bool.and_eq_true, not_and]
      intro hop
      obtain ⟨hl, hr⟩ := h hop
      simp only [hl, hr, Bool.or_self, Bool.false_eq_true, not_false_eq_true]

/-- A match is null if, and only if, something that it takes is null. -/
theorem match?_eq_null {x y : Datum} {escape : Option Datum} :
    match? x y escape = .null ↔ x = .null ∨ y = .null ∨ escape = some .null := by
  have hescape : escape.any Datum.isNull = true ↔ escape = some .null := by
    cases escape with
    | none => exact ⟨nofun, nofun⟩
    | some z => simp only [Option.any_some, Datum.isNull_eq_true, Option.some.injEq]
  have hnull : (x.isNull || y.isNull || escape.any Datum.isNull) = true ↔
      x = .null ∨ y = .null ∨ escape = some .null := by
    rw [Bool.or_eq_true, Bool.or_eq_true, Datum.isNull_eq_true, Datum.isNull_eq_true, hescape,
      or_assoc]
  rw [← hnull]
  unfold match?
  split
  next h => exact ⟨fun _ => h, fun _ => rfl⟩
  next h =>
    refine ⟨fun hn => ?_, fun hc => absurd hc h⟩
    split at hn
    · cases hn
    · cases hn

end Server.Reference

end QuerySql
