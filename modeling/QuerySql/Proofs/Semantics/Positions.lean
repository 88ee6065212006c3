import Mathlib.Data.List.Infix
import QuerySql.Proofs.Semantics.Source

/-!
# Positions on a server

A query counts positions from zero and has `-1` where nothing is found. A server counts them from
one, and has zero for a text and null for an item that is not found.

* `positionOf?`: where a text first occurs in another one.
* `Server.PositionRules` is what is asked of a server; `Server.positions` is a server that does it.
-/

namespace QuerySql

/-- Where the part first occurs, counted from zero: the first of the tails that begins with it. -/
def positionOf? (part whole : List Char) : Option Nat := whole.tails.findIdx? part.isPrefixOf

/-- The part begins there, and nowhere before. -/
theorem positionOf?_eq_some_iff {part whole : List Char} {n : Nat} :
    positionOf? part whole = some n ↔
      n ≤ whole.length ∧ part <+: whole.drop n ∧ ∀ m < n, ¬ part <+: whole.drop m := by
  simp only [positionOf?, List.findIdx?_eq_some_iff_getElem, List.length_tails, List.getElem_tails,
    List.isPrefixOf_iff_prefix, Nat.lt_succ_iff, exists_prop]

example : positionOf? "ca".toList "abcabca".toList = some 2 := by decide

example : positionOf? [] "abc".toList = some 0 := by decide

/-- There is a position just where the part occurs. -/
theorem positionOf?_isSome {part whole : List Char} :
    (positionOf? part whole).isSome = true ↔ part <:+: whole := by
  rw [positionOf?, List.findIdx?_isSome, List.any_eq_true, List.infix_iff_prefix_suffix]
  refine exists_congr fun tail => ?_
  rw [List.mem_tails, List.isPrefixOf_iff_prefix]
  exact and_comm

/-- The position that a query counts, or `-1` for none. -/
def Datum.ofPosition : Option Nat → Datum
  | some n => .int n
  | none => .int (-1)

/-- Whether the item is the one that is looked for, as the server compares them. Null is found
nowhere. -/
def Server.finds (S : Server) (x item : Datum) : Bool :=
  !item.isNull && (S.binary .equal x item).isTrue

/-- What is asked of a server for positions, each of which it counts from one. -/
structure Server.PositionRules (S : Server) : Prop where
  /-- `strpos(whole, part)`: where the part first occurs, and zero if it does not. -/
  strpos : ∀ whole part : String, S.call { name := "strpos" } [.text whole, .text part] =
    .int ((positionOf? part.toList whole.toList).elim 0 (· + 1) : Nat)
  /-- `substr(whole, first)`: the characters from the first one on. -/
  substrFrom : ∀ (whole : String) (first : Nat), 0 < first →
    S.call { name := "substr" } [.text whole, .int first] =
      .text (String.ofList (whole.toList.drop (first - 1)))
  /-- `substr(whole, first, length)`: so many of them. -/
  substr : ∀ (whole : String) (first length : Nat), 0 < first →
    S.call { name := "substr" } [.text whole, .int first, .int length] =
      .text (String.ofList ((whole.toList.drop (first - 1)).take length))
  /-- `array_position(items, x)`: where the item is first found, and null if it is not. -/
  arrayPosition : ∀ items x, x ≠ .null →
    S.call { name := "array_position" } [.array items, x] =
      (items.findIdx? (S.finds x)).elim .null fun n => .int (n + 1 : Nat)
  /-- One less than a position, or than none. -/
  subtractOne : ∀ n : Nat, S.binary .subtract (.int n) (.int 1) = .int (n - 1)
  subtractOne_null : S.binary .subtract .null (.int 1) = .null
  greaterThan_zero : ∀ n : Nat, S.binary .greaterThan (.int n) (.int 0) = .truth (decide (0 < n))

/-! ## A server -/

namespace Server.Reference

/-- A call of a function, of those that count positions as well. -/
def positionCall (form : Function.Form) (args : List Datum) : Datum :=
  match form.name, args with
  | "strpos", [.text whole, .text part] =>
    .int ((positionOf? part.toList whole.toList).elim 0 (· + 1) : Nat)
  | "substr", [.text whole, .int (.ofNat first)] =>
    .text (String.ofList (whole.toList.drop (first - 1)))
  | "substr", [.text whole, .int (.ofNat first), .int (.ofNat length)] =>
    .text (String.ofList ((whole.toList.drop (first - 1)).take length))
  | "array_position", [.array items, x] =>
    (items.findIdx? (reference.finds x)).elim .null fun n => .int (n + 1 : Nat)
  | _, _ => call form args

end Server.Reference

/-- The reference server, with positions. -/
def Server.positions : Server := { reference with call := Reference.positionCall }

theorem Server.positionRules_positions : positions.PositionRules where
  strpos _ _ := rfl
  substrFrom _ _ _ := rfl
  substr _ _ _ _ := rfl
  arrayPosition _ _ _ := rfl
  subtractOne _ := rfl
  subtractOne_null := rfl
  greaterThan_zero n := by
    show Datum.truth (decide ((n : Int) > 0)) = _
    exact congrArg Datum.truth (decide_eq_decide.mpr Int.natCast_pos)

/-- It computes like the server that it comes from. -/
theorem Server.coreRules_positions : positions.CoreRules where
  cast_int := coreRules_reference.cast_int
  isNull := coreRules_reference.isNull
  isNotNull := coreRules_reference.isNotNull
  coalesce _ _ := rfl
  cardinality _ _ _ := rfl
  length _ _ := rfl
  getByte _ _ _ _ := rfl
  makeInterval _ _ := rfl
  daysSince := coreRules_reference.daysSince
  addOne := coreRules_reference.addOne
  arithmetic_fits := coreRules_reference.arithmetic_fits
  bitwise_fits := coreRules_reference.bitwise_fits
  negate_fits := coreRules_reference.negate_fits

end QuerySql
