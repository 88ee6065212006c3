import QuerySql.Operator
import QuerySql.Proofs.Semantics.Datum

/-!
# Kinds of data

What a type says about the data of an expression, as far as a translation depends on it: whether
they are truth values, integers, dates, periods, arrays of one of these, or anything else. Types
that differ in nullability, in being an enumeration or in the width of integers are of one kind.

* A type is simple if it is a scalar or an array or list of scalars. For such a type the kind
  answers every question that is asked of types (`Ty.isBool_eq`, `Ty.isInteger_underlying_eq`, …).
* `Datum.fits`: the datum is null or is of the kind.
-/

namespace QuerySql

/-- A kind of data. -/
inductive Kind where
  | truth | integer | date | period | other
  | array (element : Kind)
  deriving DecidableEq

/-- The kind of the values of an atom. -/
def Atom.kind : Atom → Kind
  | bool => .truth
  | localDate => .date
  | period => .period
  | a => if a.isInteger then .integer else .other

/-- The atoms whose values are single values of columns, parameters or constants. -/
def Atom.isScalar : Atom → Bool
  | object | anyTuple | dbFunctions => false
  | _ => true

theorem Atom.kind_of_isInteger {a : Atom} (h : a.isInteger = true) : a.kind = .integer := by
  cases a <;> first | rfl | cases h

namespace Ty

/-- The kind of the values of a type. -/
def kind : Ty → Kind
  | nullable t => kind t
  | atom a => a.kind
  | enum _ t => kind t
  | array t | list t => .array (kind t)
  | _ => .other

/-- The single values: those of an atom, or of an enumeration over an integer type. -/
def isScalar (t : Ty) : Bool :=
  match t.stripNullable with
  | atom a => a.isScalar
  | enum _ (atom a) => a.isInteger
  | _ => false

/-- A scalar, or an array or list of scalars. -/
def isSimple (t : Ty) : Bool :=
  t.isScalar ||
    match t.stripNullable with
    | array t | list t => t.isScalar
    | _ => false

variable {t u : Ty}

theorem kind_stripNullable (t : Ty) : t.stripNullable.kind = t.kind := by
  cases t <;> rfl

/-- An enumeration is of the kind of the integers that it stands for. -/
theorem kind_underlying (t : Ty) : t.underlying.kind = t.kind := by
  rw [← kind_stripNullable t]
  unfold underlying
  split
  next h => rw [h]; rfl
  next => rfl

theorem kind_eq_of_underlying (h : t.underlying = u.underlying) : t.kind = u.kind := by
  rw [← kind_underlying t, ← kind_underlying u, h]

/-! ## Simple types -/

/-- What a simple type is without its nullability. -/
theorem forall_simple {P : Ty → Prop} (h : t.isSimple = true)
    (hatom : ∀ a : Atom, a.isScalar = true → P (atom a))
    (henum : ∀ (n : String) (a : Atom), a.isInteger = true → P (enum n (atom a)))
    (harray : ∀ u : Ty, u.isScalar = true → P (array u))
    (hlist : ∀ u : Ty, u.isScalar = true → P (list u)) : P t.stripNullable := by
  unfold isSimple isScalar at h
  cases hs : t.stripNullable <;> rw [hs] at h
  case atom a => exact hatom a (by rwa [Bool.or_false] at h)
  case enum n u =>
    cases u
    case atom a => exact henum n a (by rwa [Bool.or_false] at h)
    all_goals cases h
  case array u => exact harray u (by rwa [Bool.false_or] at h)
  case list u => exact hlist u (by rwa [Bool.false_or] at h)
  all_goals cases h

theorem isSimple_of_isScalar (h : t.isScalar = true) : t.isSimple = true := by
  unfold isSimple
  rw [h, Bool.true_or]

theorem isSimple_stripNullable (h : t.isSimple = true) : t.stripNullable.isSimple = true :=
  forall_simple (P := fun s => s.isSimple = true) h
    (fun _ ha => isSimple_of_isScalar ha) (fun _ _ ha => isSimple_of_isScalar ha)
    (fun _ hu => by simp only [isSimple, stripNullable, hu, Bool.or_true])
    (fun _ hu => by simp only [isSimple, stripNullable, hu, Bool.or_true])

/-- An atom of which no other has the kind is told by the kind. -/
theorem decide_eq_atom {a : Atom} {k : Kind} (h : t.isSimple = true)
    (ha : ∀ b : Atom, b.isScalar = true → decide (atom b = atom a) = decide (b.kind = k))
    (hi : k ≠ .integer) (hk : ∀ l, k ≠ .array l) :
    decide (t.stripNullable = atom a) = decide (t.kind = k) := by
  rw [← kind_stripNullable]
  refine forall_simple (P := fun s => decide (s = atom a) = decide (s.kind = k)) h ha ?_ ?_ ?_
  · intro n b hb
    rw [kind, kind, Atom.kind_of_isInteger hb, decide_eq_false hi.symm]
    rfl
  · intro u _
    rw [kind, decide_eq_false (hk _).symm]
    rfl
  · intro u _
    rw [kind, decide_eq_false (hk _).symm]
    rfl

theorem isBool_eq (h : t.isSimple = true) : t.isBool = decide (t.kind = .truth) :=
  decide_eq_atom h (by rintro ⟨⟩ - <;> rfl) nofun nofun

theorem isLocalDate_eq (h : t.isSimple = true) :
    decide (t.stripNullable = localDate) = decide (t.kind = .date) :=
  decide_eq_atom h (by rintro ⟨⟩ - <;> rfl) nofun nofun

/-- Null is the only layer around a simple type. -/
theorem underlying_stripNullable (h : t.isSimple = true) :
    t.stripNullable.underlying = t.underlying := by
  cases t with
  | nullable t => cases t <;> first | rfl | cases h
  | _ => rfl

theorem isInteger_underlying_eq (h : t.isSimple = true) :
    t.underlying.isInteger = decide (t.kind = .integer) := by
  rw [← kind_stripNullable, ← underlying_stripNullable h]
  refine forall_simple (P := fun s => s.underlying.isInteger = decide (s.kind = .integer)) h
    ?_ ?_ ?_ ?_
  · rintro ⟨⟩ - <;> rfl
  · intro n a ha
    simp only [kind, Atom.kind_of_isInteger ha, decide_true]
    exact ha
  · exact fun u _ => rfl
  · exact fun u _ => rfl

theorem isTuple_eq_false (h : t.isSimple = true) : t.isTuple = false := by
  cases t with
  | tuple => cases h
  | atom a => cases a <;> first | rfl | cases h
  | _ => rfl

/-- The elements of a simple array type are scalar. -/
theorem element?_of_kind (h : t.isSimple = true) {k : Kind} (hk : t.kind = .array k) :
    ∃ u, t.stripNullable.element? = some u ∧ u.isScalar = true ∧ u.kind = k := by
  rw [← kind_stripNullable] at hk
  refine forall_simple (P := fun s => s.kind = .array k →
    ∃ u, s.element? = some u ∧ u.isScalar = true ∧ u.kind = k) h ?_ ?_ ?_ ?_ hk
  · rintro ⟨⟩ - h <;> cases h
  · intro n a ha h
    rw [kind, kind, Atom.kind_of_isInteger ha] at h
    cases h
  · intro u hu h
    exact ⟨u, rfl, hu, Kind.array.inj h⟩
  · intro u hu h
    exact ⟨u, rfl, hu, Kind.array.inj h⟩

/-- A byte string is an array of integers. -/
theorem kind_of_isByteArray (h : t.stripNullable.isByteArray = true) :
    t.kind = .array .integer := by
  rw [← kind_stripNullable]
  cases hs : t.stripNullable <;> rw [hs] at h <;> try cases h
  case array u =>
    cases of_decide_eq_true h
    rfl

end Ty

namespace Datum

/-- Whether the datum is null or of the kind. -/
def fits : Datum → Kind → Bool
  | null, _ => true
  | _, .truth | _, .other => true
  | int _, .integer | date _, .date | period _, .period => true
  | array items, .array k => items.all fun x => fits x k
  | _, _ => false

variable {x y : Datum} {k : Kind}

theorem fits_null (k : Kind) : null.fits k = true := by
  cases k <;> rfl

theorem fits_truth (x : Datum) : x.fits .truth = true := by
  cases x <;> rfl

theorem fits_other (x : Datum) : x.fits .other = true := by
  cases x <;> rfl

theorem eq_of_fits_integer (h : x.fits .integer = true) : x = null ∨ ∃ n, x = int n := by
  cases x with
  | null => exact .inl rfl
  | int n => exact .inr ⟨n, rfl⟩
  | _ => cases h

theorem eq_of_fits_date (h : x.fits .date = true) : x = null ∨ ∃ n, x = date n := by
  cases x with
  | null => exact .inl rfl
  | date n => exact .inr ⟨n, rfl⟩
  | _ => cases h

theorem eq_of_fits_period (h : x.fits .period = true) : x = null ∨ ∃ n, x = period n := by
  cases x with
  | null => exact .inl rfl
  | period n => exact .inr ⟨n, rfl⟩
  | _ => cases h

/-- A default value of the same kind keeps the kind. -/
theorem fits_orElse (hx : x.fits k = true) (hy : y.fits k = true) : (x.orElse y).fits k = true := by
  cases x with
  | null => exact hy
  | _ => exact hx

theorem fits_count (x : Datum) : x.count.fits .integer = true := by
  cases x <;> rfl

theorem fits_asDays (x : Datum) : x.asDays.fits .period = true := by
  cases x <;> rfl

theorem fits_elementAt (hx : x.fits (.array k) = true) (i : Datum) :
    (x.elementAt i).fits k = true := by
  unfold elementAt
  split
  next items n =>
    cases hn : items[n]? with
    | none => exact fits_null k
    | some y => exact List.all_eq_true.mp hx y (List.mem_of_getElem? hn)
  next => exact fits_null k

theorem fits_daysSince (x y : Datum) : (x.daysSince y).fits .integer = true := by
  unfold daysSince
  split
  · rfl
  · rfl

end Datum

namespace BinaryOp

/-- The operators that compute a number from two. -/
def isArithmetic : BinaryOp → Bool
  | add | subtract | multiply | divide | modulo => true
  | _ => false

/-- The operators on the bits of integers, which also connect truth values. -/
def isBitwise : BinaryOp → Bool
  | and | or | exclusiveOr => true
  | _ => false

/-- Whether arithmetic of this sort computes, from data of these kinds, something of the kind of the
left one. The difference of two dates is none of it. -/
def computes (op : BinaryOp) : Kind → Kind → Bool
  | .integer, .integer => op.isArithmetic
  | .date, .period | .period, .period => decide (op = add) || decide (op = subtract)
  | .other, .truth | .other, .array _ => false
  | .other, _ => op.isArithmetic
  | _, _ => false

end BinaryOp

end QuerySql
