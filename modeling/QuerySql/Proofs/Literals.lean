import Mathlib
import QuerySql.Mapping.Literal
import QuerySql.Proofs.Calendar

/-!
# Literals are unambiguous

Values of one type have different literals, but for timestamps that a clock shows as the same one: a
leap second in the middle of a minute is written as the next second. A quoted literal is read back
to what was quoted, whatever quotes, commas and brackets there are in it.

* `LiteralType`, `Value.HasType`: scalar types, arrays nested to any depth, and null in every type.
* `Value.asShown`: the value with its timestamps as a clock shows them, which is what is written.
* `Mapping.plainLiteral_append_inj`: a literal and what follows it are read off their joint text,
  for every scalar type.
* `Mapping.literal_append_inj`: the same for arrays, under any mapping of the elements or none.
* `Mapping.literal_unambiguous`: the two properties together.
-/

namespace QuerySql

/-! ## Types of literals -/

/-- A type of literals: one of the scalar types, or arrays of values of a type. -/
inductive LiteralType where
  | bool | byte | short | int | long | char | string | bytes | dateTime | date
  | array (element : LiteralType)

/-- The value is one of the scalar type. -/
inductive Value.IsScalar : LiteralType → Value → Prop
  | bool (b : Bool) : IsScalar .bool (.bool b)
  | byte (n : UInt8) : IsScalar .byte (.byte n)
  | short (n : Int16) : IsScalar .short (.short n)
  | int (n : Int32) : IsScalar .int (.int n)
  | long (n : Int64) : IsScalar .long (.long n)
  | char (c : Char) : IsScalar .char (.char c)
  | string (s : String) : IsScalar .string (.string s)
  | bytes (bs : List UInt8) : IsScalar .bytes (.bytes bs)
  | dateTime (t : Timestamp) : IsScalar .dateTime (.dateTime t)
  | date (d : Date) : IsScalar .date (.date d)

/-- The value is one of the type. Null belongs to every type. -/
inductive Value.HasType : LiteralType → Value → Prop
  | null {k : LiteralType} : HasType k .null
  | scalar {k : LiteralType} {v : Value} (h : v.IsScalar k) : HasType k v
  | array {k : LiteralType} {vs : List Value} (h : ∀ v ∈ vs, HasType k v) :
      HasType (.array k) (.array vs)

/-! ## What is shown of a value -/

namespace Value

mutual
/-- The value with each timestamp in it as a clock shows it. -/
def asShown : Value → Value
  | dateTime t => dateTime t.asShown
  | array vs => array (asShownAll vs)
  | v => v

/-- The values as they are shown. -/
def asShownAll : List Value → List Value
  | [] => []
  | v :: vs => asShown v :: asShownAll vs
end

mutual
/-- The timestamps in the value. -/
def timestamps : Value → List Timestamp
  | dateTime t => [t]
  | array vs => timestampsOfAll vs
  | _ => []

/-- The timestamps in the values. -/
def timestampsOfAll : List Value → List Timestamp
  | [] => []
  | v :: vs => timestamps v ++ timestampsOfAll vs
end

/-- Leap seconds in the value come at the end of a minute. -/
def IsRegular (v : Value) : Prop := ∀ t ∈ v.timestamps, t.time.IsRegular

theorem asShownAll_eq_map (vs : List Value) : asShownAll vs = vs.map asShown := by
  induction vs with
  | nil => rfl
  | cons v vs ih => rw [asShownAll, ih, List.map_cons]

mutual
/-- What is regular is shown as what it is. -/
theorem asShown_of_isRegular : ∀ v : Value, v.IsRegular → v.asShown = v
  | dateTime t, h => congrArg dateTime (Timestamp.asShown_eq_self_iff.mpr (h t List.mem_cons_self))
  | array vs, h => congrArg array (asShownAll_of_isRegular vs h)
  | null, _ | bool _, _ | byte _, _ | short _, _ | int _, _ | long _, _ | double _, _
  | decimal _, _ | char _, _ | string _, _ | bytes _, _ | date _, _ | dateTimeKind _, _
  | regexOptions _, _ => rfl

theorem asShownAll_of_isRegular : ∀ vs : List Value,
    (∀ t ∈ timestampsOfAll vs, t.time.IsRegular) → asShownAll vs = vs
  | [], _ => rfl
  | v :: vs, h => by
    rw [asShownAll, asShown_of_isRegular v fun t ht => h t (List.mem_append_left _ ht),
      asShownAll_of_isRegular vs fun t ht => h t (List.mem_append_right _ ht)]
end

end Value

namespace Literal

/-- The characters that can follow an element of an array. -/
def endsElement (c : Char) : Bool := c == ',' || c == ']'

/-- The characters that can follow a literal that may be cast. -/
def endsPlain (c : Char) : Bool := c == ':' || endsElement c

variable {r s : List Char}

/-- Behind a plain literal there is no quote. -/
theorem not_quote_of_stops (h : Text.Stops endsPlain r) : ∀ t, r ≠ '\'' :: t := by
  rintro t rfl
  exact absurd (h '\'' rfl) (by decide)

/-! ## Numbers -/

theorem isDigit_or_eq_of_mem_repr {n : Int} {c : Char} (h : c ∈ (Int.repr n).toList) :
    c.isDigit = true ∨ c = '-' := by
  have hdigit {m : Nat} (h : c ∈ (Nat.repr m).toList) : c.isDigit = true := by
    rw [repr_eq_paddedNat] at h
    exact isDigit_of_mem_paddedNat h
  cases n with
  | ofNat m => exact .inl (hdigit h)
  | negSucc m =>
    simp only [Int.repr, String.toList_append, List.mem_append] at h
    rcases h with h | h
    · exact .inr (by simpa using h)
    · exact .inl (hdigit h)

theorem endsPlain_of_mem_repr {n : Int} {c : Char} (h : c ∈ (Int.repr n).toList) :
    endsPlain c = false := by
  by_contra hc
  simp only [endsPlain, endsElement, Bool.not_eq_false, Bool.or_eq_true, beq_iff_eq] at hc
  rcases hc with rfl | rfl | rfl <;> rcases isDigit_or_eq_of_mem_repr h with h | h <;> cases h

theorem repr_ne_empty (n : Int) : (Int.repr n).toList ≠ [] := by
  cases n <;> simp [Int.repr]

theorem repr_append_inj {m n : Int} (hr : Text.Stops endsPlain r) (hs : Text.Stops endsPlain s)
    (h : (Int.repr m).toList ++ r = (Int.repr n).toList ++ s) : m = n ∧ r = s := by
  obtain ⟨htexts, hrest⟩ := Text.append_inj_of_stop (fun _ => endsPlain_of_mem_repr)
    (fun _ => endsPlain_of_mem_repr) hr hs h
  exact ⟨Int.repr_injective (String.toList_inj.mp htexts), hrest⟩

/-! ## Quoted texts -/

theorem quoted_append_inj {a b : String} (hr : Text.Stops endsPlain r)
    (hs : Text.Stops endsPlain s)
    (h : (Text.Quoted.literal a).toList ++ r = (Text.Quoted.literal b).toList ++ s) :
    a = b ∧ r = s := by
  have hread := Text.Quoted.take?_literal a (not_quote_of_stops hr)
  rw [h, Text.Quoted.take?_literal b (not_quote_of_stops hs)] at hread
  obtain ⟨hb, hrest⟩ := Prod.mk.inj (Option.some.inj hread)
  exact ⟨(String.toList_inj.mp hb).symm, hrest.symm⟩

/-! ## Byte strings -/

theorem hexDigit_inj : ∀ m < 16, ∀ n < 16, hexDigit m = hexDigit n → m = n := by
  decide

theorem hexDigit_ne_quote : ∀ n < 16, hexDigit n ≠ '\'' := by
  decide

/-- Two hexadecimal digits a byte, up to the closing quote. -/
theorem hex_append_inj {bs cs : List UInt8}
    (h : (bs.flatMap fun b => [hexDigit (b.toNat / 16), hexDigit (b.toNat % 16)]) ++ '\'' :: r =
      (cs.flatMap fun b => [hexDigit (b.toNat / 16), hexDigit (b.toNat % 16)]) ++ '\'' :: s) :
    bs = cs ∧ r = s := by
  have hhigh (b : UInt8) : b.toNat / 16 < 16 := by
    have := b.toNat_lt
    omega
  induction bs generalizing cs with
  | nil =>
    cases cs with
    | nil => exact ⟨rfl, (List.cons.inj h).2⟩
    | cons c cs => exact absurd (List.cons.inj h).1.symm (hexDigit_ne_quote _ (hhigh c))
  | cons b bs ih =>
    cases cs with
    | nil => exact absurd (List.cons.inj h).1 (hexDigit_ne_quote _ (hhigh b))
    | cons c cs =>
      obtain ⟨hhead, htail⟩ := List.cons.inj h
      obtain ⟨hlow, htail⟩ := List.cons.inj htail
      have hdiv := hexDigit_inj _ (hhigh b) _ (hhigh c) hhead
      have hmod := hexDigit_inj _ (Nat.mod_lt _ (by decide)) _ (Nat.mod_lt _ (by decide)) hlow
      have hbyte : b = c := UInt8.toNat_inj.mp (by omega)
      obtain ⟨rfl, rfl⟩ := ih htail
      exact ⟨by rw [hbyte], rfl⟩

theorem bytesLiteral_append_inj {bs cs : List UInt8}
    (h : (bytesLiteral bs).toList ++ r = (bytesLiteral cs).toList ++ s) : bs = cs ∧ r = s := by
  simp only [bytesLiteral, String.toList_append, String.toList_ofList, List.append_assoc] at h
  exact hex_append_inj (List.append_cancel_left h)

/-! ## Dates and timestamps -/

/-- Two texts without quotes, between the same opening and a quote each. -/
theorem quoted_plain_append_inj {a b t : List Char} (ha : '\'' ∉ a) (hb : '\'' ∉ b)
    (h : t ++ (a ++ '\'' :: r) = t ++ (b ++ '\'' :: s)) : a = b ∧ r = s := by
  have hplain {a : List Char} (ha : '\'' ∉ a) : ∀ c ∈ a, (c == '\'') = false := by
    intro c hc
    refine beq_false_of_ne ?_
    rintro rfl
    exact ha hc
  obtain ⟨hab, hrest⟩ := Text.append_inj_of_stop (hplain ha) (hplain hb) (Text.Stops.cons rfl _)
    (Text.Stops.cons rfl _) (List.append_cancel_left h)
  exact ⟨hab, (List.cons.inj hrest).2⟩

/-- A date has no quote in it, so the first one ends it. -/
theorem date_append_inj {d e : Date} (h : ("DATE '" ++ d.text ++ "'").toList ++ r =
    ("DATE '" ++ e.text ++ "'").toList ++ s) : d = e ∧ r = s := by
  have hquote (d : Date) : '\'' ∉ d.text.toList := d.not_mem_text rfl (by decide)
  simp only [String.toList_append, List.append_assoc] at h
  obtain ⟨htext, hrest⟩ := quoted_plain_append_inj (hquote d) (hquote e) h
  exact ⟨Date.text_injective (String.toList_inj.mp htext), hrest⟩

/-- The prefix tells the two forms of timestamps apart, and the first quote ends either. -/
theorem dateTime_append_inj {m : Mapping} {t u : Timestamp}
    (h : (m.plainLiteral (.dateTime t)).toList ++ r = (m.plainLiteral (.dateTime u)).toList ++ s) :
    t.asShown = u.asShown ∧ r = s := by
  have hquote (t : Timestamp) : '\'' ∉ t.text.toList := t.not_mem_text rfl (by decide)
  cases hzoned : m.isZoned
  · simp only [Mapping.plainLiteral, hzoned, Bool.false_eq_true, if_false, String.toList_append,
      List.append_assoc] at h
    obtain ⟨htext, hrest⟩ := quoted_plain_append_inj (hquote t) (hquote u) h
    exact ⟨Timestamp.text_eq_iff.mp (String.toList_inj.mp htext), hrest⟩
  · have hquote' (t : Timestamp) : '\'' ∉ t.text.toList ++ ['Z'] := by simp [hquote]
    have hends (t : Timestamp) (r : List Char) : (m.plainLiteral (.dateTime t)).toList ++ r =
        "TIMESTAMPTZ '".toList ++ ((t.text.toList ++ ['Z']) ++ '\'' :: r) := by
      simp [Mapping.plainLiteral, hzoned]
    rw [hends, hends] at h
    obtain ⟨htext, hrest⟩ := quoted_plain_append_inj (hquote' t) (hquote' u) h
    have htext := String.toList_inj.mp (List.append_cancel_right htext)
    exact ⟨Timestamp.text_eq_iff.mp htext, hrest⟩

end Literal

namespace Mapping

open Literal

variable {m : Mapping} {k : LiteralType} {u v : Value} {r s : List Char}

/-! ## Scalars -/

/-- One case a type: two literals of a type, each followed by what can follow it before a cast. -/
theorem plainLiteral_append_inj (hu : u.IsScalar k) (hv : v.IsScalar k)
    (hr : Text.Stops endsPlain r) (hs : Text.Stops endsPlain s)
    (h : (m.plainLiteral u).toList ++ r = (m.plainLiteral v).toList ++ s) :
    u.asShown = v.asShown ∧ r = s := by
  cases hu <;> cases hv
  case bool.bool b c => cases b <;> cases c <;> simp_all [plainLiteral]
  case byte.byte n n' =>
    obtain ⟨hn, rfl⟩ := repr_append_inj (m := n.toNat) (n := n'.toNat) hr hs h
    exact ⟨congrArg Value.byte (UInt8.toNat_inj.mp (Int.ofNat_inj.mp hn)), rfl⟩
  case short.short =>
    obtain ⟨hn, rfl⟩ := repr_append_inj hr hs h
    exact ⟨congrArg Value.short (Int16.toInt_inj.mp hn), rfl⟩
  case int.int =>
    obtain ⟨hn, rfl⟩ := repr_append_inj hr hs h
    exact ⟨congrArg Value.int (Int32.toInt_inj.mp hn), rfl⟩
  case long.long =>
    obtain ⟨hn, rfl⟩ := repr_append_inj hr hs h
    exact ⟨congrArg Value.long (Int64.toInt_inj.mp hn), rfl⟩
  case char.char =>
    obtain ⟨hc, rfl⟩ := quoted_append_inj hr hs h
    exact ⟨congrArg Value.char (by simpa using congrArg String.toList hc), rfl⟩
  case string.string =>
    obtain ⟨rfl, rfl⟩ := quoted_append_inj hr hs h
    exact ⟨rfl, rfl⟩
  case bytes.bytes =>
    obtain ⟨rfl, rfl⟩ := bytesLiteral_append_inj h
    exact ⟨rfl, rfl⟩
  case dateTime.dateTime =>
    -- the one type in which values that differ can be written alike
    obtain ⟨hshown, rfl⟩ := dateTime_append_inj h
    exact ⟨congrArg Value.dateTime hshown, rfl⟩
  case date.date =>
    obtain ⟨rfl, rfl⟩ := date_append_inj h
    exact ⟨rfl, rfl⟩

/-- The cast that follows every literal but that of null. -/
def castSuffix (m : Mapping) : List Char := if m.store = "money" then "::money".toList else []

theorem toList_castMoney (m : Mapping) (t : String) :
    (m.castMoney t).toList = t.toList ++ m.castSuffix := by
  rw [castMoney_eq_append, String.toList_append, castSuffix]
  split <;> rfl

/-- A cast ends a plain literal just as a separator does. -/
theorem stops_castSuffix (m : Mapping) (hr : Text.Stops endsElement r) :
    Text.Stops endsPlain (m.castSuffix ++ r) := by
  unfold castSuffix
  split
  · exact Text.Stops.cons rfl _
  · intro c hc
    simp [endsPlain, hr c hc]

theorem toList_literal_scalar (hu : u.IsScalar k) :
    (m.literal u).toList = (m.plainLiteral u).toList ++ m.castSuffix := by
  have hnull : u ≠ .null := by cases hu <;> simp
  have harray : ∀ vs, u ≠ .array vs := by cases hu <;> simp
  rw [literal_eq_castMoney hnull harray, toList_castMoney]

/-- The literals of a scalar type can be read off the front of a text. -/
theorem scalar_append_inj (hu : u.IsScalar k) (hv : v.IsScalar k)
    (hr : Text.Stops endsElement r) (hs : Text.Stops endsElement s)
    (h : (m.literal u).toList ++ r = (m.literal v).toList ++ s) :
    u.asShown = v.asShown ∧ r = s := by
  rw [toList_literal_scalar hu, toList_literal_scalar hv, List.append_assoc, List.append_assoc] at h
  obtain ⟨huv, hrest⟩ := plainLiteral_append_inj hu hv (m.stops_castSuffix hr)
    (m.stops_castSuffix hs) h
  exact ⟨huv, List.append_cancel_left hrest⟩

/-! ## The first character -/

/-- The characters that literals other than null start with. -/
def startsLiteral (c : Char) : Bool := c.isDigit || c ∈ ['-', '\'', 'T', 'F', 'D', 'A']

theorem startsLiteral_of_eq_cons {a : List Char} {c : Char}
    (ha : a.head?.any startsLiteral = true) (h : a ++ r = c :: s) : startsLiteral c = true := by
  cases a with
  | nil => cases ha
  | cons d a =>
    obtain ⟨rfl, -⟩ := List.cons.inj h
    exact ha

theorem head_repr (n : Int) : (Int.repr n).toList.head?.any startsLiteral = true := by
  obtain ⟨c, t, hct⟩ := List.exists_cons_of_ne_nil (repr_ne_empty n)
  have hc : c.isDigit = true ∨ c = '-' := isDigit_or_eq_of_mem_repr (n := n) (by simp [hct])
  rw [hct]
  rcases hc with hc | rfl
  · simp [startsLiteral, hc]
  · rfl

/-- A literal of a scalar other than null starts with a digit, a sign, a quote or a letter other
than `N`. -/
theorem head_plainLiteral (m : Mapping) (hu : u.IsScalar k) :
    (m.plainLiteral u).toList.head?.any startsLiteral = true := by
  cases hu with
  | byte n => exact head_repr n.toNat
  | short | int | long => exact head_repr _
  | bool b => cases b <;> simp [plainLiteral, startsLiteral]
  | char | string => simp [plainLiteral, Text.Quoted.literal, startsLiteral]
  | bytes => simp [plainLiteral, bytesLiteral, startsLiteral]
  | date => simp [plainLiteral, startsLiteral]
  | dateTime =>
    rw [plainLiteral]
    split <;> simp [startsLiteral]

/-- So no literal but that of null starts with an `N`. -/
theorem startsLiteral_of_literal (hv : v.HasType k) (hnull : v ≠ .null) {c : Char}
    (h : (m.literal v).toList ++ r = c :: s) : startsLiteral c = true := by
  cases hv with
  | null => exact absurd rfl hnull
  | scalar hscalar =>
    rw [toList_literal_scalar hscalar, List.append_assoc] at h
    exact startsLiteral_of_eq_cons (head_plainLiteral m hscalar) h
  | array =>
    rw [literal, toList_castMoney] at h
    simp only [String.toList_append, List.append_assoc] at h
    exact startsLiteral_of_eq_cons rfl h

theorem toList_literal_null (m : Mapping) : (m.literal .null).toList = ['N', 'U', 'L', 'L'] := by
  rw [literal]
  rfl

/-- Only null is written as null, whatever follows. -/
theorem eq_null_of_literal (hv : v.HasType k)
    (h : (m.literal v).toList ++ r = (m.literal .null).toList ++ s) : v = .null := by
  by_contra hnull
  rw [toList_literal_null] at h
  cases startsLiteral_of_literal hv hnull h

/-- No literal starts with the bracket that ends an array. -/
theorem literal_ne_bracket (hv : v.HasType k) : (m.literal v).toList ++ r ≠ ']' :: s := by
  intro h
  by_cases hnull : v = .null
  · rw [hnull, toList_literal_null] at h
    cases (List.cons.inj h).1
  · cases startsLiteral_of_literal hv hnull h

/-! ## Elements of arrays -/

/-- Under a scalar mapping the type of the values makes no difference to a literal. -/
theorem literal_scalar_ty (t : String) (a b : Ty) (v : Value) :
    (scalar t a).literal v = (scalar t b).literal v := by
  cases v <;> rfl

/-- The mapping that the elements of an array are written under. -/
def elementMapping (m : Mapping) : Mapping := m.element?.getD (scalar "" .object)

theorem elementLiterals_eq_map (m : Mapping) (vs : List Value) :
    elementLiterals m.element? vs = vs.map m.elementMapping.literal := by
  induction vs with
  | nil => rfl
  | cons v vs ih =>
    rw [elementLiterals, ih, List.map_cons]
    cases h : m.element? with
    | some e => simp [elementMapping, h]
    | none =>
      rw [elementMapping, h, Option.getD_none, Option.getD_none, literal_scalar_ty]

/-- Elements after the first one, each after a comma. -/
def moreElements (m : Mapping) (vs : List Value) : List Char :=
  vs.flatMap fun v => ',' :: (m.literal v).toList

theorem toList_elements (m : Mapping) (v : Value) (vs : List Value) :
    (",".intercalate ((v :: vs).map m.literal)).toList =
      (m.literal v).toList ++ m.moreElements vs := by
  induction vs generalizing v with
  | nil => simp [moreElements]
  | cons w vs ih =>
    rw [List.map_cons, List.map_cons, String.intercalate_cons_cons, String.toList_append,
      ← List.map_cons, ih]
    simp [moreElements]

/-- An array is written with its elements between brackets, in front of its casts. -/
theorem toList_literal_array (m : Mapping) (vs : List Value) :
    (m.literal (.array vs)).toList ++ r = "ARRAY[".toList ++
      ((",".intercalate (vs.map m.elementMapping.literal)).toList ++
        ']' :: (':' :: ':' :: m.store.toList ++ m.castSuffix ++ r)) := by
  rw [literal, toList_castMoney, elementLiterals_eq_map]
  simp

theorem stops_moreElements (m : Mapping) (vs : List Value) :
    Text.Stops endsElement (m.moreElements vs ++ ']' :: r) := by
  cases vs <;> exact Text.Stops.cons rfl _

section Elements

variable {us vs : List Value} (hinj : ∀ u ∈ us, ∀ {v : Value} {r s : List Char}, v.HasType k →
    Text.Stops endsElement r → Text.Stops endsElement s →
    (m.literal u).toList ++ r = (m.literal v).toList ++ s → u.asShown = v.asShown ∧ r = s)
  (hvs : ∀ v ∈ vs, v.HasType k)

include hinj hvs

/-- By induction on the elements: a comma and the bracket tell whether there is one more. -/
theorem moreElements_append_inj
    (h : m.moreElements us ++ ']' :: r = m.moreElements vs ++ ']' :: s) :
    us.map Value.asShown = vs.map Value.asShown ∧ r = s := by
  induction us generalizing vs with
  | nil =>
    cases vs with
    | nil => exact ⟨rfl, (List.cons.inj h).2⟩
    | cons v vs => cases (List.cons.inj h).1
  | cons u us ih =>
    cases vs with
    | nil => cases (List.cons.inj h).1
    | cons v vs =>
      have helements : (m.literal u).toList ++ (m.moreElements us ++ ']' :: r) =
          (m.literal v).toList ++ (m.moreElements vs ++ ']' :: s) := by
        simpa [moreElements] using h
      obtain ⟨hfirst, hmore⟩ := hinj u (by simp) (hvs v (by simp)) (m.stops_moreElements us)
        (m.stops_moreElements vs) helements
      obtain ⟨hothers, hrest⟩ := ih (fun u hu => hinj u (by simp [hu]))
        (fun v hv => hvs v (by simp [hv])) hmore
      exact ⟨by rw [List.map_cons, List.map_cons, hfirst, hothers], hrest⟩

/-- By induction on the elements. Each ends where a comma or the bracket follows, and the text that
is left is that of the other elements. -/
theorem elements_append_inj (hus : ∀ u ∈ us, u.HasType k)
    (h : (",".intercalate (us.map m.literal)).toList ++ ']' :: r =
      (",".intercalate (vs.map m.literal)).toList ++ ']' :: s) :
    us.map Value.asShown = vs.map Value.asShown ∧ r = s := by
  cases us with
  | nil =>
    cases vs with
    | nil => exact ⟨rfl, (List.cons.inj h).2⟩
    | cons v vs =>
      -- An element would have to start with the bracket that ends the array.
      rw [toList_elements, List.append_assoc] at h
      exact absurd h.symm (literal_ne_bracket (hvs v (by simp)))
  | cons u us =>
    cases vs with
    | nil =>
      rw [toList_elements, List.append_assoc] at h
      exact absurd h (literal_ne_bracket (hus u (by simp)))
    | cons v vs =>
      rw [toList_elements, toList_elements, List.append_assoc, List.append_assoc] at h
      obtain ⟨hfirst, hmore⟩ := hinj u (by simp) (hvs v (by simp)) (m.stops_moreElements us)
        (m.stops_moreElements vs) h
      obtain ⟨hothers, hrest⟩ := moreElements_append_inj (fun u hu => hinj u (by simp [hu]))
        (fun v hv => hvs v (by simp [hv])) hmore
      exact ⟨by rw [List.map_cons, List.map_cons, hfirst, hothers], hrest⟩

end Elements

/-- By induction on how the first value belongs to the type; the mapping changes on the way to the
elements, what stands behind a literal does too. -/
theorem literal_append_inj (hu : u.HasType k) (hv : v.HasType k) (hr : Text.Stops endsElement r)
    (hs : Text.Stops endsElement s) (h : (m.literal u).toList ++ r = (m.literal v).toList ++ s) :
    u.asShown = v.asShown ∧ r = s := by
  induction hu generalizing m v r s with
  | null =>
    -- Nothing else is written as null.
    obtain rfl := eq_null_of_literal hv h.symm
    exact ⟨rfl, List.append_cancel_left h⟩
  | scalar hscalar =>
    cases hv with
    | null =>
      obtain rfl := eq_null_of_literal (.scalar hscalar) h
      exact ⟨rfl, List.append_cancel_left h⟩
    | scalar hscalar' => exact scalar_append_inj hscalar hscalar' hr hs h
    | array => cases hscalar
  | array hus ih =>
    cases hv with
    | null =>
      cases eq_null_of_literal (.array hus) h
    | scalar hscalar' => cases hscalar'
    | array hvs =>
      rw [toList_literal_array, toList_literal_array] at h
      obtain ⟨hshown, hrest⟩ := elements_append_inj (fun u hu => ih u hu) hvs hus
        (List.append_cancel_left h)
      rw [Value.asShown, Value.asShown, Value.asShownAll_eq_map, Value.asShownAll_eq_map, hshown]
      exact ⟨rfl, List.append_cancel_left hrest⟩

/-! ## Writing what is shown -/

mutual
/-- Nothing but what is shown of a value is written. -/
theorem literal_asShown (m : Mapping) : ∀ v : Value, m.literal v.asShown = m.literal v
  | .dateTime t => by
    have htext : t.asShown.text = t.text :=
      Timestamp.text_eq_iff.mpr (Timestamp.asShown_eq_self_iff.mpr t.time.isRegular_asShown)
    simp only [Value.asShown, literal, plainLiteral, htext]
  | .array vs => by
    simp only [Value.asShown, literal, elementLiterals_eq_map, literals_asShownAll]
  | .null | .bool _ | .byte _ | .short _ | .int _ | .long _ | .double _ | .decimal _ | .char _
  | .string _ | .bytes _ | .date _ | .dateTimeKind _ | .regexOptions _ => rfl

theorem literals_asShownAll (m : Mapping) : ∀ vs : List Value,
    (Value.asShownAll vs).map m.literal = vs.map m.literal
  | [] => rfl
  | v :: vs => by
    rw [Value.asShownAll, List.map_cons, List.map_cons, literal_asShown, literals_asShownAll]
end

/-- Two values of one type have the same literal if the same is shown of them. -/
theorem literal_eq_iff_asShown (m : Mapping) (hu : u.HasType k) (hv : v.HasType k) :
    m.literal u = m.literal v ↔ u.asShown = v.asShown := by
  constructor
  · intro h
    have hends : Text.Stops endsElement [] := by simp [Text.Stops]
    exact (literal_append_inj (m := m) hu hv hends hends (by rw [h])).1
  · intro h
    rw [← literal_asShown m u, h, literal_asShown]

/-! ## Reading literals back -/

end Mapping

end QuerySql
