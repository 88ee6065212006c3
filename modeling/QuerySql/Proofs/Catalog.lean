import QuerySql.Mapping.Catalog

/-!
# The two directions of the catalog

The catalog says how a type is stored, and what a store type name stands for. The second answer to
the name that the first one gives is the first answer again: the same way of storing, down to the
elements of elements, for values of the same type.

* `Mapping.StoredLike`: two mappings with the same store types and kinds. Elements of arrays may
  differ in the type of the values, for a name does not tell an enumeration from a number.
* `Catalog.ofStore_brackets`: a name with brackets at its end stands for an array.
* `Catalog.ofTyAs_of_ofTy`: the name that a type is stored under stands for the way it is stored.
-/

namespace QuerySql

namespace Mapping

/-- The two mappings store values in the same way, of whatever type the values are. -/
def StoredLike : Mapping → Mapping → Prop
  | scalar s _, scalar s' _ => s = s'
  | bytes s _, bytes s' _ => s = s'
  | array s _ e, array s' _ e' => s = s' ∧ e.StoredLike e'
  | json s _ b, json s' _ b' => s = s' ∧ b = b'
  | _, _ => False

theorem StoredLike.store {m n : Mapping} (h : m.StoredLike n) : m.store = n.store := by
  cases m <;> cases n <;> first | exact h | exact h.1 | exact h.elim

@[simp] theorem storedLike_withTy_left {m n : Mapping} (t : Ty) :
    (m.withTy t).StoredLike n ↔ m.StoredLike n := by
  cases m <;> cases n <;> rfl

@[simp] theorem storedLike_withTy_right {m n : Mapping} (t : Ty) :
    m.StoredLike (n.withTy t) ↔ m.StoredLike n := by
  cases m <;> cases n <;> rfl

end Mapping

namespace Catalog

/-! ## Names that are not trimmed -/

/-- The name starts, and not with a blank. -/
def StartsPlain (s : String) : Prop := ∃ c r, s.toList = c :: r ∧ Text.isBlank c = false

theorem StartsPlain.append {s : String} (h : StartsPlain s) (more : String) :
    StartsPlain (s ++ more) := by
  obtain ⟨c, r, hs, hc⟩ := h
  exact ⟨c, r ++ more.toList, by simp [hs], hc⟩

theorem StartsPlain.trimStart {s : String} (h : StartsPlain s) :
    Text.trimStart s.toList = s.toList := by
  obtain ⟨c, r, hs, hc⟩ := h
  simp [Text.trimStart, hs, hc]

/-- The store types that the catalog chooses need no trimming. -/
theorem startsPlain_storeType {a : Atom} {s : String} (h : a.storeType? = some s) :
    StartsPlain s := by
  cases a <;> cases h <;> exact ⟨_, _, rfl, rfl⟩

/-! ## Looking up the name of a default -/

/-- A store type that the catalog chooses is one that it knows. -/
theorem ofStore_storeType {a : Atom} {s : String} (h : a.storeType? = some s) :
    ∃ t, standard.ofStore s = some (.scalar s t) := by
  cases a <;> cases h <;> exact ⟨_, rfl⟩

/-- The array of what the name stands for. -/
theorem ofStore_brackets {s : String} {e : Mapping} (hs : StartsPlain s)
    (h : standard.ofStore s = some e) :
    standard.ofStore (s ++ "[]") = some (.array (s ++ "[]") (.array e.ty) e) := by
  have hreversed : (s ++ "[]").toList.reverse = ']' :: '[' :: s.toList.reverse := by simp
  have htext :
      String.ofList (Text.trimStart (']' :: '[' :: s.toList.reverse).reverse) = s ++ "[]" := by
    rw [← hreversed, List.reverse_reverse, (hs.append "[]").trimStart, String.ofList_toList]
  have he : standardOfReversed s.toList.reverse = some e := h
  simp only [standard, hreversed, standardOfReversed, he, htext, Option.map_some]

/-- An array is found again if its elements are. -/
theorem exists_ofStore_array {e : Mapping} (t : Ty) (hplain : StartsPlain e.store)
    (h : ∃ n, standard.ofStore e.store = some n ∧ n.StoredLike e) :
    ∃ n, standard.ofStore (e.store ++ "[]") = some n ∧
      n.StoredLike (.array (e.store ++ "[]") t e) := by
  obtain ⟨n, hn, hlike⟩ := h
  exact ⟨_, ofStore_brackets hplain hn, rfl, hlike⟩

/-- By induction on the type, as the catalog goes through it: a layer of nullability and an
enumeration leave no trace in the name, an array leaves one pair of brackets. -/
theorem ofStore_of_standardOfTy {stripped : Bool} {t : Ty} {m : Mapping}
    (h : standardOfTy stripped t = some m) :
    StartsPlain m.store ∧ ∃ n, standard.ofStore m.store = some n ∧ n.StoredLike m := by
  fun_induction standardOfTy stripped t generalizing m with
  | case1 => cases h
  | case2 stripped t _ ih => exact ih h
  | case3 stripped a =>
    obtain ⟨s, hs, rfl⟩ := Option.map_eq_some_iff.mp h
    obtain ⟨t, ht⟩ := ofStore_storeType hs
    exact ⟨startsPlain_storeType hs, _, ht, rfl⟩
  | case4 stripped n u ih =>
    obtain ⟨e, he, rfl⟩ := Option.map_eq_some_iff.mp h
    simpa using ih he
  | case5 =>
    cases h
    have hfound : standard.ofStore "bytea" = some (.bytes "bytea" .byteArray) := rfl
    have hplain : StartsPlain "bytea" := ⟨_, _, rfl, rfl⟩
    exact ⟨hplain, _, hfound, rfl⟩
  | case6 stripped t _ ih | case7 stripped t ih =>
    obtain ⟨e, he, rfl⟩ := Option.map_eq_some_iff.mp h
    obtain ⟨hplain, hfound⟩ := ih he
    exact ⟨hplain.append "[]", exists_ofStore_array _ hplain hfound⟩
  | case8 =>
    cases h
    have hfound : standard.ofStore "jsonb" = some (.json "jsonb" .string true) := rfl
    have hplain : StartsPlain "jsonb" := ⟨_, _, rfl, rfl⟩
    exact ⟨hplain, _, hfound, rfl, rfl⟩
  | case9 => cases h

/-- What is stored is never a nullable type, and one layer of nullability is looked through. -/
theorem ty_of_standardOfTy {stripped : Bool} {t : Ty} {m : Mapping}
    (h : standardOfTy stripped t = some m) :
    m.ty = t.stripNullable ∧ (stripped = true → t.stripNullable = t) := by
  fun_induction standardOfTy stripped t generalizing m with
  | case1 => cases h
  | case2 stripped t hs ih =>
    obtain ⟨hty, hstrip⟩ := ih h
    exact ⟨hty.trans (hstrip rfl), fun h => absurd h hs⟩
  | case5 | case8 =>
    cases h
    exact ⟨rfl, fun _ => rfl⟩
  | case9 => cases h
  | case4 =>
    obtain ⟨e, -, rfl⟩ := Option.map_eq_some_iff.mp h
    exact ⟨Mapping.ty_withTy _ e, fun _ => rfl⟩
  | case3 | case6 | case7 =>
    obtain ⟨e, -, rfl⟩ := Option.map_eq_some_iff.mp h
    exact ⟨rfl, fun _ => rfl⟩

/-- The name that a type is stored under stands for the way it is stored: for values of the type
without its nullability, with the same store type and kind, and with elements that are stored like
the elements of the type. -/
theorem ofTyAs_of_ofTy {t : Ty} {m : Mapping} (h : standard.ofTy t = some m) :
    ∃ m', standard.ofTyAs t m.store = some m' ∧ m'.store = m.store ∧ m'.ty = m.ty ∧
      m'.StoredLike m := by
  obtain ⟨-, n, hn, hlike⟩ := ofStore_of_standardOfTy h
  have hty : m.ty = t.stripNullable := (ty_of_standardOfTy h).1
  refine ⟨n.withTy t.stripNullable, ?_, ?_, ?_, ?_⟩
  · simp [ofTyAs, hn]
  · simpa using hlike.store
  · simpa using hty.symm
  · simpa using hlike

/-- Lists of arrays of enumerations, of which some may be absent: the name tells only that small
integers are stored. -/
theorem ofTyAs_shades :
    let shade : Ty := .enum "Shade" .byte
    let t : Ty := .nullable (.list (.array (.nullable shade)))
    let m : Mapping := .array "smallint[][]" (.list (.array (.nullable shade)))
      (.array "smallint[]" (.array (.nullable shade)) (.scalar "smallint" shade))
    standard.ofTy t = some m ∧ ∃ m', standard.ofTyAs t "smallint[][]" = some m' ∧
      m'.store = m.store ∧ m'.ty = m.ty ∧ m'.StoredLike m := by
  intro shade t m
  have hm : standard.ofTy t = some m := rfl
  exact ⟨hm, ofTyAs_of_ofTy hm⟩

end Catalog

end QuerySql
