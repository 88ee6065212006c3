import QuerySql.Builder
import QuerySql.Proofs.Catalog
import QuerySql.Proofs.StoreNames

/-!
# Items and arrays

An item that is compared with the elements of an array and the array settle each other's mappings:
an item takes the mapping of the elements, an array the mapping of an array of such items, which is
looked up by the item's store type with brackets behind it.

* `Sql.mapping_fillWith_of_takes`: which nodes take a mapping.
* `Mapping.FromCatalog.ofTyAs_brackets`: arrays of what the catalog has are in the catalog.
* `Builder.quantified_settles`: what becomes of the two mappings.
-/

namespace QuerySql

namespace Sql

/-- Whether a node without a mapping takes the one that it is given. -/
def takesMapping : Sql → Bool
  | const _ _ _ | param _ _ _ _ | column _ _ _ _ | call _ _ _ _ | cast _ _ _
  | subscript _ _ _ _ _ | newArray _ _ _ => true
  | binary op _ _ _ _ => !op.isPredicate
  | _ => false

/-- A mapping that a tree takes is the mapping that it has from then on. -/
theorem mapping_fillWith_of_takes {s : Sql} (m : Mapping) (h : s.mapping = none)
    (htakes : s.takesMapping = true) : (fillWith m s).mapping = some m := by
  cases s with
  | newArray items t n =>
    obtain rfl : n = none := h
    rw [fillWith]
    split <;> rfl
  | _ => simp_all [mapping, takesMapping, fillWith]

end Sql

/-- The mapping is an answer of the catalog's. -/
inductive Mapping.FromCatalog : Mapping → Prop
  | ofTy {t : Ty} {m : Mapping} (h : Catalog.standard.ofTy t = some m) : FromCatalog m
  | ofStore {s : String} {m : Mapping} (h : Catalog.standard.ofStore s = some m) : FromCatalog m
  | ofTyAs {t : Ty} {s : String} {m : Mapping} (h : Catalog.standard.ofTyAs t s = some m) :
    FromCatalog m

namespace Mapping.FromCatalog

/-- The store type of an answer is looked up again. -/
theorem exists_ofStore {m : Mapping} (h : m.FromCatalog) :
    Catalog.StartsPlain m.store ∧
      ∃ e, Catalog.standard.ofStore m.store = some e ∧ e.store = m.store := by
  have hstore {s : String} {m : Mapping} (h : Catalog.standard.ofStore s = some m) :
      Catalog.StartsPlain m.store ∧
        ∃ e, Catalog.standard.ofStore m.store = some e ∧ e.store = m.store := by
    have hm : Catalog.ofText s.toList = some m := h
    rw [Catalog.store_of_ofText hm, Catalog.ofStore_ofList, Catalog.ofText_trim]
    have hne : Text.trim s.toList ≠ [] := by
      intro hnil
      rw [← Catalog.ofText_trim, hnil] at hm
      cases hm
    obtain ⟨c, r, htext, hc⟩ := Text.exists_cons_of_trim (Text.trim_trim _) hne
    exact ⟨⟨c, r, by rw [String.toList_ofList, htext], hc⟩, m, hm, Catalog.store_of_ofText hm⟩
  cases h with
  | ofTy h =>
    obtain ⟨hplain, e, he, hlike⟩ := Catalog.ofStore_of_standardOfTy h
    exact ⟨hplain, e, he, hlike.store⟩
  | ofStore h => exact hstore h
  | ofTyAs h =>
    obtain ⟨n, hn, rfl⟩ := Option.map_eq_some_iff.mp h
    simpa using hstore hn

/-- Arrays of what the catalog has are in the catalog, for any type of the arrays. -/
theorem ofTyAs_brackets {m : Mapping} (h : m.FromCatalog) (t : Ty) :
    ∃ e, Catalog.standard.ofTyAs t (m.store ++ "[]") =
      some (.array (m.store ++ "[]") t.stripNullable e) ∧ e.store = m.store := by
  obtain ⟨hplain, e, he, hstore⟩ := h.exists_ofStore
  refine ⟨e, ?_, hstore⟩
  rw [Catalog.ofTyAs, Catalog.ofStore_brackets hplain he]
  rfl

end Mapping.FromCatalog

namespace Builder

/-- The item is stored otherwise than the elements of the array. -/
def Disagree (item array : Sql) : Prop :=
  ∃ m e, item.mapping = some m ∧ array.mapping.bind Mapping.element? = some e ∧ m.store ≠ e.store

/-- What becomes of an item and an array whose mappings are settled against each other. -/
structure Settled (item array item' array' : Sql) : Prop where
  /-- An item with a mapping stays as it is. -/
  item_kept : item.mapping.isSome = true → item' = item
  /-- An array with a mapping stays as it is. -/
  array_kept : array.mapping.isSome = true → array' = array
  /-- An array without one becomes an array of what the item is stored as. -/
  array_of_item : ∀ m, array.mapping = none → array.takesMapping = true →
    item.mapping.or (Catalog.standard.ofTy item.ty) = some m →
    ∃ e, array'.mapping = some (.array (m.store ++ "[]") array.ty.stripNullable e) ∧
      e.store = m.store
  /-- An item without one is stored like the elements. -/
  item_of_array : ∀ e, array.mapping.bind Mapping.element? = some e → item.mapping = none →
    item.takesMapping = true → item'.mapping = some e
  /-- There are two reasons for the two to disagree. -/
  agree : Disagree item' array' → item.mapping.isSome = true ∧ array.mapping.isSome = true ∨
    item.takesMapping = false ∨ array.takesMapping = false

theorem fill_of_isSome {s : Sql} (m : Option Mapping) (h : s.mapping.isSome = true) :
    s.fill m = s := by
  obtain ⟨n, hn⟩ := Option.isSome_iff_exists.mp h
  cases m with
  | none => rfl
  | some m => exact Sql.fillWith_of_mapping hn

variable {b : Builder} {item array : Sql}

/-- An item gets the mapping of the elements. -/
theorem itemMapping_of_element {e : Mapping} (h : array.mapping.bind Mapping.element? = some e) :
    b.itemMapping item array = some e := by
  rw [itemMapping, h, Option.some_or]

section Unmapped

variable (hb : b.catalog = Catalog.standard) (harray : array.mapping = none)

include hb harray

theorem itemMapping_of_unmapped :
    b.itemMapping item array = item.mapping.or (Catalog.standard.ofTy item.ty) := by
  rw [itemMapping, harray, hb, Option.bind_none, Option.none_or]

variable (hitem : ∀ m, item.mapping = some m → m.FromCatalog) {m : Mapping}
  (hm : item.mapping.or (Catalog.standard.ofTy item.ty) = some m)

include hitem hm

/-- An array without a mapping is looked up by what the item is stored as. -/
theorem exists_arrayMapping :
    ∃ e, b.arrayMapping item array =
      some (.array (m.store ++ "[]") array.ty.stripNullable e) ∧ e.store = m.store := by
  have hknown : m.FromCatalog := by
    rcases Option.or_eq_some_iff.mp hm with h | ⟨-, h⟩
    · exact hitem m h
    · exact .ofTy h
  obtain ⟨e, he, hstore⟩ := hknown.ofTyAs_brackets array.ty
  refine ⟨e, ?_, hstore⟩
  rw [arrayMapping, itemMapping_of_unmapped hb harray, hm, harray, hb, Option.none_or,
    Option.bind_some, he]

/-- An array without a mapping gets one over the mapping of the item. -/
theorem mapping_array_of_item (htakes : array.takesMapping = true) :
    ∃ e, (array.fill (b.arrayMapping item array)).mapping =
      some (.array (m.store ++ "[]") array.ty.stripNullable e) ∧ e.store = m.store := by
  obtain ⟨e, he, hstore⟩ := exists_arrayMapping hb harray hitem hm
  refine ⟨e, ?_, hstore⟩
  rw [he]
  exact Sql.mapping_fillWith_of_takes _ harray htakes

omit hitem in
theorem mapping_item_of_default (htakes : item.mapping.isSome = true ∨ item.takesMapping = true) :
    (item.fill (b.itemMapping item array)).mapping = some m := by
  rw [itemMapping_of_unmapped hb harray, hm]
  cases hmapped : item.mapping with
  | some n =>
    rw [hmapped, Option.some_or] at hm
    rw [fill_of_isSome _ (by rw [hmapped]; rfl), hmapped, hm]
  | none =>
    rw [hmapped] at htakes
    exact Sql.mapping_fillWith_of_takes m hmapped (htakes.resolve_left (by simp))

end Unmapped

/-- An item without a mapping is stored as the elements are. -/
theorem mapping_item_of_element {e : Mapping} (h : array.mapping.bind Mapping.element? = some e)
    (hitem : item.mapping = none) (htakes : item.takesMapping = true) :
    (item.fill (b.itemMapping item array)).mapping = some e := by
  rw [itemMapping_of_element h]
  exact Sql.mapping_fillWith_of_takes e hitem htakes

/-- `ANY` and `ALL` settle the two mappings, whatever the comparison is. -/
theorem quantified_settles (hb : b.catalog = Catalog.standard)
    (hitem : ∀ m, item.mapping = some m → m.FromCatalog) (q : Quantifier) (op : ElementOp) :
    ∃ item' array', b.quantified q op item array =
        .quantified q op item' array' (some b.boolMapping) ∧
      Settled item array item' array' := by
  refine ⟨_, _, rfl, ?_⟩
  refine
    { item_kept := fill_of_isSome _
      array_kept := fill_of_isSome _
      array_of_item := fun m harray htakes hm =>
        mapping_array_of_item hb harray hitem hm htakes
      item_of_array := fun e => mapping_item_of_element
      agree := ?agree }
  rintro ⟨m, e, hm, he, hdiffer⟩
  by_contra hnone
  simp only [not_or, Bool.not_eq_false] at hnone
  obtain ⟨hboth, htakesItem, htakesArray⟩ := hnone
  cases harray : array.mapping with
  -- The array has a mapping, so the item has none, and gets that of the elements.
  | some a =>
    have hunmapped : item.mapping = none := by
      rw [harray] at hboth
      simpa using hboth
    rw [fill_of_isSome _ (by rw [harray]; rfl)] at he
    rw [mapping_item_of_element he hunmapped htakesItem] at hm
    exact hdiffer (by rw [Option.some.inj hm])
  | none =>
    cases hdefault : item.mapping.or (Catalog.standard.ofTy item.ty) with
    | none =>
      have hunmapped := (Option.or_eq_none_iff.mp hdefault).1
      rw [itemMapping_of_unmapped hb harray, hdefault, Sql.fill_none, hunmapped] at hm
      cases hm
    -- The array gets a mapping over the one that the item has or is given.
    | some n =>
      rw [mapping_item_of_default hb harray hdefault (.inr htakesItem)] at hm
      obtain ⟨e', he', hstore⟩ := mapping_array_of_item hb harray hitem hdefault htakesArray
      rw [he', Option.bind_some] at he
      obtain rfl : m = n := (Option.some.inj hm).symm
      obtain rfl : e = e' := (Option.some.inj he).symm
      exact hdiffer hstore.symm

/-- A parameter without a mapping becomes an array of texts of the length that the column has. -/
theorem any_of_codes :
    let b : Builder := ⟨Catalog.standard, .scalar "boolean" .bool, .scalar "integer" .int⟩
    let code : Sql := .column ⟨none, "code"⟩ false .string (some (.scalar "varchar(20)" .string))
    let codes : Sql := .param "codes" false (.array .string) none
    ∃ codes' e, b.quantified .any .equal code codes =
        .quantified .any .equal code codes' (some b.boolMapping) ∧
      codes'.mapping = some (.array "varchar(20)[]" (.array .string) e) ∧
      e.store = "varchar(20)" := by
  intro b code codes
  have hcode : ∀ m, code.mapping = some m → m.FromCatalog := by
    intro m hm
    have hfound : Catalog.standard.ofStore "varchar(20)" = some m := by
      rw [← hm]
      decide +kernel
    exact .ofStore hfound
  obtain ⟨code', codes', hmade, hsettled⟩ := quantified_settles (b := b) rfl hcode .any .equal
  obtain rfl : code' = code := hsettled.item_kept rfl
  have hcodes : codes.mapping = none := rfl
  have htakes : codes.takesMapping = true := rfl
  have hstored : code.mapping.or (Catalog.standard.ofTy code.ty) =
      some (.scalar "varchar(20)" .string) := rfl
  obtain ⟨e, he, hstore⟩ := hsettled.array_of_item _ hcodes htakes hstored
  exact ⟨codes', e, hmade, he, hstore⟩

end Builder

end QuerySql
