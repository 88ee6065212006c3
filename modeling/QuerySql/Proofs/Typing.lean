import QuerySql.Proofs.Closure.Translation

/-!
# Translated trees are fully typed

Mappings are settled as nodes are built and never later. So over the standard catalog, or one that
only hides some of its answers, every node of a translated tree has a mapping if the catalog has one
for its type.

* `Sql.Typed` is what building keeps, node by node. It says in addition that the document of a path
  has a mapping, which a part read as JSON takes over.
* The one type a row can have is that of a tuple, and tuples are not stored: `Catalog.ofTy_tuple`.
-/

namespace QuerySql

namespace Catalog

/-- Every answer that the catalog has is the answer of the other one. -/
structure Hides (c full : Catalog) : Prop where
  ofTy : ∀ t, c.ofTy t = none ∨ c.ofTy t = full.ofTy t
  ofStore : ∀ s, c.ofStore s = none ∨ c.ofStore s = full.ofStore s

/-- A catalog that withholds types and names answers nothing else for the others. -/
theorem hides_withholding (tys : List Ty) (stores : List String) (c : Catalog) :
    (withholding tys stores c).Hides c := by
  constructor
  · intro t
    show (if _ then _ else _) = none ∨ (if _ then _ else _) = _
    split
    · exact .inl rfl
    · exact .inr rfl
  · intro s
    show (if _ then _ else _) = none ∨ (if _ then _ else _) = _
    split
    · exact .inl rfl
    · exact .inr rfl

/-- The catalog knows all store types that columns are configured with. -/
def Resolves (c : Catalog) (columns : ColumnLookup) : Prop :=
  ∀ source name column store, columns source name = some column → column.store = some store →
    (c.ofStore store).isSome

/-- Rows have no mapping in any catalog that hides answers of the standard one. -/
theorem ofTy_tuple {c : Catalog} (hc : c.Hides standard) {t : Ty} (ht : t.isTuple = true) :
    c.ofTy t = none := by
  have hs : standard.ofTy t = none := by
    unfold Ty.isTuple at ht
    split at ht
    · rfl
    · rfl
    · cases ht
  rcases hc.ofTy t with h | h
  · exact h
  · rw [h, hs]

end Catalog

namespace Sql

/-- The document that a path leads into. -/
def document? : Sql → Option Sql
  | traversal document _ _ _ _ => some document
  | _ => none

/-- The node has a mapping if there is one for its type, and so has the document of a path. -/
structure Typed (c : Catalog) (n : Sql) : Prop where
  mapped : (c.ofTy n.ty).isSome → n.mapping.isSome
  document : ∀ d, n.document? = some d → d.mapping.isSome

theorem document?_fillWith (m : Mapping) (s : Sql) : (fillWith m s).document? = s.document? := by
  fun_cases fillWith m s <;> rfl

theorem mapping_fillWith {m : Mapping} {s : Sql} (h : s.mapping.isSome) :
    (fillWith m s).mapping.isSome := by
  obtain ⟨n, hn⟩ := Option.isSome_iff_exists.mp h
  rw [fillWith_of_mapping hn]
  exact h

/-- A node other than a path, with a mapping if there is one for its type. -/
theorem Typed.of_mapped {c : Catalog} {n : Sql} (hm : (c.ofTy n.ty).isSome → n.mapping.isSome)
    (hd : n.document? = none) : n.Typed c := by
  refine ⟨hm, fun d h => ?_⟩
  rw [hd] at h
  cases h

/-- Filling in a mapping leaves a tree with the mappings that it had. -/
theorem Typed.fillWith {c : Catalog} {s : Sql} (h : s.Typed c) (m : Mapping) :
    (Sql.fillWith m s).Typed c := by
  constructor
  · rw [ty_fillWith]
    exact fun hty => mapping_fillWith (h.mapped hty)
  · rw [document?_fillWith]
    exact h.document

/-- What a path starts from has a mapping. -/
theorem Typed.base {c : Catalog} {s document : Sql} {front : List Sql} (h : s.Typed c)
    (hb : Json.base? s = some (document, front)) : document.mapping.isSome := by
  unfold Json.base? at hb
  split at hb
  next r n t m =>
    split at hb
    next hm =>
      cases hb
      exact Option.isSome_of_any hm
    next => cases hb
  next => cases hb; exact h.document _ rfl
  next => cases hb

end Sql

namespace Builder

variable {b : Builder} {columns : ColumnLookup}

/-- If the catalog has a mapping for the type, a node gets one. -/
theorem isSome_mappingOr {m : Option Mapping} {ty : Ty} (h : (b.catalog.ofTy ty).isSome) :
    (b.mappingOr m ty).isSome := by
  unfold mappingOr
  cases m with
  | none => exact h
  | some m => rfl

/-- Two operands share a mapping if the catalog has one for the type of the left one. -/
theorem isSome_operandMapping {left right : Sql} (h : (b.catalog.ofTy left.ty).isSome) :
    (b.operandMapping left right).isSome := by
  unfold operandMapping
  rw [Option.isSome_or, Option.isSome_or, Option.isSome_or, h]
  simp only [Bool.true_or, Bool.or_true]

/-- Building settles every mapping. -/
theorem keeps_typed (hc : b.catalog.Hides Catalog.standard) (hcols : b.catalog.Resolves columns) :
    b.Keeps columns (Sql.Typed b.catalog) where
  fillWith m _ hs := hs.fillWith m
  typedConst v ty m := .of_mapped isSome_mappingOr rfl
  param name nullable ty := .of_mapped id rfl
  column {source name c} hcol := by
    refine .of_mapped (fun hty => ?_) rfl
    show (c.mapping b.catalog).isSome
    unfold Column.mapping
    -- A store type of its own is one that the catalog resolves. Otherwise the type decides.
    split
    next store hstore =>
      have := hcols source name c store hcol hstore
      unfold Catalog.ofTyAs
      rwa [Option.isSome_map]
    next => exact hty
  call ty m _ _ _ := .of_mapped isSome_mappingOr rfl
  cardinality _ _ := .of_mapped isSome_mappingOr rfl
  documentLength _ {_} _ _ := .of_mapped isSome_mappingOr rfl
  coalesce m _ _ := .of_mapped isSome_mappingOr rfl
  cast ty m _ := .of_mapped isSome_mappingOr rfl
  binary op {left right} m _ _ := by
    unfold Builder.binary
    simp only
    split
    · exact .of_mapped (fun _ => rfl) rfl
    · refine .of_mapped (fun hty => ?_) rfl
      have hshared : (b.operandMapping left right).isSome := isSome_operandMapping hty
      simp only [Sql.mapping, Option.isSome_or, hshared, Bool.or_true]
  unary op {x} hx := by
    cases op with
    | negate => exact .of_mapped hx.mapped rfl
    | not | isNull | isNotNull => exact .of_mapped (fun _ => rfl) rfl
  like _ _ _ _ := .of_mapped (fun _ => rfl) rfl
  regexMatch _ _ _ := .of_mapped (fun _ => rfl) rfl
  postgres op {left right} ty m _ _ := by
    cases ty with
    | none => exact .of_mapped (fun _ => rfl) rfl
    | some ty => exact .of_mapped isSome_mappingOr rfl
  quantified _ _ {_ _} _ _ _ := .of_mapped (fun _ => rfl) rfl
  subscript {array index} _ _ _ := by
    refine .of_mapped (fun hty => ?_) rfl
    have hty : (b.catalog.ofTy ((array.ty.stripNullable.element?).getD .object)).isSome := hty
    simp only [Builder.subscript, Sql.mapping, Option.isSome_or, hty, Bool.or_true]
  newArray ty _ := .of_mapped id rfl
  row {items ty} ht _ := by
    refine .of_mapped (fun hty => ?_) rfl
    -- Tuples have no mapping, so nothing is asked of a row.
    have hnone := Catalog.ofTy_tuple hc ht
    have hty : (b.catalog.ofTy ty).isSome := hty
    rw [hnone] at hty
    cases hty
  textPath hb hs _ := by
    refine ⟨id, fun d h => ?_⟩
    cases h
    exact hs.base hb
  jsonPath ty hb hs _ := by
    have hd := hs.base hb
    refine ⟨fun _ => hd, fun d h => ?_⟩
    cases h
    exact hd

end Builder

namespace Translator

/-- Every node of a translated tree has a mapping if the catalog has one for its type. A row needs
no exception: its type has none. -/
theorem translate_resolves_mappings {columns : ColumnLookup} {options : Options} {catalog : Catalog}
    {t : Translator} {e : Expr} {s n : Sql} (hc : catalog.Hides Catalog.standard)
    (hcols : catalog.Resolves columns)
    (ht : (postgres columns options catalog []).outcome = .ok t)
    (hs : (t.translate e).outcome = .ok s) (hn : n.Within s)
    (hty : (catalog.ofTy n.ty).isSome) : n.mapping.isSome := by
  have hclosed : ∀ b, Builder.ofCatalog catalog = .ok b →
      b.Closed columns (Sql.Each (Sql.Typed catalog)) := by
    intro b hb
    obtain ⟨rfl, -⟩ := Builder.ofCatalog_eq_ok.mp hb
    exact (Builder.keeps_typed hc hcols).closed_each
  have heach := (yields_translate ht hclosed nofun e).of_ok hs
  exact (heach n hn).mapped hty

/-- An element of a column of texts that is stored under a name of its own, over a catalog without
unique identifiers and amounts of money. -/
theorem mapping_of_element :
    let catalog := Catalog.withholding [.guid] ["money"] Catalog.standard
    let tags : Column := { name := "tags", ty := .array .string, store := some "varchar(20)[]" }
    let first := Expr.ofBinary .arrayIndex (.property none "Tags" (.array .string))
      (.ofValue (.int 0))
    ∃ t s, (postgres (fun _ _ => some tags) {} catalog []).outcome = .ok t ∧
      (t.translate first).outcome = .ok s ∧ (catalog.ofTy s.ty).isSome ∧ s.mapping.isSome := by
  intro catalog tags first
  have hcols : catalog.Resolves fun _ _ => some tags := by
    intro _ _ column store hcolumn hstore
    cases hcolumn
    cases hstore
    decide +kernel
  obtain ⟨t, s, ht, hs, hty⟩ := exists_translation
    (postgres (fun _ _ => some tags) {} catalog []) first (fun s => (catalog.ofTy s.ty).isSome)
    (by decide +kernel)
  refine ⟨t, s, ht, hs, hty, ?_⟩
  exact translate_resolves_mappings (Catalog.hides_withholding _ _ _) hcols ht hs .root hty

end Translator

end QuerySql
