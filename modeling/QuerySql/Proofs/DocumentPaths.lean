import QuerySql.Proofs.Steps

/-!
# Chains of accesses into a document

Access to a member, or an element, of what an access to a JSON column yielded is not translated by
itself: the path of the translation before is made longer, and read anew. So a chain of accesses is
one path into the column, whatever was read in between, as long as it is a text or stays JSON.

* `Sql.LeadsInto`: what is needed of a tree for a path to go on from it.
* `Json.leadsInto_readAs`: a path that is read as a text or as JSON can be followed further.
* `Postgres.outcome_member`: one access makes the path longer, by its index as it stands.
* `Postgres.exists_members`, `Postgres.outcome_members`: a whole chain, by induction.
* `Translator.members_are_one_path`: what a chain is translated to.
-/

namespace QuerySql

/-! ## Chains -/

/-- One access of a chain: the index, and the type of what is accessed. -/
structure Expr.Access where
  index : Expr
  ty : Ty

namespace Expr

/-- A value of the type is a text, or stays JSON when it is read from a document, nullable or not.
-/
def Access.KeepsPath (a : Access) : Prop :=
  a.ty.stripNullable = .string ∨ Json.isStructured a.ty.stripNullable = true

/-- Whether the node is a conversion. -/
def isConversion : Expr → Bool
  | unary op _ _ => op.isConversion
  | _ => false

theorem stripImplicit_eq {e : Expr} (h : e.isConversion = false) : e.stripImplicit = e := by
  cases e with
  | unary op operand ty =>
    have hop : op.isConversion = false := h
    simp only [stripImplicit, hop, Bool.false_and, Bool.false_eq_true, if_false]
  | _ => rfl

/-- What is accessed in the value of the expression. -/
def member (e : Expr) (a : Access) : Expr := .binary .arrayIndex e a.index a.ty

/-- What is accessed by a chain of accesses, one after the other. -/
def members (e : Expr) (accesses : List Access) : Expr := accesses.foldl member e

theorem members_concat (e : Expr) (front : List Access) (last : Access) :
    e.members (front ++ [last]) = (e.members front).member last := by
  rw [members, List.foldl_append]
  rfl

end Expr

/-! ## Paths -/

/-- Nothing is filled in where the default mapping is there already. -/
theorem Builder.fillDefault_of_mapping {b : Builder} {s : Sql}
    (h : s.mapping = b.catalog.ofTy s.ty) : b.fillDefault s = s := by
  unfold fillDefault
  rw [← h]
  cases s.mapping <;> rfl

/-- The tree, which stands for an expression of the type, is a JSON column or a path into one, with
which access to its value goes on. -/
structure Sql.LeadsInto (s : Sql) (ty : Ty) (column : Sql) (path : List Sql) : Prop where
  base : Json.base? s = some (column, path)
  document : Postgres.isBytes ty s = false

theorem Postgres.isBytes_of_mapping {ty : Ty} {s : Sql} {m : Mapping} (hs : s.mapping = some m)
    (hm : m.isBytes = false) : isBytes ty s = false := by
  rw [isBytes, hs, Option.all_some, hm, Bool.and_false]

theorem Mapping.isBytes_of_isJson {m : Mapping} (h : m.isJson = true) : m.isBytes = false := by
  cases m with
  | json _ _ _ => rfl
  | _ => cases h

namespace Json

variable {b : Builder} {column : Sql} {path : List Sql} {m : Mapping} {ty : Ty}

theorem readAs_text (h : ty.stripNullable = .string) :
    readAs b column path ty = .traversal column path true .string (b.catalog.ofTy .string) :=
  if_pos h

theorem readAs_structured (h : isStructured ty.stripNullable = true) :
    readAs b column path ty = .traversal column path false ty.stripNullable column.mapping := by
  have hne : ty.stripNullable ≠ .string := by
    intro heq
    rw [heq] at h
    cases h
  exact (if_neg hne).trans (if_pos h)

theorem readAs_scalar (h : ty.stripNullable ≠ .string)
    (h' : isStructured ty.stripNullable = false) :
    readAs b column path ty =
      .cast (.traversal column path true .string (b.catalog.ofTy .string)) ty.stripNullable
        (b.catalog.ofTy ty.stripNullable) := by
  have hcast : readAs b column path ty =
      b.cast (.traversal column path true .string (b.catalog.ofTy .string)) ty.stripNullable none :=
    (if_neg h).trans (if_neg (Bool.eq_false_iff.mp h'))
  rw [hcast, Builder.cast, Builder.fillDefault_of_mapping rfl]
  rfl

/-- A path that is read as a text, or stays JSON, can be followed further. A text has no type of
byte strings, and JSON is stored as the column is. -/
theorem leadsInto_readAs (hm : column.mapping = some m) (hj : m.isJson = true)
    (h : ty.stripNullable = .string ∨ isStructured ty.stripNullable = true) :
    (readAs b column path ty).LeadsInto ty column path := by
  rcases h with h | h
  · rw [readAs_text h]
    refine ⟨rfl, ?_⟩
    rw [Postgres.isBytes, h]
    rfl
  · rw [readAs_structured h]
    exact ⟨rfl, Postgres.isBytes_of_mapping hm (Mapping.isBytes_of_isJson hj)⟩

end Json

namespace Postgres

variable {p : Postgres} {r : Relational} {column s q : Sql} {e : Expr} {path : List Sql}

/-- One access makes the path longer, by its index as it stands. -/
theorem outcome_member (he : (p.run r e).outcome = .ok s) (hstrip : e.isConversion = false)
    (hs : s.LeadsInto e.ty column path) {a : Expr.Access} (ha : a.index.isConversion = false)
    (hq : (p.run r a.index).outcome = .ok q) :
    (p.run r (e.member a)).outcome =
      .ok (Json.readAs p.builder column (path ++ [p.builder.fillDefault q]) a.ty) := by
  have hmember : Json.member? p.builder s q a.ty =
      some (Json.readAs p.builder column (path ++ [p.builder.fillDefault q]) a.ty) := by
    rw [Json.member?, hs.base]
    rfl
  rw [Expr.member, run_arrayIndex, arrayIndex, Expr.stripImplicit_eq hstrip,
    Expr.stripImplicit_eq ha, Attempt.outcome_bind_ok (Attempt.outcome_both_ok he hq)]
  simp only [hs.document, Bool.false_eq_true, if_false, hmember]
  rfl

/-- By induction on the chain, whose first access makes the path longer and leaves a path that the
rest goes on from. -/
theorem exists_members {m : Mapping} (hm : column.mapping = some m) (hj : m.isJson = true)
    {translated : Expr → Sql} {accesses : List Expr.Access}
    (hindex : ∀ a ∈ accesses, a.index.isConversion = false ∧
      (p.run r a.index).outcome = .ok (translated a.index))
    (hkeeps : ∀ a ∈ accesses, a.KeepsPath) (he : (p.run r e).outcome = .ok s)
    (hstrip : e.isConversion = false) (hs : s.LeadsInto e.ty column path) :
    ∃ s', (p.run r (e.members accesses)).outcome = .ok s' ∧
      (e.members accesses).isConversion = false ∧
      s'.LeadsInto (e.members accesses).ty column
        (path ++ accesses.map fun a => p.builder.fillDefault (translated a.index)) := by
  induction accesses generalizing e s path with
  | nil =>
    rw [List.map_nil, List.append_nil]
    exact ⟨s, he, hstrip, hs⟩
  | cons a accesses ih =>
    obtain ⟨⟨hconversion, hq⟩, hindex⟩ := List.forall_mem_cons.mp hindex
    obtain ⟨hkeep, hkeeps⟩ := List.forall_mem_cons.mp hkeeps
    have hmember := outcome_member he hstrip hs hconversion hq
    obtain ⟨s', hs', hstrip', hleads⟩ :=
      ih hindex hkeeps hmember rfl (Json.leadsInto_readAs hm hj hkeep)
    rw [List.append_assoc] at hleads
    exact ⟨s', hs', hstrip', hleads⟩

/-- All accesses make the path longer, and the last one says what it is read as. -/
theorem outcome_members {m : Mapping} (hm : column.mapping = some m) (hj : m.isJson = true)
    {translated : Expr → Sql} {front : List Expr.Access} {last : Expr.Access}
    (hindex : ∀ a ∈ front ++ [last], a.index.isConversion = false ∧
      (p.run r a.index).outcome = .ok (translated a.index))
    (hkeeps : ∀ a ∈ front, a.KeepsPath) (he : (p.run r e).outcome = .ok s)
    (hstrip : e.isConversion = false) (hs : s.LeadsInto e.ty column path) :
    (p.run r (e.members (front ++ [last]))).outcome =
      .ok (Json.readAs p.builder column (path ++ (front ++ [last]).map fun a =>
        p.builder.fillDefault (translated a.index)) last.ty) := by
  obtain ⟨hfront, hlast⟩ := List.forall_mem_append.mp hindex
  obtain ⟨hconversion, hq⟩ := hlast last List.mem_cons_self
  obtain ⟨s', hs', hstrip', hleads⟩ := exists_members hm hj hfront hkeeps he hstrip hs
  rw [Expr.members_concat, outcome_member hs' hstrip' hleads hconversion hq, List.map_append,
    List.append_assoc]
  rfl

/-- A property is the column that it is mapped to. -/
theorem run_property {source : Option String} {name : String} {ty : Ty} {c : Column}
    (hc : r.columns source name = some c) :
    (p.run r (.property source name ty)).outcome =
      .ok (.column ⟨c.table.or source, c.name⟩ c.nullable c.ty (c.mapping r.builder.catalog)) := by
  rw [run_eq]
  show (r.property source name).outcome = _
  unfold Relational.property
  rw [hc]
  rfl

end Postgres

/-! ## Translators -/

namespace Translator

/-- A chain of accesses into a JSON column, of which all but the last yield a text or what stays
JSON, is one path into the column. The path consists of the indexes in their order, as they stand
but for default mappings. Nullability aside, it is read as a text if the last access yields one, as
JSON of the column's own form if that stays JSON, and is cast once from a text otherwise. -/
theorem members_are_one_path {columns : ColumnLookup} {options : Options} {catalog : Catalog}
    {added : List ScalarTranslator} {t : Translator}
    (ht : (postgres columns options catalog added).outcome = .ok t) (source : Option String)
    (name : String) (ty : Ty) {c : Column} {m : Mapping} (hc : columns source name = some c)
    (hm : c.mapping catalog = some m) (hj : m.isJson = true) {front : List Expr.Access}
    {last : Expr.Access} {translated : Expr → Sql}
    (hindex : ∀ a ∈ front ++ [last], a.index.isConversion = false ∧
      (t.translate a.index).outcome = .ok (translated a.index))
    (hkeeps : ∀ a ∈ front, a.KeepsPath) :
    let chain := (Expr.property source name ty).members (front ++ [last])
    let column : Sql := .column ⟨c.table.or source, c.name⟩ c.nullable c.ty (some m)
    let path := (front ++ [last]).map fun a => t.provider.builder.fillDefault (translated a.index)
    let text : Sql := .traversal column path true .string (catalog.ofTy .string)
    let lastTy := last.ty.stripNullable
    (t.translate (.property source name ty)).outcome = .ok column ∧
      (lastTy = .string → (t.translate chain).outcome = .ok text) ∧
      (Json.isStructured lastTy = true →
        (t.translate chain).outcome = .ok (.traversal column path false lastTy (some m))) ∧
      (lastTy ≠ .string → Json.isStructured lastTy = false →
        (t.translate chain).outcome = .ok (.cast text lastTy (catalog.ofTy lastTy))) := by
  intro chain column path text lastTy
  obtain ⟨b, p, hb, hp, rfl⟩ := of_postgres ht
  obtain ⟨rfl, -⟩ := Builder.ofCatalog_eq_ok.mp hb
  cases Postgres.builder_of_ofBuilder hp
  let r : Relational := ⟨p.builder, Scalar.builtIn p.builder options ++ added, columns⟩
  have hcolumn : (p.run r (.property source name ty)).outcome = .ok column := by
    rw [Postgres.run_property hc, hm]
  have hmapping : column.mapping = some m := rfl
  -- The column is the path so far, and no byte string, so each access makes it longer.
  have hleads : column.LeadsInto ty column [] :=
    ⟨if_pos hj, Postgres.isBytes_of_mapping hmapping (Mapping.isBytes_of_isJson hj)⟩
  have hchain : (p.run r chain).outcome = .ok (Json.readAs p.builder column path last.ty) :=
    Postgres.outcome_members hmapping hj hindex hkeeps hcolumn rfl hleads
  exact ⟨hcolumn, fun h => hchain.trans (congrArg Except.ok (Json.readAs_text h)),
    fun h => hchain.trans (congrArg Except.ok (Json.readAs_structured h)),
    fun h h' => hchain.trans (congrArg Except.ok (Json.readAs_scalar h h'))⟩

theorem translate_property {columns : ColumnLookup} {options : Options} {catalog : Catalog}
    {added : List ScalarTranslator} {t : Translator}
    (ht : (postgres columns options catalog added).outcome = .ok t) {source : Option String}
    {name : String} {c : Column} (hc : columns source name = some c) (ty : Ty) :
    (t.translate (.property source name ty)).outcome =
      .ok (.column ⟨c.table.or source, c.name⟩ c.nullable c.ty (c.mapping catalog)) := by
  obtain ⟨b, p, hb, -, rfl⟩ := of_postgres ht
  obtain ⟨rfl, -⟩ := Builder.ofCatalog_eq_ok.mp hb
  exact Postgres.run_property (r := ⟨b, Scalar.builtIn b options ++ added, columns⟩) hc

/-- A constant has the default mapping of its type already. -/
theorem translate_const {columns : ColumnLookup} {options : Options} {catalog : Catalog}
    {added : List ScalarTranslator} {t : Translator}
    (ht : (postgres columns options catalog added).outcome = .ok t) (v : Value) (ty : Ty) :
    (t.translate (.const v ty)).outcome = .ok (.const v ty (catalog.ofTy ty)) ∧
      t.provider.builder.fillDefault (.const v ty (catalog.ofTy ty)) =
        .const v ty (catalog.ofTy ty) := by
  obtain ⟨b, p, hb, hp, rfl⟩ := of_postgres ht
  obtain ⟨rfl, -⟩ := Builder.ofCatalog_eq_ok.mp hb
  constructor
  · show (p.run _ (.const v ty)).outcome = _
    rw [Postgres.run_const]
    rfl
  · exact Builder.fillDefault_of_mapping rfl

/-- The price of the first order of a customer: one path of three steps, cast once. -/
theorem price_of_first_order :
    let customer : Column := { name := "customer", ty := .document "Customer" }
    let key (name : String) : Expr := .const (.string name) .string
    let orders : Expr.Access := ⟨key "Orders", .array (.document "Order")⟩
    let first : Expr.Access := ⟨.const (.int 0) .int, .document "Order"⟩
    let price : Expr.Access := ⟨key "Price", .decimal⟩
    let text : Option Mapping := some (.scalar "text" .string)
    let translatedKey (name : String) : Sql := .const (.string name) .string text
    let path : List Sql := [translatedKey "Orders",
      .const (.int 0) .int (some (.scalar "integer" .int)), translatedKey "Price"]
    let column : Sql := .column ⟨some "c", "customer"⟩ true (.document "Customer")
      (some (.json "jsonb" (.document "Customer") true))
    ∃ t, (postgres (fun _ _ => some customer) {} Catalog.standard []).outcome = .ok t ∧
      orders.KeepsPath ∧ first.KeepsPath ∧
      (t.translate ((Expr.property (some "c") "Customer" (.document "Customer")).members
        [orders, first, price])).outcome =
          .ok (.cast (.traversal column path true .string text) .decimal
            (Catalog.standard.ofTy .decimal)) := by
  intro customer key orders first price text translatedKey path column
  let chain := (Expr.property (some "c") "Customer" (.document "Customer")).members
    [orders, first, price]
  obtain ⟨t, _, ht, -, -⟩ := exists_translation
    (postgres (fun _ _ => some customer) {} Catalog.standard []) chain (fun _ => true)
    (by decide +kernel)
  -- Any expression that is translated is translated to this.
  let translated (e : Expr) : Sql :=
    (t.translate e).outcome.toOption.getD (.const .null .object none)
  have hconst (v : Value) (ty : Ty) :
      (t.translate (.const v ty)).outcome = .ok (translated (.const v ty)) ∧
        t.provider.builder.fillDefault (translated (.const v ty)) =
          .const v ty (Catalog.standard.ofTy ty) := by
    obtain ⟨htranslate, hfilled⟩ := translate_const ht v ty
    simp only [translated, htranslate]
    exact ⟨rfl, hfilled⟩
  have hindex : ∀ a ∈ [orders, first] ++ [price], a.index.isConversion = false ∧
      (t.translate a.index).outcome = .ok (translated a.index) :=
    List.forall_mem_cons.mpr ⟨⟨rfl, (hconst _ _).1⟩, List.forall_mem_cons.mpr
      ⟨⟨rfl, (hconst _ _).1⟩, List.forall_mem_singleton.mpr ⟨rfl, (hconst _ _).1⟩⟩⟩
  have horders : orders.KeepsPath := .inr rfl
  have hfirst : first.KeepsPath := .inr rfl
  obtain ⟨-, -, -, hcast⟩ := members_are_one_path ht (some "c") "Customer" (.document "Customer")
    (m := .json "jsonb" (.document "Customer") true) rfl rfl rfl hindex
    (List.forall_mem_cons.mpr ⟨horders, List.forall_mem_singleton.mpr hfirst⟩)
  refine ⟨t, ht, horders, hfirst, (hcast nofun rfl).trans ?_⟩
  have hpath : ([orders, first] ++ [price]).map (fun a =>
      t.provider.builder.fillDefault (translated a.index)) = path := by
    simp only [List.cons_append, List.nil_append, List.map_cons, List.map_nil, orders, first, price,
      key, (hconst _ _).2]
    rfl
  rw [hpath]
  rfl

end Translator

end QuerySql
