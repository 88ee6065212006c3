import QuerySql.Proofs.Families

/-!
# Operands of functions on documents

A path into a document is read as JSON or as a text, and a text is no document. Whoever asks for the
length of a document asks it of JSON, whatever a path was read as before. The other functions on
documents, and the operators, take every path for JSON and leave it as it is. So a path that is read
as a text stays one where a document is wanted.

* `Sql.OnDocuments`: no operand that is to be a document is a path that is read as a text.
* `Sql.onDocuments_iff`: where lengths are asked of documents, only other operands can be texts.
* `Scalar.Documents.exists_translate`: what is read as a text is so before and after a call of a
  function on documents.
* `Translator.on_documents_iff_no_text`, and `Translator.kind_of_text`, where a text is given.
-/

namespace QuerySql

/-! ## Texts -/

namespace Sql

theorem isTextPath_fillWith (m : Mapping) (s : Sql) : (s.fillWith m).isTextPath = s.isTextPath := by
  fun_cases fillWith m s <;> rfl

theorem isTextPath_fill (m : Option Mapping) (s : Sql) :
    (s.fill m).isTextPath = s.isTextPath := by
  cases m with
  | none => rfl
  | some m => exact isTextPath_fillWith m s

theorem isTextPath_eq_false {s : Sql} (h : s.isTraversal = false) : s.isTextPath = false := by
  cases s with
  | traversal => cases h
  | _ => rfl

end Sql

/-! ## Operands -/

/-- The operands of the operator that are to be documents. The operators for containment are
operators on arrays and label paths as well, and are taken for those on documents here. -/
def PostgresOp.documents {α : Type} (op : PostgresOp) (left right : α) : List α :=
  match op with
  | .contains | .containedBy => [left, right]
  | .jsonExists | .jsonExistsAny | .jsonExistsAll => [left]
  | _ => []

theorem PostgresOp.documents_map {α β : Type} (op : PostgresOp) (f : α → β) (left right : α) :
    op.documents (f left) (f right) = (op.documents left right).map f := by
  cases op <;> rfl

namespace Sql

/-- The functions that ask for the kind of a document. -/
def kindFunctions : List String := ["json_typeof", "jsonb_typeof"]

/-- The operands that are to be documents. -/
def documents : Sql → List Sql
  | postgres op left right _ _ => op.documents left right
  | call fn args _ _ => if fn.name ∈ kindFunctions ++ Function.documentLengths then args else []
  | _ => []

/-- The documents among the arguments of a call are all of them or none. -/
theorem mem_documents_call {fn : Function} {args : List Sql} {ty : Ty} {m : Option Mapping}
    {x : Sql} : x ∈ (call fn args ty m).documents ↔
      (fn.name ∈ kindFunctions ∨ fn.name ∈ Function.documentLengths) ∧ x ∈ args := by
  rw [← List.mem_append, documents]
  split
  next h => exact (and_iff_right h).symm
  next h => exact ⟨nofun, fun hx => absurd hx.1 h⟩

/-- No operand that is to be a document is a path that is read as a text. -/
def OnDocuments (n : Sql) : Prop := ∀ x ∈ n.documents, x.isTextPath = false

/-- A text where a document is wanted: an operand of an operator, or what the kind is asked of. -/
inductive TextGap : Sql → Prop
  | operand {op : PostgresOp} {left right x : Sql} {ty : Ty} {m : Option Mapping} :
    x ∈ (postgres op left right ty m).documents → x.isTextPath = true →
    TextGap (postgres op left right ty m)
  | kind {fn : Function} {args : List Sql} {x : Sql} {ty : Ty} {m : Option Mapping} :
    fn.name ∈ kindFunctions → x ∈ args → x.isTextPath = true → TextGap (call fn args ty m)

/-- The length of a document is not asked of a text. -/
def MeasuresDocuments : Sql → Prop
  | call fn args _ _ => fn.name ∈ Function.documentLengths → ∀ x ∈ args, x.isTextPath = false
  | _ => True

/-- A mapping has no part in which functions measure documents. -/
theorem MeasuresDocuments.fillWith {s : Sql} (h : s.MeasuresDocuments) (m : Mapping) :
    (s.fillWith m).MeasuresDocuments := by
  revert h
  fun_cases Sql.fillWith m s <;> exact id

end Sql

open Sql (isTextPath_fill)

theorem Builder.isTextPath_fillDefault {b : Builder} (s : Sql) :
    (b.fillDefault s).isTextPath = s.isTextPath := by
  unfold fillDefault
  split
  · rfl
  · exact isTextPath_fill _ s

/-- Whoever asks for the length of a path reads it as JSON first. -/
theorem Builder.keeps_measuresDocuments (b : Builder) (columns : ColumnLookup) :
    b.Keeps columns Sql.MeasuresDocuments where
  fillWith m _ h := h.fillWith m
  typedConst _ _ _ := trivial
  param _ _ _ := trivial
  column _ := trivial
  call _ _ _ hn _ := fun h => absurd (List.mem_append_right _ h) hn
  cardinality _ _ := fun h => absurd h (by decide)
  documentLength binary {x} ht _ := fun _ => List.forall_mem_singleton.mpr
    ((isTextPath_fillDefault x).trans ht)
  coalesce _ _ _ := fun h => absurd h (show "COALESCE" ∉ Function.documentLengths by decide)
  cast _ _ _ := trivial
  binary op {left right} m _ _ := by
    unfold Builder.binary
    simp only
    split <;> trivial
  unary op {x} _ := by cases op <;> trivial
  like _ _ _ _ := trivial
  regexMatch _ _ _ := trivial
  postgres op {left right} ty m _ _ := by cases ty <;> trivial
  quantified _ _ {_ _} _ _ _ := trivial
  subscript _ _ _ := trivial
  newArray _ _ := trivial
  row _ _ := trivial
  textPath _ _ _ := trivial
  jsonPath _ _ _ _ := trivial

namespace Sql

variable {n : Sql}

theorem TextGap.not_onDocuments (h : n.TextGap) : ¬ n.OnDocuments := by
  intro hdocuments
  cases h with
  | operand hx htext =>
    rw [hdocuments _ hx] at htext
    cases htext
  | kind hname hx htext =>
    rw [hdocuments _ (mem_documents_call.mpr ⟨.inl hname, hx⟩)] at htext
    cases htext

/-- Where lengths are asked of documents, there are no other texts than in a gap. -/
theorem onDocuments_iff (h : n.MeasuresDocuments) : n.OnDocuments ↔ ¬ n.TextGap := by
  refine ⟨fun hdocuments hgap => hgap.not_onDocuments hdocuments, fun hgap x hx => ?_⟩
  cases n with
  | postgres op left right ty m => exact Bool.eq_false_iff.mpr fun ht => hgap (.operand hx ht)
  | call fn args ty m =>
    obtain ⟨hname | hname, hx⟩ := mem_documents_call.mp hx
    · exact Bool.eq_false_iff.mpr fun ht => hgap (.kind hname hx ht)
    · exact h hname x hx
  | _ => cases hx

end Sql

/-! ## Calls -/

/-- The arguments of the function that are to be documents. The first one is what database functions
are called on. -/
def JsonMethod.documents {α : Type} (k : JsonMethod) (args : List α) : List α :=
  match k, args with
  | .contains, [_, x, y] | .contained, [_, x, y] => [x, y]
  | .exists, [_, x, _] | .existAny, [_, x, _] | .existAll, [_, x, _] => [x]
  | .typeof, [_, x] => [x]
  | _, _ => []

theorem JsonMethod.documents_map {α β : Type} (k : JsonMethod) (f : α → β) (args : List α) :
    k.documents (args.map f) = (k.documents args).map f := by
  rcases args with _ | ⟨_, _ | ⟨_, _ | ⟨_, _ | ⟨_, _⟩⟩⟩⟩ <;> cases k <;> rfl

theorem JsonMethod.mem_of_mem_documents {α : Type} {k : JsonMethod} {args : List α} {x : α}
    (h : x ∈ k.documents args) : x ∈ args := by
  revert h
  fun_cases documents k args
  case case1 | case2 | case6 => exact List.mem_cons_of_mem _
  case case3 | case4 | case5 =>
    intro h
    cases List.mem_singleton.mp h
    exact List.mem_cons_of_mem _ List.mem_cons_self
  case case7 => exact nofun

namespace Scalar.Documents

variable {b : Builder}

/-- What is taken for JSON is read as a text if it was before. -/
theorem isTextPath_asJson (s : Sql) : (asJson b s).isTextPath = s.isTextPath := by
  unfold asJson
  split
  · rfl
  next h =>
    have htraversal : s.isTraversal = false :=
      (Bool.or_eq_false_iff.mp (Bool.eq_false_iff.mpr h)).1
    simp only
    split
    · exact (Sql.isTextPath_eq_false htraversal).symm
    · exact isTextPath_fill _ s

/-- Taking operands as JSON makes no text of a path and no path of a text. -/
theorem forall_asJson (xs : List Sql) :
    (∀ x ∈ xs.map (asJson b), x.isTextPath = false) ↔ ∀ x ∈ xs, x.isTextPath = false := by
  simp only [List.forall_mem_map, isTextPath_asJson]

theorem onDocuments_predicate {op : PostgresOp} {left right : Sql} :
    (b.postgresPredicate op left right).OnDocuments ↔
      ∀ x ∈ op.documents left right, x.isTextPath = false := by
  show (∀ x ∈ op.documents (left.fill _) (right.fill _), _) ↔ _
  rw [PostgresOp.documents_map]
  simp only [List.forall_mem_map, isTextPath_fill]

/-- The question for the kind of an operand is built, and is on a document if the operand is. -/
theorem exists_typeOf (x : Sql) :
    ∃ s, (typeOf b x).outcome = .ok s ∧ (s.OnDocuments ↔ x.isTextPath = false) := by
  unfold typeOf
  refine ⟨_, rfl, ?_⟩
  have hname : (if isBinary x then "jsonb_typeof" else "json_typeof") ∈ Sql.kindFunctions := by
    split <;> decide
  simp only [Sql.OnDocuments, Sql.mem_documents_call, hname, true_or, true_and, List.map_cons,
    List.map_nil, List.mem_singleton, forall_eq, Builder.isTextPath_fillDefault]

/-- A function on documents is given documents just if none of its arguments is read as a text. -/
theorem exists_translate {k : JsonMethod} {c : ScalarCall}
    (hk : Known.identify? c.method = some (.json k)) (hargs : k.documents c.args ≠ []) :
    ∃ s, ((translator b).translate c).outcome = .ok s ∧
      (s.OnDocuments ↔ ∀ x ∈ k.documents c.args, x.isTextPath = false) := by
  obtain ⟨receiver, m, args⟩ := c
  change Known.identify? m = _ at hk
  revert hargs
  fun_cases JsonMethod.documents k args
  case case1 _ x y | case2 _ x y =>
    intro _
    refine ⟨_, by simp only [translator, hk]; rfl, ?_⟩
    exact onDocuments_predicate.trans (forall_asJson [x, y])
  case case3 _ x _ | case4 _ x _ | case5 _ x _ =>
    intro _
    refine ⟨_, by simp only [translator, hk]; rfl, ?_⟩
    exact onDocuments_predicate.trans (forall_asJson [x])
  case case6 _ x =>
    intro _
    obtain ⟨s, hs, hdocuments⟩ := exists_typeOf (b := b) (asJson b x)
    refine ⟨s, by simp only [translator, hk]; exact hs, hdocuments.trans ?_⟩
    rw [isTextPath_asJson, List.forall_mem_singleton]
  case case7 => exact fun h => absurd rfl h

end Scalar.Documents

/-! ## Translators -/

namespace Translator

/-- In translated trees no text is given where a document is wanted exactly if there is no gap: the
length of a document is never asked of a text. A call of a function on documents makes no gap
exactly if none of its arguments that are to be documents becomes a path that is read as a text. -/
theorem on_documents_iff_no_text {columns : ColumnLookup} {options : Options} {catalog : Catalog}
    {added : List ScalarTranslator} {t : Translator}
    (ht : (postgres columns options catalog added).outcome = .ok t)
    (hadded : ∀ s ∈ added, s.Respects (Sql.Each Sql.MeasuresDocuments)) :
    (∀ (e : Expr) (s n : Sql), (t.translate e).outcome = .ok s → n.Within s →
      (n.OnDocuments ↔ ¬ n.TextGap)) ∧
    ∀ (k : JsonMethod) (m : Method) (receiver : Option Expr) (args : List Expr) (s : Sql),
      Known.identify? m = some (.json k) → k.documents args ≠ [] →
      (t.translate (.call m receiver args)).outcome = .ok s →
      (s.OnDocuments ↔
        ∀ d ∈ k.documents args, ∀ x, (t.translate d).outcome = .ok x → x.isTextPath = false) := by
  constructor
  · intro e s n hs hn
    have hclosed (b : Builder) : b.Closed columns (Sql.Each Sql.MeasuresDocuments) :=
      (Builder.keeps_measuresDocuments b columns).closed_each
    have heach := (yields_translate ht (fun b _ => hclosed b) hadded e).of_ok hs
    exact Sql.onDocuments_iff (heach n hn)
  · intro k m receiver args s hm hargs hs
    obtain ⟨b, p, -, -, rfl⟩ := of_postgres ht
    let r : Relational := ⟨b, Scalar.builtIn b options ++ added, columns⟩
    have hcall : (p.run r (.call m receiver args)).outcome = .ok s := hs
    rw [Postgres.outcome_call_of_known hm nofun nofun] at hcall
    obtain ⟨x, hx, hcall⟩ := Run.outcome_bind_eq_ok.mp hcall
    obtain ⟨xs, hxs, -⟩ := Run.outcome_bind_eq_ok.mp hcall
    -- `g` is what each argument is translated to.
    obtain ⟨g, rfl, hg⟩ := Attempt.exists_map_of_all (.const .null .object none) hxs
    let c : ScalarCall := ⟨x, m, args.map g⟩
    have hdocuments : k.documents c.args = (k.documents args).map g := k.documents_map g args
    obtain ⟨s', hs', hiff⟩ := Scalar.Documents.exists_translate (b := b) (c := c) hm (by
      rw [hdocuments]
      exact fun h => hargs (List.map_eq_nil_iff.mp h))
    have hsame := Postgres.outcome_call_of_family rfl hm nofun nofun hx hxs (f := .documents) hs'
    cases hs.symm.trans hsame
    rw [hiff, hdocuments, List.forall_mem_map]
    refine forall₂_congr fun d hd => ?_
    have htranslate : (p.run r d).outcome = .ok (g d) := hg d (k.mem_of_mem_documents hd)
    constructor
    · intro htext y hy
      cases htranslate.symm.trans hy
      exact htext
    · exact fun h => h _ htranslate

/-! ### A customer, as a document -/

/-- A member of the document. -/
def customerMember (name : String) (ty : Ty) : Expr :=
  .binary .arrayIndex (.property none "Customer" (.document "Customer"))
    (.const (.string name) .string) ty

/-- The column of documents. -/
def customerColumns : ColumnLookup := fun _ _ =>
  some { name := "customer", ty := .document "Customer" }

/-- Whether the address has a city: the address is read as JSON. -/
theorem exists_in_address :
    let address := customerMember "Address" (.document "Address")
    let e := Expr.call (Known.close (.json .exists) []) none
      [.dbFunctions, address, .const (.string "City") .string]
    ∃ t s, (postgres customerColumns {} Catalog.standard []).outcome = .ok t ∧
      (t.translate e).outcome = .ok s ∧ s.documents.all Sql.isTraversal = true ∧
      s.documents ≠ [] ∧ s.OnDocuments ∧ ¬ s.TextGap := by
  intro address e
  obtain ⟨t, ht, hfound⟩ := exists_translations (postgres customerColumns {} Catalog.standard [])
    [(address, fun x => !x.isTextPath),
      (e, fun s => s.documents.all Sql.isTraversal && !s.documents.isEmpty)]
    (by decide +kernel)
  obtain ⟨x, hx, htext⟩ := hfound _ _ (.head _)
  obtain ⟨s, hs, htest⟩ := hfound _ _ (.tail _ (.head _))
  obtain ⟨htraversal, hne⟩ := Bool.and_eq_true_iff.mp htest
  obtain ⟨hnode, hcall⟩ := on_documents_iff_no_text ht nofun
  have hdocuments : s.OnDocuments := by
    refine (hcall .exists _ none [.dbFunctions, address, _] s rfl nofun hs).mpr fun d hd y hy => ?_
    cases List.mem_singleton.mp hd
    cases hx.symm.trans hy
    exact Bool.not_eq_eq_eq_not.mp htext
  refine ⟨t, s, ht, hs, htraversal, ?_, hdocuments, (hnode e s s hs .root).mp hdocuments⟩
  intro hnil
  rw [hnil] at hne
  cases hne

/-- The kind of a name that is read as a text: `jsonb_typeof` is given a text. -/
theorem kind_of_text :
    let e := Expr.call (Known.close (.json .typeof) []) none
      [.dbFunctions, customerMember "Name" .string]
    ∃ t, ∃ s n : Sql, (postgres customerColumns {} Catalog.standard []).outcome = .ok t ∧
      (t.translate e).outcome = .ok s ∧ n.Within s ∧ ¬ n.OnDocuments := by
  intro e
  obtain ⟨t, s, ht, hs, htest⟩ := exists_translation
    (postgres customerColumns {} Catalog.standard []) e
    (fun s => s.documents.any Sql.isTextPath) (by decide +kernel)
  refine ⟨t, s, s, ht, hs, .root, fun hdocuments => ?_⟩
  obtain ⟨x, hx, htext⟩ := List.any_eq_true.mp htest
  rw [hdocuments x hx] at htext
  cases htext

end Translator

end QuerySql
