import QuerySql.Proofs.Lambdas
import QuerySql.Proofs.Typing

/-!
# Where the syntax of native arrays is used

Array literals, subscripts, `cardinality` and conditions on elements are for native arrays. Byte
strings and JSON documents have other ways, and which one is used is decided in each place anew.

* `Sql.OnNativeArrays`: if the node has such syntax, it is used on native arrays only.
* `Sql.ArrayGap`: the nodes that are not, from places that do not look at how the array is stored.
  Where a column of documents or a path is measured or subscripted there is no gap, and no test for
  an element has one.
* Whether elements of one array are in another is asked without a look at either of them
  (`Postgres.outcome_testsMember`).

`Sql.Guarded` is what building keeps. It says what has been looked at.
-/

namespace QuerySql

/-! ## How arrays are stored -/

/-- A store type whose name ends in brackets is one of native arrays. -/
theorem Catalog.isForeign_of_brackets {c : Catalog} (hc : c.Hides standard) {ty : Ty}
    {store : String} {m : Mapping} (hm : c.ofTyAs ty (store ++ "[]") = some m) :
    m.isForeign = false := by
  obtain ⟨n, hn, rfl⟩ := Option.map_eq_some_iff.mp hm
  have hstandard : standard.ofStore (store ++ "[]") = some n := by
    rcases hc.ofStore (store ++ "[]") with h | h
    · rw [hn] at h
      cases h
    · rw [← h, hn]
  have hreversed : (store ++ "[]").toList.reverse = ']' :: '[' :: store.toList.reverse := by simp
  simp only [standard, hreversed, standardOfReversed] at hstandard
  obtain ⟨e, -, rfl⟩ := Option.map_eq_some_iff.mp hstandard
  rfl

namespace Sql

variable {s : Sql} {m : Option Mapping}

theorem isForeign_of_unmapped (h : s.mapping = none) : s.isForeign = false := by
  simp only [isForeign, mappedBy, h, Option.any_none]

theorem isForeign_of_mapping {n : Mapping} (h : s.mapping = some n) :
    s.isForeign = n.isForeign := by
  simp only [isForeign, mappedBy, h, Option.any_some]

/-- A tree takes the mapping that is filled in as a whole, or hands it down. -/
theorem mapping_fillWith_of_unmapped (n : Mapping) (h : s.mapping = none) :
    (s.fillWith n).mapping = none ∨ (s.fillWith n).mapping = some n := by
  revert h
  fun_cases fillWith n s <;> intro h
  all_goals first
    | exact .inr rfl
    | exact .inl h

/-- A tree that is filled stays as it is stored. -/
theorem isForeign_of_fill (h : (s.fill m).isForeign = false) : s.isForeign = false := by
  cases hs : s.mapping with
  | none => exact isForeign_of_unmapped hs
  | some n =>
    cases m with
    | none => exact h
    | some k =>
      have hsame : s.fill (some k) = s := fillWith_of_mapping hs
      rwa [hsame] at h

theorem isForeign_fill (hs : s.isForeign = false)
    (hm : s.mapping = none → ∀ n, m = some n → n.isForeign = false) :
    (s.fill m).isForeign = false := by
  cases m with
  | none => exact hs
  | some k =>
    cases hmapping : s.mapping with
    | some n =>
      have hsame : s.fill (some k) = s := fillWith_of_mapping hmapping
      rwa [hsame]
    | none =>
      have hk : k.isForeign = false := hm hmapping k rfl
      rcases mapping_fillWith_of_unmapped k hmapping with h | h
      · exact isForeign_of_unmapped h
      · exact (isForeign_of_mapping h).trans hk

end Sql

namespace Builder

variable {b : Builder} {columns : ColumnLookup}

/-- The mapping of an array that is made from its item is that of a native array. -/
theorem isForeign_arrayMapping (hc : b.catalog.Hides Catalog.standard) {item array : Sql}
    (harray : array.mapping = none) {m : Mapping} (hm : b.arrayMapping item array = some m) :
    m.isForeign = false := by
  unfold arrayMapping at hm
  rw [harray, Option.none_or] at hm
  obtain ⟨e, -, hm⟩ := Option.bind_eq_some_iff.mp hm
  exact Catalog.isForeign_of_brackets hc hm

/-- Both operands of a predicate are stored as native arrays exactly if both were, where at least
one of them has a mapping. -/
theorem isForeign_postgresPredicate {x y : Sql} (h : x.mapping.isSome ∨ y.mapping.isSome)
    (op : PostgresOp) :
    (∀ c ∈ (b.postgresPredicate op x y).children, c.isForeign = false) ↔
      x.isForeign = false ∧ y.isForeign = false := by
  have hchildren : (b.postgresPredicate op x y).children =
      [x.fill (b.operandMapping x y), y.fill (b.operandMapping x y)] := rfl
  rw [hchildren, List.forall_mem_cons, List.forall_mem_singleton]
  constructor
  · rintro ⟨hx, hy⟩
    exact ⟨Sql.isForeign_of_fill hx, Sql.isForeign_of_fill hy⟩
  · rintro ⟨hx, hy⟩
    have hshared : ∀ n, b.operandMapping x y = some n → n.isForeign = false := by
      intro n hn
      unfold operandMapping at hn
      cases hmx : x.mapping with
      | some k =>
        rw [hmx, Option.some_or] at hn
        cases hn
        rwa [Sql.isForeign_of_mapping hmx] at hx
      | none =>
        cases hmy : y.mapping with
        | some k =>
          rw [hmx, hmy, Option.none_or, Option.some_or] at hn
          cases hn
          rwa [Sql.isForeign_of_mapping hmy] at hy
        | none =>
          simp only [hmx, hmy, Option.isSome_none, Bool.false_eq_true, or_self] at h
    exact ⟨Sql.isForeign_fill hx fun _ => hshared, Sql.isForeign_fill hy fun _ => hshared⟩

end Builder

/-! ## Nodes with the syntax of native arrays -/

namespace Sql

/-- If the node has the syntax of native arrays, it is used on native arrays. -/
def OnNativeArrays : Sql → Prop
  | newArray _ _ m => m.any Mapping.isForeign = false
  | subscript array _ _ _ _ => array.isForeign = false
  | call fn args _ _ => fn.name = "cardinality" → ∀ x ∈ args, x.isForeign = false
  | quantified _ _ _ array _ => array.isForeign = false
  | _ => True

/-- A node with the syntax of native arrays on something else, from a place that does not look at
how the array is stored or looks only for columns of documents and paths. -/
inductive ArrayGap (b : Builder) : Sql → Prop
  /-- A literal whose type is stored otherwise, or is not stored, so that the literal took over the
  mapping of what it stands beside. -/
  | literal {items : List Sql} {ty : Ty} {m : Mapping} : m.isForeign = true →
    b.catalog.ofTy ty = some m ∨ b.catalog.ofTy ty = none → ArrayGap b (newArray items ty (some m))
  /-- An element of what is neither a column of documents nor a path. -/
  | element {array index : Sql} {nullable : Bool} {ty : Ty} {m : Option Mapping} :
    Json.base? array = none → array.isForeign = true →
    ArrayGap b (subscript array index nullable ty m)
  /-- The length of what is neither a column of documents nor a path. -/
  | length {fn : Function} {x : Sql} {ty : Ty} {m : Option Mapping} : fn.name = "cardinality" →
    Json.base? x = none → (b.fillDefault x).isForeign = true →
    ArrayGap b (call fn [b.fillDefault x] ty m)
  /-- A match of a text with the elements as patterns. -/
  | patterns {q : Quantifier} {op : ElementOp} {item array : Sql} {m : Option Mapping} :
    op ≠ .equal → array.isForeign = true → ArrayGap b (quantified q op item array m)

/-- What is known of a node with the syntax of native arrays. A literal has the mapping of its type,
if there is one. What is measured or subscripted is neither a column of documents nor a path. A test
for an element is one of a native array. -/
def Guarded (b : Builder) : Sql → Prop
  | newArray _ ty m => b.catalog.ofTy ty = m ∨ b.catalog.ofTy ty = none
  | subscript array _ _ _ _ => Json.base? array = none
  | call fn args _ _ => fn.name = "cardinality" →
    ∃ x, Json.base? x = none ∧ args = [b.fillDefault x]
  | quantified _ op _ array _ => op = .equal → array.isForeign = false
  | _ => True

/-- The guard is about mappings that are there already, so filling in keeps it. -/
theorem Guarded.fillWith {b : Builder} {s : Sql} (h : s.Guarded b) (m : Mapping) :
    (s.fillWith m).Guarded b := by
  revert h
  fun_cases Sql.fillWith m s
  case case7 | case8 => exact fun h => .inr (h.elim id id)
  all_goals exact id

/-- Building looks at what it makes literals, elements, lengths and tests of. -/
theorem keeps_guarded {b : Builder} (hc : b.catalog.Hides Catalog.standard)
    (columns : ColumnLookup) : b.Keeps columns (Guarded b) where
  fillWith m _ h := h.fillWith m
  typedConst _ _ _ := trivial
  param _ _ _ := trivial
  column _ := trivial
  call _ _ _ hn _ := fun h => absurd (List.mem_cons_of_mem _ (List.mem_cons.mpr (.inl h))) hn
  cardinality hb _ := fun _ => ⟨_, hb, rfl⟩
  documentLength binary {_} _ _ := fun h => absurd h (by cases binary <;> decide)
  coalesce _ _ _ := fun h => absurd (show "COALESCE" = "cardinality" from h) (by decide)
  cast _ _ _ := trivial
  binary op {left right} m _ _ := by
    unfold Builder.binary
    simp only
    split <;> trivial
  unary op {x} _ := by cases op <;> trivial
  like _ _ _ _ := trivial
  regexMatch _ _ _ := trivial
  postgres op {left right} ty m _ _ := by cases ty <;> trivial
  quantified q op {item array} hnative _ _ := fun hop =>
    isForeign_fill (hnative hop) fun hunmapped _ hm =>
      Builder.isForeign_arrayMapping hc hunmapped hm
  subscript hb _ _ := hb
  newArray _ _ := .inl rfl
  row _ _ := trivial
  textPath _ _ _ := trivial
  jsonPath _ _ _ _ := trivial

variable {b : Builder} {n : Sql}

/-- A gap is used on something else than a native array. -/
theorem ArrayGap.not_onNativeArrays (h : n.ArrayGap b) : ¬ n.OnNativeArrays := by
  intro hnative
  cases h with
  | literal hm _ =>
    have hfalse := Option.any_some.symm.trans hnative
    rw [hm] at hfalse
    cases hfalse
  | element _ harray =>
    rw [show Sql.isForeign _ = false from hnative] at harray
    cases harray
  | length hname _ hx =>
    rw [hnative hname _ List.mem_cons_self] at hx
    cases hx
  | patterns _ harray =>
    rw [show Sql.isForeign _ = false from hnative] at harray
    cases harray

/-- Where it is known what has been looked at, there are no other gaps. -/
theorem onNativeArrays_iff (h : n.Guarded b) : n.OnNativeArrays ↔ ¬ n.ArrayGap b := by
  refine ⟨fun hnative hgap => hgap.not_onNativeArrays hnative, fun hgap => ?_⟩
  cases n with
  | newArray items ty m =>
    cases m with
    | none => rfl
    | some m => exact Bool.eq_false_iff.mpr fun hm => hgap (.literal hm h)
  | subscript array index nullable ty m =>
    exact Bool.eq_false_iff.mpr fun harray => hgap (.element h harray)
  | call fn args ty m =>
    intro hname
    obtain ⟨x, hbase, rfl⟩ := h hname
    exact List.forall_mem_singleton.mpr
      (Bool.eq_false_iff.mpr fun hx => hgap (.length hname hbase hx))
  | quantified q op item array m =>
    by_cases hop : op = .equal
    · exact h hop
    · exact Bool.eq_false_iff.mpr fun harray => hgap (.patterns hop harray)
  | _ => trivial

end Sql

namespace Translator

/-- Whether the tree is an element of a column that is stored as a native array. -/
def isElementOfArray : Sql → Bool
  | .subscript (.column _ _ _ (some m)) (.const _ _ _) _ _ _ => !m.isForeign
  | _ => false

/-- Whether the tree is a subscript of something else than a native array. -/
def isForeignElement : Sql → Bool
  | .subscript array _ _ _ _ => array.isForeign
  | _ => false

end Translator

end QuerySql
